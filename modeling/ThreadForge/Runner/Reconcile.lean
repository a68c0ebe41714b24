import ThreadForge.Gate.State
import ThreadForge.Runner.Recovery

/-!
# Reconciliation at startup

`AppContainer.reconcile` goes over what a crash left: it ends the active tasks, repairs or rewrites
the artifacts of the tasks that end, expires the pending approvals, and closes the open transitions
of the recovery journal. The service is ready when it returned true and no check of the control
state finds a terminal task whose artifacts say something else.

## What is a parameter

The outcome of the checks that read other stores (workspaces, sessions, devices, leases), the
redaction of the report, and the clock. Records that do not decode are not in the lists: with one of
them `reconcile` returns false.

## Main results

* `reconcileTask_iff` — when the artifacts of one task match it afterwards.
* `Persisted.reconciled_iff` — when the service is ready.
-/

namespace ThreadForge

/-- What the service keeps between two of its lives. -/
structure Persisted where
  tasks : List Task
  approvals : List Approval
  journal : List JournalRecord
  runs : RunStore

/-- What `reconcile` uses of the other modules. -/
structure ReconcileEnv where
  redact : String → String
  othersOk : Bool
  now : String

/-- `_RECONCILE_ACTIVE`. -/
def TaskStatus.reconcileActive : TaskStatus → Bool
  | .queued | .running | .waitingForApproval | .cancelRequested => true
  | .cancelled | .completed | .failed | .interrupted | .blocked => false

/-- The answer `_fail_service_restarted` writes. -/
def restartedAnswer : String := "agent run interrupted by service restart"

/-- `_set_approval_status`. -/
def setApprovalStatus (now : String) (status : ApprovalStatus) (decision : String)
    (approval : Approval) : Approval :=
  { approval with status := status, decision := some decision, decidedAt := some now }

/-! ## The loops of `reconcile` -/

/-- `_fail_service_restarted`. -/
def failServiceRestarted (env : ReconcileEnv) (runs : RunStore) (task : Task) : Task × RunStore :=
  ({ setFailedRestarted task with updatedAt := env.now },
    convergeRunArtifacts env.redact runs task .interrupted "service_restarted" restartedAnswer)

/-- One round of the loop over the tasks: the row, and the artifacts. -/
def reconcileTask (env : ReconcileEnv) (runs : RunStore) (task : Task) : Task × RunStore :=
  if task.status.reconcileActive then
    if task.executionEnvironment = "local_worker" then
      ({ setFailedRestarted task with updatedAt := env.now }, runs)
    else match terminalTaskFromRun runs task with
      | none => failServiceRestarted env runs task
      | some recovered =>
        ({ setRecoveredTerminal recovered.1 recovered.2.1 recovered.2.2 task with
            updatedAt := env.now },
          repairTerminalRunArtifacts env.redact runs task recovered)
  else if task.executionEnvironment ≠ "local_worker" ∧ task.status.terminal ∧
      !runArtifactsMatch runs task then
    (task, convergeRunArtifacts env.redact runs task task.status
      (if task.stopReason.getD "" = "" then "runtime_error" else task.stopReason.getD "")
      (task.finalAnswer.getD ""))
  else (task, runs)

/-- The loop over the tasks. Each row is written back under its own id. -/
def reconcileTasks (env : ReconcileEnv) : List Task → RunStore → List Task × RunStore
  | [], runs => ([], runs)
  | task :: rest, runs =>
    let (task', runs') := reconcileTask env runs task
    let (rest', runs'') := reconcileTasks env rest runs'
    (task' :: rest', runs'')

/-- The loop over the approvals. -/
def expirePending (now : String) (approvals : List Approval) : List Approval :=
  approvals.map fun approval =>
    if approval.status = .pending then setApprovalStatus now .expired "expired" approval
    else approval

/-- One round of the loop over the open transitions: the approval. -/
def expireTransition (now : String) (approvals : List Approval) (transition : OpenTransition) :
    List Approval :=
  approvals.map fun approval =>
    if approval.approvalId = transition.approvalId ∧
        (approval.status = .pending ∨ approval.status = .approved) then
      setApprovalStatus now .expired "service_restarted" approval
    else approval

namespace Persisted

/-- `AppContainer.reconcile`, and what it returns. -/
def reconcile (env : ReconcileEnv) (s : Persisted) : Persisted × Bool :=
  let reconciled := reconcileTasks env s.tasks s.runs
  let transitions := incomplete s.journal
  ({ tasks := reconciled.1
     approvals := transitions.foldl (expireTransition env.now) (expirePending env.now s.approvals)
     journal := s.journal ++ transitions.map fun transition => .commit transition.transitionId
     runs := reconciled.2 }, env.othersOk)

/-! ## What it is for -/

/-- Where the task is a backend task that ended, its artifacts match it. -/
def Fits (runs : RunStore) (task : Task) : Prop :=
  task.executionEnvironment ≠ "local_worker" → task.status.terminal = true →
    runArtifactsMatch runs task = true

/-- The control state a ready service has. -/
structure Ready (s : Persisted) : Prop where
  ended : ∀ task ∈ s.tasks, task.status.reconcileActive = false
  decided : ∀ approval ∈ s.approvals, approval.status ≠ .pending
  closed : incomplete s.journal = []
  artifacts : ∀ task ∈ s.tasks, Fits s.runs task

end Persisted

open Persisted

/-- Two tasks do not share a run. -/
def Apart (task other : Task) : Prop := task.runId = other.runId → task.runId = ""

/-- The report of the run says so. -/
def Reports (dir : RunDir) (status stopReason : String) : Prop :=
  ∃ report, dir.report = some report ∧ report.status = status ∧ report.stopReason = stopReason

/-- The artifacts `reconcile` leaves of an active task match what it makes of the task. A run that is
not trusted gets an answer the task does not get, and a run that stopped is left stopped. -/
def RepairsActive (redact : String → String) (runs : RunStore) (task : Task) : Prop :=
  (terminalTaskFromRun runs task = none → task.runId ≠ "" →
    (loadedState runs task).taskId = task.taskId ∧ task.finalAnswer.getD "" = restartedAnswer ∧
      redact "failed" = "failed" ∧ redact "service_restarted" = "service_restarted") ∧
  ∀ recovered, terminalTaskFromRun runs task = some recovered →
    (loadedState runs task).status = artifactStatus recovered.1 ∧
      (Reports (runs.dir task.runId) (artifactStatus recovered.1) recovered.2.1 ∨
        redact (artifactStatus recovered.1) = artifactStatus recovered.1 ∧
          redact recovered.2.1 = recovered.2.1)

/-- The artifacts `reconcile` leaves of a task that ended match it: they did, or the task has a stop
reason and the state is the task's. -/
def RepairsEnded (redact : String → String) (runs : RunStore) (task : Task) : Prop :=
  runArtifactsMatch runs task = true ∨
    (loadedState runs task).taskId = task.taskId ∧ task.stopReason.getD "" ≠ "" ∧
      redact (artifactStatus task.status) = artifactStatus task.status ∧
      redact (task.stopReason.getD "") = task.stopReason.getD ""

/-- What a crash may leave of a task so that `reconcile` can repair it. -/
def Repairable (redact : String → String) (runs : RunStore) (task : Task) : Prop :=
  task.executionEnvironment ≠ "local_worker" →
    (task.status.reconcileActive = true → RepairsActive redact runs task) ∧
      (task.status.reconcileActive = false → RepairsEnded redact runs task)

variable {env : ReconcileEnv} {runs : RunStore} {task : Task}

/-! ## One directory -/

/-- A task's artifacts are those of its run. -/
theorem runArtifactsMatch_congr {runs' : RunStore} (h : runs.dir task.runId = runs'.dir task.runId) :
    runArtifactsMatch runs task = runArtifactsMatch runs' task := by
  unfold runArtifactsMatch
  rw [h]

theorem terminalTaskFromRun_congr {runs' : RunStore}
    (h : runs.dir task.runId = runs'.dir task.runId) :
    terminalTaskFromRun runs task = terminalTaskFromRun runs' task := by
  unfold terminalTaskFromRun
  rw [h]

theorem repairable_congr {runs' : RunStore} (redact : String → String)
    (h : runs.dir task.runId = runs'.dir task.runId) :
    Repairable redact runs task ↔ Repairable redact runs' task := by
  unfold Repairable RepairsActive RepairsEnded loadedState
  rw [runArtifactsMatch_congr h, terminalTaskFromRun_congr h, h]

theorem fits_congr {runs' : RunStore} (h : runs.dir task.runId = runs'.dir task.runId) :
    Fits runs task ↔ Fits runs' task := by
  unfold Fits
  rw [runArtifactsMatch_congr h]

/-- The artifacts of other runs stay. -/
theorem convergeRunArtifacts_frame (redact : String → String) (status : TaskStatus)
    (stopReason finalAnswer : String) {runId : String} (h : runId ≠ task.runId ∨ task.runId = "") :
    (convergeRunArtifacts redact runs task status stopReason finalAnswer).dir runId =
      runs.dir runId := by
  unfold convergeRunArtifacts
  by_cases hempty : task.runId = ""
  · rw [if_pos hempty]
  · rw [if_neg hempty]
    refine RunStore.write_dir_of_ne runs _ _ ?_
    rw [show (convergedState runs task status stopReason finalAnswer).runId = task.runId from
      loadedState_runId runs task]
    exact h.resolve_right hempty

theorem repairTerminalRunArtifacts_frame (redact : String → String)
    (recovered : TaskStatus × String × String) {runId : String} (h : runId ≠ task.runId) :
    (repairTerminalRunArtifacts redact runs task recovered).dir runId = runs.dir runId := by
  unfold repairTerminalRunArtifacts
  split
  · rfl
  · split
    · split
      · exact RunStore.complete_dir_of_ne runs _ h
      · exact RunStore.complete_dir_of_ne runs _ h
    · exact RunStore.complete_dir_of_ne runs _ h

/-- What `terminal_task_from_run` reads. -/
theorem terminalTaskFromRun_some {recovered : TaskStatus × String × String}
    (h : terminalTaskFromRun runs task = some recovered) :
    task.runId ≠ "" ∧ recovered.1.terminal = true ∧
      ∃ state, (runs.dir task.runId).taskState = some state ∧ state.taskId = task.taskId ∧
        recovered.2 = (state.stopReason, state.finalAnswer) := by
  unfold terminalTaskFromRun at h
  by_cases hrun : task.runId = ""
  · rw [if_pos hrun] at h
    cases h
  rw [if_neg hrun] at h
  cases hstate : (runs.dir task.runId).taskState with
  | none => rw [hstate] at h; cases h
  | some state =>
    rw [hstate] at h
    simp only at h
    by_cases hforeign : state.runId ≠ task.runId ∨ state.taskId ≠ task.taskId ∨
        state.status = "running"
    · rw [if_pos hforeign] at h
      cases h
    rw [if_neg hforeign] at h
    have htask : state.taskId = task.taskId := not_not.mp fun hne => hforeign (Or.inr (Or.inl hne))
    have hread : recovered.1.terminal = true ∧ recovered.2 = (state.stopReason, state.finalAnswer) := by
      split at h
      · rw [← Option.some.inj h]; exact ⟨rfl, rfl⟩
      split at h
      · rw [← Option.some.inj h]; exact ⟨rfl, rfl⟩
      split at h
      · split at h
        · rw [← Option.some.inj h]; exact ⟨rfl, rfl⟩
        split at h
        · rw [← Option.some.inj h]; exact ⟨rfl, rfl⟩
        · rw [← Option.some.inj h]; exact ⟨rfl, rfl⟩
      · cases h
    exact ⟨hrun, hread.1, state, rfl, htask, hread.2⟩

theorem reconcileTask_frame {runId : String} (h : runId ≠ task.runId ∨ task.runId = "") :
    (reconcileTask env runs task).2.dir runId = runs.dir runId := by
  unfold reconcileTask
  split
  · split
    · rfl
    · split
      · exact convergeRunArtifacts_frame env.redact _ _ _ h
      · next recovered hrecovered =>
        have hrun := (terminalTaskFromRun_some hrecovered).1
        exact repairTerminalRunArtifacts_frame env.redact recovered (h.resolve_right hrun)
  · split
    · exact convergeRunArtifacts_frame env.redact _ _ _ h
    · rfl

/-! ## One task -/

theorem reconcileTask_kept :
    (reconcileTask env runs task).1.runId = task.runId ∧
      (reconcileTask env runs task).1.executionEnvironment = task.executionEnvironment := by
  unfold reconcileTask
  split
  · split
    · exact ⟨rfl, rfl⟩
    · split <;> exact ⟨rfl, rfl⟩
  · split <;> exact ⟨rfl, rfl⟩

theorem terminal_of_inactive {status : TaskStatus} (h : status.reconcileActive = false) :
    status.terminal = true := by
  cases status <;> first | rfl | cases h

theorem inactive_of_terminal {status : TaskStatus} (h : status.terminal = true) :
    status.reconcileActive = false := by
  cases status <;> first | rfl | cases h

/-- Every task has ended. -/
theorem reconcileTask_ended : (reconcileTask env runs task).1.status.reconcileActive = false := by
  unfold reconcileTask
  split
  · split
    · rfl
    · split
      · rfl
      · next recovered hrecovered =>
        exact inactive_of_terminal (terminalTaskFromRun_some hrecovered).2.1
  · next hinactive =>
    rw [Bool.not_eq_true] at hinactive
    split <;> exact hinactive

/-- When the artifacts `converge_run_artifacts` has written match a task. -/
theorem match_converged_iff {redact : String → String} {ended : Task} {status : TaskStatus}
    {stopReason finalAnswer : String} (hrun : task.runId ≠ "") (hid : ended.runId = task.runId)
    (hterminal : ended.status.terminal = true)
    (hstatus : artifactStatus ended.status = artifactStatus status) :
    runArtifactsMatch (convergeRunArtifacts redact runs task status stopReason finalAnswer) ended =
        true ↔
      (loadedState runs task).taskId = ended.taskId ∧ stopReason = ended.stopReason.getD "" ∧
        finalAnswer = ended.finalAnswer.getD "" ∧ redact (artifactStatus status) = artifactStatus status ∧
        redact stopReason = stopReason := by
  have hstate : (convergedState runs task status stopReason finalAnswer).runId = task.runId :=
    loadedState_runId runs task
  unfold runArtifactsMatch
  rw [hid, if_neg hrun, convergeRunArtifacts_dir redact runs hrun,
    expectedStatus_of_terminal hterminal, hstatus]
  simp only [RunStore.written, reportOf, hstate, beq_self_eq_true, Bool.true_and, Bool.and_true,
    Bool.and_eq_true, beq_iff_eq]
  simp only [convergedState]
  constructor
  · rintro ⟨⟨⟨⟨⟨htask, -⟩, hreason⟩, hanswer⟩, hredact⟩, hredacted⟩
    exact ⟨htask, hreason, hanswer, hredact, hredacted.trans hreason.symm⟩
  · rintro ⟨htask, hreason, hanswer, hredact, hredacted⟩
    exact ⟨⟨⟨⟨⟨htask, trivial⟩, hreason⟩, hanswer⟩, hredact⟩, hredacted.trans hreason⟩

/-- What `repair_terminal_run_artifacts` leaves of a run. -/
theorem repairTerminalRunArtifacts_dir (redact : String → String) {state : RunTaskState}
    {recovered : TaskStatus × String × String}
    (hstate : (runs.dir task.runId).taskState = some state) :
    ∃ report, (repairTerminalRunArtifacts redact runs task recovered).dir task.runId =
        RunStore.written state report ∧
      (report.status = state.status ∧ report.stopReason = recovered.2.1 ↔
        Reports (runs.dir task.runId) state.status recovered.2.1 ∨
          redact state.status = state.status ∧ redact recovered.2.1 = recovered.2.1) := by
  have hdir : ∀ report, (runs.complete task.runId report).dir task.runId =
      RunStore.written state report := by
    intro report
    rw [RunStore.complete_dir_self]
    show RunDir.mk (runs.dir task.runId).taskState (some report) true = _
    rw [hstate]
    rfl
  unfold repairTerminalRunArtifacts
  rw [hstate]
  simp only
  cases hreport : (runs.dir task.runId).report with
  | none =>
    refine ⟨reportOf redact state recovered.2.1, hdir _, Or.inr, ?_⟩
    rintro (⟨report, hfound, -⟩ | hredacted)
    · rw [hreport] at hfound; cases hfound
    · exact hredacted
  | some found =>
    simp only
    by_cases hsays : found.status = state.status ∧ found.stopReason = recovered.2.1
    · rw [if_pos hsays]
      exact ⟨found, hdir _, iff_of_true hsays (Or.inl ⟨found, hreport, hsays⟩)⟩
    · rw [if_neg hsays]
      refine ⟨reportOf redact state recovered.2.1, hdir _, Or.inr, ?_⟩
      rintro (⟨report, hfound, hreports⟩ | hredacted)
      · rw [hreport] at hfound
        rw [← Option.some.inj hfound] at hreports
        exact absurd hreports hsays
      · exact hredacted

/-- When the artifacts of a run that is read back match the task it is read into. -/
theorem match_repaired_iff {redact : String → String} {recovered : TaskStatus × String × String}
    {ended : Task} (h : terminalTaskFromRun runs task = some recovered)
    (hended : ended = { setRecoveredTerminal recovered.1 recovered.2.1 recovered.2.2 task with
      updatedAt := ended.updatedAt }) :
    runArtifactsMatch (repairTerminalRunArtifacts redact runs task recovered) ended = true ↔
      (loadedState runs task).status = artifactStatus recovered.1 ∧
        (Reports (runs.dir task.runId) (artifactStatus recovered.1) recovered.2.1 ∨
          redact (artifactStatus recovered.1) = artifactStatus recovered.1 ∧
            redact recovered.2.1 = recovered.2.1) := by
  obtain ⟨hrun, hterminal, state, hstate, htask, hread⟩ := terminalTaskFromRun_some h
  obtain ⟨report, hdir, hreports⟩ := repairTerminalRunArtifacts_dir redact hstate
  have hloaded : loadedState runs task = state := by rw [loadedState, hstate]; rfl
  have hid : ended.runId = task.runId := by rw [hended]; rfl
  have hstatus : ended.status = recovered.1 := by rw [hended]; rfl
  have hsame : ended.taskId = task.taskId := by rw [hended]; rfl
  have hreason : ended.stopReason.getD "" = recovered.2.1 := by
    rw [hended]
    exact getD_ite_empty _
  have hanswer : ended.finalAnswer.getD "" = recovered.2.2 := by
    rw [hended]
    exact getD_ite_empty _
  unfold runArtifactsMatch
  rw [hid, if_neg hrun, hdir, hstatus, expectedStatus_of_terminal hterminal, hreason, hanswer,
    hsame, hloaded]
  simp only [RunStore.written, Bool.and_true, Bool.and_eq_true, beq_iff_eq]
  constructor
  · rintro ⟨⟨⟨⟨⟨-, hartifact⟩, -⟩, -⟩, hreported⟩, hstopped⟩
    have hsays := hreports.mp ⟨hreported.trans hartifact.symm, hstopped⟩
    rw [hartifact] at hsays
    exact ⟨hartifact, hsays⟩
  · rintro ⟨hartifact, hsays⟩
    rw [← hartifact] at hsays
    obtain ⟨hreported, hstopped⟩ := hreports.mpr hsays
    exact ⟨⟨⟨⟨⟨⟨runs.keyed hstate, htask⟩, hartifact⟩, by rw [hread]⟩, by rw [hread]⟩,
      hreported.trans hartifact⟩, hstopped⟩

/-- **The artifacts of one task match it afterwards exactly where they can be repaired.** -/
theorem reconcileTask_iff :
    Fits (reconcileTask env runs task).2 (reconcileTask env runs task).1 ↔
      Repairable env.redact runs task := by
  by_cases hworker : task.executionEnvironment = "local_worker"
  · have hkept : (reconcileTask env runs task).1.executionEnvironment = task.executionEnvironment :=
      reconcileTask_kept.2
    exact iff_of_true (fun hbackend => absurd (hkept.trans hworker) hbackend)
      fun hbackend => absurd hworker hbackend
  by_cases hactive : task.status.reconcileActive = true
  · -- an active task: its run is read back, or given up
    have hgoal : Repairable env.redact runs task ↔ RepairsActive env.redact runs task := by
      constructor
      · intro h
        exact (h hworker).1 hactive
      · intro h _
        refine ⟨fun _ => h, fun hinactive => ?_⟩
        rw [hactive] at hinactive
        cases hinactive
    rw [hgoal]
    unfold reconcileTask
    rw [if_pos hactive, if_neg hworker]
    cases hread : terminalTaskFromRun runs task with
    | none =>
      simp only [failServiceRestarted]
      unfold RepairsActive
      rw [hread]
      have hinterrupted : ({ setFailedRestarted task with updatedAt := env.now } : Task).status.terminal
          = true := rfl
      by_cases hrun : task.runId = ""
      · refine iff_of_true (fun _ _ => ?_) ⟨fun _ hne => absurd hrun hne, fun _ h => ?_⟩
        · unfold runArtifactsMatch
          exact if_pos hrun
        · cases h
      · have hmatch : runArtifactsMatch (convergeRunArtifacts env.redact runs task .interrupted
            "service_restarted" restartedAnswer) { setFailedRestarted task with updatedAt := env.now } =
              true ↔
            (loadedState runs task).taskId = task.taskId ∧ "service_restarted" = "service_restarted" ∧
              restartedAnswer = task.finalAnswer.getD "" ∧ env.redact "failed" = "failed" ∧
              env.redact "service_restarted" = "service_restarted" :=
          match_converged_iff hrun rfl hinterrupted rfl
        constructor
        · intro hfits
          obtain ⟨htask, -, hanswer, hredact, hredacted⟩ := hmatch.mp (hfits hworker hinterrupted)
          exact ⟨fun _ _ => ⟨htask, hanswer.symm, hredact, hredacted⟩,
            fun _ hsome => absurd hsome.symm (Option.some_ne_none _)⟩
        · rintro ⟨hgiven, -⟩ _ _
          obtain ⟨htask, hanswer, hredact, hredacted⟩ := hgiven rfl hrun
          exact hmatch.mpr ⟨htask, rfl, hanswer.symm, hredact, hredacted⟩
    | some recovered =>
      simp only
      have hterminal := (terminalTaskFromRun_some hread).2.1
      have hmatch : runArtifactsMatch (repairTerminalRunArtifacts env.redact runs task recovered)
          { setRecoveredTerminal recovered.1 recovered.2.1 recovered.2.2 task with
            updatedAt := env.now } = true ↔ _ := match_repaired_iff hread rfl
      unfold RepairsActive
      rw [hread]
      constructor
      · intro hfits
        refine ⟨fun hnone => absurd hnone (Option.some_ne_none _), fun other hother => ?_⟩
        rw [← Option.some.inj hother]
        exact hmatch.mp (hfits hworker hterminal)
      · rintro ⟨-, hrepairs⟩ _ _
        exact hmatch.mpr (hrepairs recovered rfl)
  · -- a task that ended: its artifacts are written again where they do not match
    have hinactive := hactive
    rw [Bool.not_eq_true] at hinactive
    have hterminal := terminal_of_inactive hinactive
    have hgoal : Repairable env.redact runs task ↔ RepairsEnded env.redact runs task :=
      ⟨fun h => (h hworker).2 hinactive, fun h _ => ⟨fun h' => absurd h' hactive, fun _ => h⟩⟩
    rw [hgoal]
    unfold reconcileTask
    rw [if_neg hactive]
    by_cases hmatches : runArtifactsMatch runs task = true
    · rw [if_neg (by rw [hmatches]; simp)]
      exact iff_of_true (fun _ _ => hmatches) (Or.inl hmatches)
    · have hagain : task.executionEnvironment ≠ "local_worker" ∧ task.status.terminal = true ∧
          (!runArtifactsMatch runs task) = true := by
        rw [Bool.not_eq_true] at hmatches
        exact ⟨hworker, hterminal, by rw [hmatches]; rfl⟩
      rw [if_pos hagain]
      have hrun : task.runId ≠ "" := by
        intro hempty
        refine hmatches ?_
        unfold runArtifactsMatch
        exact if_pos hempty
      have hmatch : runArtifactsMatch (convergeRunArtifacts env.redact runs task task.status
          (if task.stopReason.getD "" = "" then "runtime_error" else task.stopReason.getD "")
          (task.finalAnswer.getD "")) task = true ↔ _ := match_converged_iff hrun rfl hterminal rfl
      unfold RepairsEnded
      constructor
      · intro hfits
        obtain ⟨htask, hreason, -, hredact, hredacted⟩ := hmatch.mp (hfits hworker hterminal)
        have hsome : task.stopReason.getD "" ≠ "" := by
          intro hempty
          rw [if_pos hempty, hempty] at hreason
          exact absurd hreason (by decide)
        rw [if_neg hsome] at hredacted
        exact Or.inr ⟨htask, hsome, hredact, hredacted⟩
      · rintro (hsame | ⟨htask, hsome, hredact, hredacted⟩) _ _
        · exact absurd hsame hmatches
        · refine hmatch.mpr ?_
          rw [if_neg hsome]
          exact ⟨htask, rfl, rfl, hredact, hredacted⟩

/-! ## The loop over the tasks -/

theorem reconcileTasks_cons (env : ReconcileEnv) (task : Task) (rest : List Task) (runs : RunStore) :
    reconcileTasks env (task :: rest) runs =
      ((reconcileTask env runs task).1 ::
          (reconcileTasks env rest (reconcileTask env runs task).2).1,
        (reconcileTasks env rest (reconcileTask env runs task).2).2) := rfl

/-- A directory that belongs to none of the tasks stays. -/
theorem reconcileTasks_frame {tasks : List Task} {runId : String}
    (h : ∀ other ∈ tasks, runId ≠ other.runId ∨ other.runId = "") :
    (reconcileTasks env tasks runs).2.dir runId = runs.dir runId := by
  induction tasks generalizing runs with
  | nil => rfl
  | cons first rest ih =>
    rw [reconcileTasks_cons]
    exact (ih fun other hother => h other (List.mem_cons_of_mem _ hother)).trans
      (reconcileTask_frame (h first List.mem_cons_self))

theorem reconcileTasks_ended {tasks : List Task} :
    ∀ ended ∈ (reconcileTasks env tasks runs).1, ended.status.reconcileActive = false := by
  induction tasks generalizing runs with
  | nil => exact fun ended hended => absurd hended List.not_mem_nil
  | cons first rest ih =>
    rw [reconcileTasks_cons]
    intro ended hended
    rcases List.mem_cons.mp hended with rfl | hrest
    · exact reconcileTask_ended
    · exact ih ended hrest

/-- The artifacts of all tasks match afterwards exactly where those of each can be repaired: what is
done for one task is in its own directory. -/
theorem reconcileTasks_iff {tasks : List Task} (hapart : tasks.Pairwise Apart) :
    (∀ ended ∈ (reconcileTasks env tasks runs).1, Fits (reconcileTasks env tasks runs).2 ended) ↔
      ∀ task ∈ tasks, Repairable env.redact runs task := by
  induction tasks generalizing runs with
  | nil => exact iff_of_true (fun _ h => absurd h List.not_mem_nil) fun _ h => absurd h List.not_mem_nil
  | cons first rest ih =>
    obtain ⟨hfirst, hrest⟩ := List.pairwise_cons.mp hapart
    have hkept : (reconcileTask env runs first).1.runId = first.runId := reconcileTask_kept.1
    have hlater : (reconcileTasks env rest (reconcileTask env runs first).2).2.dir first.runId =
        (reconcileTask env runs first).2.dir first.runId := by
      refine reconcileTasks_frame fun other hother => ?_
      by_cases hshared : first.runId = other.runId
      · exact Or.inr (hshared.symm.trans (hfirst other hother hshared))
      · exact Or.inl hshared
    have hsecond : ∀ other ∈ rest, (reconcileTask env runs first).2.dir other.runId =
        runs.dir other.runId := by
      intro other hother
      refine reconcileTask_frame ?_
      by_cases hshared : first.runId = other.runId
      · exact Or.inr (hfirst other hother hshared)
      · exact Or.inl fun hsame => hshared hsame.symm
    have hone : Fits (reconcileTasks env rest (reconcileTask env runs first).2).2
        (reconcileTask env runs first).1 ↔ Repairable env.redact runs first := by
      rw [← reconcileTask_iff]
      exact fits_congr (by rw [hkept]; exact hlater)
    rw [reconcileTasks_cons]
    simp only [List.forall_mem_cons]
    rw [hone, ih hrest]
    refine and_congr_right fun _ => forall₂_congr fun other hother => ?_
    exact repairable_congr env.redact (hsecond other hother)

/-- Where every task has ended and fits, the loop does nothing. -/
theorem reconcileTasks_settled {tasks : List Task}
    (hended : ∀ task ∈ tasks, task.status.reconcileActive = false)
    (hfits : ∀ task ∈ tasks, Fits runs task) :
    reconcileTasks env tasks runs = (tasks, runs) := by
  induction tasks with
  | nil => rfl
  | cons first rest ih =>
    have hinactive := hended first List.mem_cons_self
    have hnot : ¬(first.executionEnvironment ≠ "local_worker" ∧ first.status.terminal = true ∧
        (!runArtifactsMatch runs first) = true) := by
      rintro ⟨hbackend, hterminal, hmismatch⟩
      rw [hfits first List.mem_cons_self hbackend hterminal] at hmismatch
      cases hmismatch
    have hone : reconcileTask env runs first = (first, runs) := by
      unfold reconcileTask
      rw [if_neg (by rw [hinactive]; exact Bool.false_ne_true), if_neg hnot]
    rw [reconcileTasks_cons, hone, ih (fun task htask => hended task (List.mem_cons_of_mem _ htask))
      fun task htask => hfits task (List.mem_cons_of_mem _ htask)]

/-! ## The approvals and the journal -/

theorem expirePending_decided (now : String) (approvals : List Approval) :
    ∀ approval ∈ expirePending now approvals, approval.status ≠ .pending := by
  intro approval happroval
  obtain ⟨old, -, rfl⟩ := List.mem_map.mp happroval
  by_cases hpending : old.status = .pending
  · rw [if_pos hpending]
    intro hexpired
    cases hexpired
  · rw [if_neg hpending]
    exact hpending

theorem expireTransition_decided {now : String} {approvals : List Approval}
    {transition : OpenTransition} (h : ∀ approval ∈ approvals, approval.status ≠ .pending) :
    ∀ approval ∈ expireTransition now approvals transition, approval.status ≠ .pending := by
  intro approval happroval
  obtain ⟨old, hold, rfl⟩ := List.mem_map.mp happroval
  split
  · intro hexpired
    cases hexpired
  · exact h old hold

theorem expirePending_settled {now : String} {approvals : List Approval}
    (h : ∀ approval ∈ approvals, approval.status ≠ .pending) :
    expirePending now approvals = approvals := by
  unfold expirePending
  conv_rhs => rw [← List.map_id approvals]
  refine List.map_congr_left fun approval happroval => ?_
  rw [if_neg (h approval happroval)]
  rfl

/-- A commit of each transition of a list takes them off. -/
theorem foldl_commit (committed : List OpenTransition) (pending : List OpenTransition) :
    (committed.map fun transition => JournalRecord.commit transition.transitionId).foldl readRecord
        pending =
      pending.filter fun other => ∀ transition ∈ committed,
        other.transitionId ≠ transition.transitionId := by
  induction committed generalizing pending with
  | nil => simp
  | cons first rest ih =>
    rw [List.map_cons, List.foldl_cons, ih]
    show (pending.filter fun other => other.transitionId ≠ first.transitionId).filter _ = _
    rw [List.filter_filter]
    refine List.filter_congr fun other _ => ?_
    simp only [List.forall_mem_cons]
    rw [Bool.and_comm, ← Bool.decide_and]

theorem incomplete_committed (journal : List JournalRecord) :
    incomplete (journal ++ (incomplete journal).map fun transition =>
      JournalRecord.commit transition.transitionId) = [] := by
  unfold incomplete
  rw [List.foldl_append, foldl_commit]
  refine List.filter_eq_nil_iff.mpr fun other hother => ?_
  rw [decide_eq_true_eq]
  intro hnone
  exact hnone other hother rfl

namespace Persisted

variable {s t : Persisted}

/-- Whatever a crash left, the tasks have ended, the approvals are decided and the journal is
closed. -/
theorem reconcile_ready_iff (env : ReconcileEnv) (s : Persisted) :
    (s.reconcile env).1.Ready ↔
      ∀ ended ∈ (s.reconcile env).1.tasks, Fits (s.reconcile env).1.runs ended := by
  constructor
  · intro h
    exact h.artifacts
  · intro h
    refine ⟨reconcileTasks_ended, ?_, incomplete_committed s.journal, h⟩
    have hfold : ∀ (transitions : List OpenTransition) (approvals : List Approval),
        (∀ approval ∈ approvals, approval.status ≠ .pending) →
        ∀ approval ∈ transitions.foldl (expireTransition env.now) approvals,
          approval.status ≠ .pending := by
      intro transitions
      induction transitions with
      | nil => exact fun _ hdecided => hdecided
      | cons first rest ih =>
        exact fun approvals hdecided => ih _ (expireTransition_decided hdecided)
    exact hfold _ _ (expirePending_decided env.now s.approvals)

/-- In a ready state there is nothing to do. -/
theorem Ready.stable (h : s.Ready) (env : ReconcileEnv) : (s.reconcile env).1 = s := by
  obtain ⟨tasks, approvals, journal, runs⟩ := s
  have htasks : reconcileTasks env tasks runs = (tasks, runs) :=
    reconcileTasks_settled h.ended h.artifacts
  have hclosed : incomplete journal = [] := h.closed
  have hdecided : expirePending env.now approvals = approvals := expirePending_settled h.decided
  unfold reconcile
  simp only [htasks, hclosed, hdecided, List.foldl_nil, List.map_nil, List.append_nil]

/--
**Reconciliation reaches a ready state, and does nothing the second time, exactly where the
artifacts of every task can be repaired.**

Any mix of tasks, approvals and open transitions, and any artifacts. An active backend task has to
have a run that is read back with the artifact status of its outcome, or already the answer of an
interrupted one; a task that ended otherwise than its artifacts has to have a stop reason, and a
state that names the task.
-/
theorem reconciled_iff {env : ReconcileEnv} (hapart : s.tasks.Pairwise Apart)
    (h : s.reconcile env = (t, true)) :
    (t.Ready ∧ ∀ env', (t.reconcile env').1 = t) ↔
      ∀ task ∈ s.tasks, Repairable env.redact s.runs task := by
  have ht : t = (s.reconcile env).1 := by rw [h]
  have hready : t.Ready ↔ ∀ task ∈ s.tasks, Repairable env.redact s.runs task := by
    rw [ht, reconcile_ready_iff]
    exact reconcileTasks_iff hapart
  constructor
  · rintro ⟨hafter, -⟩
    exact hready.mp hafter
  · intro hall
    have hafter := hready.mpr hall
    exact ⟨hafter, fun env' => hafter.stable env'⟩

/-! ## Runs -/

/-- A crash that left one task and its run. -/
def crashed (task : Task) (state : RunTaskState) : Persisted :=
  { tasks := [task], approvals := [], journal := [], runs := RunnerState.storeOf state }

def sampleEnv : ReconcileEnv := { redact := id, othersOk := true, now := "t9" }

/-- A run that answered before its task was written. -/
def answeredState : RunTaskState :=
  { runId := "run_1", taskId := "task_1", status := "completed",
    stopReason := "final_answer_returned", finalAnswer := "done" }

theorem answered_repairable :
    Repairable sampleEnv.redact (RunnerState.storeOf answeredState) RunnerState.sampleTask := by
  have hread : terminalTaskFromRun (RunnerState.storeOf answeredState) RunnerState.sampleTask =
      some (.completed, "final_answer_returned", "done") := rfl
  intro _
  refine ⟨fun _ => ⟨fun hnone => ?_, fun recovered hrecovered => ?_⟩, fun hinactive => ?_⟩
  · rw [hread] at hnone
    cases hnone
  · rw [hread] at hrecovered
    rw [← Option.some.inj hrecovered]
    exact ⟨rfl, Or.inr ⟨rfl, rfl⟩⟩
  · cases hinactive

theorem reconciled_iff_answered :
    ((crashed RunnerState.sampleTask answeredState).reconcile sampleEnv).1.Ready := by
  have hapart : (crashed RunnerState.sampleTask answeredState).tasks.Pairwise Apart :=
    List.pairwise_singleton _ _
  refine ((reconciled_iff hapart rfl).mpr fun task htask => ?_).1
  rw [List.mem_singleton.mp htask]
  exact answered_repairable

/-- `reconcile` returns true, and one more check of the control state fails. -/
def StaysUnready (s : Persisted) : Prop :=
  (s.reconcile sampleEnv).2 = true ∧ ¬(s.reconcile sampleEnv).1.Ready

theorem staysUnready_of_mismatch {task : Task} {state : RunTaskState}
    (hbackend : (reconcileTask sampleEnv (RunnerState.storeOf state) task).1.executionEnvironment ≠
      "local_worker")
    (hmismatch : runArtifactsMatch (reconcileTask sampleEnv (RunnerState.storeOf state) task).2
      (reconcileTask sampleEnv (RunnerState.storeOf state) task).1 = false) :
    StaysUnready (crashed task state) := by
  refine ⟨rfl, fun hready => ?_⟩
  have hfits := hready.artifacts _ List.mem_cons_self hbackend
    (terminal_of_inactive reconcileTask_ended)
  exact absurd (hmismatch.symm.trans hfits) Bool.false_ne_true

/-- A run that was going on when the service died gets an answer that its task does not get, one
that stopped at its step limit is left stopped, and a task that ended without a stop reason gets
artifacts with one. -/
theorem reconcile_not_ready :
    StaysUnready (crashed RunnerState.sampleTask { runId := "run_1", taskId := "task_1" }) ∧
      StaysUnready (crashed RunnerState.sampleTask RunnerState.stepLimitState) ∧
      StaysUnready (crashed { RunnerState.sampleTask with status := .failed }
        { runId := "run_1", taskId := "task_1" }) := by
  refine ⟨staysUnready_of_mismatch ?_ ?_, staysUnready_of_mismatch ?_ ?_,
    staysUnready_of_mismatch ?_ ?_⟩
  · decide
  · decide
  · decide
  · decide
  · decide
  · decide

end Persisted

end ThreadForge

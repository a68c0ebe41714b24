import ThreadForge.Runner.Artifacts

/-!
# Recovery reads what the runner would have written

After a crash, `terminal_task_from_run` decides the outcome of a run from its artifacts. The runner
decides it in `_converge_terminal`. The two tables were written apart.

## Main results

* `terminalTaskFromRun_eq_iff` — the two agree exactly on the states that recovery trusts.
* `PersistedOutcome.read_back` — what the runner wrote is read back.
-/

namespace ThreadForge

open RunnerState

/-! ## The outcome of a run -/

/-- Two tasks with the same public outcome, where no text is the same as an empty one. -/
structure SameOutcome (a b : Task) : Prop where
  status : a.status = b.status
  stopReason : a.stopReason.getD "" = b.stopReason.getD ""
  finalAnswer : a.finalAnswer.getD "" = b.finalAnswer.getD ""

theorem getD_ite_empty (text : String) : (if text = "" then none else some text).getD "" = text := by
  by_cases hempty : text = ""
  · rw [if_pos hempty, hempty]
    rfl
  · rw [if_neg hempty]
    rfl

theorem sameOutcome_setTerminal {a b : Task} {status status' : TaskStatus}
    {reason reason' answer answer' : String} :
    SameOutcome (RunnerState.setTerminal status reason answer a)
        (RunnerState.setTerminal status' reason' answer' b) ↔
      (status, reason, answer) = (status', reason', answer') := by
  rw [Prod.mk.injEq, Prod.mk.injEq]
  constructor
  · intro h
    have hreason := h.stopReason
    have hanswer := h.finalAnswer
    simp only [RunnerState.setTerminal, getD_ite_empty] at hreason hanswer
    exact ⟨h.status, hreason, hanswer⟩
  · rintro ⟨rfl, rfl, rfl⟩
    exact ⟨rfl, rfl, rfl⟩

/-! ## What recovery trusts -/

/-- The states that recovery reads as the runner does. -/
def Trusted (state : RunTaskState) : Prop :=
  (state.status = "completed" ∧ state.stopReason = "final_answer_returned") ∨
    ((state.status = "stopped" ∨ state.status = "failed") ∧ state.stopReason ≠ "" ∧
      (state.stopReason = "process_cleanup_failed" → state.finalAnswer = ""))

section Tables

variable {store : RunStore} {task : Task} {state : RunTaskState}

/-- The reading of a state that belongs to the task and is not running. -/
theorem terminalTaskFromRun_of_state (hrun : task.runId ≠ "")
    (hstate : (store.dir task.runId).taskState = some state) (htask : state.taskId = task.taskId)
    (hstatus : state.status ≠ "running") :
    terminalTaskFromRun store task =
      if state.status = "completed" ∧ state.stopReason = "final_answer_returned" then
        some (.completed, state.stopReason, state.finalAnswer)
      else if state.status = "stopped" ∧ state.stopReason = "user_cancelled" then
        some (.cancelled, state.stopReason, state.finalAnswer)
      else if state.status = "stopped" ∨ state.status = "failed" then
        if state.stopReason = "service_restarted" ∨ state.stopReason = "service_shutdown_timeout" then
          some (.interrupted, state.stopReason, state.finalAnswer)
        else if state.stopReason ∈ blockedStopReasons then
          some (.blocked, state.stopReason, state.finalAnswer)
        else some (.failed, state.stopReason, state.finalAnswer)
      else none := by
  have hown : ¬(state.runId ≠ task.runId ∨ state.taskId ≠ task.taskId ∨ state.status = "running") := by
    rintro (hid | hid | hid)
    · exact hid (store.keyed hstate)
    · exact hid htask
    · exact hstatus hid
  unfold terminalTaskFromRun
  rw [if_neg hrun, hstate]
  simp only [if_neg hown]

theorem process_cleanup_failed_not_blocked : "process_cleanup_failed" ∉ blockedStopReasons := by
  decide

/-- **The two tables**: recovery gives the outcome of the runner exactly for the trusted states. -/
theorem terminalTaskFromRun_eq_iff (hrun : task.runId ≠ "")
    (hstate : (store.dir task.runId).taskState = some state) (htask : state.taskId = task.taskId)
    (hstatus : state.status ≠ "running") :
    terminalTaskFromRun store task =
        some (RunnerState.publicOutcome false true state.status state.stopReason state.finalAnswer) ↔
      Trusted state := by
  rw [terminalTaskFromRun_of_state hrun hstate htask hstatus]
  unfold RunnerState.publicOutcome Trusted
  simp only [Bool.false_eq_true, if_false, Bool.not_true, or_false]
  by_cases hcompleted : state.status = "completed" ∧ state.stopReason = "final_answer_returned"
  · obtain ⟨h1, h2⟩ := hcompleted
    simp [h1, h2]
  · rw [if_neg hcompleted, if_neg hcompleted]
    by_cases hcancelled : state.status = "stopped" ∧ state.stopReason = "user_cancelled"
    · obtain ⟨h1, h2⟩ := hcancelled
      simp [h1, h2]
    · rw [if_neg hcancelled, if_neg hcancelled]
      by_cases hended : state.status = "stopped" ∨ state.status = "failed"
      · rw [if_pos hended]
        by_cases hempty : state.stopReason = ""
        · -- the runner names an error, recovery none
          simp [hempty, blockedStopReasons]
        · simp only [hempty, if_false, hcompleted, hended, false_or, true_and, ne_eq,
            not_false_eq_true]
          by_cases hservice : state.stopReason = "service_restarted" ∨
              state.stopReason = "service_shutdown_timeout"
          · rw [if_pos hservice, if_pos hservice]
            rcases hservice with hreason | hreason <;> simp [hreason]
          · rw [if_neg hservice, if_neg hservice]
            by_cases hblocked : state.stopReason ∈ blockedStopReasons
            · rw [if_pos hblocked, if_pos hblocked]
              have hclean : state.stopReason ≠ "process_cleanup_failed" := fun hreason =>
                process_cleanup_failed_not_blocked (hreason ▸ hblocked)
              simp [hclean]
            · rw [if_neg hblocked, if_neg hblocked]
              by_cases hclean : state.stopReason = "process_cleanup_failed"
              · simp [hclean]
              · simp [hclean]
      · rw [if_neg hended]
        simp [hcompleted, hended]

end Tables

/-! ## Before the runner persists -/

namespace RunnerState

/-- The last two steps of a run whose gate is open. -/
theorem persist_converge {r : RunnerState} (hgate : r.gate.closed = false)
    (hgeneration : r.task.generation = r.gate.generation) (status stopReason finalAnswer now : String) :
    ∃ r', (r.converge true status stopReason finalAnswer).persist now = some r' ∧
      ∃ time, r'.task = { RunnerState.setTerminal
        (RunnerState.publicOutcome r.tokenCancelled true status stopReason finalAnswer).1
        (RunnerState.publicOutcome r.tokenCancelled true status stopReason finalAnswer).2.1
        (RunnerState.publicOutcome r.tokenCancelled true status stopReason finalAnswer).2.2 r.task with
          updatedAt := time } := by
  simp [converge, persist, persistTerminal, hgate, update, hgeneration, write]

end RunnerState

/-! ## After the runner has persisted -/

/-- The outcomes with which `_persist_terminal` is called. -/
inductive PersistedOutcome : TaskStatus → String → String → Prop
  /-- The run was cancelled before it started, or while its adapter was built. -/
  | cancelled : PersistedOutcome .cancelled "user_cancelled" ""
  /-- `RUNNING` could not be written. -/
  | notStarted : PersistedOutcome .failed "persistence_error" ""
  /-- The adapter could not be built. -/
  | notBuilt (sandboxError : Bool) : PersistedOutcome .failed
      (if sandboxError then "sandbox_unavailable" else "task_runner_unavailable") ""
  /-- `_converge_terminal`. -/
  | converged (cancelled cleanupSucceeded : Bool) (status stopReason finalAnswer : String) :
      PersistedOutcome
        (RunnerState.publicOutcome cancelled cleanupSucceeded status stopReason finalAnswer).1
        (RunnerState.publicOutcome cancelled cleanupSucceeded status stopReason finalAnswer).2.1
        (RunnerState.publicOutcome cancelled cleanupSucceeded status stopReason finalAnswer).2.2

/-- An outcome whose status can be told from its stop reason. -/
structure Telling (status : TaskStatus) (stopReason : String) : Prop where
  terminal : status.terminal = true
  completed : status = .completed → stopReason = "final_answer_returned"
  cancelled : status = .cancelled → stopReason = "user_cancelled"
  interrupted : status = .interrupted ↔ status ≠ .completed ∧ status ≠ .cancelled ∧
    (stopReason = "service_restarted" ∨ stopReason = "service_shutdown_timeout")
  blocked : status = .blocked ↔
    status ≠ .completed ∧ status ≠ .cancelled ∧ stopReason ∈ blockedStopReasons

theorem telling_publicOutcome (cancelled cleanupSucceeded : Bool)
    (status stopReason finalAnswer : String) :
    Telling (RunnerState.publicOutcome cancelled cleanupSucceeded status stopReason finalAnswer).1
      (RunnerState.publicOutcome cancelled cleanupSucceeded status stopReason finalAnswer).2.1 := by
  have hfailed : Telling .failed "process_cleanup_failed" := by
    refine ⟨rfl, ?_, ?_, ?_, ?_⟩ <;> decide
  have hcancelled : Telling .cancelled "user_cancelled" := by
    refine ⟨rfl, ?_, ?_, ?_, ?_⟩ <;> decide
  have hanswered : Telling .completed "final_answer_returned" := by
    refine ⟨rfl, ?_, ?_, ?_, ?_⟩ <;> decide
  have hcleanup : ∀ outcome : TaskStatus × String × String, Telling outcome.1 outcome.2.1 →
      ∀ p : Prop, [Decidable p] → Telling
        (if p then (TaskStatus.failed, "process_cleanup_failed", "") else outcome).1
        (if p then (TaskStatus.failed, "process_cleanup_failed", "") else outcome).2.1 := by
    intro outcome houtcome p _
    by_cases hp : p
    · rw [if_pos hp]
      exact hfailed
    · rw [if_neg hp]
      exact houtcome
  unfold RunnerState.publicOutcome
  simp only
  refine hcleanup _ ?_ _
  by_cases htoken : cancelled = true
  · rw [if_pos htoken]
    exact hcancelled
  · rw [if_neg htoken]
    by_cases hcompleted : status = "completed" ∧ stopReason = "final_answer_returned"
    · rw [if_pos hcompleted, hcompleted.2]
      exact hanswered
    · rw [if_neg hcompleted]
      by_cases hstopped : status = "stopped" ∧ stopReason = "user_cancelled"
      · rw [if_pos hstopped, hstopped.2]
        exact hcancelled
      · rw [if_neg hstopped]
        generalize (if stopReason = "" then "runtime_error" else stopReason) = reason
        by_cases hservice : reason = "service_restarted" ∨ reason = "service_shutdown_timeout"
        · rw [if_pos hservice]
          refine ⟨rfl, nofun, nofun, by simp [hservice], ?_⟩
          rcases hservice with hreason | hreason <;> simp [hreason, blockedStopReasons]
        · rw [if_neg hservice]
          by_cases hblocked : reason ∈ blockedStopReasons
          · rw [if_pos hblocked]
            exact ⟨rfl, nofun, nofun, by simp [hservice], by simp [hblocked]⟩
          · rw [if_neg hblocked]
            exact ⟨rfl, nofun, nofun, by simp [hservice], by simp [hblocked]⟩

theorem PersistedOutcome.telling {status : TaskStatus} {stopReason finalAnswer : String}
    (h : PersistedOutcome status stopReason finalAnswer) : Telling status stopReason := by
  cases h with
  | cancelled => refine ⟨rfl, ?_, ?_, ?_, ?_⟩ <;> decide
  | notStarted => refine ⟨rfl, ?_, ?_, ?_, ?_⟩ <;> decide
  | notBuilt sandboxError =>
    cases sandboxError <;> refine ⟨rfl, ?_, ?_, ?_, ?_⟩ <;> decide
  | converged cancelled cleanupSucceeded status stopReason finalAnswer =>
    exact telling_publicOutcome cancelled cleanupSucceeded status stopReason finalAnswer

/-- The artifacts of a task's run are its own, where there are any. -/
def OwnRun (store : RunStore) (task : Task) : Prop :=
  ∀ state, (store.dir task.runId).taskState = some state → state.taskId = task.taskId

theorem loadedState_taskId {store : RunStore} {task : Task} (h : OwnRun store task) :
    (loadedState store task).taskId = task.taskId := by
  unfold loadedState
  cases hstate : (store.dir task.runId).taskState with
  | none => rfl
  | some state => exact h state hstate

theorem artifactStatus_ne_running (status : TaskStatus) : artifactStatus status ≠ "running" := by
  cases status <;> decide

/-- What `converge_run_artifacts` leaves of a run. -/
theorem convergeRunArtifacts_dir (redact : String → String) (store : RunStore) {task : Task}
    (hrun : task.runId ≠ "") (status : TaskStatus) (stopReason finalAnswer : String) :
    (convergeRunArtifacts redact store task status stopReason finalAnswer).dir task.runId =
      RunStore.written (convergedState store task status stopReason finalAnswer)
        (reportOf redact (convergedState store task status stopReason finalAnswer) stopReason) := by
  have hid : (convergedState store task status stopReason finalAnswer).runId = task.runId :=
    loadedState_runId store task
  rw [convergeRunArtifacts, if_neg hrun]
  simp only
  rw [← hid]
  exact RunStore.write_dir_self store _ _

/-- **What the runner wrote is read back.** -/
theorem PersistedOutcome.read_back {status : TaskStatus} {stopReason finalAnswer : String}
    (h : PersistedOutcome status stopReason finalAnswer) (redact : String → String)
    {store : RunStore} {task : Task} (hrun : task.runId ≠ "") (hown : OwnRun store task) :
    terminalTaskFromRun (convergeRunArtifacts redact store task status stopReason finalAnswer) task =
      some (status, stopReason, finalAnswer) := by
  obtain ⟨hterminal, hcompleted, hcancelled, hinterrupted, hblocked⟩ := h.telling
  have hstate : ((convergeRunArtifacts redact store task status stopReason finalAnswer).dir
      task.runId).taskState = some (convergedState store task status stopReason finalAnswer) := by
    rw [convergeRunArtifacts_dir redact store hrun]
    rfl
  rw [terminalTaskFromRun_of_state hrun hstate (loadedState_taskId hown)
    (artifactStatus_ne_running status)]
  simp only [convergedState]
  cases status with
  | completed => simp [artifactStatus, hcompleted rfl]
  | cancelled => simp [artifactStatus, hcancelled rfl]
  | interrupted =>
    have hreason := (hinterrupted.mp rfl).2.2
    rcases hreason with hreason | hreason <;> simp [artifactStatus, hreason]
  | blocked =>
    have hmem := (hblocked.mp rfl).2.2
    have hservice : ¬(stopReason = "service_restarted" ∨ stopReason = "service_shutdown_timeout") :=
      fun hreason => nomatch hinterrupted.mpr ⟨nofun, nofun, hreason⟩
    simp [artifactStatus, hservice, hmem]
  | failed =>
    have hservice : ¬(stopReason = "service_restarted" ∨ stopReason = "service_shutdown_timeout") :=
      fun hreason => nomatch hinterrupted.mpr ⟨nofun, nofun, hreason⟩
    have hmem : stopReason ∉ blockedStopReasons :=
      fun hmem => nomatch hblocked.mpr ⟨nofun, nofun, hmem⟩
    simp [artifactStatus, hservice, hmem]
  | queued => cases hterminal
  | running => cases hterminal
  | waitingForApproval => cases hterminal
  | cancelRequested => cases hterminal

/-! ## The law -/

namespace RunnerState

/-- **Crash recovery classifies a run as the live runner would** exactly for the trusted states; and
what the runner has persisted is always read back. -/
theorem recovered_iff {r : RunnerState} {store : RunStore} {state : RunTaskState}
    (htoken : r.tokenCancelled = false) (hgate : r.gate.closed = false)
    (hgeneration : r.task.generation = r.gate.generation) (hrun : r.task.runId ≠ "")
    (hstate : (store.dir r.task.runId).taskState = some state)
    (htask : state.taskId = r.task.taskId) (hstatus : state.status ≠ "running") (now : String) :
    (∃ r', (r.converge true state.status state.stopReason state.finalAnswer).persist now = some r' ∧
      ((∃ status stopReason finalAnswer,
          terminalTaskFromRun store r.task = some (status, stopReason, finalAnswer) ∧
          SameOutcome (setRecoveredTerminal status stopReason finalAnswer r.task) r'.task) ↔
        Trusted state)) ∧
      ∀ (redact : String → String) (store : RunStore) (task : Task) (status : TaskStatus)
        (stopReason finalAnswer : String), task.runId ≠ "" → OwnRun store task →
        PersistedOutcome status stopReason finalAnswer →
        terminalTaskFromRun (convergeRunArtifacts redact store task status stopReason finalAnswer)
          task = some (status, stopReason, finalAnswer) := by
  refine ⟨?_, fun redact store task status stopReason finalAnswer hrun hown h =>
    h.read_back redact hrun hown⟩
  obtain ⟨r', hpersist, time, htask'⟩ := persist_converge hgate hgeneration state.status
    state.stopReason state.finalAnswer now
  refine ⟨r', hpersist, ?_⟩
  rw [htoken] at htask'
  rw [← terminalTaskFromRun_eq_iff hrun hstate htask hstatus]
  constructor
  · rintro ⟨status, stopReason, finalAnswer, hread, hsame⟩
    rw [hread]
    rw [htask'] at hsame
    have hsame' : SameOutcome (setRecoveredTerminal status stopReason finalAnswer r.task)
        (RunnerState.setTerminal _ _ _ r.task) := ⟨hsame.status, hsame.stopReason, hsame.finalAnswer⟩
    exact congrArg some (sameOutcome_setTerminal.mp hsame')
  · intro hread
    refine ⟨_, _, _, hread, ?_⟩
    rw [htask']
    exact ⟨rfl, rfl, rfl⟩

/-- A run that was started as `task`. -/
def runOf (task : Task) : RunnerState := { task := task, runner := .running }

/-- The task of the run `run_1`. -/
def sampleTask : Task where
  taskId := "task_1"
  sessionId := "s1"
  workspaceId := "w1"
  ownerId := "o1"
  runId := "run_1"
  input := "x"
  status := .running
  createdAt := "t0"
  updatedAt := "t0"

/-- The store that holds one state. -/
def storeOf (state : RunTaskState) : RunStore :=
  RunStore.write ⟨fun _ => {}, nofun⟩ state ⟨state.status, state.stopReason⟩

/-- A run that stopped at its step limit. -/
def stepLimitState : RunTaskState :=
  { runId := "run_1", taskId := "task_1", status := "stopped", stopReason := "step_limit_reached" }

theorem recovered_iff_stepLimit :
    Trusted stepLimitState ∧ ∃ r', ((runOf sampleTask).converge true "stopped" "step_limit_reached"
        "").persist "t1" = some r' ∧
      ∃ status stopReason finalAnswer,
        terminalTaskFromRun (storeOf stepLimitState) sampleTask =
          some (status, stopReason, finalAnswer) ∧
        SameOutcome (setRecoveredTerminal status stopReason finalAnswer sampleTask) r'.task := by
  have htrusted : Trusted stepLimitState := Or.inr ⟨Or.inl rfl, by decide, by decide⟩
  have hstate : ((storeOf stepLimitState).dir (runOf sampleTask).task.runId).taskState =
      some stepLimitState := rfl
  obtain ⟨⟨r', hpersist, hiff⟩, -⟩ :=
    recovered_iff rfl rfl rfl (by decide) hstate rfl (by decide) "t1"
  exact ⟨htrusted, r', hpersist, hiff.mpr htrusted⟩

/-- A run that failed without a stop reason. -/
def reasonlessState : RunTaskState :=
  { runId := "run_1", taskId := "task_1", status := "failed" }

/-- The runner persists `runtime_error` for it, recovery no reason at all. A run that completed for
another reason than its answer is not read back. -/
theorem recovered_reasonless :
    ((runOf sampleTask).converge true "failed" "" "").persist "t1" = some { runOf
        { sampleTask with
          status := .failed, stopReason := some "runtime_error", updatedAt := "t1" } with
        runner := .persisted, writes := [(.worker, .failed)] } ∧
      terminalTaskFromRun (storeOf reasonlessState) sampleTask = some (.failed, "", "") ∧
      terminalTaskFromRun (storeOf { reasonlessState with
        status := "completed", stopReason := "delegate_failed" }) sampleTask = none := by
  refine ⟨rfl, rfl, rfl⟩

end RunnerState

end ThreadForge

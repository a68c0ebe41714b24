import ThreadForge.Isolation.Adapter
import ThreadForge.Runner.System

/-!
# Whose changes reach the workspace

`NativeRuntimeAdapter.run` decides from the runtime's own status whether `finalize` copies the
changes of a run back. `_converge_terminal` decides afterwards, from the token, the stop reason and
the process cleanup, which status the task gets. Here the two are steps of one run, among the
steps of `cancel` and `shutdown`.

## Main results

* `RunnerState.next_change` — what a step around a run does to the stored status.
* `RunnerState.publicOutcome_completed` — when the public outcome is `COMPLETED`.
* `AppliedState.applied_completed_iff` — when only a completed run changes the workspace.
-/

namespace ThreadForge

open Transition

/-! ## The stored status -/

/-- The runner thread is done with the outcome. -/
def RunnerPhase.past : RunnerPhase → Bool
  | .persisted | .closed | .ended => true
  | .registered | .initialising | .running | .terminating .. => false

/-- The runner thread has not reached `adapter.run`. -/
def RunnerPhase.early : RunnerPhase → Bool
  | .registered | .initialising => true
  | .running | .terminating .. | .persisted | .closed | .ended => false

namespace RunnerState

variable {s s' : RunnerState} {action : RunnerAction}

/-- The step wrote one status, the last of the list. -/
structure Wrote (s s' : RunnerState) (writer : Writer) (status : TaskStatus) : Prop where
  stored : s'.task.status = status
  writes : s'.writes = s.writes ++ [(writer, status)]

/-- What a step does to the stored status: nothing, a status that is not terminal, the status of
`shutdown`, or the outcome of the runner. -/
inductive Change (s s' : RunnerState) : RunnerAction → Prop
  | none {action : RunnerAction} : s'.task.status = s.task.status → s'.writes = s.writes →
      Change s s' action
  | live {action : RunnerAction} {writer : Writer} (status : TaskStatus) :
      status.terminal = false → s.Wrote s' writer status →
      s.runner.past = false ∨ s.task.status.terminal = false → Change s s' action
  | interrupt {now : String} : s.Wrote s' .shutdown .interrupted →
      s'.runner = s.runner → Change s s' (.shutdownWrite now)
  | outcome {action : RunnerAction} : s'.runner.past = true →
      s.runner = .registered ∨ (∃ now, action = .persist now) → Change s s' action

theorem cancel_change (h : s.Shape) (stored : Bool) (now : String) :
    s.Change (s.cancel stored now) (.cancel stored now) := by
  unfold cancel
  split
  · exact Change.none rfl rfl
  next hlive =>
  rw [h.update_fenced]
  by_cases hclosed : s.gate.closed = true
  · rw [if_pos hclosed]
    exact Change.none rfl rfl
  · rw [if_neg hclosed]
    rw [not_or] at hlive
    exact Change.live .cancelRequested rfl ⟨rfl, rfl⟩
      (Or.inr (Bool.not_eq_true _ ▸ hlive.1))

theorem workerStart_change (h : s.Shape) (hrunner : s.runner = .registered)
    (stored failedStored : Bool) (now : String) :
    s.Change (s.workerStart stored failedStored now) (.workerStart stored failedStored now) := by
  have hpast : s.runner.past = false := by rw [hrunner]; rfl
  unfold workerStart
  split
  · rw [h.persistTerminal_eq]
    by_cases hclosed : s.gate.closed = true
    · rw [if_pos hclosed]
      exact Change.none rfl rfl
    · rw [if_neg hclosed]
      exact Change.outcome rfl (Or.inl hrunner)
  · split
    · rw [h.update_fenced]
      by_cases hclosed : s.gate.closed = true
      · rw [if_pos hclosed]
        exact Change.none rfl rfl
      · rw [if_neg hclosed]
        exact Change.live .running rfl ⟨rfl, rfl⟩ (Or.inl hpast)
    · rw [h.persistTerminal_eq]
      by_cases hclosed : s.gate.closed = true
      · rw [if_pos hclosed]
        exact Change.none rfl rfl
      · rw [if_neg hclosed]
        show s.Change (if failedStored then _ else _) _
        split
        · exact Change.outcome rfl (Or.inl hrunner)
        · exact Change.none rfl rfl

/-- **What a step around a run does to the stored status.** -/
theorem next_change (h : s.Shape) (hstep : s.next action = some s') : s.Change s' action := by
  cases action with
  | workerStart stored failedStored now =>
    simp only [next] at hstep
    split at hstep
    · next hrunner =>
      rw [← Option.some.inj hstep]
      exact workerStart_change h hrunner stored failedStored now
    · cases hstep
  | requestApproval pending now =>
    simp only [next] at hstep
    split at hstep
    · next hrunner =>
      have hpast : s.runner.past = false := by rw [hrunner]; rfl
      rw [← Option.some.inj hstep, requestApproval, h.update_fenced]
      split
      · exact Change.none rfl rfl
      by_cases hclosed : s.gate.closed = true
      · rw [if_pos hclosed]
        exact Change.none rfl rfl
      · rw [if_neg hclosed]
        exact Change.live .waitingForApproval rfl ⟨rfl, rfl⟩ (Or.inl hpast)
    · cases hstep
  | resolveApproval now =>
    simp only [next] at hstep
    split at hstep
    · next hrunner =>
      have hpast : s.runner.past = false := by rw [hrunner]; rfl
      rw [← Option.some.inj hstep, resolveApproval, h.update_fenced]
      split
      · exact Change.none rfl rfl
      by_cases hclosed : s.gate.closed = true
      · rw [if_pos hclosed]
        exact Change.none rfl rfl
      · rw [if_neg hclosed]
        exact Change.live .running rfl ⟨rfl, rfl⟩ (Or.inl hpast)
    · cases hstep
  | persist now =>
    simp only [next, persist] at hstep
    split at hstep
    · rw [h.persistTerminal_eq] at hstep
      by_cases hclosed : s.gate.closed = true
      · rw [if_pos hclosed] at hstep
        rw [← Option.some.inj hstep]
        exact Change.none rfl rfl
      · rw [if_neg hclosed] at hstep
        rw [← Option.some.inj hstep]
        exact Change.outcome rfl (Or.inr ⟨now, rfl⟩)
    · cases hstep
  | cancel stored now =>
    rw [← Option.some.inj hstep]
    exact cancel_change h stored now
  | shutdownCancel stored now =>
    simp only [next] at hstep
    split at hstep
    · split at hstep
      · rw [← Option.some.inj hstep]
        cases cancel_change h stored now with
        | none hstatus hwrites => exact Change.none hstatus hwrites
        | live _ hlive hwrote hmay =>
          exact Change.live _ hlive ⟨hwrote.stored, hwrote.writes⟩ hmay
        | outcome hpast hby =>
          rcases hby with hrunner | ⟨_, hnow⟩
          · exact Change.outcome hpast (Or.inl hrunner)
          · cases hnow
      · rw [← Option.some.inj hstep]
        exact Change.none rfl rfl
    · cases hstep
  | shutdownWrite now =>
    simp only [next] at hstep
    split at hstep
    · rw [← Option.some.inj hstep]
      exact Change.interrupt ⟨rfl, rfl⟩ rfl
    · cases hstep
  | initDone | initFailed | converge | closeGate | release | shutdownFind | shutdownClose |
    shutdownRelease =>
    simp only [next] at hstep
    split at hstep
    · rw [← Option.some.inj hstep]
      exact Change.none rfl rfl
    · cases hstep

/-! ## The phases of the runner thread -/

/-- What a step can make of the runner's phase, once it is inside `adapter.run` or after it. -/
inductive PhaseChange (s s' : RunnerState) : RunnerAction → Prop
  | same {action : RunnerAction} : s'.runner = s.runner → PhaseChange s s' action
  | early {action : RunnerAction} : s.runner.early = true → PhaseChange s s' action
  | decide {cleanupSucceeded : Bool} {status stopReason finalAnswer : String} :
      s.runner = .running →
      PhaseChange s s' (.converge cleanupSucceeded status stopReason finalAnswer)
  | settle {now : String} {status : TaskStatus} {stopReason finalAnswer : String} :
      s.runner = .terminating status stopReason finalAnswer → s'.runner.past = true →
      PhaseChange s s' (.persist now)
  | leave {action : RunnerAction} : s.runner.past = true → s.runner ≠ .ended →
      s'.runner.past = true → PhaseChange s s' action

theorem cancel_runner (s : RunnerState) (stored : Bool) (now : String) :
    (s.cancel stored now).runner = s.runner := by
  unfold cancel
  split
  · rfl
  · unfold update
    split
    · next hupdate =>
      split at hupdate
      · cases hupdate
      · rw [← Option.some.inj hupdate]
        rfl
    · rfl

theorem update_runner {writer : Writer} {expected : Option Int} {now : String}
    {fn : Task → Task} (h : s.update writer expected now fn = some s') : s'.runner = s.runner := by
  unfold update at h
  split at h
  · cases h
  · rw [← Option.some.inj h]
    rfl

theorem requestApproval_runner (s : RunnerState) (pending : PyDict) (now : String) :
    (s.requestApproval pending now).runner = s.runner := by
  unfold requestApproval
  split
  · rfl
  · split
    · next hupdate => exact update_runner hupdate
    · rfl

theorem resolveApproval_runner (s : RunnerState) (now : String) :
    (s.resolveApproval now).runner = s.runner := by
  unfold resolveApproval
  split
  · rfl
  · split
    · next hupdate => exact update_runner hupdate
    · rfl

theorem shutdownWrite_runner (s : RunnerState) (now : String) :
    (s.shutdownWrite now).runner = s.runner := by
  unfold shutdownWrite
  split
  · next written hupdate =>
    show written.runner = s.runner
    exact update_runner hupdate
  · rfl

/-- **What a step around a run does to the phase of the runner thread.** -/
theorem next_phase (hstep : s.next action = some s') : s.PhaseChange s' action := by
  cases action with
  | workerStart | initDone | initFailed =>
    simp only [next] at hstep
    split at hstep
    · next hrunner => exact PhaseChange.early (by rw [hrunner]; rfl)
    · cases hstep
  | requestApproval pending now =>
    simp only [next] at hstep
    split at hstep
    · rw [← Option.some.inj hstep]
      exact PhaseChange.same (requestApproval_runner s pending now)
    · cases hstep
  | resolveApproval now =>
    simp only [next] at hstep
    split at hstep
    · rw [← Option.some.inj hstep]
      exact PhaseChange.same (resolveApproval_runner s now)
    · cases hstep
  | converge =>
    simp only [next] at hstep
    split at hstep
    · next hrunner => exact PhaseChange.decide hrunner
    · cases hstep
  | persist now =>
    simp only [next, persist] at hstep
    split at hstep
    · next hrunner =>
      refine PhaseChange.settle hrunner ?_
      split at hstep
      · rw [← Option.some.inj hstep]
        rfl
      · rw [← Option.some.inj hstep]
        rfl
    · cases hstep
  | closeGate | release =>
    simp only [next] at hstep
    split at hstep
    · next hrunner =>
      refine PhaseChange.leave (by rw [hrunner]; rfl) (by rw [hrunner]; decide) ?_
      rw [← Option.some.inj hstep]
      rfl
    · cases hstep
  | cancel stored now =>
    rw [← Option.some.inj hstep]
    exact PhaseChange.same (cancel_runner s stored now)
  | shutdownCancel stored now =>
    simp only [next] at hstep
    split at hstep
    · split at hstep
      · rw [← Option.some.inj hstep]
        exact PhaseChange.same (cancel_runner s stored now)
      · rw [← Option.some.inj hstep]
        exact PhaseChange.same rfl
    · cases hstep
  | shutdownWrite now =>
    simp only [next] at hstep
    split at hstep
    · rw [← Option.some.inj hstep]
      exact PhaseChange.same (shutdownWrite_runner s now)
    · cases hstep
  | shutdownFind | shutdownClose | shutdownRelease =>
    simp only [next] at hstep
    split at hstep
    · rw [← Option.some.inj hstep]
      exact PhaseChange.same rfl
    · cases hstep

/-- **When the public outcome of a run is `COMPLETED`.** -/
theorem publicOutcome_completed {cancelled cleanupSucceeded : Bool}
    {status stopReason finalAnswer : String} :
    (publicOutcome cancelled cleanupSucceeded status stopReason finalAnswer).1 = .completed ↔
      cancelled = false ∧ cleanupSucceeded = true ∧ status = "completed" ∧
        stopReason = "final_answer_returned" := by
  constructor
  · intro h
    by_cases hcompleted : status = "completed" ∧ stopReason = "final_answer_returned"
    · cases cancelled <;> cases cleanupSucceeded
      all_goals simp [publicOutcome, hcompleted] at h
      exact ⟨rfl, rfl, hcompleted⟩
    · simp only [publicOutcome, if_neg hcompleted] at h
      repeat' split at h
      all_goals cases h
  · rintro ⟨rfl, rfl, rfl, rfl⟩
    simp [publicOutcome]

end RunnerState

/-! ## A run of the adapter among the other threads -/

/-- What `_converge_terminal` finds in the runtime's task state: empty where there is none. -/
structure PicoOutcome where
  status : String := ""
  stopReason : String := ""
  finalAnswer : String := ""
  deriving DecidableEq, Repr

/-- The threads around a run, and what the adapter of the run works on. -/
structure AppliedState where
  runner : RunnerState
  isolation : IsolationState
  /-- The runner has a `WorkspaceIsolation`. -/
  isolated : Bool := true
  handle : Option IsolationHandle := none
  /-- What `adapter.run` left of the runtime, once it is over. -/
  outcome : Option PicoOutcome := none
  /-- The workspace as `finalize` found it and as it left it. -/
  finalized : Option (PlainTree × PlainTree) := none
  /-- What `_converge_terminal` read of the token and of the process cleanup. -/
  decided : Option (Bool × Bool) := none

/-- One step of the threads around a run, with the steps of its adapter. -/
inductive AppliedAction
  | runner (action : RunnerAction)
  | prepare (faults : AdapterFaults) (run : AdapterRun) (expiresAt now : String)
  | execute (faults : AdapterFaults) (native : NativeRun)
  | converge (cleanupSucceeded : Bool)

namespace AppliedState

open RunnerState

variable (sha256 : List UInt8 → String)

/-- The state `run_native` leaves the two trees in. -/
def ran (s : AppliedState) (native : NativeRun) : IsolationState :=
  { s.isolation with snapshot := native.snapshot, workspace := native.workspace }

/-- What the runtime's task state says after `run_native`. -/
def outcomeOf (native : NativeRun) : PicoOutcome where
  status := native.status
  stopReason := native.stopReason
  finalAnswer := native.finalAnswer

/-- The rest of `adapter.run` after `prepare`: the context and `Pico` are built, the runtime runs,
and `finalize` ends it, whether `run_native` raised or not. -/
def execute (faults : AdapterFaults) (native : NativeRun) (s : AppliedState) : AppliedState :=
  if faults.raises .buildContext ∨ faults.raises .buildPico then { s with outcome := some {} }
  else
    match s.handle with
    | none => { s with isolation := s.ran native, outcome := some (outcomeOf native) }
    | some handle =>
      let ended := ((s.ran native).finalize sha256 faults handle (native.status = "completed")).1
      { s with
        isolation := ended
        outcome := some (outcomeOf native)
        finalized := some (native.workspace, ended.workspace) }

/-- The runner's own steps. Approvals are asked for inside `run_native`, and `_converge_terminal` is
a step of its own here. -/
def mayTake (s : AppliedState) : RunnerAction → Bool
  | .requestApproval .. | .resolveApproval .. => s.outcome.isNone
  | .converge .. => false
  | _ => true

/-- The state after a step, where the step can be taken. -/
def next (s : AppliedState) : AppliedAction → Option AppliedState
  | .runner action =>
    if s.mayTake action then (s.runner.next action).map fun runner => { s with runner := runner }
    else none
  | .prepare faults run expiresAt now =>
    if s.runner.runner = .running ∧ s.isolated ∧ s.handle.isNone ∧ s.outcome.isNone then
      match s.isolation.prepare sha256 faults run expiresAt now with
      | (prepared, none) => some { s with isolation := prepared, outcome := some {} }
      | (prepared, some handle) => some { s with isolation := prepared, handle := some handle }
    else none
  | .execute faults native =>
    if s.runner.runner = .running ∧ s.handle.isSome = s.isolated ∧ s.outcome.isNone then
      some (s.execute sha256 faults native)
    else none
  | .converge cleanupSucceeded =>
    match s.outcome with
    | some outcome =>
      (s.runner.next (.converge cleanupSucceeded outcome.status outcome.stopReason
        outcome.finalAnswer)).map fun runner =>
          { s with
            runner := runner
            decided := some (s.runner.tokenCancelled, cleanupSucceeded) }
    | none => none

/-- The steps of a run as a transition system. -/
abbrev AppliedStep (s : AppliedState) (action : AppliedAction) (t : AppliedState) : Prop :=
  s.next sha256 action = some t

/-! ## The law and its guard -/

/-- `finalize` made, changed or removed a file. -/
def Touched : Option (PlainTree × PlainTree) → Prop
  | none => False
  | some (before, after) => ∃ path, after.content? path ≠ before.content? path

/-- **Only a completed run changes the workspace**: once `finalize` changed a file, every terminal
status persisted is `COMPLETED`, and the runner thread ends with it stored. -/
structure AppliedLaw (s : AppliedState) : Prop where
  persisted : Touched s.finalized → ∀ entry ∈ s.runner.writes, entry.2.terminal = true →
    entry.2 = .completed
  ended : Touched s.finalized → s.runner.runner = .ended → s.runner.task.status = .completed

/-- `_converge_terminal` finds the token and the cleanup as they have to be, and the runtime ended
with a final answer. -/
structure WillComplete (s : AppliedState) : Prop where
  fenceOpen : s.runner.gate.closed = false
  decided : s.decided = some (false, true)
  answered : ∃ outcome, s.outcome = some outcome ∧ outcome.status = "completed" ∧
    outcome.stopReason = "final_answer_returned"

/-- A run that changes the workspace does so before `shutdown` has written its status, has its
outcome persisted with nothing against it, and is not interrupted by `shutdown`. -/
def AppliedGuard (s : AppliedState) : AppliedAction → Prop
  | .execute faults native => Touched (s.execute sha256 faults native).finalized →
      ∀ entry ∈ s.runner.writes, entry.2.terminal = false
  | .runner (.persist _) => Touched s.finalized → s.WillComplete
  | .runner (.shutdownWrite _) => ¬Touched s.finalized
  | _ => True

/-- What holds of every run. -/
structure Base (s : AppliedState) : Prop where
  shape : s.runner.Shape
  started : s.outcome ≠ none → s.runner.runner.early = false
  finalized : s.finalized ≠ none → s.outcome ≠ none
  decision : ∀ status stopReason finalAnswer outcome,
    s.runner.runner = .terminating status stopReason finalAnswer → s.outcome = some outcome →
    ∃ token cleanup, s.decided = some (token, cleanup) ∧
      status = (RunnerState.publicOutcome token cleanup outcome.status outcome.stopReason
        outcome.finalAnswer).1
  /-- Before the runner persists its outcome, only `shutdown` has ended the task. -/
  unpersisted : s.runner.runner.past = false →
    (s.runner.task.status.terminal = true → s.runner.task.status = .interrupted) ∧
      ∀ entry ∈ s.runner.writes, entry.2.terminal = true → entry.2 = .interrupted

/-- What holds of a run that kept the guard. -/
structure Lawful (s : AppliedState) : Prop where
  persisted : Touched s.finalized → ∀ entry ∈ s.runner.writes, entry.2.terminal = true →
    entry.2 = .completed
  past : Touched s.finalized → s.runner.runner.past = true →
    s.runner.task.status = .completed

/-- A registered run with its adapter not built yet. -/
structure Fresh (s : AppliedState) : Prop where
  registered : s.runner.Registered
  handle : s.handle = none
  outcome : s.outcome = none
  finalized : s.finalized = none
  decided : s.decided = none

variable {sha256} {s t : AppliedState}

theorem ne_none_of_touched (h : Touched s.finalized) : s.finalized ≠ none := by
  intro hnone
  rw [hnone] at h
  exact h

theorem Lawful.law (h : s.Lawful) : s.AppliedLaw where
  persisted := h.persisted
  ended htouched hended := h.past htouched (by rw [hended]; rfl)

/-- A run that changed the workspace is past the building of its adapter. -/
theorem Base.started_of_touched (h : s.Base) (htouched : Touched s.finalized) :
    s.runner.runner.early = false :=
  h.started (h.finalized (ne_none_of_touched htouched))

theorem Base.not_registered (h : s.Base) (htouched : Touched s.finalized) :
    s.runner.runner ≠ .registered := by
  intro hregistered
  have hearly := h.started_of_touched htouched
  rw [hregistered] at hearly
  cases hearly

/-! ## What holds of every run is kept -/

theorem not_past_of_early {phase : RunnerPhase} (h : phase.early = true) : phase.past = false := by
  cases phase with
  | registered | initialising => rfl
  | _ => cases h

/-- A step of the runner keeps what holds of every run. -/
theorem Base.runner (h : s.Base) {action : RunnerAction} {runner : RunnerState}
    (hmay : s.mayTake action = true) (hstep : s.runner.next action = some runner) :
    Base { s with runner := runner } where
  shape := (next_refines h.shape hstep).1
  started hrun := by
    have hstarted := h.started hrun
    show runner.runner.early = false
    cases next_phase hstep with
    | same hsame => rw [hsame]; exact hstarted
    | early hearly => rw [hstarted] at hearly; cases hearly
    | decide _ => cases hmay
    | settle _ hpast | leave _ _ hpast =>
      by_contra hearly
      rw [not_past_of_early ((Bool.not_eq_false _).mp hearly)] at hpast
      cases hpast
  finalized := h.finalized
  decision status stopReason finalAnswer outcome hphase hrun := by
    have hphase : runner.runner = .terminating status stopReason finalAnswer := hphase
    cases next_phase hstep with
    | same hsame => exact h.decision status stopReason finalAnswer outcome (hsame ▸ hphase) hrun
    | early hearly =>
      have hstarted := h.started (by rw [hrun]; exact Option.some_ne_none _)
      rw [hstarted] at hearly
      cases hearly
    | decide _ => cases hmay
    | settle _ hpast | leave _ _ hpast => rw [hphase] at hpast; cases hpast
  unpersisted hpast := by
    have hpast : runner.runner.past = false := hpast
    have hbefore : s.runner.runner.past = false := by
      cases next_phase hstep with
      | same hsame => rw [← hsame]; exact hpast
      | early hearly => exact not_past_of_early hearly
      | decide _ => cases hmay
      | settle _ hafter | leave _ _ hafter => rw [hpast] at hafter; cases hafter
    obtain ⟨hstatus, hwrites⟩ := h.unpersisted hbefore
    show (runner.task.status.terminal = true → runner.task.status = .interrupted) ∧
      ∀ entry ∈ runner.writes, entry.2.terminal = true → entry.2 = .interrupted
    cases next_change h.shape hstep with
    | none hsame hsameWrites =>
      rw [hsame, hsameWrites]
      exact ⟨hstatus, hwrites⟩
    | live _ hlive hwrote _ =>
      rw [hwrote.stored, hwrote.writes]
      refine ⟨fun hterminal => ?_, fun entry hentry hterminal => ?_⟩
      · rw [hlive] at hterminal
        cases hterminal
      · rcases List.mem_append.mp hentry with hold | hnew
        · exact hwrites entry hold hterminal
        · rw [List.mem_singleton.mp hnew, hlive] at hterminal
          cases hterminal
    | interrupt hwrote _ =>
      rw [hwrote.stored, hwrote.writes]
      refine ⟨fun _ => rfl, fun entry hentry hterminal => ?_⟩
      rcases List.mem_append.mp hentry with hold | hnew
      · exact hwrites entry hold hterminal
      · rw [List.mem_singleton.mp hnew]
    | outcome hafter _ => rw [hpast] at hafter; cases hafter

/-- What `execute` leaves alone. -/
theorem execute_frame (sha256 : List UInt8 → String) (s : AppliedState) (faults : AdapterFaults)
    (native : NativeRun) :
    (s.execute sha256 faults native).runner = s.runner ∧
      (s.execute sha256 faults native).decided = s.decided ∧
      (s.execute sha256 faults native).outcome ≠ none := by
  unfold execute
  split
  · exact ⟨rfl, rfl, Option.some_ne_none _⟩
  · split <;> exact ⟨rfl, rfl, Option.some_ne_none _⟩

/-- A step inside `adapter.run` keeps what holds of every run. -/
theorem Base.inside (h : s.Base) (hphase : s.runner.runner = .running)
    (hrunner : t.runner = s.runner) (hfinal : t.finalized ≠ none → t.outcome ≠ none) :
    t.Base where
  shape := by rw [hrunner]; exact h.shape
  started _ := by rw [hrunner, hphase]; rfl
  finalized := hfinal
  decision _ _ _ _ hterminating := by
    rw [hrunner, hphase] at hterminating
    cases hterminating
  unpersisted := by rw [hrunner]; exact h.unpersisted

theorem base_step {action : AppliedAction} (h : s.Base) (hstep : AppliedStep sha256 s action t) :
    t.Base := by
  cases action with
  | runner action =>
    simp only [AppliedStep, next] at hstep
    split at hstep
    · next hmay =>
      obtain ⟨runner, hnext, rfl⟩ := Option.map_eq_some_iff.mp hstep
      exact h.runner hmay hnext
    · cases hstep
  | prepare faults run expiresAt now =>
    simp only [AppliedStep, next] at hstep
    split at hstep
    · next hready =>
      split at hstep
      · rw [← Option.some.inj hstep]
        exact h.inside hready.1 rfl fun _ => Option.some_ne_none _
      · rw [← Option.some.inj hstep]
        exact h.inside hready.1 rfl h.finalized
    · cases hstep
  | execute faults native =>
    simp only [AppliedStep, next] at hstep
    split at hstep
    · next hready =>
      rw [← Option.some.inj hstep]
      obtain ⟨hrunner, -, houtcome⟩ := execute_frame sha256 s faults native
      exact h.inside hready.1 hrunner fun _ => houtcome
    · cases hstep
  | converge cleanupSucceeded =>
    simp only [AppliedStep, next] at hstep
    split at hstep
    · next outcome houtcome =>
      obtain ⟨runner, hnext, rfl⟩ := Option.map_eq_some_iff.mp hstep
      have hshape := (next_refines h.shape hnext).1
      simp only [RunnerState.next] at hnext
      split at hnext
      · next hphase =>
        have hrunner := Option.some.inj hnext
        have hbefore := h.unpersisted (by rw [hphase]; rfl)
        refine ⟨hshape, fun _ => ?_, h.finalized, ?_, fun _ => ?_⟩
        · rw [← hrunner]
          rfl
        · intro status stopReason finalAnswer found hterminating hfound
          have hterminating : runner.runner = .terminating status stopReason finalAnswer :=
            hterminating
          have hsame : found = outcome := Option.some.inj (hfound.symm.trans houtcome)
          refine ⟨_, _, rfl, ?_⟩
          rw [← hrunner, converge] at hterminating
          rw [hsame]
          exact (RunnerPhase.terminating.inj hterminating).1.symm
        · rw [← hrunner]
          exact hbefore
      · cases hnext
    · cases hstep

/-! ## The step that persists the outcome -/

/-- **What the step that persists the outcome does**: a closed gate refuses it. -/
theorem persist_cases (h : s.runner.Shape) {now : String} {runner : RunnerState}
    (hstep : s.runner.next (.persist now) = some runner) :
    ∃ status stopReason finalAnswer,
      s.runner.runner = .terminating status stopReason finalAnswer ∧ status.terminal = true ∧
        (s.runner.gate.closed = true ∧ runner.runner = .ended ∧
            runner.task = s.runner.task ∧ runner.writes = s.runner.writes ∨
          s.runner.gate.closed = false ∧ runner.runner = .persisted ∧
            s.runner.Wrote runner .worker status) := by
  simp only [RunnerState.next, persist] at hstep
  split at hstep
  · next status stopReason finalAnswer hphase =>
    refine ⟨status, stopReason, finalAnswer, hphase, h.outcome_terminal _ _ _ hphase, ?_⟩
    rw [h.persistTerminal_eq] at hstep
    by_cases hclosed : s.runner.gate.closed = true
    · rw [if_pos hclosed] at hstep
      rw [← Option.some.inj hstep]
      exact Or.inl ⟨hclosed, rfl, rfl, rfl⟩
    · rw [if_neg hclosed] at hstep
      rw [← Option.some.inj hstep]
      exact Or.inr ⟨Bool.not_eq_true _ ▸ hclosed, rfl, rfl, rfl⟩
  · cases hstep

/-- A status decided with nothing against it is `COMPLETED`, and no other is. -/
theorem Base.decided_iff (h : s.Base) (htouched : Touched s.finalized) {status : TaskStatus}
    {stopReason finalAnswer : String}
    (hphase : s.runner.runner = .terminating status stopReason finalAnswer)
    (hopen : s.runner.gate.closed = false) : status = .completed ↔ s.WillComplete := by
  obtain ⟨outcome, houtcome⟩ :=
    Option.ne_none_iff_exists'.mp (h.finalized (ne_none_of_touched htouched))
  obtain ⟨token, cleanup, hdecided, hstatus⟩ :=
    h.decision status stopReason finalAnswer outcome hphase houtcome
  rw [hstatus, publicOutcome_completed]
  constructor
  · rintro ⟨rfl, rfl, hcompleted, hanswered⟩
    exact ⟨hopen, hdecided, outcome, houtcome, hcompleted, hanswered⟩
  · rintro ⟨-, hgood, found, hfound, hcompleted, hanswered⟩
    rw [hdecided, Option.some.injEq, Prod.mk.injEq] at hgood
    have hsame : found = outcome := Option.some.inj (hfound.symm.trans houtcome)
    rw [← hsame]
    exact ⟨hgood.1, hgood.2, hcompleted, hanswered⟩

/-! ## A guarded step is lawful -/

/-- The writes of a state with one more are lawful when the new one is. -/
theorem writes_append {writes : List (Writer × TaskStatus)} {writer : Writer} {status : TaskStatus}
    (h : ∀ entry ∈ writes, entry.2.terminal = true → entry.2 = .completed)
    (hnew : status.terminal = true → status = .completed) :
    ∀ entry ∈ writes ++ [(writer, status)], entry.2.terminal = true → entry.2 = .completed := by
  intro entry hentry hterminal
  rcases List.mem_append.mp hentry with hold | hlast
  · exact h entry hold hterminal
  · rw [List.mem_singleton.mp hlast] at hterminal ⊢
    exact hnew hterminal

theorem Lawful.runner (hbase : s.Base) (h : s.Lawful) {action : RunnerAction}
    {runner : RunnerState} (hguard : AppliedGuard sha256 s (.runner action))
    (hmay : s.mayTake action = true) (hstep : s.runner.next action = some runner) :
    Lawful { s with runner := runner } := by
  by_cases htouched : Touched s.finalized
  · suffices hnow : (∀ entry ∈ runner.writes, entry.2.terminal = true → entry.2 = .completed) ∧
        (runner.runner.past = true → runner.task.status = .completed) from
      ⟨fun _ => hnow.1, fun _ => hnow.2⟩
    have hpast : runner.runner.past = true →
        s.runner.runner.past = true ∨ ∃ now, action = .persist now := by
      intro hafter
      cases next_phase hstep with
      | same hsame => exact Or.inl (hsame ▸ hafter)
      | early hearly =>
        rw [hbase.started_of_touched htouched] at hearly
        cases hearly
      | decide _ => cases hmay
      | settle _ _ => exact Or.inr ⟨_, rfl⟩
      | leave hbefore _ _ => exact Or.inl hbefore
    by_cases hpersist : ∃ now, action = .persist now
    · obtain ⟨now, rfl⟩ := hpersist
      have hwill : s.WillComplete := hguard htouched
      obtain ⟨status, stopReason, finalAnswer, hphase, -, hclosed | hopen⟩ :=
        persist_cases hbase.shape hstep
      · rw [hwill.fenceOpen] at hclosed
        cases hclosed.1
      · have hstatus := (hbase.decided_iff htouched hphase hwill.fenceOpen).mpr hwill
        rw [hopen.2.2.stored, hopen.2.2.writes]
        exact ⟨writes_append (h.persisted htouched) fun _ => hstatus, fun _ => hstatus⟩
    · have hwasPast : runner.runner.past = true → s.runner.runner.past = true :=
        fun hafter => (hpast hafter).resolve_right hpersist
      cases next_change hbase.shape hstep with
      | none hsame hsameWrites =>
        rw [hsame, hsameWrites]
        exact ⟨h.persisted htouched, fun hafter => h.past htouched (hwasPast hafter)⟩
      | live _ hlive hwrote hwhere =>
        rw [hwrote.stored, hwrote.writes]
        refine ⟨writes_append (h.persisted htouched) fun hterminal => ?_, fun hafter => ?_⟩
        · rw [hlive] at hterminal
          cases hterminal
        · have hbefore := hwasPast hafter
          rcases hwhere with hnot | hnot
          · rw [hbefore] at hnot
            cases hnot
          · rw [h.past htouched hbefore] at hnot
            cases hnot
      | interrupt _ _ => exact absurd htouched hguard
      | outcome _ hby =>
        rcases hby with hregistered | hpersisted
        · exact absurd hregistered (hbase.not_registered htouched)
        · exact absurd hpersisted hpersist
  · exact ⟨fun hnow => absurd hnow htouched, fun hnow => absurd hnow htouched⟩

theorem lawful_step {action : AppliedAction} (hbase : s.Base) (h : s.Lawful)
    (hguard : AppliedGuard sha256 s action) (hstep : AppliedStep sha256 s action t) :
    t.Lawful := by
  cases action with
  | runner action =>
    simp only [AppliedStep, next] at hstep
    split at hstep
    · next hmay =>
      obtain ⟨runner, hnext, rfl⟩ := Option.map_eq_some_iff.mp hstep
      exact h.runner hbase hguard hmay hnext
    · cases hstep
  | prepare faults run expiresAt now =>
    simp only [AppliedStep, next] at hstep
    split at hstep
    · split at hstep
      · rw [← Option.some.inj hstep]
        exact ⟨h.persisted, h.past⟩
      · rw [← Option.some.inj hstep]
        exact ⟨h.persisted, h.past⟩
    · cases hstep
  | execute faults native =>
    simp only [AppliedStep, next] at hstep
    split at hstep
    · next hready =>
      rw [← Option.some.inj hstep]
      obtain ⟨hrunner, -, -⟩ := execute_frame sha256 s faults native
      refine ⟨fun htouched entry hentry hterminal => ?_, fun _ hpast => ?_⟩
      · rw [hrunner] at hentry
        rw [hguard htouched entry hentry] at hterminal
        cases hterminal
      · rw [hrunner, hready.1] at hpast
        cases hpast
    · cases hstep
  | converge cleanupSucceeded =>
    simp only [AppliedStep, next] at hstep
    split at hstep
    · obtain ⟨runner, hnext, rfl⟩ := Option.map_eq_some_iff.mp hstep
      simp only [RunnerState.next] at hnext
      split at hnext
      · rw [← Option.some.inj hnext]
        refine ⟨h.persisted, fun _ hpast => ?_⟩
        cases hpast
      · cases hnext
    · cases hstep

/-! ## A lawful step is guarded -/

/-- A runner that has ended stays ended, and no step after it stores `COMPLETED`. -/
theorem ended_step (hbase : s.Base) {action : RunnerAction} {runner : RunnerState}
    (htouched : Touched s.finalized) (hended : s.runner.runner = .ended)
    (hstep : s.runner.next action = some runner) :
    runner.runner = .ended ∧
      (runner.task.status = .completed → s.runner.task.status = .completed) := by
  have hphase : runner.runner = .ended := by
    cases next_phase hstep with
    | same hsame => exact hsame.trans hended
    | early hearly =>
      rw [hended] at hearly
      cases hearly
    | decide hrunning => rw [hended] at hrunning; cases hrunning
    | settle hterminating _ => rw [hended] at hterminating; cases hterminating
    | leave _ hnot _ => exact absurd hended hnot
  refine ⟨hphase, fun hcompleted => ?_⟩
  cases next_change hbase.shape hstep with
  | none hsame _ => exact hsame ▸ hcompleted
  | live _ hlive hwrote _ =>
    rw [← hwrote.stored, hcompleted] at hlive
    cases hlive
  | interrupt hwrote _ =>
    rw [hwrote.stored] at hcompleted
    cases hcompleted
  | outcome _ hby =>
    rcases hby with hregistered | ⟨now, rfl⟩
    · exact absurd hregistered (hbase.not_registered htouched)
    · obtain ⟨_, _, _, hterminating, -⟩ := persist_cases hbase.shape hstep
      rw [hended] at hterminating
      cases hterminating

/-- A status written stays written. -/
theorem mem_writes_step (hbase : s.Base) (htouched : Touched s.finalized) {action : RunnerAction}
    {runner : RunnerState} (hstep : s.runner.next action = some runner)
    {entry : Writer × TaskStatus} (hentry : entry ∈ s.runner.writes) : entry ∈ runner.writes := by
  cases next_change hbase.shape hstep with
  | none _ hsame => exact hsame ▸ hentry
  | live _ _ hwrote _ | interrupt hwrote _ =>
    rw [hwrote.writes]
    exact List.mem_append_left _ hentry
  | outcome _ hby =>
    rcases hby with hregistered | ⟨now, rfl⟩
    · exact absurd hregistered (hbase.not_registered htouched)
    · obtain ⟨_, _, _, -, -, hclosed | hopen⟩ := persist_cases hbase.shape hstep
      · rw [hclosed.2.2.2]
        exact hentry
      · rw [hopen.2.2.writes]
        exact List.mem_append_left _ hentry

theorem exact_runner (hbase : s.Base) {action : RunnerAction} {runner : RunnerState}
    (hstep : s.runner.next action = some runner)
    (hlaw : AppliedLaw { s with runner := runner }) :
    AppliedGuard sha256 s (.runner action) ∧ s.AppliedLaw := by
  have hwrites : Touched s.finalized → ∀ entry ∈ runner.writes, entry.2.terminal = true →
      entry.2 = .completed := hlaw.persisted
  have hended : Touched s.finalized → runner.runner = .ended →
      runner.task.status = .completed := hlaw.ended
  refine ⟨?_, fun htouched entry hentry => ?_, fun htouched hphase => ?_⟩
  · cases action with
    | persist now =>
      intro htouched
      obtain ⟨status, stopReason, finalAnswer, hphase, hterminal, hclosed | hopen⟩ :=
        persist_cases hbase.shape hstep
      · -- the refused write leaves a task without an outcome
        have hcompleted := hended htouched hclosed.2.1
        rw [hclosed.2.2.1] at hcompleted
        have hunpersisted := (hbase.unpersisted (by rw [hphase]; rfl)).1
        rw [hcompleted] at hunpersisted
        cases hunpersisted rfl
      · refine (hbase.decided_iff htouched hphase hopen.1).mp ?_
        refine hwrites htouched (.worker, status) ?_ hterminal
        rw [hopen.2.2.writes]
        exact List.mem_append_right _ (List.mem_singleton_self _)
    | shutdownWrite now =>
      intro htouched
      have hinterrupted : (Writer.shutdown, TaskStatus.interrupted) ∈ runner.writes := by
        simp only [RunnerState.next] at hstep
        split at hstep
        · rw [← Option.some.inj hstep]
          exact List.mem_append_right _ (List.mem_singleton_self _)
        · cases hstep
      cases hwrites htouched _ hinterrupted rfl
    | _ => trivial
  · exact hwrites htouched entry (mem_writes_step hbase htouched hstep hentry)
  · obtain ⟨hstays, hstatus⟩ := ended_step hbase htouched hphase hstep
    exact hstatus (hended htouched hstays)

theorem exact_step {action : AppliedAction} (hbase : s.Base)
    (hstep : AppliedStep sha256 s action t) (hlaw : t.AppliedLaw) :
    AppliedGuard sha256 s action ∧ s.AppliedLaw := by
  cases action with
  | runner action =>
    simp only [AppliedStep, next] at hstep
    split at hstep
    · obtain ⟨runner, hnext, rfl⟩ := Option.map_eq_some_iff.mp hstep
      exact exact_runner hbase hnext hlaw
    · cases hstep
  | prepare faults run expiresAt now =>
    refine ⟨trivial, ?_⟩
    simp only [AppliedStep, next] at hstep
    split at hstep
    · split at hstep
      · rw [← Option.some.inj hstep] at hlaw
        exact ⟨hlaw.persisted, hlaw.ended⟩
      · rw [← Option.some.inj hstep] at hlaw
        exact ⟨hlaw.persisted, hlaw.ended⟩
    · cases hstep
  | execute faults native =>
    simp only [AppliedStep, next] at hstep
    split at hstep
    · next hready =>
      rw [← Option.some.inj hstep] at hlaw
      obtain ⟨hrunner, -, -⟩ := execute_frame sha256 s faults native
      have hfresh : ¬Touched s.finalized := fun htouched => by
        have hnone := hready.2.2
        rw [Option.isNone_iff_eq_none] at hnone
        exact hbase.finalized (ne_none_of_touched htouched) hnone
      refine ⟨fun htouched entry hentry => ?_, fun htouched => absurd htouched hfresh,
        fun htouched => absurd htouched hfresh⟩
      -- while the runner is inside `adapter.run`, only `shutdown` has ended the task
      cases hterminal : entry.2.terminal with
      | false => rfl
      | true =>
        have hcompleted := hlaw.persisted htouched entry (hrunner ▸ hentry) hterminal
        have hunpersisted := (hbase.unpersisted (by rw [hready.1]; rfl)).2 entry hentry hterminal
        rw [hcompleted] at hunpersisted
        cases hunpersisted
    · cases hstep
  | converge cleanupSucceeded =>
    refine ⟨trivial, ?_⟩
    simp only [AppliedStep, next] at hstep
    split at hstep
    · obtain ⟨runner, hnext, rfl⟩ := Option.map_eq_some_iff.mp hstep
      simp only [RunnerState.next] at hnext
      split at hnext
      · next hphase =>
        rw [← Option.some.inj hnext] at hlaw
        refine ⟨hlaw.persisted, fun _ hended => ?_⟩
        rw [hphase] at hended
        cases hended
      · cases hnext
    · cases hstep

/-! ## Only a completed run changes the workspace -/

theorem Fresh.base (h : s.Fresh) : s.Base where
  shape := h.registered.shape
  started hrun := absurd h.outcome hrun
  finalized hfinal := absurd h.finalized hfinal
  decision _ _ _ _ hphase := by
    rw [h.registered.runner] at hphase
    cases hphase
  unpersisted _ := by
    rw [h.registered.queued, h.registered.writes]
    exact ⟨fun hterminal => (by cases hterminal), fun _ hentry => (by cases hentry)⟩

theorem Fresh.lawful (h : s.Fresh) : s.Lawful :=
  ⟨fun htouched => absurd h.finalized (ne_none_of_touched htouched),
    fun htouched => absurd h.finalized (ne_none_of_touched htouched)⟩

/--
**When only a completed run changes the workspace.**

Every run of the runner thread and its adapter, any number of cancels and one shutdown, with any
step of the adapter raising: when `finalize` changed a file, no terminal status but `COMPLETED` is
persisted and the thread ends with it stored, if and only if `finalize` changes nothing after
`shutdown` wrote its status, what is persisted after a change was decided with the token not
cancelled, the cleanup done and a final answer, at a gate still open, and `shutdown` writes no
status after a change.
-/
theorem applied_completed_iff {ms : List (Move AppliedState AppliedAction)} (hs : s.Fresh)
    (h : Run (AppliedStep sha256) s ms t) :
    t.AppliedLaw ↔ ∀ m ∈ ms, AppliedGuard sha256 m.pre m.act :=
  h.law_iff_of_exact Base Lawful (AppliedGuard sha256) AppliedLaw
    (fun _ _ _ hbase hstep => base_step hbase hstep)
    (fun _ _ _ hbase hlawful hguard hstep => lawful_step hbase hlawful hguard hstep)
    (fun _ hlawful => hlawful.law)
    (fun _ _ _ hbase hstep hlaw => exact_step hbase hstep hlaw) hs.base hs.lawful

/-! ## Two runs that create a file -/

/-- A registered run on an empty workspace. -/
def sampleApplied : AppliedState where
  runner := OneRun.run
  isolation := { workspace := emptyTree, snapshot := emptyTree }

theorem sampleApplied_fresh : sampleApplied.Fresh := ⟨OneRun.registered, rfl, rfl, rfl, rfl⟩

/-- The digest of the sample runs. -/
def lengthDigest (content : List UInt8) : String := toString content.length

/-- The run answers, and its new file is copied to the workspace. -/
def answered : List AppliedAction :=
  [.runner (.workerStart true true "t1"), .runner .initDone,
   .prepare {} IsolationState.sampleRun "2026-01-01T01:00:00Z" "2026-01-01T00:00:00Z",
   .execute {} { IsolationState.sampleNative with stopReason := "final_answer_returned" }]

/-- The outcome of the run is decided and persisted. -/
def settled : List AppliedAction := [.converge true, .runner (.persist "t2")]

theorem touched_of_path {finalized : Option (PlainTree × PlainTree)} (path : List String)
    (h : finalized.any (fun trees => trees.2.content? path ≠ trees.1.content? path) = true) :
    Touched finalized := by
  cases finalized with
  | none => cases h
  | some trees => exact ⟨path, of_decide_eq_true h⟩

/-- A run nobody cancels changes the workspace, is completed and keeps the guard. -/
theorem applied_completed_iff_answered :
    ∃ t ms, Run (AppliedStep lengthDigest) sampleApplied ms t ∧ Touched t.finalized ∧
      t.runner.task.status = .completed ∧ ∀ m ∈ ms, AppliedGuard lengthDigest m.pre m.act := by
  have hcheck : (Transition.execute (next lengthDigest) sampleApplied (answered ++ settled)).any
      (fun t => (t.finalized.any fun trees =>
          trees.2.content? ["notes.txt"] ≠ trees.1.content? ["notes.txt"]) &&
        decide (t.runner.task.status = .completed) &&
        decide (t.runner.writes = [(.worker, .running), (.worker, .completed)])) = true := by
    decide +kernel
  obtain ⟨t, ht, hfacts⟩ := (Option.any_eq_true ..).mp hcheck
  rw [Bool.and_eq_true, Bool.and_eq_true, decide_eq_true_iff, decide_eq_true_iff] at hfacts
  have hrun := Run.of_execute (fun _ _ _ hnext => hnext) ht
  refine ⟨t, _, hrun, touched_of_path _ hfacts.1.1, hfacts.1.2,
    (applied_completed_iff sampleApplied_fresh hrun).mp ⟨fun _ => ?_, fun _ _ => hfacts.1.2⟩⟩
  rw [hfacts.2]
  decide

/-- **A run cancelled after its changes were copied is `CANCELLED` and keeps them.** -/
theorem cancelled_applied : ∃ t ms, Run (AppliedStep lengthDigest) sampleApplied ms t ∧
    Touched t.finalized ∧ t.runner.task.status = .cancelled ∧ ¬t.AppliedLaw := by
  have hcheck : (Transition.execute (next lengthDigest) sampleApplied
      (answered ++ .runner (.cancel true "t2") :: settled)).any
      (fun t => (t.finalized.any fun trees =>
          trees.2.content? ["notes.txt"] ≠ trees.1.content? ["notes.txt"]) &&
        decide (t.runner.task.status = .cancelled) &&
        decide ((Writer.worker, TaskStatus.cancelled) ∈ t.runner.writes)) = true := by
    decide +kernel
  obtain ⟨t, ht, hfacts⟩ := (Option.any_eq_true ..).mp hcheck
  rw [Bool.and_eq_true, Bool.and_eq_true, decide_eq_true_iff, decide_eq_true_iff] at hfacts
  have htouched := touched_of_path _ hfacts.1.1
  refine ⟨t, _, Run.of_execute (fun _ _ _ hnext => hnext) ht, htouched, hfacts.1.2, fun hlaw => ?_⟩
  cases hlaw.persisted htouched _ hfacts.2 rfl

end AppliedState

end ThreadForge

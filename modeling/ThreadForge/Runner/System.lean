import ThreadForge.Runner.Outcome

/-!
# The threads around a backend run

The runner thread, any number of `cancel` calls and one `shutdown`, as a transition system whose
steps are the critical sections of the run's gate and the reads and writes made outside them. Every
step refines a step of the outcome model.
-/

namespace ThreadForge

open Transition

namespace RunnerState

open RunView

/-! ## What holds of every run -/

/-- The outcome model's view of a run. -/
def view (s : RunnerState) : RunView where
  status := s.task.status
  token := s.tokenCancelled
  closed := s.gate.closed
  persisted := decide (s.runner = .persisted)
  writes := s.writes

/-- The gate's generation tells whether it is closed, and the phases say what they have done. -/
structure Shape (s : RunnerState) : Prop where
  task_generation : s.task.generation = 0
  gate_open : s.gate.closed = false → s.gate.generation = 0
  gate_closed : s.gate.closed = true → 0 < s.gate.generation
  outcome_terminal : ∀ status stopReason finalAnswer,
    s.runner = .terminating status stopReason finalAnswer → status.terminal = true
  shutdown_closed : s.shutdown = .closed → s.gate.closed = true

/-- A registered run of a task in the queue. -/
structure Registered (s : RunnerState) : Prop where
  queued : s.task.status = .queued
  generation : s.task.generation = 0
  gate : s.gate = {}
  token : s.tokenCancelled = false
  runner : s.runner = .registered
  shutdown : s.shutdown = .notStarted
  writes : s.writes = []

/-- The step persists an outcome that the stored status allows: a `COMPLETED` or `BLOCKED` decided
before a cancel does not land after it, and `INTERRUPTED` replaces no other terminal status. -/
def OutcomeGuard (s : RunnerState) : RunnerAction → Prop
  | .persist _ => ∀ status stopReason finalAnswer,
      s.runner = .terminating status stopReason finalAnswer → s.gate.closed = false →
      s.task.status = .cancelRequested → status ≠ .completed ∧ status ≠ .blocked
  | .shutdownWrite _ => s.task.status.terminal = true → s.task.status = .interrupted
  | _ => True

/-! ## Fenced updates -/

variable {s : RunnerState} {writer : Writer} {now : String} {fn : Task → Task}

/-- An update that names the gate's generation goes through exactly while the gate is open. -/
theorem Shape.update_fenced (h : s.Shape) :
    s.update writer (some s.gate.generation) now fn =
      if s.gate.closed then none else some (s.write writer now fn) := by
  rw [update, h.task_generation]
  cases hclosed : s.gate.closed with
  | false => simp [h.gate_open hclosed]
  | true =>
    have hpos := h.gate_closed hclosed
    have hne : s.gate.generation ≠ 0 := by omega
    simp [hne]

theorem Shape.persistTerminal_eq (h : s.Shape) (status : TaskStatus)
    (stopReason finalAnswer now : String) :
    s.persistTerminal status stopReason finalAnswer now =
      if s.gate.closed then none
      else some (s.write .worker now (setTerminal status stopReason finalAnswer)) := by
  rw [persistTerminal, h.update_fenced]
  split <;> rfl

/-! ## The shape is kept -/

theorem Shape.write (h : s.Shape) (hfn : (fn s.task).generation = s.task.generation) :
    (s.write writer now fn).Shape where
  task_generation := hfn.trans h.task_generation
  gate_open := h.gate_open
  gate_closed := h.gate_closed
  outcome_terminal := h.outcome_terminal
  shutdown_closed := h.shutdown_closed

theorem Shape.setRunner (h : s.Shape) {runner : RunnerPhase}
    (hrunner : ∀ status stopReason finalAnswer,
      runner = .terminating status stopReason finalAnswer → status.terminal = true) :
    Shape { s with runner := runner } :=
  { h with outcome_terminal := hrunner }

theorem Shape.setActive (h : s.Shape) (active : Bool) : Shape { s with active := active } :=
  { h with }

theorem Shape.cancelToken (h : s.Shape) : Shape { s with tokenCancelled := true } :=
  { h with }

theorem Shape.setShutdown (h : s.Shape) {shutdown : ShutdownPhase}
    (hshutdown : shutdown = .closed → s.gate.closed = true) :
    Shape { s with shutdown := shutdown } :=
  { h with shutdown_closed := hshutdown }

theorem Shape.close (h : s.Shape) : Shape { s with gate := s.gate.close } where
  task_generation := h.task_generation
  gate_open hopen := by cases hopen
  gate_closed _ := by
    show 0 < s.gate.generation + 1
    cases hclosed : s.gate.closed with
    | false => rw [h.gate_open hclosed]; decide
    | true => have := h.gate_closed hclosed; omega
  outcome_terminal := h.outcome_terminal
  shutdown_closed _ := rfl

/-- The outcome of a run is a terminal status. -/
theorem publicOutcome_terminal (cancelled cleanupSucceeded : Bool)
    (status stopReason finalAnswer : String) :
    (publicOutcome cancelled cleanupSucceeded status stopReason finalAnswer).1.terminal = true := by
  simp only [publicOutcome]
  repeat' split
  all_goals rfl

/-! ## Each step refines a step of the outcome model -/

/-- A step that persists nothing. -/
theorem step_silent {s' : RunnerState} (hstatus : s'.task.status = s.task.status)
    (hwrites : s'.writes = s.writes)
    (htoken : s.tokenCancelled = true → s'.tokenCancelled = true)
    (hclosed : s.gate.closed = true → s'.gate.closed = true)
    (hpersisted : s.runner = .persisted → s'.runner = .persisted ∨ s'.gate.closed = true) :
    RunView.Step s.view .other s'.view := by
  have hview : s'.view = { s.view with
      token := s'.tokenCancelled
      closed := s'.gate.closed
      persisted := decide (s'.runner = .persisted) } := by
    simp only [view, hstatus, hwrites]
  rw [hview]
  refine Step.silent htoken hclosed fun hp => ?_
  rcases hpersisted (of_decide_eq_true hp) with hrunner | hgate
  · exact Or.inl (decide_eq_true hrunner)
  · exact Or.inr hgate

/-- A write of the runner thread at work: the token is not cancelled and the gate is open. -/
theorem step_work {s' : RunnerState} {status : TaskStatus}
    (hview : s'.view = { s.view.write .worker status with
      closed := s.gate.closed, persisted := decide (s'.runner = .persisted) })
    (hstatus : status = .running ∨ status = .waitingForApproval)
    (htoken : s.tokenCancelled = false) (hclosed : s.gate.closed = false)
    (hrunner : s.runner ≠ .persisted) (hrunner' : s'.runner ≠ .persisted) :
    RunView.Step s.view .other s'.view := by
  have hpersisted : s.view.persisted = false := decide_eq_false hrunner
  have hsame : s'.view = s.view.write .worker status := by
    rw [hview, decide_eq_false hrunner', ← hpersisted]
    rfl
  rw [hsame]
  exact Step.work hstatus htoken hclosed hpersisted

/-- The persisted outcome, with the gate closed at once or the runner about to close it. -/
theorem step_persist {s' : RunnerState} {status : TaskStatus}
    (hstatus : s'.task.status = status) (hwrites : s'.writes = s.writes ++ [(.worker, status)])
    (htoken : s'.tokenCancelled = s.tokenCancelled) (hterminal : status.terminal = true)
    (hclosed : s.gate.closed = false) (hrunner : s.runner ≠ .persisted)
    (hfence : s'.runner = .persisted ∨ s'.gate.closed = true) :
    RunView.Step s.view (.persist status) s'.view := by
  have hview : s'.view = { s.view.write .worker status with
      closed := s'.gate.closed, persisted := decide (s'.runner = .persisted) } := by
    simp only [view, RunView.write, hstatus, hwrites, htoken]
  rw [hview]
  refine Step.persist hterminal hclosed (decide_eq_false hrunner) ?_
  rcases hfence with hp | hc
  · exact Or.inl (decide_eq_true hp)
  · exact Or.inr hc

/-- What a step has to show: it keeps the shape and is a step of the outcome model, whose guard is
the step's own. -/
def Refines (s : RunnerState) (action : RunnerAction) (s' : RunnerState) : Prop :=
  s'.Shape ∧ ∃ label, RunView.Step s.view label s'.view ∧
    (WriteOk s.view label ↔ s.OutcomeGuard action)

theorem refines_workerStart (h : s.Shape) (hrunner : s.runner = .registered)
    (stored failedStored : Bool) (now : String) :
    s.Refines (.workerStart stored failedStored now) (s.workerStart stored failedStored now) := by
  have hnot : s.runner ≠ .persisted := by rw [hrunner]; decide
  have hend : ∀ status stopReason finalAnswer,
      RunnerPhase.ended = .terminating status stopReason finalAnswer → status.terminal = true :=
    fun _ _ _ he => by cases he
  simp only [workerStart, h.persistTerminal_eq, h.update_fenced]
  split
  · by_cases hclosed : s.gate.closed = true
    · rw [if_pos hclosed]
      exact ⟨(h.setRunner hend).setActive false, .other,
        step_silent rfl rfl id id fun hp => absurd hp hnot, Iff.rfl⟩
    · rw [if_neg hclosed]
      refine ⟨(((h.write rfl).close).setRunner hend).setActive false, .persist .cancelled,
        step_persist rfl rfl rfl rfl (Bool.not_eq_true _ ▸ hclosed) hnot (Or.inr rfl), ?_⟩
      exact ⟨fun _ => trivial, fun _ _ => by decide⟩
  next htoken =>
  split
  · by_cases hclosed : s.gate.closed = true
    · rw [if_pos hclosed]
      exact ⟨(h.setRunner hend).setActive false, .other,
        step_silent rfl rfl id id fun hp => absurd hp hnot, Iff.rfl⟩
    · rw [if_neg hclosed]
      refine ⟨(h.write rfl).setRunner nofun, .other, ?_, Iff.rfl⟩
      exact step_work rfl (Or.inl rfl) (Bool.not_eq_true _ ▸ htoken)
        (Bool.not_eq_true _ ▸ hclosed) hnot nofun
  · by_cases hclosed : s.gate.closed = true
    · rw [if_pos hclosed]
      exact ⟨h.setRunner hend, .other,
        step_silent rfl rfl id id fun hp => absurd hp hnot, Iff.rfl⟩
    · rw [if_neg hclosed]
      simp only []
      split
      · refine ⟨(((h.write rfl).close).setRunner hend).setActive false, .persist .failed,
          step_persist rfl rfl rfl rfl (Bool.not_eq_true _ ▸ hclosed) hnot (Or.inr rfl), ?_⟩
        exact ⟨fun _ => trivial, fun _ _ => by decide⟩
      · exact ⟨h.setRunner hend, .other,
          step_silent rfl rfl id id fun hp => absurd hp hnot, Iff.rfl⟩

theorem refines_persist (h : s.Shape) {s' : RunnerState} (hstep : s.persist now = some s') :
    s.Refines (.persist now) s' := by
  simp only [persist] at hstep
  split at hstep
  next status stopReason finalAnswer hrunner =>
    have hnot : s.runner ≠ .persisted := by rw [hrunner]; nofun
    have hterminal := h.outcome_terminal _ _ _ hrunner
    rw [h.persistTerminal_eq] at hstep
    by_cases hclosed : s.gate.closed = true
    · rw [if_pos hclosed] at hstep
      rw [← Option.some.inj hstep]
      refine ⟨h.setRunner nofun, .other,
        step_silent rfl rfl id id fun hp => absurd hp hnot, fun _ => ?_, fun _ => trivial⟩
      intro _ _ _ _ hopen
      rw [hclosed] at hopen
      cases hopen
    · rw [if_neg hclosed] at hstep
      rw [← Option.some.inj hstep]
      refine ⟨(h.write rfl).setRunner nofun, .persist status,
        step_persist rfl rfl rfl hterminal (Bool.not_eq_true _ ▸ hclosed) hnot (Or.inl rfl), ?_⟩
      constructor
      · intro hok status' _ _ hrunner' _ hrequested
        rw [hrunner, RunnerPhase.terminating.injEq] at hrunner'
        rw [← hrunner'.1]
        exact hok hrequested
      · intro hok hrequested
        exact hok _ _ _ hrunner (Bool.not_eq_true _ ▸ hclosed) hrequested
  · cases hstep

theorem refines_cancel (h : s.Shape) (stored : Bool) (now : String) :
    (s.cancel stored now).Shape ∧ ∃ label, RunView.Step s.view label (s.cancel stored now).view ∧
      WriteOk s.view label := by
  simp only [cancel, h.update_fenced]
  split
  · exact ⟨h.cancelToken, .other, step_silent rfl rfl (fun _ => rfl) id Or.inl, trivial⟩
  next hlive =>
  rw [not_or, not_or] at hlive
  by_cases hclosed : s.gate.closed = true
  · rw [if_pos hclosed]
    exact ⟨h.cancelToken, .other, step_silent rfl rfl (fun _ => rfl) id Or.inl, trivial⟩
  · rw [if_neg hclosed]
    refine ⟨(h.write rfl).cancelToken, .other, ?_, trivial⟩
    exact Step.request (v := s.view) (Bool.not_eq_true _ ▸ hlive.1) hlive.2.1
      (Bool.not_eq_true _ ▸ hclosed)

/-- **Every step around a run is a step of the outcome model, under the same guard.** -/
theorem next_refines (h : s.Shape) {action : RunnerAction} {s' : RunnerState}
    (hstep : s.next action = some s') : s.Refines action s' := by
  cases action with
  | workerStart stored failedStored now =>
    simp only [next] at hstep
    split at hstep
    · next hrunner =>
      rw [← Option.some.inj hstep]
      exact refines_workerStart h hrunner stored failedStored now
    · cases hstep
  | initDone =>
    simp only [next] at hstep
    split at hstep
    · next hrunner =>
      rw [← Option.some.inj hstep]
      exact ⟨h.setRunner nofun, .other,
        step_silent rfl rfl id id (fun hp => absurd (hrunner.symm.trans hp) nofun), Iff.rfl⟩
    · cases hstep
  | initFailed sandboxError =>
    simp only [next] at hstep
    split at hstep
    · next hrunner =>
      rw [← Option.some.inj hstep]
      refine ⟨h.setRunner fun status _ _ he => ?_, .other,
        step_silent rfl rfl id id (fun hp => absurd (hrunner.symm.trans hp) nofun), Iff.rfl⟩
      split at he <;> (cases he; rfl)
    · cases hstep
  | requestApproval pending now =>
    simp only [next] at hstep
    split at hstep
    · next hrunner =>
      rw [← Option.some.inj hstep]
      have hnot : s.runner ≠ .persisted := by rw [hrunner]; decide
      simp only [requestApproval, h.update_fenced]
      split
      · exact ⟨h, .other, step_silent rfl rfl id id Or.inl, Iff.rfl⟩
      next htoken =>
      by_cases hclosed : s.gate.closed = true
      · rw [if_pos hclosed]
        exact ⟨h, .other, step_silent rfl rfl id id Or.inl, Iff.rfl⟩
      · rw [if_neg hclosed]
        exact ⟨h.write rfl, .other, step_work rfl (Or.inr rfl) (Bool.not_eq_true _ ▸ htoken)
          (Bool.not_eq_true _ ▸ hclosed) hnot hnot, Iff.rfl⟩
    · cases hstep
  | resolveApproval now =>
    simp only [next] at hstep
    split at hstep
    · next hrunner =>
      rw [← Option.some.inj hstep]
      have hnot : s.runner ≠ .persisted := by rw [hrunner]; decide
      simp only [resolveApproval, h.update_fenced]
      split
      · exact ⟨h, .other, step_silent rfl rfl id id Or.inl, Iff.rfl⟩
      next htoken =>
      by_cases hclosed : s.gate.closed = true
      · rw [if_pos hclosed]
        exact ⟨h, .other, step_silent rfl rfl id id Or.inl, Iff.rfl⟩
      · rw [if_neg hclosed]
        exact ⟨h.write rfl, .other, step_work rfl (Or.inl rfl) (Bool.not_eq_true _ ▸ htoken)
          (Bool.not_eq_true _ ▸ hclosed) hnot hnot, Iff.rfl⟩
    · cases hstep
  | converge cleanupSucceeded status stopReason finalAnswer =>
    simp only [next] at hstep
    split at hstep
    · next hrunner =>
      rw [← Option.some.inj hstep]
      refine ⟨h.setRunner fun _ _ _ he => ?_, .other,
        step_silent rfl rfl id id (fun hp => absurd (hrunner.symm.trans hp) nofun), Iff.rfl⟩
      rw [← (RunnerPhase.terminating.inj he).1]
      exact publicOutcome_terminal ..
    · cases hstep
  | persist now => exact refines_persist h hstep
  | closeGate =>
    simp only [next] at hstep
    split at hstep
    · rw [← Option.some.inj hstep]
      refine ⟨(h.close).setRunner ?_, .other,
        step_silent rfl rfl id (fun _ => rfl) fun _ => Or.inr rfl, Iff.rfl⟩
      rintro _ _ _ he
      cases he
    · cases hstep
  | release =>
    simp only [next] at hstep
    split at hstep
    · next hrunner =>
      rw [← Option.some.inj hstep]
      have hended : Shape { s with runner := RunnerPhase.ended } := h.setRunner nofun
      exact ⟨hended.setActive false, .other,
        step_silent rfl rfl id id (fun hp => absurd (hrunner.symm.trans hp) nofun), Iff.rfl⟩
    · cases hstep
  | cancel stored now =>
    rw [← Option.some.inj hstep]
    obtain ⟨hshape, label, hlabel, hok⟩ := refines_cancel h stored now
    exact ⟨hshape, label, hlabel, fun _ => trivial, fun _ => hok⟩
  | shutdownCancel stored now =>
    simp only [next] at hstep
    split at hstep
    · split at hstep
      · rw [← Option.some.inj hstep]
        obtain ⟨hshape, label, hlabel, hok⟩ := refines_cancel h stored now
        exact ⟨hshape.setShutdown nofun, label, hlabel, fun _ => trivial,
          fun _ => hok⟩
      · rw [← Option.some.inj hstep]
        exact ⟨h.setShutdown nofun, .other,
          step_silent rfl rfl id id Or.inl, Iff.rfl⟩
    · cases hstep
  | shutdownFind =>
    simp only [next] at hstep
    split at hstep
    · rw [← Option.some.inj hstep]
      refine ⟨h.setShutdown fun he => ?_, .other, step_silent rfl rfl id id Or.inl, Iff.rfl⟩
      split at he <;> cases he
    · cases hstep
  | shutdownClose =>
    simp only [next] at hstep
    split at hstep
    · rw [← Option.some.inj hstep]
      exact ⟨(h.close).setShutdown fun _ => rfl, .other,
        step_silent rfl rfl id (fun _ => rfl) Or.inl, Iff.rfl⟩
    · cases hstep
  | shutdownWrite now =>
    simp only [next] at hstep
    split at hstep
    · next hphase =>
      rw [← Option.some.inj hstep]
      exact ⟨(h.write rfl).setShutdown nofun, .interrupt,
        Step.interrupt (v := s.view) (h.shutdown_closed hphase), Iff.rfl⟩
    · cases hstep
  | shutdownRelease =>
    simp only [next] at hstep
    split at hstep
    · rw [← Option.some.inj hstep]
      exact ⟨(h.setActive false).setShutdown nofun, .other,
        step_silent rfl rfl id id Or.inl, Iff.rfl⟩
    · cases hstep

/-! ## The outcome of a run -/

/-- The threads around a run as a transition system. -/
abbrev RunnerStep (s : RunnerState) (action : RunnerAction) (s' : RunnerState) : Prop :=
  s.next action = some s'

theorem Registered.shape (h : s.Registered) : s.Shape where
  task_generation := h.generation
  gate_open _ := by rw [h.gate]
  gate_closed hclosed := by rw [h.gate] at hclosed; cases hclosed
  outcome_terminal _ _ _ he := by rw [h.runner] at he; cases he
  shutdown_closed he := by rw [h.shutdown] at he; cases he

theorem Registered.fenced (h : s.Registered) : Fenced s.view where
  cancel_logged he := by cases h.queued.symm.trans he
  cancel_token he := by
    have hnil : s.view.writes = [] := h.writes
    rw [hnil] at he
    cases he
  cancel_kept he := by
    have hnil : s.view.writes = [] := h.writes
    rw [hnil] at he
    cases he
  terminal_logged he := by
    have hqueued : s.view.status = .queued := h.queued
    rw [hqueued] at he
    cases he
  terminal_fenced he := by
    have hqueued : s.view.status = .queued := h.queued
    rw [hqueued] at he
    cases he

theorem Registered.lawful (h : s.Registered) : Lawful s.view := by
  have hnil : s.view.writes = [] := h.writes
  constructor
  · rw [hnil]
    exact ⟨List.Pairwise.nil, List.Pairwise.nil⟩
  · rw [hnil]
    simp

/--
**A run ends lawfully exactly when two writes come in time.**

Every run of the runner thread, any number of cancels and one shutdown: a persisted cancel is not
answered by `COMPLETED` or `BLOCKED` and the first terminal status is the last, if and only if no
`COMPLETED` or `BLOCKED` outcome decided before a cancel is persisted after it, and `shutdown`
never writes `INTERRUPTED` over another terminal status.
-/
theorem outcome_lawful_iff {t : RunnerState} {ms : List (Move RunnerState RunnerAction)}
    (hs : s.Registered) (h : Run RunnerStep s ms t) :
    OutcomeLaw t.writes ↔ ∀ m ∈ ms, OutcomeGuard m.pre m.act := by
  refine h.law_iff_of_exact (fun s => s.Shape ∧ Fenced s.view) (fun s => Lawful s.view)
    OutcomeGuard (fun s => OutcomeLaw s.writes) ?_ ?_ ?_ ?_ ⟨hs.shape, hs.fenced⟩ hs.lawful
  · intro s action s' hbase hstep
    obtain ⟨hshape, label, hlabel, -⟩ := next_refines hbase.1 hstep
    exact ⟨hshape, hlabel.fenced hbase.2⟩
  · intro s action s' hbase hinv hguard hstep
    obtain ⟨-, label, hlabel, hiff⟩ := next_refines hbase.1 hstep
    exact hlabel.lawful hbase.2 hinv (hiff.mpr hguard)
  · intro s hinv
    exact hinv.law
  · intro s action s' hbase hstep hlaw
    obtain ⟨-, label, hlabel, hiff⟩ := next_refines hbase.1 hstep
    exact ⟨hiff.mp (hlabel.writeOk hbase.2 hlaw), hlaw.of_prefix hlabel.writes_prefix⟩

end RunnerState

/-! ## Three runs of one task -/

namespace OneRun

def run : RunnerState where
  task :=
    { taskId := "task_1", sessionId := "ses_1", workspaceId := "ws_1", ownerId := "owner"
      runId := "run_1", input := "fix the build", createdAt := "t0", updatedAt := "t0" }

theorem registered : run.Registered := ⟨rfl, rfl, rfl, rfl, rfl, rfl, rfl⟩

/-- The run is started and its model returns a final answer. -/
def answer : List RunnerAction :=
  [.workerStart true true "t1", .initDone,
   .converge true "completed" "final_answer_returned" "done"]

/-- The outcome is persisted and the run released. -/
def complete : List RunnerAction := answer ++ [.persist "t2", .closeGate, .release]

/-- A cancel lands after the token was read and before the outcome is persisted. -/
def cancelLate : List RunnerAction := answer ++ [.cancel true "t2", .persist "t3"]

/-- `shutdown` finds the run between its last write and its release. -/
def shutdownLate : List RunnerAction :=
  answer ++ [.persist "t2", .shutdownCancel true "t3", .shutdownFind, .shutdownClose,
    .shutdownWrite "t4"]

end OneRun

namespace RunnerState

open RunView

theorem run_of_execute {actions : List RunnerAction} {s t : RunnerState}
    (h : execute next s actions = some t) : Run RunnerStep s (movesOf next s actions) t :=
  Run.of_execute (fun _ _ _ hnext => hnext) h

/-- A run nobody cancels ends lawfully. -/
theorem outcome_lawful_complete :
    ∃ t ms, Run RunnerStep OneRun.run ms t ∧ t.task.status = .completed ∧
      OutcomeLaw t.writes := by
  obtain ⟨t, ht⟩ : ∃ t, execute next OneRun.run OneRun.complete = some t := ⟨_, rfl⟩
  have hrun := run_of_execute ht
  refine ⟨t, _, hrun, ?_, (outcome_lawful_iff OneRun.registered hrun).mpr ?_⟩
  · rw [← Option.some.inj ht]
    rfl
  · refine List.forall_mem_cons.mpr ⟨trivial, List.forall_mem_cons.mpr ⟨trivial,
      List.forall_mem_cons.mpr ⟨trivial, List.forall_mem_cons.mpr ⟨?_,
      List.forall_mem_cons.mpr ⟨trivial, List.forall_mem_cons.mpr ⟨trivial,
      List.forall_mem_nil _⟩⟩⟩⟩⟩⟩
    -- the outcome is persisted over `RUNNING`
    intro _ _ _ _ _ hrequested
    cases hrequested

/-- **A cancelled run can complete, and a completed one be interrupted.** -/
theorem outcome_unlawful :
    (∃ t ms, Run RunnerStep OneRun.run ms t ∧ ¬ CancelWins t.writes) ∧
      ∃ t ms, Run RunnerStep OneRun.run ms t ∧ ¬ TerminalFinal t.writes := by
  constructor
  · obtain ⟨t, ht⟩ : ∃ t, execute next OneRun.run OneRun.cancelLate = some t := ⟨_, rfl⟩
    refine ⟨t, _, run_of_execute ht, ?_⟩
    have hwrites : t.writes =
        [(.worker, .running), (.cancel, .cancelRequested), (.worker, .completed)] := by
      rw [← Option.some.inj ht]
      rfl
    rw [hwrites, CancelWins]
    decide
  · obtain ⟨t, ht⟩ : ∃ t, execute next OneRun.run OneRun.shutdownLate = some t := ⟨_, rfl⟩
    refine ⟨t, _, run_of_execute ht, ?_⟩
    have hwrites : t.writes =
        [(.worker, .running), (.worker, .completed), (.shutdown, .interrupted)] := by
      rw [← Option.some.inj ht]
      rfl
    rw [hwrites, TerminalFinal]
    decide

end RunnerState

end ThreadForge

import ThreadForge.Lib.Faults
import ThreadForge.Orchestrator.NativeRunner

/-!
# The end of a run under faults

`run_lifecycle.py`, with each of its calls to the storage and to the event sink free to raise,
before or after it took effect. `finalizeRun` of the agent is one of these runs
(`finalizeRun_refines`).

## Main results

* `finalizeRun_returns` : no fault gets out
* `finalize_consistent_iff` : when the artifacts name the same end
-/

namespace ThreadForge

namespace RunLifecycle

open Eff Faults

/-! ## The artifacts -/

/-- The calls of `finalize_run` that can raise. `task_state.json` is written a second time where the
report failed. -/
inductive FinalizeCall
  | writeTaskState
  | emitTrace
  | buildReport
  | writeReport
  | rewriteTaskState
  deriving DecidableEq, Repr

/-- The call writes `task_state.json`. -/
def FinalizeCall.writesTaskState : FinalizeCall → Bool
  | .writeTaskState | .rewriteTaskState => true
  | _ => false

/-- The fields of a task state that `stop` sets, and `run_finished_emitted`. -/
structure TaskEnd where
  status : String
  stopReason : String
  finalAnswer : String := ""
  runFinishedEmitted : Bool := false
  deriving DecidableEq, Repr

namespace TaskEnd

/-- `TaskState.stop`. -/
def stop (t : TaskEnd) (stopReason status finalAnswer : String) : TaskEnd :=
  { t with
    status := status
    stopReason := stopReason
    finalAnswer := if finalAnswer ≠ "" then finalAnswer else t.finalAnswer }

/-- The end of a run whose artifacts could not be written. -/
def stopPersistence (t : TaskEnd) : TaskEnd :=
  t.stop "persistence_error" "failed" "agent run finalization failed: persistence error"

/-- Status and stop reason. -/
def outcome (t : TaskEnd) : RunFinished := ⟨t.status, t.stopReason⟩

/-- The stop reasons that `finalize_failed_run` takes over. -/
def failureReasons : List String := ["model_error", "runtime_error", "persistence_error"]

/-- What `finalize_failed_run` makes of a task state before it calls `finalize_run`. -/
def failRunning (t : TaskEnd) (stopReason errorType : String) : TaskEnd :=
  if t.status = "running" then
    t.stop (if stopReason ∈ failureReasons then stopReason else "runtime_error") "failed"
      ("agent run failed: " ++ errorType)
  else t

end TaskEnd

/-- The task state in memory, what is stored of the run, and which calls were made: those that
raised are marked by `false`. -/
structure FinalizeState where
  task : TaskEnd
  taskFile : Option TaskEnd := none
  report : Option RunFinished := none
  finished : List RunFinished := []
  attempts : List (FinalizeCall × Bool) := []
  deriving Repr

/-- A computation of `run_lifecycle.py`. What it raises is named by the call that raised it. -/
abbrev FinalizeM := Eff FinalizeState FinalizeCall

/-- A status and a stop reason as an event or a report shows them. -/
def publicEnd {X : Type} (env : AgentEnv X) (t : TaskEnd) : RunFinished where
  status := redactUnder env "status" t.status
  stopReason := redactUnder env "stop_reason" t.stopReason

section Source

variable {X : Type} (env : AgentEnv X) (faults : FinalizeCall → Fault)

/-- One call that can raise. -/
def call (c : FinalizeCall) (f : FinalizeState → FinalizeState) : FinalizeM Unit := do
  Eff.when ((faults c).takesEffect = true) (Eff.modify f)
  Eff.modify fun s => { s with attempts := s.attempts ++ [(c, decide (faults c = .none))] }
  Eff.when (faults c ≠ .none) (Eff.raise c)

/-- `run_store.write_task_state`. -/
def writeTaskState (c : FinalizeCall) : FinalizeM Unit :=
  call faults c fun s => { s with taskFile := some s.task }

/-- `emit_trace` of `run_finished`. -/
def emitTrace : FinalizeM Unit :=
  call faults .emitTrace fun s => { s with finished := s.finished ++ [publicEnd env s.task] }

/-- `redact_artifact` of `build_report`. -/
def buildReport : FinalizeM RunFinished := do
  call faults .buildReport id
  let s ← Eff.get
  pure (publicEnd env s.task)

/-- `run_store.write_report`. -/
def writeReport (report : RunFinished) : FinalizeM Unit :=
  call faults .writeReport fun s => { s with report := some report }

/-- A change of the task state. -/
def onTask (f : TaskEnd → TaskEnd) : FinalizeM Unit :=
  Eff.modify fun s => { s with task := f s.task }

/-- `try: m; except Exception: persistence_error = True`. -/
def persisted (m : FinalizeM Unit) : FinalizeM Bool :=
  Eff.tryExcept
    (do
      m
      pure true)
    (fun _ => true) fun _ => pure false

/-- `run_finished`, where it did not go out yet. -/
def backfillFinished : FinalizeM Unit := do
  let s ← Eff.get
  Eff.when (s.task.runFinishedEmitted = false) do
    emitTrace env faults
    onTask fun t => { t with runFinishedEmitted := true }

/-- The report, built and written. -/
def storeReport : FinalizeM Unit := do
  let report ← buildReport env faults
  writeReport faults report

/-- `finalize_run`. -/
def finalizeRun : FinalizeM Unit := do
  let stored ← persisted (writeTaskState faults .writeTaskState)
  let announced ← persisted (backfillFinished env faults)
  Eff.when ((stored && announced) = false) (onTask TaskEnd.stopPersistence)
  let reported ← persisted (storeReport env faults)
  Eff.when (reported = false) do
    onTask TaskEnd.stopPersistence
    let _ ← persisted (writeTaskState faults .rewriteTaskState)

/-- `finalize_failed_run`. -/
def finalizeFailedRun (stopReason errorType : String) : FinalizeM Unit := do
  onTask fun t => t.failRunning stopReason errorType
  finalizeRun env faults

end Source

/-! ## Statements -/

/-- The outcome of the last attempt to write `task_state.json`. -/
def lastWrite (attempts : List (FinalizeCall × Bool)) : Option Bool :=
  (attempts.reverse.find? fun a => a.1.writesTaskState).map Prod.snd

/-- Nothing got out, and the status and the stop reason in memory are those of `task_state.json`,
unless the last attempt to write it failed, and those of `report.json`, unless that failed. -/
structure Consistent (ended : Except FinalizeCall Unit × FinalizeState) : Prop where
  returns : ended.1 = .ok ()
  taskFile : lastWrite ended.2.attempts = some true →
    ended.2.taskFile.map TaskEnd.outcome = some ended.2.task.outcome
  report : (.writeReport, true) ∈ ended.2.attempts → ended.2.report = some ended.2.task.outcome

/-- The report is built and written. -/
def Reported (faults : FinalizeCall → Fault) : Prop :=
  faults .buildReport = .none ∧ faults .writeReport = .none

/-- The event goes out, or went out before. -/
def Announced (faults : FinalizeCall → Fault) (t : TaskEnd) : Prop :=
  t.runFinishedEmitted = true ∨ faults .emitTrace = .none

instance (faults : FinalizeCall → Fault) : Decidable (Reported faults) := instDecidableAnd

instance (faults : FinalizeCall → Fault) (t : TaskEnd) : Decidable (Announced faults t) :=
  instDecidableOr

/-- The task state after the first two calls. -/
def endAfter (faults : FinalizeCall → Fault) (t : TaskEnd) : TaskEnd :=
  if faults .writeTaskState = .none ∧ Announced faults t then t else t.stopPersistence

/-- Where the report is written: the event is not the only thing that failed, unless the run ended
in a persistence error before; and no secret is a part of what the report shows. -/
structure Sound {X : Type} (env : AgentEnv X) (faults : FinalizeCall → Fault) (t : TaskEnd) :
    Prop where
  announced : Reported faults → faults .writeTaskState = .none → ¬Announced faults t →
    t.outcome = t.stopPersistence.outcome
  readable : Reported faults → publicEnd env (endAfter faults t) = (endAfter faults t).outcome

/-! ## One call -/

variable {X : Type} {env : AgentEnv X} {faults : FinalizeCall → Fault} {s t : FinalizeState}
  {c : FinalizeCall} {f : FinalizeState → FinalizeState} {l more : List (FinalizeCall × Bool)}

/-- The state after a call. -/
def tried (faults : FinalizeCall → Fault) (c : FinalizeCall) (f : FinalizeState → FinalizeState)
    (s : FinalizeState) : FinalizeState :=
  let u := if (faults c).takesEffect then f s else s
  { u with attempts := u.attempts ++ [(c, decide (faults c = .none))] }

theorem run_call (faults : FinalizeCall → Fault) (c : FinalizeCall)
    (f : FinalizeState → FinalizeState) (s : FinalizeState) :
    (call faults c f).run s =
      (if faults c = .none then .ok () else .error c, tried faults c f s) := by
  unfold call tried
  rcases hfault : faults c
  · rfl
  · rfl
  · rfl

theorem run_persisted_ok {m : FinalizeM Unit} (h : m.run s = (.ok (), t)) :
    (persisted m).run s = (.ok true, t) := by
  unfold persisted
  refine run_tryExcept_ok ?_
  rw [run_bind_ok h, run_pure]

theorem run_persisted_error {m : FinalizeM Unit} (h : m.run s = (.error c, t)) :
    (persisted m).run s = (.ok false, t) := by
  unfold persisted
  rw [run_tryExcept_caught (run_bind_error h) rfl, run_pure]

/-- A call on its own never raises: it answers whether it went through. -/
theorem run_persisted_call (faults : FinalizeCall → Fault) (c : FinalizeCall)
    (f : FinalizeState → FinalizeState) (s : FinalizeState) :
    (persisted (call faults c f)).run s =
      (.ok (decide (faults c = .none)), tried faults c f s) := by
  have hcall := run_call faults c f s
  by_cases hfault : faults c = .none
  · rw [if_pos hfault] at hcall
    rw [run_persisted_ok hcall, decide_eq_true hfault]
  · rw [if_neg hfault] at hcall
    rw [run_persisted_error hcall, decide_eq_false hfault]

/-! ## The log -/

/-- The calls of a list leave `task_state.json` alone. -/
def Others (more : List (FinalizeCall × Bool)) : Prop := ∀ a ∈ more, a.1.writesTaskState = false

theorem lastWrite_append (h : Others more) : lastWrite (l ++ more) = lastWrite l := by
  have hnone : more.reverse.find? (fun a => a.1.writesTaskState) = none := by
    refine List.find?_eq_none.mpr fun a ha => ?_
    rw [h a (List.mem_reverse.mp ha)]
    exact Bool.false_ne_true
  unfold lastWrite
  rw [List.reverse_append, List.find?_append, hnone, Option.none_or]

theorem lastWrite_concat {ok : Bool} (h : c.writesTaskState = true) :
    lastWrite (l ++ [(c, ok)]) = some ok := by
  unfold lastWrite
  have hfind : ((c, ok) :: l.reverse).find? (fun a => a.1.writesTaskState) = some (c, ok) :=
    List.find?_cons_of_pos h
  rw [List.reverse_append, List.reverse_singleton, List.singleton_append, hfind]
  rfl

/-- What the steps between two writes of `task_state.json` do: they keep it, and the outcome. -/
structure Between (s t : FinalizeState) : Prop where
  outcome : t.task.outcome = s.task.outcome
  taskFile : t.taskFile = s.taskFile
  attempts : ∃ more, t.attempts = s.attempts ++ more ∧ Others more

theorem Between.lastWrite (h : Between s t) : lastWrite t.attempts = lastWrite s.attempts := by
  obtain ⟨more, hattempts, hothers⟩ := h.attempts
  rw [hattempts, lastWrite_append hothers]

theorem Between.trans {u : FinalizeState} (h : Between s t) (h' : Between t u) : Between s u where
  outcome := h'.outcome.trans h.outcome
  taskFile := h'.taskFile.trans h.taskFile
  attempts := by
    obtain ⟨more, hattempts, hothers⟩ := h.attempts
    obtain ⟨more', hattempts', hothers'⟩ := h'.attempts
    refine ⟨more ++ more', by rw [hattempts', hattempts, List.append_assoc], fun a ha => ?_⟩
    rcases List.mem_append.mp ha with hmem | hmem
    · exact hothers a hmem
    · exact hothers' a hmem

/-- A call that changes neither the task state nor `task_state.json`. -/
theorem Between.tried (hc : c.writesTaskState = false) (htask : (f s).task = s.task)
    (hfile : (f s).taskFile = s.taskFile) (hlog : (f s).attempts = s.attempts) :
    Between s (tried faults c f s) := by
  have hothers : Others [(c, decide (faults c = .none))] := by
    intro a ha
    rw [List.mem_singleton.mp ha]
    exact hc
  unfold RunLifecycle.tried
  split
  · exact ⟨congrArg TaskEnd.outcome htask, hfile, _, by dsimp only; rw [hlog], hothers⟩
  · exact ⟨rfl, rfl, _, rfl, hothers⟩

/-! ## The steps of `finalize_run` -/

/-- The event goes out unless it did before or its call fails. -/
theorem run_backfillFinished (env : AgentEnv X) (faults : FinalizeCall → Fault)
    (s : FinalizeState) :
    ∃ t, (persisted (backfillFinished env faults)).run s =
        (.ok (decide (Announced faults s.task)), t) ∧
      Between s t ∧ t.report = s.report ∧
        ((.writeReport, true) ∈ t.attempts → (.writeReport, true) ∈ s.attempts) := by
  by_cases hemitted : s.task.runFinishedEmitted = true
  · -- the loop announced this end itself
    have hrun : (backfillFinished env faults).run s = (.ok (), s) := by
      unfold backfillFinished
      rw [run_get_bind, when_neg (by rw [hemitted]; exact Bool.true_eq_false_eq_False), run_pure]
    refine ⟨s, ?_, ⟨rfl, rfl, [], (List.append_nil _).symm, fun a ha => absurd ha List.not_mem_nil⟩,
      rfl, id⟩
    have hannounced : Announced faults s.task := Or.inl hemitted
    rw [run_persisted_ok hrun, decide_eq_true hannounced]
  · have hnot : s.task.runFinishedEmitted = false := Bool.eq_false_iff.mpr hemitted
    have hcall := run_call faults .emitTrace
      (fun s => { s with finished := s.finished ++ [publicEnd env s.task] }) s
    have hbetween : Between s (tried faults .emitTrace
        (fun s => { s with finished := s.finished ++ [publicEnd env s.task] }) s) :=
      Between.tried rfl rfl rfl rfl
    have hreport : (tried faults .emitTrace
        (fun s => { s with finished := s.finished ++ [publicEnd env s.task] }) s).report =
          s.report := by
      unfold tried
      split <;> rfl
    have hlog : (.writeReport, true) ∈ (tried faults .emitTrace
        (fun s => { s with finished := s.finished ++ [publicEnd env s.task] }) s).attempts →
          (.writeReport, true) ∈ s.attempts := by
      intro hmem
      unfold tried at hmem
      split at hmem <;> simpa using hmem
    generalize tried faults .emitTrace
      (fun s => { s with finished := s.finished ++ [publicEnd env s.task] }) s = u
      at hcall hbetween hreport hlog
    by_cases hfault : faults .emitTrace = .none
    · rw [if_pos hfault] at hcall
      have hannounced : Announced faults s.task := Or.inr hfault
      refine ⟨{ u with task := { u.task with runFinishedEmitted := true } }, ?_,
        hbetween.trans ⟨rfl, rfl, [], (List.append_nil _).symm,
          fun a ha => absurd ha List.not_mem_nil⟩, hreport, hlog⟩
      rw [decide_eq_true hannounced]
      refine run_persisted_ok ?_
      unfold backfillFinished
      rw [run_get_bind, when_pos hnot, emitTrace, run_bind_ok hcall]
      rfl
    · rw [if_neg hfault] at hcall
      refine ⟨_, ?_, hbetween, hreport, hlog⟩
      have hno : ¬Announced faults s.task := fun h => h.elim hemitted hfault
      rw [decide_eq_false hno]
      have hrun : (backfillFinished env faults).run s = (.error .emitTrace, u) := by
        unfold backfillFinished
        rw [run_get_bind, when_pos hnot, emitTrace, run_bind_error hcall]
      exact run_persisted_error hrun

/-- The report shows the task state as it is then, where it is written. -/
theorem run_storeReport (env : AgentEnv X) (faults : FinalizeCall → Fault) (s : FinalizeState) :
    ∃ t, (persisted (storeReport env faults)).run s = (.ok (decide (Reported faults)), t) ∧
      Between s t ∧ (Reported faults → t.report = some (publicEnd env s.task) ∧
          (.writeReport, true) ∈ t.attempts) ∧
        ((.writeReport, true) ∈ t.attempts →
          Reported faults ∨ (.writeReport, true) ∈ s.attempts) := by
  have hbuild := run_call faults .buildReport id s
  have hbuilt : Between s (tried faults .buildReport id s) := Between.tried rfl rfl rfl rfl
  have hlog : (.writeReport, true) ∈ (tried faults .buildReport id s).attempts →
      (.writeReport, true) ∈ s.attempts := by
    intro hmem
    unfold tried at hmem
    split at hmem <;> simpa using hmem
  have htask : (tried faults .buildReport id s).task = s.task := by
    unfold tried
    split <;> rfl
  by_cases hfault : faults .buildReport = .none
  · rw [if_pos hfault] at hbuild
    generalize tried faults .buildReport id s = u at hbuild hbuilt hlog htask
    have hrun : (buildReport env faults).run s = (.ok (publicEnd env s.task), u) := by
      unfold buildReport
      rw [run_bind_ok hbuild, run_get_bind, run_pure, htask]
    have hwrite := run_call faults .writeReport
      (fun t => { t with report := some (publicEnd env s.task) }) u
    have hwritten : Between u (tried faults .writeReport
        (fun t => { t with report := some (publicEnd env s.task) }) u) :=
      Between.tried rfl rfl rfl rfl
    refine ⟨_, ?_, hbuilt.trans hwritten, ?_, ?_⟩
    · by_cases hfault' : faults .writeReport = .none
      · rw [if_pos hfault'] at hwrite
        rw [decide_eq_true ⟨hfault, hfault'⟩]
        refine run_persisted_ok ?_
        unfold storeReport
        rw [run_bind_ok hrun]
        exact hwrite
      · rw [if_neg hfault'] at hwrite
        rw [decide_eq_false fun h => hfault' h.2]
        refine run_persisted_error (c := .writeReport) ?_
        unfold storeReport
        rw [run_bind_ok hrun]
        exact hwrite
    · intro hreported
      unfold tried
      rw [hreported.2]
      exact ⟨rfl, List.mem_append_right _ (List.mem_singleton.mpr rfl)⟩
    · intro hmem
      unfold tried at hmem
      have hcases : (.writeReport, true) ∈ u.attempts ∨ faults .writeReport = .none := by
        split at hmem <;> simpa using hmem
      rcases hcases with hold | hfault'
      · exact Or.inr (hlog hold)
      · exact Or.inl ⟨hfault, hfault'⟩
  · rw [if_neg hfault] at hbuild
    refine ⟨_, ?_, hbuilt, fun h => absurd h.1 hfault, fun hmem => Or.inr (hlog hmem)⟩
    rw [decide_eq_false fun h => hfault h.1]
    refine run_persisted_error (c := .buildReport) ?_
    unfold storeReport buildReport
    rw [run_bind_error (run_bind_error hbuild)]

theorem publicEnd_congr {a b : TaskEnd} (h : a.outcome = b.outcome) :
    publicEnd env a = publicEnd env b := by
  have hstatus : a.status = b.status := congrArg RunFinished.status h
  have hreason : a.stopReason = b.stopReason := congrArg RunFinished.stopReason h
  rw [publicEnd, publicEnd, hstatus, hreason]

/-- A task state that was stopped names the persistence error, whatever it was before. -/
theorem outcome_stopPersistence (a b : TaskEnd) :
    a.stopPersistence.outcome = b.stopPersistence.outcome := rfl

/-- The run up to the report. -/
theorem run_beforeReport (env : AgentEnv X) (faults : FinalizeCall → Fault) (s : FinalizeState)
    (hlog : s.attempts = []) :
    ∃ u, u.task.outcome = (endAfter faults s.task).outcome ∧
      (faults .writeTaskState = .none → u.taskFile = some s.task) ∧
      lastWrite u.attempts = some (decide (faults .writeTaskState = .none)) ∧
      (.writeReport, true) ∉ u.attempts ∧
      (finalizeRun env faults).run s = (do
        let reported ← persisted (storeReport env faults)
        Eff.when (reported = false) do
          onTask TaskEnd.stopPersistence
          let _ ← persisted (writeTaskState faults .rewriteTaskState)).run u := by
  have hwrite := run_persisted_call faults .writeTaskState
    (fun s => { s with taskFile := some s.task }) s
  have htask : (tried faults .writeTaskState
      (fun s => { s with taskFile := some s.task }) s).task = s.task := by
    unfold tried
    split <;> rfl
  have hfile : faults .writeTaskState = .none → (tried faults .writeTaskState
      (fun s => { s with taskFile := some s.task }) s).taskFile = some s.task := by
    intro hfault
    unfold tried
    rw [hfault]
    rfl
  have hattempts : (tried faults .writeTaskState
      (fun s => { s with taskFile := some s.task }) s).attempts =
        s.attempts ++ [(.writeTaskState, decide (faults .writeTaskState = .none))] := by
    unfold tried
    split <;> rfl
  generalize tried faults .writeTaskState (fun s => { s with taskFile := some s.task }) s = v
    at hwrite htask hfile hattempts
  have hlast : lastWrite v.attempts = some (decide (faults .writeTaskState = .none)) := by
    rw [hattempts, lastWrite_concat rfl]
  have hnot : (.writeReport, true) ∉ v.attempts := by
    rw [hattempts, hlog]
    simp
  obtain ⟨w, hbackfill, hbetween, -, hreports⟩ := run_backfillFinished env faults v
  rw [htask] at hbackfill
  have hstored : (writeTaskState faults .writeTaskState) =
      call faults .writeTaskState fun s => { s with taskFile := some s.task } := rfl
  by_cases hsound : faults .writeTaskState = .none ∧ Announced faults s.task
  · refine ⟨w, ?_, fun hfault => hbetween.taskFile.trans (hfile hfault),
      hbetween.lastWrite.trans hlast, fun h => hnot (hreports h), ?_⟩
    · rw [hbetween.outcome, htask, endAfter, if_pos hsound]
    · rw [decide_eq_true hsound.1] at hwrite
      rw [decide_eq_true hsound.2] at hbackfill
      unfold finalizeRun
      rw [hstored, run_bind_ok hwrite, run_bind_ok hbackfill, when_neg (by decide), run_pure_bind]
  · refine ⟨{ w with task := w.task.stopPersistence }, ?_,
      fun hfault => hbetween.taskFile.trans (hfile hfault), hbetween.lastWrite.trans hlast,
      fun h => hnot (hreports h), ?_⟩
    · rw [endAfter, if_neg hsound]
      exact outcome_stopPersistence _ _
    · have hfailed : (decide (faults .writeTaskState = .none) &&
          decide (Announced faults s.task)) = false := by
        rw [← Bool.decide_and, decide_eq_false hsound]
      unfold finalizeRun
      rw [hstored, run_bind_ok hwrite, run_bind_ok hbackfill, when_pos hfailed]
      rfl

/-- What `finalize_run` leaves, for each outcome of the report. -/
theorem finalizeRun_spec (env : AgentEnv X) (faults : FinalizeCall → Fault) (s : FinalizeState)
    (hlog : s.attempts = []) :
    ∃ t, (finalizeRun env faults).run s = (.ok (), t) ∧
      (Reported faults →
        t.task.outcome = (endAfter faults s.task).outcome ∧
        (faults .writeTaskState = .none → t.taskFile = some s.task) ∧
        lastWrite t.attempts = some (decide (faults .writeTaskState = .none)) ∧
        (.writeReport, true) ∈ t.attempts ∧
        t.report = some (publicEnd env (endAfter faults s.task))) ∧
      (¬Reported faults →
        (.writeReport, true) ∉ t.attempts ∧
        (lastWrite t.attempts = some true → t.taskFile = some t.task)) := by
  obtain ⟨u, houtcome, hfile, hlast, hnot, hrun⟩ := run_beforeReport env faults s hlog
  obtain ⟨v, hreport, hbetween, hwritten, hreports⟩ := run_storeReport env faults u
  by_cases hreported : Reported faults
  · obtain ⟨hshown, hmem⟩ := hwritten hreported
    refine ⟨v, ?_, fun _ => ⟨hbetween.outcome.trans houtcome,
      fun hfault => hbetween.taskFile.trans (hfile hfault), hbetween.lastWrite.trans hlast, hmem,
      by rw [hshown, publicEnd_congr houtcome]⟩, fun h => absurd hreported h⟩
    rw [decide_eq_true hreported] at hreport
    rw [hrun, run_bind_ok hreport, when_neg (by decide), run_pure]
  · -- the task state is stopped, and written once more
    have hrewrite := run_persisted_call faults .rewriteTaskState
      (fun s => { s with taskFile := some s.task })
      { v with task := v.task.stopPersistence }
    refine ⟨tried faults .rewriteTaskState (fun s => { s with taskFile := some s.task })
      { v with task := v.task.stopPersistence }, ?_, fun h => absurd h hreported,
      fun _ => ⟨fun h => ?_, fun h => ?_⟩⟩
    · rw [decide_eq_false hreported] at hreport
      rw [hrun, run_bind_ok hreport, when_pos rfl]
      exact run_bind_ok hrewrite
    · unfold tried at h
      have hmem : (.writeReport, true) ∈ v.attempts := by
        split at h <;> simpa using h
      rcases hreports hmem with hyes | hold
      · exact hreported hyes
      · exact hnot hold
    · by_cases hfault : faults .rewriteTaskState = .none
      · unfold tried
        rw [hfault]
        rfl
      · unfold tried at h
        rw [lastWrite_concat rfl, decide_eq_false hfault] at h
        cases h

/-! ## Agreement -/

/-- Whatever its calls raise, `finalize_run` does not. -/
theorem finalizeRun_returns (env : AgentEnv X) (faults : FinalizeCall → Fault) (s : FinalizeState)
    (hlog : s.attempts = []) : ((finalizeRun env faults).run s).1 = .ok () := by
  obtain ⟨t, hrun, -⟩ := finalizeRun_spec env faults s hlog
  rw [hrun]

theorem consistent_finalizeRun_iff (env : AgentEnv X) (faults : FinalizeCall → Fault)
    (s : FinalizeState) (hlog : s.attempts = []) :
    Consistent ((finalizeRun env faults).run s) ↔ Sound env faults s.task := by
  obtain ⟨t, hrun, hyes, hno⟩ := finalizeRun_spec env faults s hlog
  rw [hrun]
  by_cases hreported : Reported faults
  · obtain ⟨houtcome, hfile, hlast, hmem, hreport⟩ := hyes hreported
    constructor
    · intro hconsistent
      refine ⟨fun _ hstored hsilent => ?_, fun _ => ?_⟩
      · -- `task_state.json` holds the state from before the event failed
        have hsame := hconsistent.taskFile (hlast.trans (by rw [decide_eq_true hstored]))
        dsimp only at hsame
        rw [hfile hstored, Option.map_some, houtcome, endAfter,
          if_neg fun h => hsilent h.2] at hsame
        exact Option.some.inj hsame
      · have hshown := hconsistent.report hmem
        dsimp only at hshown
        rw [hreport, houtcome] at hshown
        exact Option.some.inj hshown
    · intro hsound
      refine ⟨rfl, fun hwritten => ?_, fun _ => ?_⟩
      · dsimp only at hwritten ⊢
        rw [hlast] at hwritten
        have hstored : faults .writeTaskState = .none := by simpa using hwritten
        rw [hfile hstored, Option.map_some, houtcome, endAfter]
        split
        · rfl
        · next hnot =>
          rw [hsound.announced hreported hstored fun h => hnot ⟨hstored, h⟩]
      · dsimp only
        rw [hreport, houtcome, hsound.readable hreported]
  · obtain ⟨hunreported, hfile⟩ := hno hreported
    refine iff_of_true ⟨rfl, fun hwritten => ?_, fun h => absurd h hunreported⟩
      ⟨fun h => absurd h hreported, fun h => absurd h hreported⟩
    dsimp only
    rw [hfile hwritten, Option.map_some]

/-! ## The agent

The services of an agent fail as they like, so its `finalizeRun` is a run of `finalize_run` with
some faults. -/

section Refinement

variable {a : AgentState X}

/-- The end of a task state. -/
def endOf (t : TaskState) : TaskEnd :=
  ⟨t.status.text, stopReasonText t.stopReason, t.finalAnswer, t.runFinishedEmitted⟩

/-- What an agent has stored of its run. -/
def stateOf (a : AgentState X) : FinalizeState where
  task := endOf a.task
  taskFile := a.taskFile.map endOf
  report := a.report
  finished := a.finished

/-- The state of a run of `finalize_run` is what the agent has stored. -/
def Shows (a : AgentState X) (f : FinalizeState) : Prop :=
  ∃ log, f = { stateOf a with attempts := log }

/-- A call that goes through, or one that raises before it takes effect. -/
def faultOf (ok : Bool) : Fault := if ok then .none else .before

/-- The calls that go through. -/
def faultsOf (stored announced reported rewritten : Bool) : FinalizeCall → Fault
  | .writeTaskState => faultOf stored
  | .emitTrace => faultOf announced
  | .buildReport => .none
  | .writeReport => faultOf reported
  | .rewriteTaskState => faultOf rewritten

theorem persisted_agent_ok {m : AgentM X Unit} {u : AgentState X} (h : m.run a = (.ok (), u)) :
    (ThreadForge.persisted m).run a = (.ok true, u) := run_tryExcept_ok (run_bind_ok h)

theorem persisted_agent_error {m : AgentM X Unit} {u : AgentState X} {e : Failure}
    (h : m.run a = (.error e, u)) : (ThreadForge.persisted m).run a = (.ok false, u) :=
  run_tryExcept_caught (run_bind_error h) rfl

/-- A service moves the world alone. -/
theorem run_service_cases (env : AgentEnv X) (service : Service) (a : AgentState X) :
    (∃ w, (AgentM.service env service).run a = (.ok (), { a with world := w })) ∨
      ∃ failure w,
        (AgentM.service env service).run a = (.error failure, { a with world := w }) := by
  have hservice : (AgentM.service env service).run a =
      (AgentM.outer (env.service service a.task)).run a := rfl
  rw [hservice]
  unfold AgentM.outer
  dsimp only
  rcases env.service service a.task a.world with ⟨trouble | result, w⟩
  · cases trouble with
    | cancelled => exact Or.inr ⟨_, w, rfl⟩
    | error err => exact Or.inr ⟨_, w, rfl⟩
  · exact Or.inl ⟨w, rfl⟩

theorem run_call_through (h : faults c = faultOf true) (f : FinalizeState → FinalizeState)
    (s : FinalizeState) :
    (call faults c f).run s =
      (.ok (), { f s with attempts := (f s).attempts ++ [(c, true)] }) := by
  have hnone : faults c = .none := h
  rw [run_call, if_pos hnone]
  unfold tried
  rw [hnone]
  rfl

theorem run_call_stopped (h : faults c = faultOf false) (f : FinalizeState → FinalizeState)
    (s : FinalizeState) :
    (call faults c f).run s = (.error c, { s with attempts := s.attempts ++ [(c, false)] }) := by
  have hbefore : faults c = .before := h
  rw [run_call, if_neg (by rw [hbefore]; decide)]
  unfold tried
  rw [hbefore]
  rfl

/-- The first call and the last: `task_state.json` holds the state of the agent, or what it held. -/
theorem follow_writeTaskState (env : AgentEnv X) (a : AgentState X) :
    ∃ ok b, (ThreadForge.persisted (AgentM.writeTaskState env)).run a = (.ok ok, b) ∧
      ∀ faults c f, Shows a f → faults c = faultOf ok →
        ∃ g, (persisted (writeTaskState faults c)).run f = (.ok ok, g) ∧ Shows b g := by
  rcases run_service_cases env .writeTaskState a with ⟨w, hrun⟩ | ⟨failure, w, hrun⟩
  · refine ⟨true, { a with world := w, taskFile := some a.task }, persisted_agent_ok ?_, ?_⟩
    · unfold AgentM.writeTaskState
      rw [run_bind_ok hrun]
      rfl
    · rintro faults c _ ⟨log, rfl⟩ hfault
      exact ⟨_, run_persisted_ok (run_call_through hfault _ _), _, rfl⟩
  · refine ⟨false, { a with world := w }, persisted_agent_error (e := failure) ?_, ?_⟩
    · unfold AgentM.writeTaskState
      rw [run_bind_error hrun]
    · rintro faults c _ ⟨log, rfl⟩ hfault
      exact ⟨_, run_persisted_error (run_call_stopped hfault _ _), _, rfl⟩

/-- The event, where it did not go out yet. -/
theorem follow_backfillFinished (env : AgentEnv X) (a : AgentState X) :
    ∃ ok b, (ThreadForge.persisted (ThreadForge.backfillFinished env)).run a = (.ok ok, b) ∧
      ∀ faults f, Shows a f → faults .emitTrace = faultOf ok →
        ∃ g, (persisted (backfillFinished env faults)).run f = (.ok ok, g) ∧ Shows b g := by
  have hflag : ∀ log, ({ stateOf a with attempts := log } : FinalizeState).task.runFinishedEmitted =
      a.task.runFinishedEmitted := fun _ => rfl
  by_cases hemitted : a.task.runFinishedEmitted = false
  swap
  · refine ⟨true, a, persisted_agent_ok ?_, ?_⟩
    · unfold ThreadForge.backfillFinished
      rw [AgentM.run_task_bind, when_neg hemitted, run_pure]
    · rintro faults _ ⟨log, rfl⟩ -
      refine ⟨_, run_persisted_ok ?_, log, rfl⟩
      unfold backfillFinished
      rw [run_get_bind, when_neg ((hflag log).trans_ne hemitted), run_pure]
  rcases run_service_cases env (.trace "run_finished") a with ⟨w, hrun⟩ | ⟨failure, w, hrun⟩
  · have hemit : (AgentM.emitRunFinished env).run a = (.ok (), { a with
        world := w
        finished := a.finished ++ [publicOutcome env a.task] }) := by
      unfold AgentM.emitRunFinished
      rw [AgentM.run_task_bind, run_bind_ok hrun]
      rfl
    refine ⟨true, { a with
      world := w
      finished := a.finished ++ [publicOutcome env a.task]
      task := a.task.announced }, persisted_agent_ok ?_, ?_⟩
    · unfold ThreadForge.backfillFinished
      rw [AgentM.run_task_bind, when_pos hemitted, run_bind_ok hemit]
      rfl
    · rintro faults _ ⟨log, rfl⟩ hfault
      have hgo : (backfillFinished env faults).run { stateOf a with attempts := log } = (.ok (), {
          stateOf a with
            finished := a.finished ++ [publicOutcome env a.task]
            task := endOf a.task.announced
            attempts := log ++ [(.emitTrace, true)] }) := by
        unfold backfillFinished emitTrace
        rw [run_get_bind, when_pos ((hflag log).trans hemitted),
          run_bind_ok (run_call_through hfault _ _)]
        rfl
      exact ⟨_, run_persisted_ok hgo, _, rfl⟩
  · have hemit : (AgentM.emitRunFinished env).run a = (.error failure, { a with world := w }) := by
      unfold AgentM.emitRunFinished
      rw [AgentM.run_task_bind, run_bind_error hrun]
    refine ⟨false, { a with world := w }, persisted_agent_error (e := failure) ?_, ?_⟩
    · unfold ThreadForge.backfillFinished
      rw [AgentM.run_task_bind, when_pos hemitted, run_bind_error hemit]
    · rintro faults _ ⟨log, rfl⟩ hfault
      have hgo : (backfillFinished env faults).run { stateOf a with attempts := log } =
          (.error .emitTrace, { stateOf a with attempts := log ++ [(.emitTrace, false)] }) := by
        unfold backfillFinished emitTrace
        rw [run_get_bind, when_pos ((hflag log).trans hemitted),
          run_bind_error (run_call_stopped hfault _ _)]
      exact ⟨_, run_persisted_error hgo, _, rfl⟩

/-- The report. -/
theorem follow_writeReport (env : AgentEnv X) (a : AgentState X) :
    ∃ ok b, (ThreadForge.persisted (AgentM.writeReport env)).run a = (.ok ok, b) ∧
      ∀ faults f, Shows a f → faults .buildReport = faultOf true →
        faults .writeReport = faultOf ok →
          ∃ g, (persisted (storeReport env faults)).run f = (.ok ok, g) ∧ Shows b g := by
  have hbuild : ∀ faults log, faults .buildReport = faultOf true →
      (buildReport env faults).run { stateOf a with attempts := log } =
        (.ok (publicOutcome env a.task),
          { stateOf a with attempts := log ++ [(.buildReport, true)] }) := by
    intro faults log hfault
    unfold buildReport
    rw [run_bind_ok (run_call_through hfault _ _)]
    rfl
  rcases run_service_cases env .writeReport a with ⟨w, hrun⟩ | ⟨failure, w, hrun⟩
  · refine ⟨true, { a with world := w, report := some (publicOutcome env a.task) },
      persisted_agent_ok ?_, ?_⟩
    · unfold AgentM.writeReport
      rw [AgentM.run_task_bind, run_bind_ok hrun]
      rfl
    · rintro faults _ ⟨log, rfl⟩ hbuilt hfault
      refine ⟨_, run_persisted_ok ?_, log ++ [(.buildReport, true)] ++ [(.writeReport, true)], rfl⟩
      unfold storeReport writeReport
      rw [run_bind_ok (hbuild faults log hbuilt), run_call_through hfault]
      rfl
  · refine ⟨false, { a with world := w }, persisted_agent_error (e := failure) ?_, ?_⟩
    · unfold AgentM.writeReport
      rw [AgentM.run_task_bind, run_bind_error hrun]
    · rintro faults _ ⟨log, rfl⟩ hbuilt hfault
      refine ⟨_, run_persisted_error (c := .writeReport) ?_,
        log ++ [(.buildReport, true)] ++ [(.writeReport, false)], rfl⟩
      unfold storeReport writeReport
      rw [run_bind_ok (hbuild faults log hbuilt), run_call_stopped hfault]
      rfl

theorem Shows.stopPersistence {f : FinalizeState} (h : Shows a f) :
    Shows { a with task := a.task.stopPersistence }
      { f with task := f.task.stopPersistence } := by
  obtain ⟨log, rfl⟩ := h
  exact ⟨log, rfl⟩

/-- **`finalize_run` of the agent is a run with faults.** -/
theorem finalizeRun_refines (env : AgentEnv X) (a : AgentState X) :
    ∃ faults b g, (ThreadForge.finalizeRun env).run a = (.ok (), b) ∧
      (finalizeRun env faults).run (stateOf a) = (.ok (), g) ∧ Shows b g := by
  obtain ⟨stored, b, hb, hstore⟩ := follow_writeTaskState env a
  obtain ⟨announced, c, hc, hannounce⟩ := follow_backfillFinished env b
  -- the agent after the handlers of the first two calls
  obtain ⟨d, hd, hstop⟩ : ∃ d,
      (Eff.when ((stored && announced) = false) (AgentM.onTask TaskState.stopPersistence)).run c =
        (.ok (), d) ∧
      ∀ g, Shows c g → ∃ g', (Eff.when ((stored && announced) = false)
        (onTask TaskEnd.stopPersistence)).run g = (.ok (), g') ∧ Shows d g' := by
    by_cases hfailed : (stored && announced) = false
    · rw [when_pos hfailed]
      refine ⟨_, rfl, fun g hg => ?_⟩
      rw [when_pos hfailed]
      exact ⟨_, rfl, hg.stopPersistence⟩
    · rw [when_neg hfailed]
      refine ⟨c, rfl, fun g hg => ?_⟩
      rw [when_neg hfailed]
      exact ⟨g, rfl, hg⟩
  obtain ⟨reported, e, he, hreport⟩ := follow_writeReport env d
  obtain ⟨rewritten, b', hb', hrewrite⟩ := follow_writeTaskState env
    { e with task := e.task.stopPersistence }
  have hstart : Shows a (stateOf a) := ⟨[], rfl⟩
  obtain ⟨g₁, hg₁, hshows₁⟩ := hstore (faultsOf stored announced reported rewritten)
    .writeTaskState _ hstart rfl
  obtain ⟨g₂, hg₂, hshows₂⟩ := hannounce (faultsOf stored announced reported rewritten) _ hshows₁
    rfl
  obtain ⟨g₃, hg₃, hshows₃⟩ := hstop _ hshows₂
  obtain ⟨g₄, hg₄, hshows₄⟩ := hreport (faultsOf stored announced reported rewritten) _ hshows₃
    rfl rfl
  have hagent : (ThreadForge.finalizeRun env).run a = (do
      let reported ← ThreadForge.persisted (AgentM.writeReport env)
      Eff.when (reported = false) do
        AgentM.onTask TaskState.stopPersistence
        let _ ← ThreadForge.persisted (AgentM.writeTaskState env)).run d := by
    unfold ThreadForge.finalizeRun
    rw [run_bind_ok hb, run_bind_ok hc, run_bind_ok hd]
  have hmodel : (finalizeRun env (faultsOf stored announced reported rewritten)).run (stateOf a) =
      (do
        let reported ← persisted
          (storeReport env (faultsOf stored announced reported rewritten))
        Eff.when (reported = false) do
          onTask TaskEnd.stopPersistence
          let _ ← persisted (writeTaskState (faultsOf stored announced reported rewritten)
            .rewriteTaskState)).run g₃ := by
    unfold finalizeRun
    rw [run_bind_ok hg₁, run_bind_ok hg₂, run_bind_ok hg₃]
    rfl
  cases reported with
  | true =>
    refine ⟨faultsOf stored announced true rewritten, e, g₄, ?_, ?_, hshows₄⟩
    · rw [hagent, run_bind_ok he, when_neg (by decide), run_pure]
    · rw [hmodel, run_bind_ok hg₄, when_neg (by decide), run_pure]
  | false =>
    obtain ⟨g₅, hg₅, hshows₅⟩ := hrewrite (faultsOf stored announced false rewritten)
      .rewriteTaskState _ hshows₄.stopPersistence rfl
    refine ⟨faultsOf stored announced false rewritten, b', g₅, ?_, ?_, hshows₅⟩
    · rw [hagent, run_bind_ok he, when_pos rfl]
      exact run_bind_ok hb'
    · rw [hmodel, run_bind_ok hg₄, when_pos rfl]
      exact run_bind_ok hg₅

end Refinement

/-- **The artifacts of a run name one end exactly if, where the report is written, the event is not
all that failed, unless the run had ended in a persistence error, and no secret is a part of what
the report shows.** -/
theorem finalize_consistent_iff (env : AgentEnv X) (faults : FinalizeCall → Fault)
    (task : TaskEnd) (taskFile : Option TaskEnd) (report : Option RunFinished)
    (finished : List RunFinished) :
    (Consistent ((finalizeRun env faults).run ⟨task, taskFile, report, finished, []⟩) ↔
        Sound env faults task) ∧
      ∀ stopReason errorType,
        Consistent ((finalizeFailedRun env faults stopReason errorType).run
            ⟨task, taskFile, report, finished, []⟩) ↔
          Sound env faults (task.failRunning stopReason errorType) := by
  refine ⟨consistent_finalizeRun_iff env faults _ rfl, fun stopReason errorType => ?_⟩
  unfold finalizeFailedRun onTask
  rw [run_modify_bind]
  exact consistent_finalizeRun_iff env faults _ rfl

/-- A completed run whose last event cannot be written: the memory and the report name the
persistence error, and `task_state.json` a completed run. -/
theorem failed_event_contradicts :
    ¬Consistent ((finalizeRun (AgentEnv.scripted [] .never false false)
      (fun c => if c = .emitTrace then .before else .none)).run
        ⟨⟨"completed", "final_answer_returned", "done", false⟩, none, none, [], []⟩) := by
  intro hconsistent
  have hsame := hconsistent.taskFile rfl
  exact absurd hsame (by decide)

end RunLifecycle

end ThreadForge

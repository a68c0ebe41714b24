import ThreadForge.Orchestrator.NativeRunner
import ThreadForge.Pico.NoCrash

/-!
# One end of a run

The loop announces some of its ends itself and leaves the others to `finalize_run`, and the state
remembers which (`Open`, `Told`). Only what changes the outcome after the announcement can make the
four outputs of a run differ, and that is the completion gate.
-/

namespace ThreadForge

open Eff AgentM

variable {X : Type}

/-! ## Statements -/

/-- Status and stop reason of a task, as it is stored. -/
def plainOutcome (t : TaskState) : RunFinished := ⟨t.status.text, stopReasonText t.stopReason⟩

/-- One `run_finished` went out after those of `before`, and it, the stored task state, the report
and the result name the same status and stop reason. -/
def ConsistentEnd (before : List RunFinished)
    (ended : Except Failure (Option TaskState) × AgentState X) : Prop :=
  ∃ t, ended.1 = .ok (some t) ∧ ended.2.finished = before ++ [plainOutcome t] ∧
    ended.2.taskFile.map plainOutcome = some (plainOutcome t) ∧
    ended.2.report = some (plainOutcome t)

/-- The memory takes the task summary, where it is asked to. -/
def SummaryStored (env : AgentEnv X) (request : NativeRequest) (s : AgentState X) : Prop :=
  request.summarized env = true →
    (env.layer (.taskSummary request.taskInput) s.task s.world).1 = .ok ()

/-- The gate lets the run pass that the loop left. -/
def GatePasses (env : AgentEnv X) (request : NativeRequest) (t : TaskState) : Prop :=
  gateApplies env request (request.attribute env t) = true →
    gateVerdictOf env request (request.attribute env t) = .ok .pass

/-! ## The announcement -/

/-- The end of the run was not announced. -/
structure Open (before : List RunFinished) (s : AgentState X) : Prop where
  has : s.hasTask = true
  emitted : s.task.runFinishedEmitted = false
  finished : s.finished = before

/-- The end of the run was announced, and the task has not changed its mind. -/
structure Told (env : AgentEnv X) (before : List RunFinished) (s : AgentState X) : Prop where
  has : s.hasTask = true
  emitted : s.task.runFinishedEmitted = true
  finished : s.finished = before ++ [publicOutcome env s.task]

variable {env : AgentEnv X} {before : List RunFinished} {s t : AgentState X} {r : Option Failure}

theorem publicOutcome_congr {a b : TaskState} (h : a.outcome = b.outcome) :
    publicOutcome env a = publicOutcome env b := by
  have hstatus : a.status = b.status := congrArg TaskState.Outcome.status h
  have hreason : a.stopReason = b.stopReason := congrArg TaskState.Outcome.stopReason h
  rw [publicOutcome, publicOutcome, hstatus, hreason]

theorem Open.steady (h : Open before s) (hst : (steady X).holds s r t) : Open before t where
  has := hst.2.1.trans h.has
  emitted := (congrArg TaskState.Outcome.emitted hst.1).trans h.emitted
  finished := hst.2.2.1.trans h.finished

theorem Told.steady (h : Told env before s) (hst : (steady X).holds s r t) :
    Told env before t where
  has := hst.2.1.trans h.has
  emitted := (congrArg TaskState.Outcome.emitted hst.1).trans h.emitted
  finished := by
    rw [hst.2.2.1, h.finished, publicOutcome_congr hst.1]

theorem Open.settle {f : TaskState → TaskState} (h : Open before s)
    (hf : ∀ t, (f t).runFinishedEmitted = t.runFinishedEmitted) :
    Open before { s with task := f s.task } where
  has := h.has
  emitted := (hf s.task).trans h.emitted
  finished := h.finished

/-- A run stays unannounced. -/
def openLaw (X : Type) (before : List RunFinished) : RunLaw (AgentState X) Failure where
  holds s _ t := Open before s → Open before t
  refl _ h := h
  trans h h' hs := h' (h hs)

theorem openLaw_of_steady {A : Type} {m : AgentM X A} (h : Keeps (steady X) m) :
    Keeps (openLaw X before) m := fun s hopen => hopen.steady (h s)

theorem storeLaws_open (env : AgentEnv X) : StoreLaws env (openLaw X before) where
  world s w hopen := hopen.steady ((stepLaws_steady env).world s w)
  storage call hcall := openLaw_of_steady ((stepLaws_steady env).storage call hcall)
  layered f := openLaw_of_steady ((stepLaws_steady env).layered f)
  onTask f hf := openLaw_of_steady ((stepLaws_steady env).onTask f hf)
  store := openLaw_of_steady (stepLaws_steady env).store
  remember item := openLaw_of_steady ((stepLaws_steady env).remember item)

theorem settleLaws_open (env : AgentEnv X) : SettleLaws env (openLaw X before) where
  toStoreLaws := storeLaws_open env
  settle _ hf _ hopen := hopen.settle hf.emitted

/-! ## What is written -/

/-- A step that writes and leaves the task alone. -/
structure Wrote (s t : AgentState X) (taskFile : Option TaskState) (report : Option RunFinished)
    (finished : List RunFinished) : Prop where
  task : t.task = s.task
  has : t.hasTask = s.hasTask
  taskFile : t.taskFile = taskFile
  report : t.report = report
  finished : t.finished = finished

theorem emitRunFinished_run (h : StorageQuiet env) (s : AgentState X) :
    ∃ t, (emitRunFinished env).run s = (.ok (), t) ∧
      Wrote s t s.taskFile s.report (s.finished ++ [publicOutcome env s.task]) := by
  obtain ⟨w, hrun⟩ : ∃ w, (service env (.trace "run_finished")).run s =
      (.ok (), { s with world := w }) := h.run_storage rfl s
  exact ⟨_, run_bind_ok hrun, rfl, rfl, rfl, rfl, rfl⟩

theorem writeReport_run (h : StorageQuiet env) (s : AgentState X) :
    ∃ t, (writeReport env).run s = (.ok (), t) ∧
      Wrote s t s.taskFile (some (publicOutcome env s.task)) s.finished := by
  obtain ⟨w, hrun⟩ : ∃ w, (service env .writeReport).run s = (.ok (), { s with world := w }) :=
    h.run_storage rfl s
  exact ⟨_, run_bind_ok hrun, rfl, rfl, rfl, rfl, rfl⟩

theorem writeTaskState_run (h : StorageQuiet env) (s : AgentState X) :
    ∃ t, (writeTaskState env).run s = (.ok (), t) ∧
      Wrote s t (some s.task) s.report s.finished := by
  obtain ⟨w, hrun⟩ : ∃ w, (service env .writeTaskState).run s = (.ok (), { s with world := w }) :=
    h.run_storage rfl s
  exact ⟨_, run_bind_ok hrun, rfl, rfl, rfl, rfl, rfl⟩

/-- The announcement of an unannounced run. -/
theorem emitEnd_told (h : StorageQuiet env) (hopen : Open before s) :
    ∃ t, (emitEnd env).run s = (.ok (), t) ∧ Told env before t := by
  obtain ⟨u, hfinished, hu⟩ := emitRunFinished_run h { s with task := s.task.announced }
  obtain ⟨t, hreport, ht⟩ := writeReport_run h u
  have htask : t.task = s.task.announced := ht.task.trans hu.task
  refine ⟨t, ?_, ?_, ?_, ?_⟩
  · unfold emitEnd onTask
    rw [run_modify_bind, run_bind_ok hfinished, hreport]
  · rw [ht.has, hu.has]
    exact hopen.has
  · rw [htask]
    rfl
  · rw [ht.finished, hu.finished, htask]
    show s.finished ++ _ = _
    rw [hopen.finished]

/-- The announcement, with the line of progress after it. -/
theorem announceEnd_told (h : StorageQuiet env) (message : TaskState → String)
    (hopen : Open before s) :
    ∃ t, (announceEnd env message).run s = (.ok (), t) ∧ Told env before t := by
  obtain ⟨u, hend, htold⟩ := emitEnd_told h hopen
  obtain ⟨w, hrun⟩ : ∃ w, (service env (.progress (message u.task))).run u =
      (.ok (), { u with world := w }) := h.run_storage rfl u
  refine ⟨{ u with world := w }, ?_, htold.has, htold.emitted, htold.finished⟩
  unfold announceEnd
  rw [run_bind_ok hend]
  exact hrun

/-! ## The loop -/

/-- What `AgentLoop.run` leaves where it returns: its end was announced, or it stopped and was not. -/
def Left (env : AgentEnv X) (before : List RunFinished) (s : AgentState X) : Prop :=
  Told env before s ∨ (Open before s ∧ s.task.status = .stopped)

/-- A computation of an unannounced run: where it raises it is not announced. -/
abbrev Ends (env : AgentEnv X) (before : List RunFinished) {A : Type} (m : AgentM X A) : Prop :=
  Triple (Open before) m (fun _ => Left env before) fun _ => Open before

theorem Ends.after {A B : Type} {m : AgentM X A} {k : A → AgentM X B}
    (hm : Keeps (openLaw X before) m) (hk : ∀ a, Ends env before (k a)) :
    Ends env before (m >>= k) :=
  Triple.bind (Q := fun _ => Open before)
    (fun s hopen => by
      have hopen' := hm s hopen
      rcases hrun : m.run s with ⟨e | a, t⟩
      · rw [hrun] at hopen'
        exact hopen'
      · rw [hrun] at hopen'
        exact hopen') hk

/-- A run that is announced at its end. -/
theorem ends_announce (h : StorageQuiet env) (message : TaskState → String) {A : Type} (a : A) :
    Ends env before (announceEnd env message >>= fun _ => pure a) := by
  intro s hopen
  obtain ⟨t, hrun, htold⟩ := announceEnd_told h message hopen
  rw [run_bind_ok hrun]
  exact Or.inl htold

/-- A run that is stopped and leaves the announcement to others. -/
theorem ends_quietly {f : TaskState → TaskState} (hf : Settles f)
    (hstop : ∀ t, (f t).status = .stopped) {A : Type} {m : AgentM X A} (hm : Keeps (steady X) m) :
    Ends env before (onTask f >>= fun _ => m) := by
  intro s hopen
  have hopen' : Open before { s with task := f s.task } := hopen.settle hf.emitted
  unfold onTask
  rw [run_modify_bind]
  have hsteady := hm { s with task := f s.task }
  rcases hrun : m.run { s with task := f s.task } with ⟨e | a, t⟩
  · rw [hrun] at hsteady
    exact hopen'.steady hsteady
  · rw [hrun] at hsteady
    refine Or.inr ⟨hopen'.steady hsteady, ?_⟩
    exact (congrArg TaskState.Outcome.status hsteady.1).trans (hstop s.task)

theorem ends_finishLoop (h : StorageQuiet env) (userMessage : String) (ending : LoopEnd) :
    Ends env before (finishLoop env userMessage ending) := by
  have hopen : SettleLaws env (openLaw X before) := settleLaws_open env
  have hsteady := stepLaws_steady env
  cases ending with
  | capHit reason attempts =>
    refine Ends.after (hopen.convergenceSummary _) fun final => ?_
    refine ends_quietly (settles_capHit _ _ _) (fun _ => rfl) ?_
    exact Keeps.bind (hsteady.emitTrace _) fun _ => hsteady.finishQuietly final
  | finalsRejected =>
    refine Ends.after (hopen.onTask _ ⟨fun _ => rfl, fun _ => rfl⟩) fun _ => ?_
    refine Ends.after (hopen.emitTrace _) fun _ => ?_
    refine Ends.after (hopen.convergenceSummary _) fun final => ?_
    exact ends_quietly (settles_stop _ _) (fun _ => rfl) (hsteady.finishQuietly final)
  | answered final =>
    refine Ends.after (hopen.settleAnswered userMessage final) fun _ => ?_
    exact ends_announce h _ final
  | left protocolFailed attempts =>
    refine Ends.after (hopen.convergenceSummary _) fun final => ?_
    refine Ends.after (hopen.settleLeft userMessage final _) fun _ => ?_
    exact ends_announce h _ final

theorem ends_handleEnd (h : StorageQuiet env) (e : Failure) :
    Ends env before (handleEnd env e) := by
  have hopen : SettleLaws env (openLaw X before) := settleLaws_open env
  have hcancelled : Ends env before (endCancelled env) := by
    refine Ends.after (hopen.settle _ (settles_stop _ _)) fun _ => ?_
    exact Ends.after hopen.writeTaskState fun _ => ends_announce h _ ""
  cases e with
  | cleanupFailed =>
    refine Ends.after (fun s hs => hs.settle (f := fun t => t.stop _ _ _) fun _ => rfl) fun _ => ?_
    refine Ends.after hopen.writeTaskState fun _ => ?_
    intro s hopen
    obtain ⟨t, hrun, htold⟩ := emitEnd_told h hopen
    rw [run_bind_ok hrun]
    exact Or.inl htold
  | _ => exact hcancelled

theorem keeps_open_startRun (env : AgentEnv X) (userMessage taskId runId : String) :
    Keeps (openLaw X before) (startRun env userMessage taskId runId) := by
  have hopen : StoreLaws env (openLaw X before) := storeLaws_open env
  refine Keeps.bind (hopen.layer _) fun _ => ?_
  refine Keeps.bind (hopen.record _) fun _ => ?_
  refine Keeps.bind (fun s hs => ⟨rfl, rfl, hs.finished⟩) fun _ => ?_
  refine Keeps.bind (hopen.storage _ rfl) fun _ => ?_
  refine Keeps.bind (hopen.emitProgress _) fun _ => ?_
  refine Keeps.bind (hopen.emitTrace _) fun _ => ?_
  refine Keeps.bind (hopen.onTask _ ⟨fun _ => rfl, fun _ => rfl⟩) fun _ => ?_
  exact Keeps.bind hopen.writeTaskState fun _ => hopen.emitAgentState

/-- The agent loop ends with the announcement, or leaves it to others. -/
theorem ends_agentLoop (h : StorageQuiet env) (userMessage taskId runId : String) :
    Ends env before (AgentLoop.run env userMessage taskId runId) := by
  have hbody : Ends env before (runBody env userMessage) :=
    Ends.after (openLaw_of_steady ((loopLaws_steady env).planAndLoop userMessage))
      fun ending => ends_finishLoop h userMessage ending
  refine Ends.after (keeps_open_startRun env userMessage taskId runId) fun _ => ?_
  intro s hopen
  rcases hrun : (runBody env userMessage).run s with ⟨e | final, t⟩
  · have hopen' : Open before t := hbody.of_error hopen hrun
    by_cases hcatch : e.endsRun = true
    · rw [run_tryExcept_caught hrun hcatch]
      exact ends_handleEnd h e t hopen'
    · rw [run_tryExcept_passed hrun hcatch]
      exact hopen'
  · rw [run_tryExcept_ok hrun]
    exact hbody.of_ok hopen hrun

/-! ## Redaction -/

/-- A text after a replacement has the character `<` in it, or is what it was. -/
theorem replaceAll_redacted (old : List Char) :
    ∀ (skip : Nat) (cs : List Char),
      '<' ∈ PyChars.replaceAll old redactedValue.toList skip cs ∨
        (skip = 0 ∧ PyChars.replaceAll old redactedValue.toList skip cs = cs) ∨ 0 < skip
  | skip + 1, cs => Or.inr (Or.inr (Nat.succ_pos skip))
  | 0, [] => Or.inr (Or.inl ⟨rfl, by rw [PyChars.replaceAll]⟩)
  | 0, c :: cs => by
    rw [PyChars.replaceAll]
    split
    · exact Or.inl (List.mem_append_left _ (by decide))
    · rcases replaceAll_redacted old 0 cs with hmem | ⟨_, heq⟩ | hskip
      · exact Or.inl (List.mem_cons_of_mem _ hmem)
      · exact Or.inr (Or.inl ⟨rfl, by rw [heq]⟩)
      · exact absurd hskip (lt_irrefl 0)

theorem pyReplace_redacted (text old : String) :
    '<' ∈ (pyReplace text old redactedValue).toList ∨ pyReplace text old redactedValue = text := by
  unfold pyReplace
  rcases replaceAll_redacted old.toList 0 text.toList with hmem | ⟨_, heq⟩ | hskip
  · exact Or.inl (by rwa [String.toList_ofList])
  · exact Or.inr (by rw [heq, String.ofList_toList])
  · exact absurd hskip (lt_irrefl 0)

/-- Redaction leaves a text, or puts the character `<` in it. -/
theorem redactText_cases (env : AgentEnv X) (text : String) :
    '<' ∈ (redactText env text).toList ∨ redactText env text = text := by
  unfold redactText
  generalize env.secretValues.mergeSort _ = values
  suffices hall : ∀ (values : List String) (start : String), '<' ∈ start.toList ∨ start = text →
      '<' ∈ (values.foldl (fun text value => pyReplace text value redactedValue) start).toList ∨
        values.foldl (fun text value => pyReplace text value redactedValue) start = text from
    hall values text (Or.inr rfl)
  intro values
  induction values with
  | nil => exact fun start hstart => hstart
  | cons value values ih =>
    intro start hstart
    refine ih _ ?_
    rcases pyReplace_redacted start value with hmem | heq
    · exact Or.inl hmem
    · show '<' ∈ (pyReplace start value redactedValue).toList ∨
        pyReplace start value redactedValue = text
      rw [heq]
      exact hstart

theorem redactUnder_ne (env : AgentEnv X) {key text other : String} (hother : '<' ∉ other.toList)
    (hne : text ≠ other) : redactUnder env key text ≠ other := by
  unfold redactUnder
  split
  · rintro rfl
    exact hother (by decide)
  · intro heq
    rcases redactText_cases env text with hmem | hsame
    · rw [heq] at hmem
      exact hother hmem
    · exact hne (hsame.symm.trans heq)

/-! ## The handlers -/

/-- Nothing is announced. -/
def mute (X : Type) : RunLaw (AgentState X) Failure where
  holds s _ t := t.hasTask = s.hasTask ∧
    t.task.runFinishedEmitted = s.task.runFinishedEmitted ∧ t.finished = s.finished
  refl _ := ⟨rfl, rfl, rfl⟩
  trans h h' := ⟨h'.1.trans h.1, h'.2.1.trans h.2.1, h'.2.2.trans h.2.2⟩

theorem mute_of_steady {A : Type} {m : AgentM X A} (h : Keeps (steady X) m) : Keeps (mute X) m :=
  fun s => ⟨(h s).2.1, congrArg TaskState.Outcome.emitted (h s).1, (h s).2.2.1⟩

theorem Open.mute (h : Open before s) (hst : (mute X).holds s r t) : Open before t :=
  ⟨hst.1.trans h.has, hst.2.1.trans h.emitted, hst.2.2.trans h.finished⟩

theorem mute_failRun (env : AgentEnv X) (failure : Failure) (final : String) :
    Keeps (mute X) (failRun env failure final) := by
  have hsteady := stepLaws_steady env
  unfold failRun
  refine Keeps.bind (mute_of_steady (hsteady.service _)) fun _ => ?_
  refine Keeps.bind (fun _ => ⟨rfl, rfl, rfl⟩) fun _ => ?_
  refine Keeps.bind (Keeps.bind keeps_task fun t => ?_) fun answer => ?_
  · exact Keeps.ite (Keeps.pure _) (Keeps.ite (Keeps.pure _) (Keeps.ite (Keeps.pure _)
      (mute_of_steady (hsteady.convergenceSummary _))))
  · refine Keeps.bind (fun _ => ⟨rfl, rfl, rfl⟩) fun _ => Keeps.bind keeps_task fun t => ?_
    exact Keeps.when (mute_of_steady (hsteady.record _))

theorem mute_nativeHandler (env : AgentEnv X) (final : String) (failure : Failure) :
    Keeps (mute X) (nativeHandler env final failure) := by
  cases failure with
  | cancelled => exact Keeps.get_bind fun s => Keeps.when fun _ => ⟨rfl, rfl, rfl⟩
  | _ => exact Keeps.get_bind fun s => Keeps.when (mute_failRun env _ final)

theorem noRaise_failRun (h : StorageQuiet env) (failure : Failure) (final : String) :
    Keeps (noRaise X) (failRun env failure final) := by
  have hstorage := storageLaws_noRaise h
  unfold failRun
  refine Keeps.bind (hstorage.storage _ rfl) fun _ => ?_
  refine Keeps.bind (fun _ => rfl) fun _ => ?_
  refine Keeps.bind (Keeps.bind keeps_task fun t => ?_) fun answer => ?_
  · exact Keeps.ite (Keeps.pure _) (Keeps.ite (Keeps.pure _) (Keeps.ite (Keeps.pure _)
      (hstorage.convergenceSummary _)))
  · refine Keeps.bind (fun _ => rfl) fun _ => Keeps.bind keeps_task fun t => ?_
    exact Keeps.when (hstorage.record _)

theorem noRaise_nativeHandler (h : StorageQuiet env) (final : String) (failure : Failure) :
    Keeps (noRaise X) (nativeHandler env final failure) := by
  cases failure with
  | cancelled => exact Keeps.get_bind fun s => Keeps.when fun _ => rfl
  | _ => exact Keeps.get_bind fun s => Keeps.when (noRaise_failRun h _ final)

/-- A run that the handler ends has failed. -/
theorem failRun_failed (failure : Failure) (final : String) {a : Unit}
    (hrun : (failRun env failure final).run s = (.ok a, t)) :
    t.task.status = .failed ∧ t.task.stopReason = some failure.info.reason := by
  unfold failRun at hrun
  obtain ⟨_, u, _, hrun⟩ := bind_eq_ok hrun
  obtain ⟨_, v, _, hrun⟩ := bind_eq_ok hrun
  obtain ⟨answer, w, _, hrun⟩ := bind_eq_ok hrun
  unfold onTask at hrun
  rw [run_modify_bind] at hrun
  have hrest : Keeps (steady X) (do
      let t ← task
      Eff.when (t.finalAnswer ≠ "") (record env (.message "assistant" t.finalAnswer))) :=
    Keeps.bind keeps_task fun t => Keeps.when ((stepLaws_steady env).record _)
  have houtcome := (hrest.ok hrun).1
  exact ⟨congrArg TaskState.Outcome.status houtcome, congrArg TaskState.Outcome.stopReason houtcome⟩

/-! ## The end that is written -/

theorem persisted_run {m : AgentM X Unit} (h : m.run s = (.ok (), t)) :
    (persisted m).run s = (.ok true, t) := run_tryExcept_ok (run_bind_ok h)

/-- The outputs after `finalize_run` show the task as it is. -/
structure Finalized (env : AgentEnv X) (s t : AgentState X) : Prop where
  has : t.hasTask = s.hasTask
  emitted : t.task.runFinishedEmitted = true
  status : t.task.status = s.task.status
  reason : t.task.stopReason = s.task.stopReason
  taskFile : t.taskFile = some s.task
  report : t.report = some (publicOutcome env s.task)
  finished : t.finished =
    if s.task.runFinishedEmitted = true then s.finished else s.finished ++ [publicOutcome env s.task]

theorem backfillFinished_run (h : StorageQuiet env) (s : AgentState X) :
    ∃ t, (backfillFinished env).run s = (.ok (), t) ∧
      (t.task = s.task ∨ t.task = s.task.announced) ∧
      t.task.runFinishedEmitted = true ∧ t.hasTask = s.hasTask ∧
      t.taskFile = s.taskFile ∧ t.finished =
        if s.task.runFinishedEmitted = true then s.finished
        else s.finished ++ [publicOutcome env s.task] := by
  by_cases hemitted : s.task.runFinishedEmitted = true
  · refine ⟨s, ?_, Or.inl rfl, hemitted, rfl, rfl, (if_pos hemitted).symm⟩
    unfold backfillFinished
    rw [run_task_bind, when_neg (by rw [hemitted]; simp), run_pure]
  · obtain ⟨t, hrun, ht⟩ := emitRunFinished_run h s
    refine ⟨{ t with task := t.task.announced }, ?_, Or.inr ?_, rfl, ht.has, ht.taskFile, ?_⟩
    · unfold backfillFinished onTask
      rw [run_task_bind, when_pos (Bool.eq_false_iff.mpr hemitted), run_bind_ok hrun, run_modify]
    · show t.task.announced = _
      rw [ht.task]
    · rw [if_neg hemitted]
      exact ht.finished

theorem finalizeRun_run (h : StorageQuiet env) (s : AgentState X) :
    ∃ t, (finalizeRun env).run s = (.ok (), t) ∧ Finalized env s t := by
  obtain ⟨u, hstore, hu⟩ := writeTaskState_run h s
  obtain ⟨v, hbackfill, htask, hemitted, hhas, hfile, hfinished⟩ := backfillFinished_run h u
  obtain ⟨w, hreport, hw⟩ := writeReport_run h v
  rw [hu.task] at htask
  have hstatus : v.task.status = s.task.status := by
    rcases htask with heq | heq
    · rw [heq]
    · rw [heq]
      rfl
  have hreason : v.task.stopReason = s.task.stopReason := by
    rcases htask with heq | heq
    · rw [heq]
    · rw [heq]
      rfl
  have hpublic : publicOutcome env v.task = publicOutcome env s.task := by
    rw [publicOutcome, publicOutcome, hstatus, hreason]
  refine ⟨w, ?_, ?_, ?_, ?_, ?_, ?_, ?_, ?_⟩
  · unfold finalizeRun
    rw [run_bind_ok (persisted_run hstore), run_bind_ok (persisted_run hbackfill),
      when_neg (by simp), run_pure_bind, run_bind_ok (persisted_run hreport), when_neg (by simp),
      run_pure]
  · rw [hw.has, hhas, hu.has]
  · rw [hw.task, hemitted]
  · rw [hw.task, hstatus]
  · rw [hw.task, hreason]
  · rw [hw.taskFile, hfile, hu.taskFile]
  · rw [hw.report, hpublic]
  · rw [hw.finished, hfinished, hu.task, hu.finished]

/-- The task as `finally` hands it to `finalize_run`. -/
def TaskState.notRunning (final : String) (t : TaskState) : TaskState :=
  if t.status = .running then t.stop .runtimeError .failed final else t

theorem nativeFinally_run (h : StorageQuiet env) (final : String) (hhas : s.hasTask = true) :
    ∃ t, (nativeFinally env final).run s = (.ok (), t) ∧
      Finalized env { s with task := s.task.notRunning final } t := by
  obtain ⟨t, hrun, ht⟩ := finalizeRun_run h { s with task := s.task.notRunning final }
  refine ⟨t, ?_, ht⟩
  rw [← hrun]
  unfold nativeFinally TaskState.notRunning onTask
  rw [run_get_bind, when_pos hhas]
  by_cases hrunning : s.task.status = .running
  · rw [when_pos hrunning, if_pos hrunning, run_modify_bind]
  · rw [when_neg hrunning, if_neg hrunning, run_pure_bind]

/-- The four outputs name the outcome of the task, up to what was announced before and to what
redaction makes of it. -/
theorem consistent_of_told (hs : Open before s ∨ Told env before s) (ht : Finalized env s t) :
    ConsistentEnd before (.ok (some t.task), t) ↔ publicOutcome env t.task = plainOutcome t.task := by
  have hpublic : publicOutcome env s.task = publicOutcome env t.task := by
    rw [publicOutcome, publicOutcome, ht.status, ht.reason]
  have hplain : plainOutcome s.task = plainOutcome t.task := by
    rw [plainOutcome, plainOutcome, ht.status, ht.reason]
  have hfinished : t.finished = before ++ [publicOutcome env t.task] := by
    rw [ht.finished, ← hpublic]
    rcases hs with hopen | htold
    · rw [if_neg (by rw [hopen.emitted]; simp), hopen.finished]
    · rw [if_pos htold.emitted, htold.finished]
  constructor
  · rintro ⟨task, hresult, hevents, _, _⟩
    cases hresult
    rw [hfinished] at hevents
    exact List.singleton_inj.mp (List.append_cancel_left hevents)
  · intro heq
    refine ⟨t.task, rfl, ?_, ?_, ?_⟩
    · rw [hfinished, heq]
    · rw [ht.taskFile, Option.map_some, hplain]
    · rw [ht.report, hpublic, heq]

/-- The outcome was changed after the announcement. -/
structure Broken (before : List RunFinished) (s : AgentState X) : Prop where
  has : s.hasTask = true
  emitted : s.task.runFinishedEmitted = true
  changed : ∃ event, s.finished = before ++ [event] ∧ event.status ≠ s.task.status.text

theorem not_consistent_of_broken (hs : Broken before s) (ht : Finalized env s t) :
    ¬ConsistentEnd before (.ok (some t.task), t) := by
  rintro ⟨task, hresult, hevents, _, _⟩
  cases hresult
  obtain ⟨event, hfinished, hne⟩ := hs.changed
  rw [ht.finished, if_pos hs.emitted, hfinished] at hevents
  have hevent : event = plainOutcome t.task :=
    List.singleton_inj.mp (List.append_cancel_left hevents)
  refine hne ?_
  rw [hevent, ← ht.status]
  rfl

/-! ## The gate -/

/-- A completed run that was announced, and then changed. -/
theorem broken_of_changed (hs : Told env before s) (hcompleted : s.task.status = .completed)
    (hhas : t.hasTask = true) (hemitted : t.task.runFinishedEmitted = true)
    (hfinished : t.finished = s.finished)
    (hchanged : t.task.status = .stopped ∨ t.task.status = .failed) : Broken before t where
  has := hhas
  emitted := hemitted
  changed := by
    refine ⟨publicOutcome env s.task, hfinished.trans hs.finished, ?_⟩
    show redactUnder env "status" s.task.status.text ≠ _
    rw [hcompleted]
    rcases hchanged with heq | heq <;> rw [heq] <;> exact redactUnder_ne env (by decide) (by decide)

theorem gateRun_applies {request : NativeRequest} (h : gateApplies env request s.task = true) :
    (gateRun env request).run s = (followGate (gateVerdictOf env request s.task)).run s := by
  unfold gateRun
  rw [run_task_bind, when_pos h]

theorem gateRun_skips {request : NativeRequest} (h : ¬gateApplies env request s.task = true) :
    (gateRun env request).run s = (.ok (), s) := by
  unfold gateRun
  rw [run_task_bind, when_neg h, run_pure]

theorem settleNative_caught {request : NativeRequest} {final : String} {e : Failure}
    (hbody : (onTask (request.attribute env) >>= fun _ => gateRun env request).run s = (.error e, t)) :
    (settleNative env request (.ok final)).run s = (nativeHandler env final e).run t := by
  rw [settleNative]
  exact run_tryExcept_caught hbody rfl

theorem settleNative_ok {request : NativeRequest} {final : String}
    (hbody : (onTask (request.attribute env) >>= fun _ => gateRun env request).run s = (.ok (), t)) :
    (settleNative env request (.ok final)).run s = (.ok (), t) := by
  rw [settleNative]
  exact run_tryExcept_ok hbody

theorem followGate_raised (kind : PyError) :
    (followGate (.error kind) : AgentM X Unit).run s = (.error (.raised ⟨kind, none⟩), s) := rfl

theorem followGate_pass : (followGate (.ok .pass) : AgentM X Unit).run s = (.ok (), s) := rfl

theorem followGate_needsFix : (followGate (.ok .needsFix) : AgentM X Unit).run s =
    (.ok (), { s with task := s.task.blockByGate }) := rfl

/-- The handler of a gate that raised ends the run as failed. -/
theorem nativeHandler_raised (h : StorageQuiet env) (kind : PyError) (final : String)
    (hs : Told env before s) (hcompleted : s.task.status = .completed) :
    ∃ t, (nativeHandler env final (.raised ⟨kind, none⟩)).run s = (.ok (), t) ∧
      Broken before t ∧ t.task.status = .failed := by
  obtain ⟨_, t, hhandler⟩ := returns_of_noRaise (noRaise_failRun h (.raised ⟨kind, none⟩) final) s
  have hmute := (mute_failRun env (.raised ⟨kind, none⟩) final).ok hhandler
  have hfailed : t.task.status = .failed := (failRun_failed _ _ hhandler).1
  refine ⟨t, ?_, ?_, hfailed⟩
  · unfold nativeHandler
    rw [run_get_bind, when_pos hs.has]
    exact hhandler
  · exact broken_of_changed hs hcompleted (hmute.1.trans hs.has) (hmute.2.1.trans hs.emitted)
      hmute.2.2 (Or.inr hfailed)

/-- What the gate, and the handler of what it raises, make of a run that it looks at. -/
theorem settleNative_applies (h : StorageQuiet env) (request : NativeRequest) (final : String)
    {u : AgentState X} (hu : u = { s with task := request.attribute env s.task })
    (htold : Told env before u) (happlies : gateApplies env request u.task = true) :
    ∃ t, (settleNative env request (.ok final)).run s = (.ok (), t) ∧
      ((gateVerdictOf env request u.task = .ok .pass ∧ t = u) ∨
        (gateVerdictOf env request u.task ≠ .ok .pass ∧ Broken before t ∧
          t.task.status ≠ .running)) := by
  have hcompleted : u.task.status = .completed := by
    unfold gateApplies at happlies
    simp only [Bool.and_eq_true, decide_eq_true_eq] at happlies
    exact happlies.1.2
  have hbody : ((onTask (request.attribute env) >>= fun _ => gateRun env request).run s) =
      (followGate (gateVerdictOf env request u.task)).run u := by
    unfold onTask
    rw [run_modify_bind, ← hu, gateRun_applies happlies]
  rcases hverdict : gateVerdictOf env request u.task with kind | _ | _
  · -- the gate raised
    rw [hverdict, followGate_raised] at hbody
    obtain ⟨t, hhandler, hbroken, hfailed⟩ := nativeHandler_raised h kind final htold hcompleted
    refine ⟨t, ?_, Or.inr ⟨by simp, hbroken, by rw [hfailed]; simp⟩⟩
    rw [settleNative_caught hbody, hhandler]
  · -- the gate lets the run pass
    rw [hverdict, followGate_pass] at hbody
    exact ⟨u, settleNative_ok hbody, Or.inl ⟨rfl, rfl⟩⟩
  · -- the gate blocks the run
    rw [hverdict, followGate_needsFix] at hbody
    refine ⟨{ u with task := u.task.blockByGate }, settleNative_ok hbody,
      Or.inr ⟨by simp, ?_, ?_⟩⟩
    · exact broken_of_changed htold hcompleted htold.has htold.emitted rfl (Or.inl rfl)
    · show RunStatus.stopped ≠ .running
      simp

/-- What comes of a run that the loop left. -/
theorem settleNative_of_ok (h : StorageQuiet env) (request : NativeRequest) (final : String)
    (hleft : Left env before s) (hrunning : s.task.status ≠ .running) :
    ∃ t, (settleNative env request (.ok final)).run s = (.ok (), t) ∧ t.task.status ≠ .running ∧
      ((GatePasses env request s.task ∧ (Open before t ∨ Told env before t) ∧
          t.task.outcome = s.task.outcome) ∨
        (¬GatePasses env request s.task ∧ Broken before t)) := by
  generalize hu : ({ s with task := request.attribute env s.task } : AgentState X) = u
  have hsteady : (steady X).holds s none u := by
    rw [← hu]
    exact ⟨rfl, rfl, rfl, rfl⟩
  have htask : request.attribute env s.task = u.task := by rw [← hu]
  have hrunningU : u.task.status ≠ .running := by
    rw [← hu]
    exact hrunning
  unfold GatePasses
  rw [htask]
  by_cases happlies : gateApplies env request u.task = true
  · -- only a completed run comes to the gate, and it was announced
    have htold : Told env before u := by
      rcases hleft with htold | ⟨_, hstopped⟩
      · exact htold.steady hsteady
      · exfalso
        unfold gateApplies at happlies
        simp only [Bool.and_eq_true, decide_eq_true_eq] at happlies
        have hstatus : u.task.status = s.task.status :=
          congrArg TaskState.Outcome.status hsteady.1
        rw [← hstatus, happlies.1.2] at hstopped
        cases hstopped
    obtain ⟨t, hrun, ⟨hpass, rfl⟩ | ⟨hfails, hbroken, hstatus⟩⟩ :=
      settleNative_applies h request final hu.symm htold happlies
    · exact ⟨t, hrun, hrunningU, Or.inl ⟨fun _ => hpass, Or.inr htold, hsteady.1⟩⟩
    · exact ⟨t, hrun, hstatus, Or.inr ⟨fun hpasses => hfails (hpasses happlies), hbroken⟩⟩
  · have hbody : ((onTask (request.attribute env) >>= fun _ => gateRun env request).run s) =
        (.ok (), u) := by
      unfold onTask
      rw [run_modify_bind, hu, gateRun_skips happlies]
    refine ⟨u, settleNative_ok hbody, hrunningU,
      Or.inl ⟨fun h => absurd h happlies, ?_, hsteady.1⟩⟩
    rcases hleft with htold | ⟨hopen, _⟩
    · exact Or.inr (htold.steady hsteady)
    · exact Or.inl (hopen.steady hsteady)

/-! ## The loop of a request -/

/-- What comes of the run after the summary. -/
theorem nativeLoop_after (h : StorageQuiet env) (request : NativeRequest)
    (hstored : SummaryStored env request s) :
    match (nativeLoop env request).run s with
    | (.ok _, t) => Left env s.finished t ∧ Decided t.task
    | (.error _, t) => Open s.finished t := by
  obtain ⟨w, hsummary⟩ : ∃ w, (Eff.when (request.summarized env)
      (layer env (.taskSummary request.taskInput))).run s = (.ok (), { s with world := w }) := by
    by_cases hasked : request.summarized env = true
    · rw [when_pos hasked]
      have hok := (layer_ok_iff _ s).mpr (hstored hasked)
      rcases layered_cases (env.layer (.taskSummary request.taskInput)) s with
        ⟨_, w, hrun⟩ | ⟨e, w, hrun, _⟩
      · exact ⟨w, hrun⟩
      · rw [layer, hrun] at hok
        cases hok
    · rw [when_neg hasked]
      exact ⟨s.world, rfl⟩
  have hends : Ends env s.finished
      (emitTrace env "native_loop_started" >>= fun _ =>
        AgentLoop.run env request.taskInput request.taskId request.runId) :=
    Ends.after ((storeLaws_open env).emitTrace _) fun _ => ends_agentLoop h _ _ _
  have hdecides : Decides (AgentLoop.run env request.taskInput request.taskId request.runId) := by
    have hbody : Decides (runBody env request.taskInput) := Decides.after fun ending =>
      decides_finishLoop env request.taskInput ending
    refine Decides.after fun _ => ?_
    intro u a t hrun
    rcases hbodyRun : (runBody env request.taskInput).run u with ⟨e | final, v⟩
    · by_cases hcatch : e.endsRun = true
      · rw [run_tryExcept_caught hbodyRun hcatch] at hrun
        exact decides_handleEnd env e v a t hrun
      · rw [run_tryExcept_passed hbodyRun hcatch] at hrun
        cases hrun
    · rw [run_tryExcept_ok hbodyRun] at hrun
      cases hrun
      exact hbody u _ _ hbodyRun
  unfold nativeLoop
  rw [run_bind_ok hsummary, run_modify_bind]
  generalize hstart : ({ s with world := w, task := request.firstTask, hasTask := true } :
    AgentState X) = start
  have hopen : Open s.finished start := by
    rw [← hstart]
    exact ⟨rfl, rfl, rfl⟩
  rcases hrun : (emitTrace env "native_loop_started" >>= fun _ =>
      AgentLoop.run env request.taskInput request.taskId request.runId).run start with ⟨e | answer, t⟩
  · exact hends.of_error hopen hrun
  · refine ⟨hends.of_ok hopen hrun, ?_⟩
    obtain ⟨_, u, _, hloop⟩ := bind_eq_ok hrun
    exact hdecides u answer t hloop

/-- Without the summary the run is over before it has a task state of its own. -/
theorem nativeLoop_without (request : NativeRequest) (hstored : ¬SummaryStored env request s) :
    ∃ e t, (nativeLoop env request).run s = (.error e, t) ∧ (mute X).holds s none t := by
  obtain ⟨hasked, hfails⟩ := Classical.not_imp.mp hstored
  rcases hrun : (layer env (.taskSummary request.taskInput)).run s with ⟨e | _, t⟩
  · refine ⟨e, t, ?_, ?_⟩
    · unfold nativeLoop
      rw [when_pos hasked, run_bind_error hrun]
    have hsteady := (stepLaws_steady env).layer (.taskSummary request.taskInput) s
    rw [hrun] at hsteady
    exact ⟨hsteady.2.1, congrArg TaskState.Outcome.emitted hsteady.1, hsteady.2.2.1⟩
  · refine absurd ((layer_ok_iff _ s).mp ?_) hfails
    rw [hrun]

/-! ## The result -/

/-- The task state as the handlers and `finally` end it, where the gate lets it pass. -/
def endedTask : Except Failure String × AgentState X → TaskState
  | (.ok _, u) => u.task
  | (.error .cancelled, u) => u.task.stopUserCancelled
  | (.error failure, u) => u.task.stop failure.info.reason .failed u.task.finalAnswer

/-- When the outputs of a run agree: the memory takes the summary, the gate lets the run pass that
the loop left, and no secret value is a part of the status or of the stop reason. -/
structure EndsConsistently (env : AgentEnv X) (request : NativeRequest) (s : AgentState X) :
    Prop where
  stored : SummaryStored env request s
  passes : ∀ final u, (nativeLoop env request).run s = (.ok final, u) →
    GatePasses env request u.task
  readable : publicOutcome env (endedTask ((nativeLoop env request).run s)) =
    plainOutcome (endedTask ((nativeLoop env request).run s))

/-- The handlers end a run that raised. -/
theorem nativeHandler_open (h : StorageQuiet env) (failure : Failure) (hs : Open before s) :
    ∃ t, (nativeHandler env "" failure).run s = (.ok (), t) ∧ Open before t ∧
      t.task.status = (endedTask (.error failure, s)).status ∧
      t.task.stopReason = (endedTask (.error failure, s)).stopReason ∧
      t.task.status ≠ .running := by
  have hfail : ∀ failure, ∃ t, (Eff.when (s.hasTask = true) (failRun env failure "")).run s =
      (.ok (), t) ∧ Open before t ∧ t.task.status = .failed ∧
        t.task.stopReason = some failure.info.reason ∧ t.task.status ≠ .running := by
    intro failure
    obtain ⟨_, t, hrun⟩ := returns_of_noRaise (noRaise_failRun h failure "") s
    obtain ⟨hstatus, hreason⟩ := failRun_failed failure "" hrun
    rw [when_pos hs.has]
    refine ⟨t, hrun, hs.mute ((mute_failRun env failure "").ok hrun), hstatus, hreason, ?_⟩
    rw [hstatus]
    simp
  cases failure with
  | cancelled =>
    refine ⟨{ s with task := s.task.stopUserCancelled }, ?_, ?_, rfl, rfl, ?_⟩
    · unfold nativeHandler onTask
      rw [run_get_bind, when_pos hs.has, run_modify]
    · exact hs.mute (r := none) ⟨rfl, rfl, rfl⟩
    · show RunStatus.stopped ≠ .running
      simp
  | _ => exact hfail _

theorem TaskState.notRunning_of_ended (final : String) {t : TaskState} (h : t.status ≠ .running) :
    t.notRunning final = t := if_neg h

/-- `run_native` from the loop on. -/
theorem runNative_of_settled (h : StorageQuiet env) (request : NativeRequest)
    {ran : Except Failure String} {u v : AgentState X}
    (hloop : (nativeLoop env request).run s = (ran, u))
    (hsettled : (settleNative env request ran).run u = (.ok (), v)) (hhas : v.hasTask = true)
    (hended : v.task.status ≠ .running) :
    ∃ t, (runNative env request).run s = (.ok (some t.task), t) ∧ Finalized env v t := by
  obtain ⟨t, hfinally, ht⟩ := nativeFinally_run h (finalOf ran) hhas
  rw [TaskState.notRunning_of_ended _ hended] at ht
  refine ⟨t, ?_, ht⟩
  unfold runNative
  rw [run_bind_ok (run_capture hloop), run_bind_ok (run_capture hsettled), run_bind_ok hfinally,
    run_bind_ok (run_ofExcept _ _), run_get_bind, if_pos (ht.has.trans hhas), run_pure]

/-- The agent is at rest: it had no run, or the end of its last run was announced. -/
def AtRest (s : AgentState X) : Prop := s.hasTask = true → s.task.runFinishedEmitted = true

/-- A run without a task state of its own has no end of its own. -/
theorem not_consistent_without (h : StorageQuiet env) (request : NativeRequest) (hrest : AtRest s)
    (hstored : ¬SummaryStored env request s) :
    ¬ConsistentEnd s.finished ((runNative env request).run s) := by
  obtain ⟨e, u, hloop, hmute⟩ := nativeLoop_without request hstored
  obtain ⟨_, v, hsettled⟩ := returns_of_noRaise (noRaise_nativeHandler h "" e) u
  have hmute' := (mute X).trans hmute ((mute_nativeHandler env "" e).ok hsettled)
  have hset : (settleNative env request (.error e)).run u = (.ok (), v) := by
    rw [settleNative]
    exact hsettled
  rintro ⟨task, hresult, hevents, _, _⟩
  by_cases hhas : v.hasTask = true
  · -- the end of an earlier run is written again, and no event goes out
    obtain ⟨t, hfinally, ht⟩ := nativeFinally_run h (finalOf (.error e)) hhas
    have hemitted : v.task.runFinishedEmitted = true :=
      hmute'.2.1.trans (hrest (hmute'.1.symm.trans hhas))
    have hkept : (v.task.notRunning (finalOf (.error e))).runFinishedEmitted = true := by
      unfold TaskState.notRunning
      split
      · exact hemitted
      · exact hemitted
    have hfinished : ((runNative env request).run s).2.finished = s.finished := by
      unfold runNative
      rw [run_bind_ok (run_capture hloop), run_bind_ok (run_capture hset), run_bind_ok hfinally,
        run_bind_ok (run_ofExcept _ _), run_get_bind, run_pure]
      exact ht.finished.trans ((if_pos hkept).trans hmute'.2.2)
    rw [hfinished] at hevents
    exact absurd (List.self_eq_append_right.mp hevents) (List.cons_ne_nil _ _)
  · -- there is no task state to return
    have hfinally : (nativeFinally env (finalOf (.error e))).run v = (.ok (), v) := by
      unfold nativeFinally
      rw [run_get_bind, when_neg hhas, run_pure]
    have hnone : ((runNative env request).run s).1 = .ok none := by
      unfold runNative
      rw [run_bind_ok (run_capture hloop), run_bind_ok (run_capture hset), run_bind_ok hfinally,
        run_bind_ok (run_ofExcept _ _), run_get_bind, if_neg hhas, run_pure]
    rw [hnone] at hresult
    cases hresult

/-- The outputs of a run that was settled, where they name what was announced. -/
theorem runNative_consistent (h : StorageQuiet env) (request : NativeRequest)
    {ran : Except Failure String} {u v : AgentState X} {ended : TaskState}
    (hloop : (nativeLoop env request).run s = (ran, u))
    (hsettled : (settleNative env request ran).run u = (.ok (), v))
    (hv : Open s.finished v ∨ Told env s.finished v) (hnot : v.task.status ≠ .running)
    (hstatus : v.task.status = ended.status) (hreason : v.task.stopReason = ended.stopReason) :
    ConsistentEnd s.finished ((runNative env request).run s) ↔
      publicOutcome env ended = plainOutcome ended := by
  have hhas : v.hasTask = true := by
    rcases hv with hopen | htold
    · exact hopen.has
    · exact htold.has
  obtain ⟨t, hrun, ht⟩ := runNative_of_settled h request hloop hsettled hhas hnot
  have hpublic : publicOutcome env t.task = publicOutcome env ended := by
    rw [publicOutcome, publicOutcome, ht.status, ht.reason, hstatus, hreason]
  have hplain : plainOutcome t.task = plainOutcome ended := by
    rw [plainOutcome, plainOutcome, ht.status, ht.reason, hstatus, hreason]
  rw [hrun, consistent_of_told hv ht, hpublic, hplain]

/-- **The outputs of a run agree exactly where the memory takes the summary, the gate lets the run
pass that the loop left, and no secret is a part of what is announced.** -/
theorem consistentEnd_iff (env : AgentEnv X) (request : NativeRequest) (s : AgentState X)
    (hquiet : StorageQuiet env) (hrest : AtRest s) :
    ConsistentEnd s.finished ((runNative env request).run s) ↔ EndsConsistently env request s := by
  by_cases hstored : SummaryStored env request s
  swap
  · exact iff_of_false (not_consistent_without hquiet request hrest hstored)
      fun hends => hstored hends.stored
  have hafter := nativeLoop_after hquiet request hstored
  rcases hloop : (nativeLoop env request).run s with ⟨failure | final, u⟩
  · -- the handlers end the run
    rw [hloop] at hafter
    obtain ⟨v, hsettled, hopen, hstatus, hreason, hnot⟩ := nativeHandler_open hquiet failure hafter
    have hset : (settleNative env request (.error failure)).run u = (.ok (), v) := by
      rw [settleNative]
      exact hsettled
    rw [runNative_consistent hquiet request hloop hset (Or.inl hopen) hnot hstatus hreason]
    constructor
    · intro hreadable
      refine ⟨hstored, fun final u' hrun => ?_, ?_⟩
      · rw [hloop] at hrun
        cases hrun
      · rw [hloop]
        exact hreadable
    · intro hends
      have hreadable := hends.readable
      rw [hloop] at hreadable
      exact hreadable
  · -- the gate looks at the run
    rw [hloop] at hafter
    obtain ⟨hleft, hdecided⟩ := hafter
    obtain ⟨v, hset, hnot, ⟨hpasses, hv, houtcome⟩ | ⟨hfails, hbroken⟩⟩ :=
      settleNative_of_ok hquiet request final hleft hdecided.1
    · rw [runNative_consistent hquiet request hloop hset hv hnot
        (congrArg TaskState.Outcome.status houtcome)
        (congrArg TaskState.Outcome.stopReason houtcome)]
      constructor
      · intro hreadable
        refine ⟨hstored, fun final' u' hrun => ?_, ?_⟩
        · rw [hloop] at hrun
          cases hrun
          exact hpasses
        · rw [hloop]
          exact hreadable
      · intro hends
        have hreadable := hends.readable
        rw [hloop] at hreadable
        exact hreadable
    · obtain ⟨t, hrun, ht⟩ := runNative_of_settled hquiet request hloop hset hbroken.has hnot
      rw [hrun]
      refine iff_of_false (not_consistent_of_broken hbroken ht) fun hends => ?_
      exact hfails (hends.passes final u hloop)

/-- The model answers at once, and nothing was changed. -/
def doneScript : Script where
  replies := [.str "<final>done</final>"]

/-- A question. -/
def askRequest : NativeRequest :=
  { taskInput := "why is it slow", mode := .readOnly, runId := "run_1", taskId := "task_1" }

/-- An order to change the code. -/
def fixRequest : NativeRequest := { taskInput := "fix it", runId := "run_1", taskId := "task_1" }

theorem consistentEnd_iff_asking :
    ConsistentEnd [] ((runNative plainAgent askRequest).run (.fresh doneScript)) ↔
      EndsConsistently plainAgent askRequest (.fresh doneScript) :=
  consistentEnd_iff plainAgent askRequest (.fresh doneScript)
    (quietOutside_scripted _ _ _ _).toStorageQuiet (fun h => absurd h (by decide))

/-- The loop announces that the run has completed, and then the gate stops it. -/
theorem gate_contradicts_announcement :
    ¬ConsistentEnd [] ((runNative plainAgent fixRequest).run (.fresh doneScript)) := by
  have hevents : ((runNative plainAgent fixRequest).run (.fresh doneScript)).2.finished =
      [⟨"completed", "final_answer_returned"⟩] := by
    decide +kernel
  have hreport : ((runNative plainAgent fixRequest).run (.fresh doneScript)).2.report =
      some ⟨"stopped", "no_changes_to_review"⟩ := by
    decide +kernel
  rintro ⟨t, _, hfinished, _, hreported⟩
  rw [hevents] at hfinished
  rw [hreport] at hreported
  have heq : plainOutcome t = ⟨"completed", "final_answer_returned"⟩ :=
    (List.singleton_inj.mp hfinished).symm
  rw [heq] at hreported
  exact absurd (Option.some.inj hreported) (by decide)

end ThreadForge

import ThreadForge.Pico.Steady

/-!
# Where write evidence comes from

A piece of evidence that is not read-only is that of a call of `write_file`, `patch_file` or
`run_shell` which went well: in every run, the log has the result of such a call
(`evidence_of_ranTo`). Only the commit of a call adds evidence, after the result was logged; the
checklist and the review run tools of their own, but leave no evidence.
-/

namespace ThreadForge

open Eff AgentM

variable {X : Type}

/-- The result of a call that may write, and went well. -/
def Event.isWriteSuccess : Event → Bool
  | .site (.result name succeeded _) => succeeded && isWriteName name
  | _ => false

/-- Some call that may write went well. -/
def WriteSucceeded (new : List Event) : Prop := ∃ event ∈ new, event.isWriteSuccess = true

instance (new : List Event) : Decidable (WriteSucceeded new) :=
  inferInstanceAs (Decidable (∃ event ∈ new, event.isWriteSuccess = true))

theorem WriteSucceeded.append_left {new : List Event} (h : WriteSucceeded new) (more : List Event) :
    WriteSucceeded (new ++ more) := by
  obtain ⟨event, hmem, hevent⟩ := h
  exact ⟨event, List.mem_append_left _ hmem, hevent⟩

theorem WriteSucceeded.append_right {new : List Event} (h : WriteSucceeded new)
    (before : List Event) : WriteSucceeded (before ++ new) := by
  obtain ⟨event, hmem, hevent⟩ := h
  exact ⟨event, List.mem_append_right _ hmem, hevent⟩

/-- The evidence counts as a write. -/
def EvidenceItem.isWrite (item : EvidenceItem) : Bool :=
  item.status.succeeded && !item.readOnly

/-! ## The law -/

/-- The log grows, and new evidence is of the kind that is allowed, or counts as no write, or has the
result of a write in the log. -/
def evidenceLaw (X : Type) (allowed : EvidenceItem → Prop) : RunLaw (AgentState X) Failure where
  holds s _ t := ∃ new, t.log = s.log ++ new ∧ ∀ item ∈ t.task.evidence,
    item ∈ s.task.evidence ∨ allowed item ∨ (item.isWrite = true → WriteSucceeded new)
  refl s := ⟨[], (List.append_nil _).symm, fun item hitem => Or.inl hitem⟩
  trans := by
    rintro s t u r ⟨new, hnew, hst⟩ ⟨more, hmore, htu⟩
    refine ⟨new ++ more, ?_, fun item hitem => ?_⟩
    · rw [hmore, hnew, List.append_assoc]
    rcases htu item hitem with hitem | hallowed | hlater
    · rcases hst item hitem with hold | hallowed | hearlier
      · exact Or.inl hold
      · exact Or.inr (Or.inl hallowed)
      · exact Or.inr (Or.inr fun hwrite => (hearlier hwrite).append_left more)
    · exact Or.inr (Or.inl hallowed)
    · exact Or.inr (Or.inr fun hwrite => (hlater hwrite).append_right new)

variable {allowed : EvidenceItem → Prop}

/-- A change that leaves log and evidence alone. -/
theorem evidenceLaw_of_kept {s t : AgentState X} {r : Option Failure} (hlog : t.log = s.log)
    (hevidence : t.task.evidence = s.task.evidence) : (evidenceLaw X allowed).holds s r t :=
  ⟨[], by rw [hlog, List.append_nil], fun item hitem => Or.inl (hevidence ▸ hitem)⟩

theorem blindLaws_evidence : BlindLaws (evidenceLaw X allowed) where
  roams _ _ _ new := ⟨new, rfl, fun _ hitem => Or.inl hitem⟩
  blind _ h := h
  onTask _ hf := fun s => evidenceLaw_of_kept rfl (hf.evidence s.task)
  store := fun _ => evidenceLaw_of_kept rfl rfl
  remember _ := fun _ => evidenceLaw_of_kept rfl rfl

/-! ## The commit of a call -/

/-- A call is committed with evidence that its logged result stands for. -/
theorem keeps_commitToolAction {env : AgentEnv X} (attempts : Nat) {name : PyValue}
    (args : PyDict) (window : List WindowEntry) {result : ToolResult}
    (hnames : NamesWrite name result) :
    Keeps (evidenceLaw X allowed) (commitToolAction env attempts name args window result) := by
  have hsteps : StepLaws env (evidenceLaw X allowed) := blindLaws_evidence.stepLaws env
  rw [commitToolAction_eq]
  refine Keeps.bind (hsteps.onTask _ ⟨fun _ => rfl, fun _ => rfl⟩) fun _ => ?_
  intro s
  rcases attempt_cases (.result name result.status.succeeded result.content)
    (resultFingerprint env.txt (fun text => env.digest (env.files.encode text)) name
      result.status.succeeded result.content) s with ⟨resultFp, _, hrun⟩ | ⟨kind, _, hrun⟩
  · rw [run_bind_ok hrun]
    -- what follows adds evidence of this result alone, which is in the log by now
    have hrest : Keeps (evidenceLaw X fun item => item.isWrite = true →
        result.status.succeeded = true ∧ result.readOnly = false)
        (commitRest env attempts name args window result resultFp) := by
      refine (blindLaws_evidence.stepLaws env).commitRest (fun item hstatus hreadOnly => ?_) resultFp
      refine Keeps.modify fun u => ⟨[], (List.append_nil _).symm, fun item' hitem => ?_⟩
      rcases List.mem_append.mp hitem with hitem | hitem
      · exact Or.inl hitem
      · refine Or.inr (Or.inl fun hwrite => ?_)
        rw [List.mem_singleton.mp hitem] at hwrite
        unfold EvidenceItem.isWrite at hwrite
        rw [hstatus, hreadOnly] at hwrite
        obtain ⟨hsucceeded, hwrote⟩ := Bool.and_eq_true_iff.mp hwrite
        exact ⟨hsucceeded, (Bool.not_eq_true' _).mp hwrote⟩
    obtain ⟨more, hlog, hitems⟩ := hrest _
    refine ⟨.site (.result name result.status.succeeded result.content) :: more, ?_,
      fun item hitem => ?_⟩
    · rw [hlog, List.append_assoc]
      rfl
    rcases hitems item hitem with hold | hown | hlater
    · exact Or.inl hold
    · refine Or.inr (Or.inr fun hwrite => ?_)
      obtain ⟨hsucceeded, hwrote⟩ := hown hwrite
      refine ⟨_, List.mem_cons_self, ?_⟩
      rw [Event.isWriteSuccess, hsucceeded, hnames hsucceeded hwrote]
      rfl
    · exact Or.inr (Or.inr fun hwrite => (hlater hwrite).append_right [_])
  · rw [run_bind_error hrun]
    exact ⟨_, rfl, fun item hitem => Or.inl hitem⟩

/-! ## The whole run -/

theorem loopLaws_evidence (env : AgentEnv X) : LoopLaws env (evidenceLaw X allowed) :=
  blindLaws_evidence.loopLaws fun attempts _ args window _ hnames =>
    keeps_commitToolAction attempts args window hnames

theorem endLaws_evidence (env : AgentEnv X) : EndLaws env (evidenceLaw X allowed) where
  toStoreLaws := (blindLaws_evidence.stepLaws env).toStoreLaws
  settle _ hf := fun s => evidenceLaw_of_kept rfl (hf.evidence s.task)
  emitEnd := keeps_emitEnd (blindLaws_evidence.stepLaws env).storage
    (fun _ => evidenceLaw_of_kept rfl rfl) (fun _ _ => evidenceLaw_of_kept rfl rfl)
    fun _ _ => evidenceLaw_of_kept rfl rfl

theorem keeps_body (env : AgentEnv X) (userMessage : String) :
    Keeps (evidenceLaw X allowed)
      (Eff.tryExcept (runBody env userMessage) Failure.endsRun (handleEnd env)) := by
  refine blindLaws_evidence.tryExcept ?_ fun failure =>
    (endLaws_evidence env).handleEnd (fun _ _ => evidenceLaw_of_kept rfl rfl) failure
  exact Keeps.bind ((loopLaws_evidence env).planAndLoop userMessage) fun ending =>
    (endLaws_evidence env).finishLoop userMessage ending

/-- A run begins with a task that has no evidence. -/
theorem evidence_of_startRun {env : AgentEnv X} {userMessage taskId runId : String}
    {s u : AgentState X} (hrun : (startRun env userMessage taskId runId).run s = (.ok (), u)) :
    ∃ new, u.log = s.log ++ new ∧
      ∀ item ∈ u.task.evidence, item.isWrite = true → WriteSucceeded new := by
  have hstore : StoreLaws env (evidenceLaw X fun _ => False) :=
    (blindLaws_evidence.stepLaws env).toStoreLaws
  unfold startRun at hrun
  obtain ⟨_, v, hsummary, hrun⟩ := bind_eq_ok hrun
  obtain ⟨_, w, hrecord, hrun⟩ := bind_eq_ok hrun
  rw [run_modify_bind] at hrun
  obtain ⟨before, hbefore, _⟩ :=
    (evidenceLaw X fun _ => False).trans ((hstore.layer _).ok hsummary) ((hstore.record _).ok hrecord)
  have hrest : Keeps (evidenceLaw X fun _ => False) (do
      service env .startRun
      emitProgress env ("run " ++ runId ++ " started")
      emitTrace env "run_started"
      onTask fun t => t.setPhase .understandRequest "Gather the minimum workspace context"
        "Understand the request and acceptance criteria"
      writeTaskState env
      emitAgentState env) := by
    refine Keeps.bind (hstore.storage _ rfl) fun _ => ?_
    refine Keeps.bind (hstore.emitProgress _) fun _ => ?_
    refine Keeps.bind (hstore.emitTrace _) fun _ => ?_
    refine Keeps.bind (hstore.onTask _ ⟨fun _ => rfl, fun _ => rfl⟩) fun _ => ?_
    exact Keeps.bind hstore.writeTaskState fun _ => hstore.emitAgentState
  obtain ⟨new, hnew, hitems⟩ := hrest.ok hrun
  refine ⟨before ++ new, ?_, fun item hitem hwrite => ?_⟩
  · rw [hnew, hbefore, List.append_assoc]
  · rcases hitems item hitem with hold | hnone | hbacked
    · cases hold
    · exact hnone.elim
    · exact (hbacked hwrite).append_right before

/-- A run that began, up to its end or to the exception it raised: the state at the end, and what
was added to the log. -/
def RanTo (env : AgentEnv X) (userMessage taskId runId : String) (s : AgentState X)
    (new : List Event) (t : AgentState X) : Prop :=
  ∃ u r, (startRun env userMessage taskId runId).run s = (.ok (), u) ∧
    (Eff.tryExcept (runBody env userMessage) Failure.endsRun (handleEnd env)).run u = (r, t) ∧
      t.log = s.log ++ new

/-- A run that returns has begun. -/
theorem ranTo_of_returned {env : AgentEnv X} {userMessage taskId runId answer : String}
    {s t : AgentState X}
    (h : (AgentLoop.run env userMessage taskId runId).run s = (.ok answer, t)) :
    ∃ new, RanTo env userMessage taskId runId s new t := by
  unfold AgentLoop.run at h
  obtain ⟨_, u, hstart, hbody⟩ := bind_eq_ok h
  obtain ⟨before, hbefore, _⟩ := evidence_of_startRun hstart
  have hkept : Keeps (evidenceLaw X fun _ => False) _ := keeps_body env userMessage
  obtain ⟨new, hnew, _⟩ := hkept.ok hbody
  exact ⟨before ++ new, u, _, hstart, hbody, by rw [hnew, hbefore, List.append_assoc]⟩

/-- **Every write evidence is that of a write in the log.** -/
theorem evidence_of_ranTo {env : AgentEnv X} {userMessage taskId runId : String}
    {s t : AgentState X} {new : List Event} (h : RanTo env userMessage taskId runId s new t)
    {item : EvidenceItem} (hitem : item ∈ t.task.evidence) (hwrite : item.isWrite = true) :
    WriteSucceeded new := by
  obtain ⟨u, r, hstart, hbody, hlog⟩ := h
  obtain ⟨before, hbefore, hstarted⟩ := evidence_of_startRun hstart
  have hkept : Keeps (evidenceLaw X fun _ => False) _ := keeps_body env userMessage
  have hend := hkept u
  rw [hbody] at hend
  obtain ⟨more, hmore, hitems⟩ := hend
  have hnew : new = before ++ more := by
    rw [hmore, hbefore, List.append_assoc] at hlog
    exact (List.append_cancel_left hlog).symm
  rw [hnew]
  rcases hitems item hitem with hold | hnone | hbacked
  · exact (hstarted item hold hwrite).append_left more
  · exact hnone.elim
  · exact (hbacked hwrite).append_right before

end ThreadForge

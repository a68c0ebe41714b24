import ThreadForge.Pico.ToolExecutor

/-!
# Laws of the steps of the agent

`StepLaws env law` says that the primitive steps of the agent keep a law of runs. Everything that is
built from them then keeps it too; here this is shown for what the agent calls and for the executor.

What runs a tool is not among the steps: `execute_keeps` takes what is known of it as a hypothesis.
-/

namespace ThreadForge

open Eff AgentM

variable {X : Type}

/-- The value at a site is one the code goes on with. -/
def Site.Safe (txt : PyText) (loads : JsonLoads) : Site → Prop
  | .reply raw => ReadableReply txt loads raw
  | .call name args window => CheckableCall txt name args window
  | .batch calls => ∀ call ∈ calls, isRead txt call = true → FiniteRange txt call.args
  | .result name succeeded content =>
    isReadOnlyName name = true → succeeded = true → txt.encodable content = true
  | .rebuttal batchSeen => batchSeen = true
  | .layer => False

/-! ## What the primitive steps do -/

/-- A call to the outside changes the world only, and fails by a cancellation or an exception of the
outside. -/
theorem outer_cases {A : Type} (f : Outer X A) (s : AgentState X) :
    (∃ a w, (outer f).run s = (.ok a, { s with world := w })) ∨
    ∃ e w, (outer f).run s = (.error e, { s with world := w }) ∧
      (e = .cancelled ∨ ∃ err, e = .outside err) := by
  unfold outer
  dsimp only
  split
  · next a w _ => exact Or.inl ⟨a, w, rfl⟩
  · next w _ => exact Or.inr ⟨_, w, rfl, Or.inl rfl⟩
  · next err w _ => exact Or.inr ⟨_, w, rfl, Or.inr ⟨err, rfl⟩⟩

/-- A call with a handler around it fails as the call does, where the handler lets it. -/
theorem outerCaught_cases {A : Type} (f : Outer X A) (catches : Failure → Bool)
    (s : AgentState X) :
    (∃ r w, (outerCaught f catches).run s = (.ok r, { s with world := w })) ∨
    ∃ e w, (outerCaught f catches).run s = (.error e, { s with world := w }) ∧
      (e = .cancelled ∨ ∃ err, e = .outside err) ∧ catches e = false := by
  unfold outerCaught
  rcases outer_cases f s with ⟨a, w, hrun⟩ | ⟨e, w, hrun, hkind⟩
  · refine Or.inl ⟨.ok a, w, ?_⟩
    exact run_tryExcept_ok (run_bind_ok hrun)
  · have hbody : ((outer f) >>= fun a => (pure (.ok a) : AgentM X (Except Failure A))).run s =
        (.error e, { s with world := w }) := run_bind_error hrun
    by_cases hcatch : catches e = true
    · refine Or.inl ⟨.error e, w, ?_⟩
      rw [run_tryExcept_caught hbody hcatch]
      rfl
    · refine Or.inr ⟨e, w, ?_, hkind, Bool.eq_false_iff.mpr hcatch⟩
      rw [run_tryExcept_passed hbody hcatch]

/-- A call of the memory, the prompt or the checkpoints: where it fails, that is noted. -/
theorem layered_cases {A : Type} (f : TaskState → Outer X A) (s : AgentState X) :
    (∃ a w, (layered f).run s = (.ok a, { s with world := w })) ∨
    ∃ e w, (layered f).run s =
      (.error e, { s with world := w, log := s.log ++ [.site .layer] }) ∧
      (e = .cancelled ∨ ∃ err, e = .outside err) := by
  show (∃ a w, (tryExcept (outer (f s.task)) _ _).run s = _) ∨
    ∃ e w, (tryExcept (outer (f s.task)) _ _).run s = _ ∧ _
  rcases outer_cases (f s.task) s with ⟨a, w, hrun⟩ | ⟨e, w, hrun, hkind⟩
  · exact Or.inl ⟨a, w, run_tryExcept_ok hrun⟩
  · exact Or.inr ⟨e, w, run_tryExcept_caught hrun rfl, hkind⟩

/-- A pure computation at a site. -/
theorem attempt_cases {A : Type} (site : Site) (x : Except PyError A) (s : AgentState X) :
    (∃ a, x = .ok a ∧
      (attempt site x).run s = (.ok a, { s with log := s.log ++ [.site site] })) ∨
    ∃ kind, x = .error kind ∧
      (attempt site x).run s =
        (.error (.raised ⟨kind, none⟩), { s with log := s.log ++ [.site site] }) := by
  cases x with
  | ok a => exact Or.inl ⟨a, rfl, rfl⟩
  | error kind => exact Or.inr ⟨kind, rfl, rfl⟩

/-- A computation on the files raises exceptions of its own only. -/
theorem onFiles_cases {A : Type} (m : FileM A) (s : AgentState X) :
    (∃ a t, m.run ⟨s.world.files, []⟩ = (.ok a, t) ∧
      (onFiles m).run s = (.ok a, { s with world := { s.world with files := t.tree } })) ∨
    ∃ exc t, m.run ⟨s.world.files, []⟩ = (.error exc, t) ∧
      (onFiles m).run s =
        (.error (.raised exc), { s with world := { s.world with files := t.tree } }) := by
  unfold onFiles
  dsimp only
  split
  · next a t hrun => exact Or.inl ⟨a, t, hrun, rfl⟩
  · next exc t hrun => exact Or.inr ⟨exc, t, hrun, rfl⟩

/-- Validation changes the world only, and does not fail. -/
theorem validationProblem_cases (env : AgentEnv X) (tool : ToolName) (args : PyDict)
    (s : AgentState X) :
    ∃ problem w, (validationProblem env tool args).run s = (.ok problem, { s with world := w }) := by
  unfold validationProblem
  rcases onFiles_cases (validateTool env.files tool args) s with
    ⟨a, t, _, hrun⟩ | ⟨exc, t, _, hrun⟩
  · refine ⟨none, { s.world with files := t.tree }, ?_⟩
    exact run_tryExcept_ok (run_bind_ok hrun)
  · refine ⟨some (failureText env (.raised exc)), { s.world with files := t.tree }, ?_⟩
    exact run_tryExcept_caught (run_bind_error hrun) rfl

/-- Storage, sink and progress do not fail. -/
structure StorageQuiet (env : AgentEnv X) : Prop where
  storage : ∀ call t w, call.observesCancel = false → (env.service call t w).1 = .ok ()

theorem StorageQuiet.run_storage {env : AgentEnv X} (h : StorageQuiet env) {call : Service}
    (hcall : call.observesCancel = false) (s : AgentState X) :
    ∃ w, (service env call).run s = (.ok (), { s with world := w }) := by
  have hok := h.storage call s.task s.world hcall
  show ∃ w, (outer (env.service call s.task)).run s = _
  unfold outer
  dsimp only
  rcases hrun : env.service call s.task s.world with ⟨r, w⟩
  rw [hrun] at hok
  dsimp only at hok
  subst hok
  exact ⟨w, rfl⟩

/-! ## Laws -/

theorem keeps_task {law : RunLaw (AgentState X) Failure} :
    Keeps law (AgentM.task : AgentM X TaskState) := Keeps.get_bind fun s => Keeps.pure s.task

/-- The steps that only store and announce keep a law. -/
structure QuietLaws (env : AgentEnv X) (law : RunLaw (AgentState X) Failure) : Prop where
  world : ∀ s w, law.holds s none { s with world := w }
  storage : ∀ call, call.observesCancel = false → Keeps law (AgentM.service env call)
  store : Keeps law (Eff.modify fun s => { s with taskFile := some s.task })
  remember : ∀ item, Keeps law (Eff.modify fun s => { s with history := s.history ++ [item] })

/-- A change of the task state that leaves how the run ends, and what it found out. -/
structure Tame (f : TaskState → TaskState) : Prop where
  outcome : ∀ t, (f t).outcome = t.outcome
  evidence : ∀ t, (f t).evidence = t.evidence

theorem tame_completeItem (txt : PyText) (item : String) : Tame fun t => t.completeItem txt item := by
  refine ⟨fun t => TaskState.outcome_completeItem txt t item, fun t => ?_⟩
  unfold TaskState.completeItem
  dsimp only
  split <;> rfl

theorem tame_finishPostToolReasoning (final : Bool) :
    Tame fun t => t.finishPostToolReasoning final :=
  ⟨fun t => TaskState.outcome_finishPostToolReasoning t final, fun t => by cases final <;> rfl⟩

/-- So do the tame changes of the task state. -/
structure StorageLaws (env : AgentEnv X) (law : RunLaw (AgentState X) Failure) : Prop
    extends QuietLaws env law where
  onTask : ∀ f, Tame f → Keeps law (AgentM.onTask f)

/-- These steps, and the calls of the memory, the prompt and the checkpoints, keep a law. -/
structure StoreLaws (env : AgentEnv X) (law : RunLaw (AgentState X) Failure) : Prop
    extends StorageLaws env law where
  layered : ∀ {A : Type} (f : TaskState → Outer X A), Keeps law (AgentM.layered f)

/-- What the executor does besides running a tool keeps a law. The one change of the task state it
makes counts a violation of the sandbox. -/
structure ExecutorLaws (env : AgentEnv X) (law : RunLaw (AgentState X) Failure) : Prop
    extends QuietLaws env law where
  layered : ∀ {A : Type} (f : TaskState → Outer X A), Keeps law (AgentM.layered f)
  cancelled : ∀ s w, law.holds s (some .cancelled) { s with world := w }
  hook : ∀ call, call.observesCancel = true → Keeps law (AgentM.service env call)
  ask : ∀ request, Keeps law (outer (env.ask request))
  violation : Keeps law (AgentM.onTask TaskState.recordSandboxViolation)

/-- The primitive steps keep a law. -/
structure StepLaws (env : AgentEnv X) (law : RunLaw (AgentState X) Failure) : Prop
    extends StoreLaws env law, ExecutorLaws env law where
  violation := onTask _ ⟨fun _ => rfl, fun _ => rfl⟩
  attempt : ∀ {A : Type} (site : Site) (x : Except PyError A),
    (site.Safe env.txt env.loads → ∃ a, x = .ok a) → Keeps law (AgentM.attempt site x)

namespace QuietLaws

variable {env : AgentEnv X} {law : RunLaw (AgentState X) Failure} (h : QuietLaws env law)

include h

theorem observe {A : Type} (f : World X → A × World X) : Keeps law (AgentM.observe f) :=
  fun s => h.world s (f s.world).2

/-- A handler that lets nothing through. -/
theorem caughtAll {A : Type} (f : Outer X A) :
    Keeps law (AgentM.outerCaught f fun _ => true) := by
  intro s
  rcases outerCaught_cases f (fun _ => true) s with ⟨r, w, hrun⟩ | ⟨_, _, _, _, hnot⟩
  · rw [hrun]
    exact h.world s w
  · cases hnot

/-- A computation on the files that raises nothing. -/
theorem onFiles {A : Type} (m : FileM A) (hm : ∀ fs, ∃ a t, m.run fs = (.ok a, t)) :
    Keeps law (AgentM.onFiles m) := by
  intro s
  rcases onFiles_cases m s with ⟨a, t, _, hrun⟩ | ⟨exc, t, herr, _⟩
  · rw [hrun]
    exact h.world s _
  · obtain ⟨a, t', hok⟩ := hm ⟨s.world.files, []⟩
    rw [hok] at herr
    cases herr

theorem validate (tool : ToolName) (args : PyDict) :
    Keeps law (validationProblem env tool args) := by
  intro s
  obtain ⟨problem, w, hrun⟩ := validationProblem_cases env tool args s
  rw [hrun]
  exact h.world s w

/-! ## What the agent calls -/

theorem emitProgress (message : String) : Keeps law (AgentM.emitProgress env message) :=
  h.storage _ rfl

theorem emitTrace (event : String) : Keeps law (AgentM.emitTrace env event) := h.storage _ rfl

theorem emitAgentState : Keeps law (AgentM.emitAgentState env) := h.storage _ rfl

theorem writeTaskState : Keeps law (AgentM.writeTaskState env) :=
  Keeps.bind (h.storage _ rfl) fun _ => h.store

theorem record (item : HistoryItem) : Keeps law (AgentM.record env item) :=
  Keeps.bind (h.remember item) fun _ => h.storage _ rfl

end QuietLaws

namespace StoreLaws

variable {env : AgentEnv X} {law : RunLaw (AgentState X) Failure} (h : StoreLaws env law)

include h

theorem layer (call : Layer) : Keeps law (AgentM.layer env call) := h.layered _

theorem checkpoint (trigger : String) : Keeps law (AgentM.checkpoint env trigger) := by
  refine Keeps.when ?_
  refine Keeps.bind (h.layer _) fun _ => ?_
  exact Keeps.bind h.writeTaskState fun _ => h.emitTrace _

end StoreLaws

namespace ExecutorLaws

variable {env : AgentEnv X} {law : RunLaw (AgentState X) Failure} (h : ExecutorLaws env law)

include h

theorem layer (call : Layer) : Keeps law (AgentM.layer env call) := h.layered _

theorem cancel {A : Type} : Keeps law (Eff.raise .cancelled : AgentM X A) :=
  Keeps.raise fun s => h.cancelled s s.world

theorem service (call : Service) : Keeps law (AgentM.service env call) := by
  cases hcancel : call.observesCancel with
  | false => exact h.storage call hcancel
  | true => exact h.hook call hcancel

theorem raiseIfCancelled : Keeps law (AgentM.raiseIfCancelled env) :=
  Keeps.bind (h.observe _) fun _ => Keeps.when h.cancel

/-- A handler that lets cancellations through at most. -/
theorem outerCaught {A : Type} (f : Outer X A) {catches : Failure → Bool}
    (hcatch : ∀ err, catches (.outside err) = true) : Keeps law (AgentM.outerCaught f catches) := by
  intro s
  rcases outerCaught_cases f catches s with ⟨r, w, hrun⟩ | ⟨e, w, hrun, hkind, hnot⟩
  · rw [hrun]
    exact h.world s w
  · rw [hrun]
    rcases hkind with rfl | ⟨err, rfl⟩
    · exact h.cancelled s w
    · rw [hcatch err] at hnot
      cases hnot

/-! ## Admission -/

theorem approveOutcome (request : ApprovalRequest) :
    Keeps law (ThreadForge.approveOutcome env request) := by
  unfold ThreadForge.approveOutcome
  split
  · exact Keeps.pure _
  split
  · exact Keeps.pure _
  · exact Keeps.bind (h.ask request) fun _ => Keeps.pure _

theorem recordSandboxViolation : Keeps law (ThreadForge.recordSandboxViolation env) := by
  refine Keeps.bind h.violation fun _ => ?_
  exact Keeps.bind h.writeTaskState fun _ => h.emitTrace _

theorem rejectInvalid (tool : ToolName) (problem : String) :
    Keeps law (ThreadForge.rejectInvalid env tool problem) :=
  Keeps.bind (Keeps.when h.recordSandboxViolation) fun _ => Keeps.pure _

theorem rejectUnapproved (content errorCode securityEvent : String) :
    Keeps law (ThreadForge.rejectUnapproved env content errorCode securityEvent) :=
  Keeps.bind (h.service _) fun _ => Keeps.pure _

theorem prepareCall {name : PyValue} (tool : ToolName) (named : name = .str tool.text)
    (permitted : tool.risky = true → env.refusing = false) (args : PyDict) :
    Keeps law (ThreadForge.prepareCall env tool named permitted args) := by
  refine Keeps.bind h.raiseIfCancelled fun _ => ?_
  refine Keeps.bind (h.service _) fun _ => ?_
  exact Keeps.get_bind fun s => Keeps.pure _

theorem approveCall {name : PyValue} (tool : ToolName) (named : name = .str tool.text)
    (args : PyDict) : Keeps law (ThreadForge.approveCall env tool named args) := by
  unfold ThreadForge.approveCall
  refine Keeps.bind (h.approveOutcome _) fun outcome => ?_
  split
  · exact h.prepareCall tool named _ args
  · exact h.cancel
  · exact Keeps.bind (h.rejectUnapproved _ _ _) fun _ => Keeps.pure _
  · refine Keeps.bind (Keeps.when h.recordSandboxViolation) fun _ => ?_
    exact Keeps.bind (h.rejectUnapproved _ _ _) fun _ => Keeps.pure _

theorem admitCall (name : PyValue) (args : PyDict) :
    Keeps law (ThreadForge.admitCall env name args) := by
  unfold ThreadForge.admitCall
  split
  · exact Keeps.bind h.recordSandboxViolation fun _ => Keeps.pure _
  split
  · exact Keeps.pure _
  · next tool hname =>
    refine Keeps.bind (h.validate tool args) fun problem => ?_
    cases problem with
    | some problem => exact Keeps.bind (h.rejectInvalid tool problem) fun _ => Keeps.pure _
    | none =>
      refine Keeps.get_bind fun s => ?_
      split
      · exact Keeps.pure _
      · refine Keeps.bind (h.service _) fun _ => ?_
        split
        · exact h.approveCall tool _ args
        · exact h.prepareCall tool _ _ args

/-! ## Conclusion -/

theorem updateMemoryAfterTool (name : PyValue) (args : PyDict) (content : String) :
    Keeps law (ThreadForge.updateMemoryAfterTool env name args content) :=
  Keeps.when (h.layer _)

theorem recordProcessNote (name : PyValue) (status : ToolStatus) (affected : List String) :
    Keeps law (ThreadForge.recordProcessNote env name status affected) := by
  cases status with
  | ok => exact Keeps.pure ()
  | _ => exact h.layer _

theorem conclude {name : PyValue} (call : ReadyCall env name) (args : PyDict)
    (outcome : Except String String) : Keeps law (ThreadForge.conclude env call args outcome) := by
  cases outcome with
  | ok content =>
    refine Keeps.get_bind fun s => ?_
    refine Keeps.bind (h.updateMemoryAfterTool name args content) fun _ => ?_
    refine Keeps.bind (h.recordProcessNote name _ _) fun _ => ?_
    exact Keeps.bind (h.service _) fun _ => Keeps.pure _
  | error problem =>
    refine Keeps.get_bind fun s => ?_
    refine Keeps.bind (Keeps.when h.recordSandboxViolation) fun _ => ?_
    refine Keeps.bind (h.recordProcessNote name _ _) fun _ => ?_
    exact Keeps.bind (h.service _) fun _ => Keeps.pure _

/-- A call keeps a law when running its tool does. -/
theorem execute {route : Route} {name : PyValue} {args : PyDict}
    (hperform : ∀ call : ReadyCall env name, Keeps law (perform env route call args)) :
    Keeps law (ThreadForge.ToolExecutor.execute env route name args) := by
  unfold ThreadForge.ToolExecutor.execute
  refine Keeps.bind (h.admitCall name args) fun admitted => ?_
  cases admitted with
  | inl result => exact Keeps.pure result
  | inr call => exact Keeps.bind (hperform call) fun outcome => h.conclude call args outcome

theorem summarizeToolResult (name : PyValue) (result : ToolResult) :
    Keeps law (ThreadForge.summarizeToolResult env name result) :=
  Keeps.bind (h.layer _) fun _ => Keeps.pure _

end ExecutorLaws

/-! ## Storage that does not fail -/

/-- Nothing is raised. -/
def noRaise (X : Type) : RunLaw (AgentState X) Failure where
  holds _ r _ := r = none
  refl _ := rfl
  trans _ h := h

theorem storageLaws_noRaise {env : AgentEnv X} (h : StorageQuiet env) :
    StorageLaws env (noRaise X) where
  world _ _ := rfl
  storage call hcall s := by
    obtain ⟨w, hrun⟩ := h.run_storage hcall s
    rw [hrun]
    rfl
  onTask _ _ _ := rfl
  store _ := rfl
  remember _ _ := rfl

/-- A computation that raises nothing returns. -/
theorem returns_of_noRaise {A : Type} {m : AgentM X A} (h : Keeps (noRaise X) m)
    (s : AgentState X) : ∃ a t, m.run s = (.ok a, t) := by
  have hnone := h s
  rcases hrun : m.run s with ⟨e | a, t⟩
  · rw [hrun] at hnone
    cases hnone
  · exact ⟨a, t, rfl⟩

/-- A call of the memory or of the checkpoints returns where the outside does. -/
theorem layer_ok_iff {env : AgentEnv X} (call : Layer) (s : AgentState X) :
    ((layer env call).run s).1 = .ok () ↔ (env.layer call s.task s.world).1 = .ok () := by
  unfold layer layered
  rw [run_task_bind, run_tryExcept]
  unfold outer
  dsimp only
  rcases env.layer call s.task s.world with ⟨(_ | err) | a, w⟩
  · simp [note]
  · simp [note]
  · simp

end ThreadForge

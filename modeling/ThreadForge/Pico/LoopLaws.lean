import ThreadForge.Pico.WriteResults

/-!
# Laws of the loop

`LoopLaws env law` adds to `StepLaws` what the loop needs: the calls of the model, the runners it
starts, and the two places that run tools on a route of their own. The loop then keeps the law
(`LoopLaws.planAndLoop`).

## Batches

The calls of the concurrent group are captured, and what one of them raised goes on only when all of
them have ended. So a law must let such an exception be late, and the group must not raise the one
exception for which no law may: it never holds a `run_shell` (`not_runShell_of_concurrent`), and no
other tool has a process whose cleanup can fail (`noCleanup`).
-/

namespace ThreadForge

open Eff AgentM

variable {X : Type}

/-! ## The concurrent group has no shell call -/

theorem not_runShell_of_runsConcurrently {txt : PyText} {trail : BatchTrail} {call : BatchCall}
    (h : runsConcurrently txt trail call = true) : call.nameText txt ≠ "run_shell" := by
  intro hname
  unfold runsConcurrently at h
  simp [hname] at h

theorem not_runShell_of_concurrent {txt : PyText} :
    ∀ {calls : List BatchCall} {index : Nat} {trail : BatchTrail} {item : Nat × BatchCall},
      item ∈ (partitionBatchFrom txt index trail calls).1 → item.2.nameText txt ≠ "run_shell"
  | [], _, _, _, h => by cases h
  | call :: rest, index, trail, item, h => by
    unfold partitionBatchFrom at h
    dsimp only at h
    split at h
    · next hconcurrent =>
      rcases List.mem_cons.mp h with rfl | hrest
      · exact not_runShell_of_runsConcurrently hconcurrent
      · exact not_runShell_of_concurrent hrest
    · exact not_runShell_of_concurrent h

/-- No process cleanup failed. -/
def noCleanup (X : Type) : RunLaw (AgentState X) Failure where
  holds _ r _ := r ≠ some .cleanupFailed
  refl _ := by simp
  trans _ h := h

theorem ne_cleanupFailed_of_outer {e : Failure}
    (h : e = .cancelled ∨ ∃ err, e = .outside err) : some e ≠ some .cleanupFailed := by
  rcases h with rfl | ⟨err, rfl⟩ <;> simp

theorem keeps_noCleanup_outer {A : Type} (f : Outer X A) : Keeps (noCleanup X) (outer f) := by
  intro s
  rcases outer_cases f s with ⟨a, w, hrun⟩ | ⟨e, w, hrun, hkind⟩
  · rw [hrun]
    exact (noCleanup X).refl s
  · rw [hrun]
    exact ne_cleanupFailed_of_outer hkind

theorem stepLaws_noCleanup (env : AgentEnv X) : StepLaws env (noCleanup X) where
  world s _ := (noCleanup X).refl s
  storage call _ := Keeps.bind keeps_task fun t => keeps_noCleanup_outer (env.service call t)
  layered f := by
    intro s
    rcases layered_cases f s with ⟨a, w, hrun⟩ | ⟨e, w, hrun, hkind⟩
    · rw [hrun]
      exact (noCleanup X).refl s
    · rw [hrun]
      exact ne_cleanupFailed_of_outer hkind
  onTask f _ := Keeps.modify fun s => (noCleanup X).refl s
  store := Keeps.modify fun s => (noCleanup X).refl s
  remember item := Keeps.modify fun s => (noCleanup X).refl s
  cancelled _ _ := by simp [noCleanup]
  hook call _ := Keeps.bind keeps_task fun t => keeps_noCleanup_outer (env.service call t)
  ask request := keeps_noCleanup_outer (env.ask request)
  attempt site x _ := by
    intro s
    rcases attempt_cases site x s with ⟨a, _, hrun⟩ | ⟨kind, _, hrun⟩
    · rw [hrun]
      exact (noCleanup X).refl s
    · rw [hrun]
      simp [noCleanup]

/-- Only a shell command has a process whose cleanup can fail. -/
theorem keeps_noCleanup_perform {env : AgentEnv X} {route : Route} {name : String}
    (hname : name ≠ "run_shell") (call : ReadyCall env (.str name)) (args : PyDict) :
    Keeps (noCleanup X) (perform env route call args) := by
  have htool : call.tool ≠ .runShell := by
    intro htool
    have hnamed := call.named
    rw [htool] at hnamed
    exact hname (PyValue.str.inj hnamed)
  have hrun : Keeps (noCleanup X) (runTool env route call.tool args) := by
    unfold runTool
    refine Keeps.bind (Keeps.modify fun s => (noCleanup X).refl s) fun _ => ?_
    rw [if_neg htool]
    refine Keeps.bind (fun s => (noCleanup X).refl s) fun oracle => ?_
    intro s
    rcases onFiles_cases (runFileTool env.files oracle call.tool args) s with
      ⟨a, t, _, hfiles⟩ | ⟨exc, t, _, hfiles⟩
    · rw [hfiles]
      exact (noCleanup X).refl s
    · rw [hfiles]
      simp [noCleanup]
  refine Keeps.tryExcept (Keeps.bind hrun fun _ => Keeps.pure _) ?_ fun e _ => Keeps.pure _
  intro e _ s t _
  exact (noCleanup X).refl s

/-- A step of a call keeps no exception that it did not have. -/
theorem failed_of_stepStage {env : AgentEnv X} {attempts : Nat} {window : List WindowEntry}
    {name : String} {args : PyDict} {stage stage' : JobStage env (.str name)}
    {u t : AgentState X} {e : Failure}
    (hrun : (stepStage env attempts window name args stage).run u = (.ok stage', t))
    (herr : stage' = .done (.error e)) : stage = .done (.error e) ∧ t = u := by
  subst herr
  cases stage with
  | queued =>
    obtain ⟨repeated, v, _, hrest⟩ := bind_eq_ok hrun
    split at hrest
    · obtain ⟨result, w, _, hdone⟩ := bind_eq_ok hrest
      cases hdone
    · cases hrest
  | checked =>
    obtain ⟨admitted, v, _, hrest⟩ := bind_eq_ok hrun
    cases admitted <;> cases hrest
  | ready call =>
    obtain ⟨outcome, v, _, hrest⟩ := bind_eq_ok hrun
    cases hrest
  | ran call outcome =>
    obtain ⟨result, v, _, hrest⟩ := bind_eq_ok hrun
    cases hrest
  | done result =>
    cases hrun
    exact ⟨rfl, rfl⟩

/-! ## The commit of a call -/

/-- `_commit_tool_action`, once the result has its fingerprint. -/
def commitRest (env : AgentEnv X) (attempts : Nat) (name : PyValue) (args : PyDict)
    (window : List WindowEntry) (result : ToolResult) (resultFp : Option String) :
    AgentM X (Bool × List WindowEntry) := do
  let repeated ← attempt (.call name args window)
    (toolCallRepeats env.txt name args resultFp window)
  Eff.when (name = .str "read_file" ∧ repeated = false) (onTask TaskState.recordReadFile)
  let window' ← extendWindow env name args window resultFp repeated
  Eff.when (result.status.succeeded = true ∧ repeated = false)
    (recordEvidenceOf env name args result)
  reportToolAction env attempts name args result
  pure (repeated, window')

theorem commitToolAction_eq (env : AgentEnv X) (attempts : Nat) (name : PyValue) (args : PyDict)
    (window : List WindowEntry) (result : ToolResult) :
    commitToolAction env attempts name args window result = (do
      onTask fun t => t.recordAffectedPaths env.txt result.affectedPaths
      let resultFp ← attempt (.result name result.status.succeeded result.content)
        (resultFingerprint env.txt (fun text => env.digest (env.files.encode text)) name
          result.status.succeeded result.content)
      commitRest env attempts name args window result resultFp) := rfl

namespace StepLaws

variable {env : AgentEnv X} {law : RunLaw (AgentState X) Failure} (h : StepLaws env law)

include h

/-! ## Executing a call -/

theorem checkRepeat (attempts : Nat) (name : PyValue) (args : PyDict) (window : List WindowEntry) :
    Keeps law (ThreadForge.checkRepeat env attempts name args window) :=
  Keeps.bind (h.emitProgress _) fun _ => h.attempt _ _ fun hsafe => preRepeats_ok hsafe

theorem rejectRepeat (name : PyValue) : Keeps law (ThreadForge.rejectRepeat env name) := by
  refine Keeps.bind (h.onTask _ ⟨fun _ => rfl, fun _ => rfl⟩) fun _ => ?_
  exact Keeps.bind (h.emitTrace _) fun _ => Keeps.pure _

theorem executeToolAction (attempts : Nat) {name : PyValue} {args : PyDict}
    (window : List WindowEntry)
    (hperform : ∀ call : ReadyCall env name, Keeps law (perform env .main call args)) :
    Keeps law (ThreadForge.executeToolAction env attempts name args window) :=
  Keeps.bind (h.checkRepeat _ _ _ _) fun _ => Keeps.ite (h.rejectRepeat name) (h.execute hperform)

theorem stepStage (attempts : Nat) (window : List WindowEntry) {name : String} {args : PyDict}
    (hperform : ∀ call : ReadyCall env (.str name), Keeps law (perform env .main call args))
    (stage : JobStage env (.str name)) :
    Keeps law (ThreadForge.stepStage env attempts window name args stage) := by
  cases stage with
  | queued =>
    refine Keeps.bind (h.checkRepeat _ _ _ _) fun repeated => ?_
    exact Keeps.ite (Keeps.bind (h.rejectRepeat _) fun _ => Keeps.pure _) (Keeps.pure _)
  | checked =>
    refine Keeps.bind (h.admitCall _ _) fun admitted => ?_
    cases admitted <;> exact Keeps.pure _
  | ready call => exact Keeps.bind (hperform call) fun _ => Keeps.pure _
  | ran call outcome => exact Keeps.bind (h.conclude call args outcome) fun _ => Keeps.pure _
  | done result => exact Keeps.pure _

/-- The rest of a call that has not ended. -/
theorem finishStage (attempts : Nat) (window : List WindowEntry) {name : String} {args : PyDict}
    (hperform : ∀ call : ReadyCall env (.str name), Keeps law (perform env .main call args))
    {stage : JobStage env (.str name)} (hstage : ∀ result, stage ≠ .done result) :
    Keeps law (ThreadForge.finishStage env attempts window name args stage) := by
  cases stage with
  | queued => exact h.executeToolAction attempts window hperform
  | checked => exact h.execute hperform
  | ready call => exact Keeps.bind (hperform call) fun outcome => h.conclude call args outcome
  | ran call outcome => exact h.conclude call args outcome
  | done result => exact absurd rfl (hstage result)

/-! ## Committing a call -/

theorem reportToolAction (attempts : Nat) (name : PyValue) (args : PyDict) (result : ToolResult) :
    Keeps law (ThreadForge.reportToolAction env attempts name args result) := by
  refine Keeps.bind (h.emitProgress _) fun _ => ?_
  refine Keeps.bind (h.summarizeToolResult _ _) fun _ => ?_
  refine Keeps.bind (h.onTask _ ⟨fun _ => rfl, fun _ => rfl⟩) fun _ => ?_
  refine Keeps.bind (h.record _) fun _ => ?_
  refine Keeps.bind h.writeTaskState fun _ => ?_
  refine Keeps.bind (h.emitTrace _) fun _ => ?_
  refine Keeps.bind (h.checkpoint _) fun _ => ?_
  refine Keeps.bind (h.emitTrace _) fun _ => ?_
  refine Keeps.bind (h.onTask _ (tame_finishPostToolReasoning false)) fun _ => ?_
  exact Keeps.bind h.writeTaskState fun _ => h.emitAgentState

theorem extendWindow (name : PyValue) (args : PyDict) (window : List WindowEntry)
    (resultFp : Option String) (repeated : Bool) :
    Keeps law (ThreadForge.extendWindow env name args window resultFp repeated) := by
  unfold ThreadForge.extendWindow
  refine Keeps.ite (Keeps.pure _) ?_
  refine Keeps.bind (h.attempt _ _ fun hsafe => ?_) fun _ => Keeps.pure _
  exact toolFingerprint_ok hsafe.hashable hsafe.finite

/-- What `_commit_tool_action` does once the result has its fingerprint. -/
theorem commitRest {attempts : Nat} {name : PyValue} {args : PyDict} {window : List WindowEntry}
    {result : ToolResult}
    (hrecord : ∀ item : EvidenceItem, item.status = result.status →
      item.readOnly = result.readOnly → Keeps law (AgentM.onTask fun t => t.recordEvidence item))
    (resultFp : Option String) :
    Keeps law (ThreadForge.commitRest env attempts name args window result resultFp) := by
  unfold ThreadForge.commitRest
  refine Keeps.bind (h.attempt _ _ fun hsafe => toolCallRepeats_ok hsafe _) fun repeated => ?_
  refine Keeps.bind (Keeps.when (h.onTask _ ⟨fun _ => rfl, fun _ => rfl⟩)) fun _ => ?_
  refine Keeps.bind (h.extendWindow _ _ _ _ _) fun window' => ?_
  refine Keeps.bind (Keeps.when ?_) fun _ => ?_
  · exact Keeps.bind (h.summarizeToolResult _ _) fun _ => hrecord _ rfl rfl
  · exact Keeps.bind (h.reportToolAction _ _ _ _) fun _ => Keeps.pure _

/-- A call is committed under a law that evidence may be added under. -/
theorem commitToolAction (hrecord : ∀ item, Keeps law (AgentM.onTask fun t => t.recordEvidence item))
    (attempts : Nat) (name : PyValue) (args : PyDict) (window : List WindowEntry)
    (result : ToolResult) :
    Keeps law (ThreadForge.commitToolAction env attempts name args window result) := by
  rw [commitToolAction_eq]
  refine Keeps.bind (h.onTask _ ⟨fun _ => rfl, fun _ => rfl⟩) fun _ => ?_
  refine Keeps.bind (h.attempt _ _ fun hsafe => resultFingerprint_ok hsafe) fun resultFp => ?_
  exact h.commitRest (fun item _ _ => hrecord item) resultFp

end StepLaws

/-! ## Laws of the loop -/

theorem StorageLaws.applyReviewCompletedSteps {env : AgentEnv X}
    {law : RunLaw (AgentState X) Failure} (h : StorageLaws env law) (decision : ReviewDecision) :
    Keeps law (ThreadForge.applyReviewCompletedSteps env decision) := by
  refine Keeps.bind (Keeps.foldEach (fun checked goal => ?_) _ _) fun checked => ?_
  · refine Keeps.bind keeps_task fun t => ?_
    refine Keeps.ite ?_ (Keeps.pure _)
    refine Keeps.bind (h.onTask _ (tame_completeItem env.txt _)) fun _ => ?_
    exact Keeps.bind (h.emitTrace _) fun _ => Keeps.pure _
  · exact Keeps.when (Keeps.bind h.writeTaskState fun _ => h.emitAgentState)

/-- The steps of the loop keep a law. A call is committed with a result that names what it wrote. -/
structure LoopLaws (env : AgentEnv X) (law : RunLaw (AgentState X) Failure) : Prop
    extends StepLaws env law where
  commit : ∀ (attempts : Nat) {name : PyValue} (args : PyDict) (window : List WindowEntry)
    {result : ToolResult}, NamesWrite name result →
    Keeps law (commitToolAction env attempts name args window result)
  perform : ∀ {name : PyValue} (call : ReadyCall env name) (args : PyDict),
    Keeps law (perform env .main call args)
  model : ∀ purpose prompt, Keeps law (outer (env.complete purpose prompt))
  criterion : ∀ command, Keeps law (runCriterion env command)
  answerReview : ∀ progress raw, Keeps law (answerReview env progress raw)
  forgives : ∀ e, e ≠ .cleanupFailed → law.Forgives e
  late : ∀ e, e ≠ .cleanupFailed → law.Late e

namespace LoopLaws

variable {env : AgentEnv X} {law : RunLaw (AgentState X) Failure} (h : LoopLaws env law)

include h

/-! ## Planning -/

theorem askPlanner (prompt : String) : Keeps law (ThreadForge.askPlanner env prompt) := by
  refine Keeps.bind (h.outerCaught _ fun err => rfl) fun completion => ?_
  cases completion <;> exact Keeps.pure _

theorem runPlanning (request context explored : String) :
    Keeps law (ThreadForge.runPlanning env request context explored) := by
  refine Keeps.bind (h.askPlanner _) fun reply => ?_
  split
  · exact Keeps.bind (h.emitTrace _) fun _ => Keeps.pure _
  · exact Keeps.bind (h.emitTrace _) fun _ => Keeps.pure _

theorem initialPlan (userMessage : String) : Keeps law (ThreadForge.initialPlan env userMessage) := by
  unfold ThreadForge.initialPlan
  refine Keeps.ite (Keeps.pure ()) ?_
  refine Keeps.bind (h.layered _) fun memory => ?_
  refine Keeps.bind (h.runPlanning _ _ _) fun steps => ?_
  refine Keeps.ite (Keeps.pure ()) ?_
  refine Keeps.bind (h.onTask _ ⟨fun t => outcome_adoptPlan t steps, fun _ => rfl⟩) fun _ => ?_
  exact Keeps.bind h.writeTaskState fun _ => h.emitTrace _

theorem replan (userMessage feedback : String) :
    Keeps law (ThreadForge.replan env userMessage feedback) := by
  unfold ThreadForge.replan
  refine Keeps.ite (Keeps.pure ()) ?_
  refine Keeps.bind keeps_task fun t => ?_
  refine Keeps.bind (h.layered _) fun memory => ?_
  refine Keeps.bind (h.runPlanning _ _ _) fun steps => ?_
  refine Keeps.ite (Keeps.pure ()) ?_
  refine Keeps.bind (h.onTask _ ⟨fun _ => rfl, fun _ => rfl⟩) fun _ => ?_
  exact Keeps.bind h.writeTaskState fun _ => h.emitTrace _

/-! ## The review -/

theorem askReviewer (context : String) : Keeps law (ThreadForge.askReviewer env context) := by
  refine Keeps.bind (h.outerCaught _ fun err => rfl) fun completion => ?_
  cases completion <;> exact Keeps.pure _

theorem reviewRounds :
    ∀ (steps : Nat) (progress : ReviewProgress), Keeps law (reviewRounds env steps progress)
  | 0, _ => Keeps.pure _
  | steps + 1, progress => by
    unfold ThreadForge.reviewRounds
    refine Keeps.bind (h.askReviewer _) fun reply => ?_
    cases reply with
    | error name => exact Keeps.pure _
    | ok raw =>
      refine Keeps.bind (h.answerReview progress raw) fun next => ?_
      cases next with
      | inl progress => exact reviewRounds steps progress
      | inr ended => exact Keeps.pure ended

theorem recordDecision (event : String) (request : ReviewRequest) (decision : ReviewDecision)
    (obstacles : List String) :
    Keeps law (ThreadForge.recordDecision env event request decision obstacles) := by
  refine Keeps.bind (h.emitTrace _) fun _ => ?_
  refine Keeps.bind (h.onTask _ ⟨fun t => outcome_recordReview t _ _ _, fun _ => rfl⟩) fun _ => ?_
  exact Keeps.bind h.writeTaskState fun _ => Keeps.pure _

theorem runTrail : Keeps law (ThreadForge.runTrail env) := by
  refine Keeps.get_bind fun s => ?_
  refine Keeps.bind (h.outerCaught _ fun err => rfl) fun trail => ?_
  cases trail <;> exact Keeps.pure _

theorem runReview (request : ReviewRequest) : Keeps law (ThreadForge.runReview env request) := by
  refine Keeps.bind keeps_task fun t => ?_
  refine Keeps.bind h.runTrail fun trail => ?_
  refine Keeps.bind (h.reviewRounds _ _) fun ended => ?_
  cases ended with
  | decided decision shellOk => exact h.recordDecision _ _ _ _
  | modelFailed name => exact h.recordDecision _ _ _ _

theorem maybeRunReview (userMessage trigger : String) (l : Locals) :
    Keeps law (ThreadForge.maybeRunReview env userMessage trigger l) := by
  unfold ThreadForge.maybeRunReview
  split
  · exact h.runReview _
  · exact Keeps.pure _

/-! ## The checklist -/

theorem verifyCommand (command : String) (cache : CommandCache) :
    Keeps law (ThreadForge.verifyCommand env command cache) := by
  unfold ThreadForge.verifyCommand
  split
  · exact Keeps.pure _
  · refine Keeps.bind (h.criterion command) fun output => ?_
    cases output <;> exact Keeps.pure _

theorem verifyDoneWhen (doneWhen : String) (cache : CommandCache) :
    Keeps law (ThreadForge.verifyDoneWhen env doneWhen cache) := by
  unfold ThreadForge.verifyDoneWhen
  split
  · next path _ =>
    refine Keeps.bind (h.onFiles _ fun fs => ⟨_, fs, rfl⟩) fun ok => Keeps.pure _
  · next path pattern _ =>
    refine Keeps.bind (h.onFiles _ fun fs => ?_) fun ok => Keeps.pure _
    exact verifyGrep_returns env.files path pattern fs
  · exact Keeps.bind (h.verifyCommand _ _) fun _ => Keeps.pure _
  · exact Keeps.pure _
  · exact Keeps.pure _

theorem checkCriteria (goal : String) : ∀ (criteria : List String) (cache : CommandCache),
    Keeps law (ThreadForge.checkCriteria env goal criteria cache)
  | [], _ => Keeps.pure _
  | doneWhen :: rest, cache => by
    unfold ThreadForge.checkCriteria
    refine Keeps.bind (h.verifyDoneWhen _ _) fun (result, cache) => ?_
    dsimp only
    split
    · refine Keeps.bind (h.onTask _ (tame_completeItem env.txt goal)) fun _ => ?_
      exact Keeps.bind (h.emitTrace _) fun _ => Keeps.pure _
    · exact checkCriteria goal rest cache
    · exact Keeps.pure _

theorem checkChecklistProgress (cache : CommandCache) :
    Keeps law (ThreadForge.checkChecklistProgress env cache) := by
  refine Keeps.bind keeps_task fun t => ?_
  refine Keeps.bind (Keeps.foldEach (fun (checked, cache) goal => ?_) _ _) fun (checked, cache) => ?_
  rotate_left
  · exact Keeps.ite (Keeps.pure _) (Keeps.bind (h.checkCriteria _ _ _) fun _ => Keeps.pure _)
  · refine Keeps.bind (Keeps.when ?_) fun _ => Keeps.pure _
    exact Keeps.bind h.writeTaskState fun _ => h.emitAgentState

/-! ## One tool call -/

theorem executeToolAction (attempts : Nat) (name : PyValue) (args : PyDict)
    (window : List WindowEntry) :
    Keeps law (ThreadForge.executeToolAction env attempts name args window) :=
  h.toStepLaws.executeToolAction attempts window fun call => h.perform call args

/-! ## The concurrent group -/

/-- A captured computation leaves what the law says of the exception it raised. -/
theorem captured {A : Type} {m : AgentM X A} (hm : Keeps law m) (hclean : Keeps (noCleanup X) m)
    (u : AgentState X) :
    ∃ r t, (capture m).run u = (.ok r, t) ∧ law.holds u none t ∧
      ∀ e, r = .error e → e ≠ .cleanupFailed ∧ law.holds u (some e) t := by
  rcases hrun : m.run u with ⟨r, t⟩
  refine ⟨r, t, run_capture hrun, ?_⟩
  cases r with
  | ok a =>
    refine ⟨hm.ok hrun, ?_⟩
    rintro e herr
    cases herr
  | error e =>
    have hne : e ≠ .cleanupFailed := fun heq => hclean.error hrun (congrArg some heq)
    refine ⟨h.forgives e hne u t (hm.error hrun), ?_⟩
    rintro e' herr
    cases herr
    exact ⟨hne, hm.error hrun⟩

end LoopLaws

/-- What is known in `u` of a call of the group that was started in `s`. -/
structure JobSound (law : RunLaw (AgentState X) Failure) {env : AgentEnv X} (s u : AgentState X)
    (job : Job env) : Prop where
  notShell : job.name ≠ "run_shell"
  failed : ∀ e, job.stage = .done (.error e) → e ≠ .cleanupFailed ∧ law.holds s (some e) u

namespace LoopLaws

variable {env : AgentEnv X} {law : RunLaw (AgentState X) Failure} (h : LoopLaws env law)

include h

theorem later {s u t : AgentState X} {job : Job env} (hjob : JobSound law s u job)
    (hstep : law.holds u none t) : JobSound law s t job where
  notShell := hjob.notShell
  failed e hstage := by
    obtain ⟨hne, hlaw⟩ := hjob.failed e hstage
    exact ⟨hne, h.late e hne s u t hlaw hstep⟩

theorem stepJob (attempts : Nat) (window : List WindowEntry) {s u : AgentState X} {job : Job env}
    (hsu : law.holds s none u) (hjob : JobSound law s u job) :
    ∃ job' t, (ThreadForge.stepJob env attempts window job).run u = (.ok job', t) ∧
      law.holds u none t ∧ JobSound law s t job' := by
  obtain ⟨r, t, hrun, hstep, herr⟩ := h.captured
    (h.toStepLaws.stepStage attempts window (fun call => h.perform call job.args) job.stage)
    ((stepLaws_noCleanup env).stepStage attempts window
      (fun call => keeps_noCleanup_perform hjob.notShell call job.args) job.stage) u
  unfold ThreadForge.stepJob
  rw [run_bind_ok hrun]
  cases r with
  | error e =>
    refine ⟨_, t, rfl, hstep, hjob.notShell, ?_⟩
    rintro e' heq
    cases heq
    obtain ⟨hne, hlaw⟩ := herr e rfl
    exact ⟨hne, law.trans hsu hlaw⟩
  | ok stage =>
    refine ⟨_, t, rfl, hstep, hjob.notShell, ?_⟩
    intro e hfailed
    rcases hstage : (ThreadForge.stepStage env attempts window job.name job.args job.stage).run u with
      ⟨r, v⟩
    rw [run_capture hstage] at hrun
    cases hrun
    obtain ⟨hbefore, rfl⟩ := failed_of_stepStage hstage hfailed
    exact hjob.failed e hbefore

theorem stepNth (attempts : Nat) (window : List WindowEntry) {s : AgentState X} :
    ∀ (n : Nat) {u : AgentState X} {jobs : List (Job env)}, law.holds s none u →
      (∀ job ∈ jobs, JobSound law s u job) →
      ∃ jobs' t, (ThreadForge.stepNth env attempts window n jobs).run u = (.ok jobs', t) ∧
        law.holds u none t ∧ ∀ job ∈ jobs', JobSound law s t job
  | n, u, [], hsu, hjobs => by
    unfold ThreadForge.stepNth
    exact ⟨[], u, rfl, law.refl u, hjobs⟩
  | n, u, job :: jobs, hsu, hjobs => by
    have hhead : JobSound law s u job := hjobs job List.mem_cons_self
    have htail : ∀ job ∈ jobs, JobSound law s u job := fun job hmem =>
      hjobs job (List.mem_cons_of_mem _ hmem)
    -- the head stays as it is, and the step is one of the tail
    have hskip : ∀ m, ∃ jobs' t, ((ThreadForge.stepNth env attempts window m jobs) >>= fun jobs =>
        pure (job :: jobs)).run u = (.ok jobs', t) ∧ law.holds u none t ∧
          ∀ job ∈ jobs', JobSound law s t job := by
      intro m
      obtain ⟨jobs', t, hrun, hstep, hsound⟩ := stepNth attempts window m hsu htail
      rw [run_bind_ok hrun]
      refine ⟨job :: jobs', t, rfl, hstep, ?_⟩
      intro job' hmem
      rcases List.mem_cons.mp hmem with rfl | hmem
      · exact h.later hhead hstep
      · exact hsound job' hmem
    unfold ThreadForge.stepNth
    split
    · exact hskip n
    · cases n with
      | succ n => exact hskip n
      | zero =>
        obtain ⟨job', t, hrun, hstep, hsound⟩ := h.stepJob attempts window hsu hhead
        dsimp only
        rw [run_bind_ok hrun]
        refine ⟨job' :: jobs, t, rfl, hstep, ?_⟩
        intro job'' hmem
        rcases List.mem_cons.mp hmem with rfl | hmem
        · exact hsound
        · exact h.later (htail job'' hmem) hstep

theorem runPicks (attempts : Nat) (window : List WindowEntry) {s : AgentState X} :
    ∀ (picks : List Nat) {u : AgentState X} {jobs : List (Job env)}, law.holds s none u →
      (∀ job ∈ jobs, JobSound law s u job) →
      ∃ jobs' t, (ThreadForge.runPicks env attempts window picks jobs).run u = (.ok jobs', t) ∧
        law.holds s none t ∧ ∀ job ∈ jobs', JobSound law s t job
  | [], u, jobs, hsu, hjobs => ⟨jobs, u, rfl, hsu, hjobs⟩
  | pick :: picks, u, jobs, hsu, hjobs => by
    obtain ⟨jobs', v, hrun, hstep, hsound⟩ :=
      h.stepNth attempts window (pick % maxParallelTools) hsu hjobs
    unfold ThreadForge.runPicks
    rw [run_bind_ok hrun]
    exact runPicks attempts window picks (law.trans hsu hstep) hsound

theorem finishJob (attempts : Nat) (window : List WindowEntry) {s u : AgentState X} {job : Job env}
    (hsu : law.holds s none u) (hjob : JobSound law s u job) :
    ∃ r t, (capture (ThreadForge.finishStage env attempts window job.name job.args job.stage)).run u =
        (.ok r, t) ∧ law.holds u none t ∧
      ∀ e, r = .error e → e ≠ .cleanupFailed ∧ law.holds s (some e) t := by
  by_cases hdone : ∃ result, job.stage = .done result
  · obtain ⟨result, hstage⟩ := hdone
    refine ⟨result, u, ?_, law.refl u, ?_⟩
    · rw [hstage]
      exact run_capture rfl
    · rintro e rfl
      exact hjob.failed e hstage
  · have hstage : ∀ result, job.stage ≠ .done result := fun result heq => hdone ⟨result, heq⟩
    obtain ⟨r, t, hrun, hstep, herr⟩ := h.captured
      (h.toStepLaws.finishStage attempts window (fun call => h.perform call job.args) hstage)
      ((stepLaws_noCleanup env).finishStage attempts window
        (fun call => keeps_noCleanup_perform hjob.notShell call job.args) hstage) u
    refine ⟨r, t, hrun, hstep, ?_⟩
    intro e heq
    obtain ⟨hne, hlaw⟩ := herr e heq
    exact ⟨hne, law.trans hsu hlaw⟩

theorem finishJobs (attempts : Nat) (window : List WindowEntry) {s : AgentState X} :
    ∀ {u : AgentState X} {jobs : List (Job env)}, law.holds s none u →
      (∀ job ∈ jobs, JobSound law s u job) →
      ∃ results t, (ThreadForge.finishJobs env attempts window jobs).run u = (.ok results, t) ∧
        law.holds u none t ∧ ∀ e, .error e ∈ results → law.holds s (some e) t
  | u, [], hsu, hjobs => ⟨[], u, rfl, law.refl u, fun e hmem => by cases hmem⟩
  | u, job :: jobs, hsu, hjobs => by
    obtain ⟨r, v, hrun, hstep, herr⟩ :=
      h.finishJob attempts window hsu (hjobs job List.mem_cons_self)
    obtain ⟨results, t, hrest, hsteps, herrs⟩ := finishJobs attempts window
      (law.trans hsu hstep) fun job' hmem => h.later (hjobs job' (List.mem_cons_of_mem _ hmem)) hstep
    unfold ThreadForge.finishJobs
    rw [run_bind_ok hrun, run_bind_ok hrest]
    refine ⟨r :: results, t, rfl, law.trans hstep hsteps, ?_⟩
    intro e hmem
    rcases List.mem_cons.mp hmem with heq | hmem
    · obtain ⟨hne, hlaw⟩ := herr e heq.symm
      exact h.late e hne s v t hlaw hsteps
    · exact herrs e hmem

theorem runConcurrent (attempts : Nat) (window : List WindowEntry) {calls : List BatchCall}
    (hcalls : ∀ call ∈ calls, call.nameText env.txt ≠ "run_shell") :
    Keeps law (ThreadForge.runConcurrent env attempts window calls) := by
  refine Keeps.bind (h.observe _) fun picks => ?_
  intro s
  have hqueued : ∀ job ∈ calls.map fun call =>
      ({ name := call.nameText env.txt, args := call.args } : Job env), JobSound law s s job := by
    intro job hmem
    obtain ⟨call, hcall, rfl⟩ := List.mem_map.mp hmem
    exact ⟨hcalls call hcall, fun e hstage => by cases hstage⟩
  obtain ⟨jobs, u, hpicks, hsu, hsound⟩ := h.runPicks attempts window picks (law.refl s) hqueued
  obtain ⟨results, t, hfinish, hut, herr⟩ := h.finishJobs attempts window hsu hsound
  rw [run_bind_ok hpicks, run_bind_ok hfinish]
  show law.holds s (ending (results.mapM id)) t
  rcases hreleased : results.mapM id with e | values
  · exact herr e (mem_of_mapM_error hreleased)
  · exact law.trans hsu hut

theorem runSerial (attempts : Nat) (window : List WindowEntry) :
    ∀ calls : List BatchCall, Keeps law (ThreadForge.runSerial env attempts window calls)
  | [] => Keeps.pure []
  | call :: calls => by
    refine Keeps.bind (h.executeToolAction _ _ _ _) fun result => ?_
    exact Keeps.bind (runSerial attempts window calls) fun results => Keeps.pure _

theorem executeBatch (attempts : Nat) (window : List WindowEntry) (calls : List BatchCall) :
    Keeps law (ThreadForge.executeBatch env attempts window calls) := by
  unfold ThreadForge.executeBatch
  refine Keeps.bind (h.runConcurrent attempts window ?_) fun concurrent => ?_
  · intro call hmem
    obtain ⟨item, hitem, rfl⟩ := List.mem_map.mp hmem
    exact not_runShell_of_concurrent hitem
  · exact Keeps.bind (h.runSerial _ _ _) fun serial => Keeps.pure _

theorem commitBatch (attempts : Nat) {executed : List (BatchCall × ToolResult)}
    (window : List WindowEntry)
    (hnames : ∀ item ∈ executed, NamesWrite (.str (item.1.nameText env.txt)) item.2) :
    Keeps law (ThreadForge.commitBatch env attempts executed window) := by
  refine Keeps.foldEach_of_mem _ fun (allBad, window) (call, result) hmem => ?_
  refine Keeps.bind (h.onTask _ ⟨fun _ => rfl, fun _ => rfl⟩) fun _ => ?_
  refine Keeps.bind (h.commit _ _ _ (hnames (call, result) hmem)) fun _ => ?_
  exact Keeps.bind (h.summarizeToolResult _ _) fun _ => Keeps.pure _

/-! ## A turn -/

theorem budgetCap : Keeps law (ThreadForge.budgetCap env) := by
  refine Keeps.bind (h.observe _) fun elapsed => ?_
  exact Keeps.bind keeps_task fun t => Keeps.ite (Keeps.pure _) (Keeps.ite (Keeps.pure _) (Keeps.pure _))

theorem assessLastTurn (l : Locals) (current : Nat × Nat) :
    Keeps law (ThreadForge.assessLastTurn env l current) := by
  unfold ThreadForge.assessLastTurn
  refine Keeps.ite (Keeps.pure _) ?_
  refine Keeps.bind (h.onTask _ ⟨fun _ => rfl, fun _ => rfl⟩) fun _ => ?_
  refine Keeps.bind keeps_task fun t => Keeps.ite ?_ (Keeps.pure _)
  exact Keeps.bind (h.onTask _ ⟨fun _ => rfl, fun _ => rfl⟩) fun _ => Keeps.bind (h.emitTrace _) fun _ => Keeps.pure _

theorem promptCheckpoints (built : BuiltPrompt) :
    Keeps law (ThreadForge.promptCheckpoints env built) := by
  refine Keeps.bind ?_ fun _ => Keeps.when (h.checkpoint _)
  unfold resumeCheckpoint
  refine Keeps.ite (h.checkpoint _) (Keeps.when ?_)
  exact Keeps.bind (h.emitTrace _) fun _ => h.checkpoint _

theorem buildTurnPrompt (userMessage : String) (l : Locals) (finalizationOnly : Bool) :
    Keeps law (ThreadForge.buildTurnPrompt env userMessage l finalizationOnly) := by
  unfold ThreadForge.buildTurnPrompt
  refine Keeps.bind (h.onTask _ ⟨fun _ => rfl, fun _ => rfl⟩) fun _ => ?_
  refine Keeps.bind h.writeTaskState fun _ => ?_
  refine Keeps.bind h.emitAgentState fun _ => ?_
  refine Keeps.bind (h.emitProgress _) fun _ => ?_
  refine Keeps.get_bind fun s => ?_
  refine Keeps.bind (h.layered _) fun built => ?_
  refine Keeps.bind (h.emitProgress _) fun _ => ?_
  refine Keeps.bind (h.emitTrace _) fun _ => ?_
  refine Keeps.bind (h.promptCheckpoints _) fun _ => ?_
  exact Keeps.bind (h.emitTrace _) fun _ => Keeps.pure _

theorem askModel (l : Locals) (finalizationOnly : Bool) (prompt : String) :
    Keeps law (ThreadForge.askModel env l finalizationOnly prompt) := by
  refine Keeps.bind h.raiseIfCancelled fun _ => ?_
  refine Keeps.bind (h.service _) fun _ => ?_
  refine Keeps.bind (h.emitProgress _) fun _ => ?_
  refine Keeps.bind (h.model _ _) fun completion => ?_
  refine Keeps.bind (h.onTask _ ⟨fun _ => rfl, fun _ => rfl⟩) fun _ => ?_
  refine Keeps.bind h.raiseIfCancelled fun _ => ?_
  exact Keeps.bind (h.service _) fun _ => Keeps.pure _

theorem readReply (l : Locals) (raw : PyValue) : Keeps law (ThreadForge.readReply env l raw) := by
  refine Keeps.bind (h.attempt _ _ fun hsafe => parseReply_ok hsafe) fun parsed => ?_
  refine Keeps.bind (h.emitProgress _) fun _ => ?_
  exact Keeps.bind (h.emitTrace _) fun _ => Keeps.pure _

theorem onTalk (l : Locals) (text : String) : Keeps law (ThreadForge.onTalk env l text) := by
  refine Keeps.bind (Keeps.ite ?_ ?_) fun _ => ?_
  · exact Keeps.bind (h.onTask _ ⟨fun _ => rfl, fun _ => rfl⟩) fun _ => h.emitTrace _
  · refine Keeps.bind (h.onTask _ ⟨fun _ => rfl, fun _ => rfl⟩) fun _ => ?_
    refine Keeps.bind (h.service _) fun _ => ?_
    exact Keeps.bind (h.emitTrace _) fun _ => h.onTask _ ⟨fun _ => rfl, fun _ => rfl⟩
  · exact Keeps.bind h.writeTaskState fun _ => Keeps.bind h.emitAgentState fun _ => Keeps.pure _

theorem periodicReview (userMessage : String) (l : Locals) :
    Keeps law (ThreadForge.periodicReview env userMessage l) := by
  unfold ThreadForge.periodicReview
  refine Keeps.ite (Keeps.pure _) ?_
  refine Keeps.bind (h.maybeRunReview _ _ _) fun decision => ?_
  refine Keeps.bind (h.applyReviewCompletedSteps _) fun _ => ?_
  refine Keeps.ite (Keeps.bind (h.replan _ _) fun _ => ?_) (Keeps.pure _)
  exact Keeps.ite (Keeps.bind (h.emitTrace _) fun _ => Keeps.pure _) (Keeps.pure _)

theorem onTool (userMessage : String) (l : Locals) (name : PyValue) (args : PyDict) :
    Keeps law (ThreadForge.onTool env userMessage l name args) := by
  refine Keeps.bind (Keeps.when (h.emitTrace _)) fun _ => ?_
  refine Keeps.bind (h.onTask _ ⟨fun _ => rfl, fun _ => rfl⟩) fun _ => ?_
  refine Keeps.bind_of (h.executeToolAction _ _ _ _)
    (fun _ _ _ hrun => executeToolAction_namesWrite hrun) fun result hnames => ?_
  exact Keeps.bind (h.commit _ _ _ hnames) fun _ => h.periodicReview _ _

theorem rebutWithBatch (l : Locals) : Keeps law (ThreadForge.rebutWithBatch env l) := by
  refine Keeps.when (Keeps.bind (h.attempt _ _ ?_) fun _ => h.emitTrace _)
  intro hsafe
  have hseen : l.batchSeen = true := hsafe
  rw [if_pos hseen]
  exact ⟨(), rfl⟩

theorem onBatch (userMessage : String) (l : Locals) (tools : List (PyValue × PyDict)) :
    Keeps law (ThreadForge.onBatch env userMessage l tools) := by
  refine Keeps.bind (h.rebutWithBatch l) fun _ => Keeps.ite ?_ ?_
  · refine Keeps.bind (h.onTask _ ⟨fun _ => rfl, fun _ => rfl⟩) fun _ => ?_
    exact Keeps.bind (h.emitTrace _) fun _ => Keeps.pure _
  · refine Keeps.bind (h.attempt _ _ fun hsafe => normalizeBatchReads_ok hsafe) fun calls => ?_
    refine Keeps.bind (h.emitTrace _) fun _ => ?_
    refine Keeps.bind_of (h.executeBatch _ _ _)
      (fun _ _ _ hrun => executeBatch_namesWrite hrun) fun executed hnames => ?_
    refine Keeps.bind (h.commitBatch _ _ hnames) fun _ => ?_
    exact Keeps.bind (h.emitTrace _) fun _ => h.periodicReview _ _

theorem onRetry (l : Locals) (notice : String) : Keeps law (ThreadForge.onRetry env l notice) := by
  refine Keeps.bind (h.onTask _ ⟨fun _ => rfl, fun _ => rfl⟩) fun _ => Keeps.ite ?_ ?_
  · refine Keeps.bind (h.service _) fun _ => ?_
    exact Keeps.bind h.writeTaskState fun _ => Keeps.bind h.emitAgentState fun _ => Keeps.pure _
  · exact Keeps.bind (h.emitTrace _) fun _ => Keeps.pure _

theorem rejectFinal (userMessage : String) (l : Locals) (final : String)
    (decision : ReviewDecision) :
    Keeps law (ThreadForge.rejectFinal env userMessage l final decision) := by
  refine Keeps.bind (h.onTask _ ⟨fun _ => rfl, fun _ => rfl⟩) fun _ => ?_
  refine Keeps.bind (h.onTask _ ⟨fun _ => rfl, fun _ => rfl⟩) fun _ => ?_
  refine Keeps.bind (h.emitTrace _) fun _ => ?_
  refine Keeps.bind h.writeTaskState fun _ => ?_
  exact Keeps.bind (h.replan _ _) fun _ => Keeps.pure _

theorem settleFinal (l : Locals) (final : String) (decision : ReviewDecision) :
    Keeps law (ThreadForge.settleFinal env l final decision) := by
  refine Keeps.ite (Keeps.pure _) (Keeps.ite ?_ ?_)
  · exact Keeps.bind (h.emitTrace _) fun _ => Keeps.pure _
  · refine Keeps.bind (h.onTask _ ⟨fun _ => rfl, fun _ => rfl⟩) fun _ => ?_
    exact Keeps.bind (h.emitTrace _) fun _ => Keeps.bind h.writeTaskState fun _ => Keeps.pure _

theorem onFinal (userMessage : String) (l : Locals) (final : String) :
    Keeps law (ThreadForge.onFinal env userMessage l final) := by
  refine Keeps.bind h.raiseIfCancelled fun _ => ?_
  refine Keeps.bind (Keeps.ite (h.maybeRunReview _ _ _) (Keeps.pure _)) fun decision => ?_
  refine Keeps.bind (h.applyReviewCompletedSteps _) fun _ => ?_
  exact Keeps.ite (Keeps.ite (h.rejectFinal _ _ _ _) (Keeps.pure _)) (h.settleFinal _ _ _)

theorem dispatch (userMessage : String) (l : Locals) (decision : Decision) :
    Keeps law (ThreadForge.dispatch env userMessage l decision) := by
  cases decision with
  | talk text => exact h.onTalk l text
  | tool name args => exact h.onTool userMessage l name args
  | toolBatch tools => exact h.onBatch userMessage l tools
  | retry notice => exact h.onRetry l notice
  | final text => exact h.onFinal userMessage l text

theorem dispatchLast (userMessage : String) (l : Locals) (raw : PyValue) (decision : Decision) :
    Keeps law (ThreadForge.dispatchLast env userMessage l raw decision) := by
  unfold ThreadForge.dispatchLast
  split
  · exact h.onFinal _ _ _
  · split
    · exact Keeps.bind (h.emitTrace _) fun _ => h.onFinal _ _ _
    · refine Keeps.bind (h.onTask _ ⟨fun _ => rfl, fun _ => rfl⟩) fun _ => ?_
      exact Keeps.bind (h.emitTrace _) fun _ => Keeps.pure _

theorem askAndAct (userMessage : String) (l : Locals) (finalizationOnly : Bool) :
    Keeps law (ThreadForge.askAndAct env userMessage l finalizationOnly) := by
  refine Keeps.bind (h.buildTurnPrompt _ _ _) fun prompt => ?_
  refine Keeps.bind (h.askModel _ _ _) fun raw => ?_
  refine Keeps.bind (h.readReply _ _) fun decision => ?_
  exact Keeps.ite (h.dispatchLast _ _ _ _) (h.dispatch _ _ _)

theorem loopTurn (userMessage : String) (l : Locals) :
    Keeps law (ThreadForge.loopTurn env userMessage l) := by
  refine Keeps.bind h.raiseIfCancelled fun _ => ?_
  refine Keeps.bind h.budgetCap fun cap => ?_
  cases cap with
  | some reason => exact Keeps.pure _
  | none =>
    refine Keeps.bind keeps_task fun t => ?_
    refine Keeps.bind (h.checkChecklistProgress _) fun cache => ?_
    refine Keeps.bind (h.assessLastTurn _ _) fun finalizationOnly => ?_
    exact Keeps.ite (Keeps.pure _) (h.askAndAct _ _ _)

/-! ## The loop -/

theorem loopFrom (userMessage : String) :
    ∀ (fuel : Nat) (l : Locals), Keeps law (ThreadForge.loopFrom env userMessage fuel l)
  | 0, _ => Keeps.pure _
  | fuel + 1, l => by
    unfold ThreadForge.loopFrom
    refine Keeps.ite (Keeps.pure _) (Keeps.bind (h.loopTurn _ _) fun next => ?_)
    cases next with
    | again l => exact loopFrom userMessage fuel l
    | stop ending => exact Keeps.pure ending

/-- **The loop keeps what its steps keep.** -/
theorem planAndLoop (userMessage : String) :
    Keeps law (ThreadForge.planAndLoop env userMessage) := by
  refine Keeps.bind (h.onTask _ ⟨fun _ => rfl, fun _ => rfl⟩) fun _ => ?_
  refine Keeps.bind h.writeTaskState fun _ => ?_
  refine Keeps.bind h.emitAgentState fun _ => ?_
  refine Keeps.bind (h.initialPlan _) fun _ => ?_
  exact Keeps.bind h.raiseIfCancelled fun _ => h.loopFrom _ _ _

end LoopLaws

/-! ## The beginning and the end of a run -/

/-- A change of the task state that decides how the run ends: it was not announced by it, it is not
running, and it has not failed. -/
structure Settles (f : TaskState → TaskState) : Prop where
  emitted : ∀ t, (f t).runFinishedEmitted = t.runFinishedEmitted
  evidence : ∀ t, (f t).evidence = t.evidence
  status : ∀ t, (f t).status = .stopped ∨ (f t).status = .completed
  reason : ∀ t, (f t).stopReason ≠ none

/-- The steps of the beginning keep a law. -/
structure StartLaws (env : AgentEnv X) (law : RunLaw (AgentState X) Failure) : Prop
    extends StoreLaws env law where
  enter : ∀ t : TaskState, t.status = .running → t.evidence = [] →
    Keeps law (Eff.modify fun s => { s with task := t, hasTask := true })

/-- The steps of the end keep a law, the announcement apart. -/
structure SettleLaws (env : AgentEnv X) (law : RunLaw (AgentState X) Failure) : Prop
    extends StoreLaws env law where
  settle : ∀ f, Settles f → Keeps law (AgentM.onTask f)

/-- The steps of the end keep a law. -/
structure EndLaws (env : AgentEnv X) (law : RunLaw (AgentState X) Failure) : Prop
    extends SettleLaws env law where
  emitEnd : Keeps law (ThreadForge.emitEnd env)

/-- The announcement of an end keeps a law that its calls keep, and its changes of the state. -/
theorem keeps_emitEnd {env : AgentEnv X} {law : RunLaw (AgentState X) Failure}
    (hstorage : ∀ call, call.observesCancel = false → Keeps law (AgentM.service env call))
    (hannounced : Keeps law (AgentM.onTask TaskState.announced))
    (hfinished : ∀ o, Keeps law (Eff.modify fun s => { s with finished := s.finished ++ [o] }))
    (hreport : ∀ o, Keeps law (Eff.modify fun s => { s with report := some o })) :
    Keeps law (emitEnd env) := by
  refine Keeps.bind hannounced fun _ => ?_
  refine Keeps.bind (Keeps.bind keeps_task fun t => ?_) fun _ => Keeps.bind keeps_task fun t => ?_
  · exact Keeps.bind (hstorage _ rfl) fun _ => hfinished _
  · exact Keeps.bind (hstorage _ rfl) fun _ => hreport _

theorem settles_stop (reason : StopReason) (final : String) :
    Settles fun t => t.stop reason .stopped final :=
  ⟨fun _ => rfl, fun _ => rfl, fun _ => Or.inl rfl, fun _ => by simp [TaskState.stop]⟩

theorem settles_capHit (reason : String) (attempts : Nat) (final : String) :
    Settles fun t =>
      (t.stop .budgetExhausted .stopped final).recordError "budget_cap" reason false attempts :=
  ⟨fun _ => rfl, fun _ => rfl, fun _ => Or.inl rfl,
    fun _ => by simp [TaskState.stop, TaskState.recordError]⟩

theorem settles_finishSuccess (final : String) : Settles fun t => t.finishSuccess final :=
  ⟨fun _ => rfl, fun _ => rfl, fun _ => Or.inr rfl,
    fun _ => by simp [TaskState.finishSuccess, TaskState.setPhase]⟩

namespace StorageLaws

variable {env : AgentEnv X} {law : RunLaw (AgentState X) Failure} (h : StorageLaws env law)

include h

theorem convergenceSummary (reason : String) :
    Keeps law (ThreadForge.convergenceSummary env reason) := by
  refine Keeps.bind keeps_task fun t => Keeps.ite (Keeps.pure _) ?_
  refine Keeps.bind ?_ fun text => Keeps.ite (Keeps.pure _) (Keeps.pure _)
  refine Keeps.bind (h.caughtAll _) fun completion => ?_
  cases completion <;> exact Keeps.pure _

theorem finishQuietly (final : String) : Keeps law (ThreadForge.finishQuietly env final) := by
  refine Keeps.bind h.writeTaskState fun _ => ?_
  refine Keeps.bind h.emitAgentState fun _ => ?_
  exact Keeps.bind (h.record _) fun _ => Keeps.pure _

theorem verifyAnswer (final : String) : Keeps law (ThreadForge.verifyAnswer env final) := by
  refine Keeps.bind (h.onTask _ ⟨fun t => ?_, fun t => ?_⟩) fun _ => ?_
  · split
    · exact (tame_finishPostToolReasoning true).outcome t
    · rfl
  · split
    · exact (tame_finishPostToolReasoning true).evidence t
    · rfl
  refine Keeps.bind (h.onTask _ ⟨fun _ => rfl, fun _ => rfl⟩) fun _ => ?_
  refine Keeps.bind h.writeTaskState fun _ => ?_
  exact Keeps.bind h.emitAgentState fun _ => h.record _

end StorageLaws

namespace StoreLaws

variable {env : AgentEnv X} {law : RunLaw (AgentState X) Failure} (h : StoreLaws env law)

include h

theorem keepAnswer (userMessage final : String) :
    Keeps law (ThreadForge.keepAnswer env userMessage final) := by
  refine Keeps.bind h.writeTaskState fun _ => ?_
  refine Keeps.bind h.emitAgentState fun _ => ?_
  refine Keeps.bind (Keeps.when (h.layer _)) fun _ => ?_
  refine Keeps.bind (Keeps.when (h.layer _)) fun _ => ?_
  exact Keeps.bind h.writeTaskState fun _ => Keeps.when (h.emitTrace _)

theorem keepLeft (userMessage final : String) (reason : StopReason) :
    Keeps law (ThreadForge.keepLeft env userMessage final reason) := by
  refine Keeps.bind (h.onTask _ ⟨fun _ => rfl, fun _ => rfl⟩) fun _ => ?_
  refine Keeps.bind h.writeTaskState fun _ => ?_
  refine Keeps.bind h.emitAgentState fun _ => ?_
  refine Keeps.bind (h.record _) fun _ => ?_
  refine Keeps.bind (Keeps.when (h.layer _)) fun _ => ?_
  refine Keeps.bind h.writeTaskState fun _ => Keeps.when ?_
  exact Keeps.bind (h.layer _) fun _ => h.emitTrace _

end StoreLaws

theorem StartLaws.startRun {env : AgentEnv X} {law : RunLaw (AgentState X) Failure}
    (h : StartLaws env law) (userMessage taskId runId : String) :
    Keeps law (ThreadForge.startRun env userMessage taskId runId) := by
  refine Keeps.bind (h.layer _) fun _ => ?_
  refine Keeps.bind (h.record _) fun _ => ?_
  refine Keeps.bind (h.enter _ rfl rfl) fun _ => ?_
  refine Keeps.bind (h.storage _ rfl) fun _ => ?_
  refine Keeps.bind (h.emitProgress _) fun _ => ?_
  refine Keeps.bind (h.emitTrace _) fun _ => ?_
  refine Keeps.bind (h.onTask _ ⟨fun _ => rfl, fun _ => rfl⟩) fun _ => ?_
  exact Keeps.bind h.writeTaskState fun _ => h.emitAgentState

namespace SettleLaws

variable {env : AgentEnv X} {law : RunLaw (AgentState X) Failure} (h : SettleLaws env law)

include h

theorem finishCapHit (reason : String) (attempts : Nat) :
    Keeps law (ThreadForge.finishCapHit env reason attempts) := by
  refine Keeps.bind (h.convergenceSummary _) fun final => ?_
  refine Keeps.bind (h.settle _ (settles_capHit _ _ _)) fun _ => ?_
  exact Keeps.bind (h.emitTrace _) fun _ => h.finishQuietly final

theorem finishFinalsRejected : Keeps law (ThreadForge.finishFinalsRejected env) := by
  refine Keeps.bind (h.onTask _ ⟨fun _ => rfl, fun _ => rfl⟩) fun _ => ?_
  refine Keeps.bind (h.emitTrace _) fun _ => ?_
  refine Keeps.bind (h.convergenceSummary _) fun final => ?_
  exact Keeps.bind (h.settle _ (settles_stop _ _)) fun _ => h.finishQuietly final

theorem settleAnswered (userMessage final : String) :
    Keeps law (ThreadForge.settleAnswered env userMessage final) := by
  refine Keeps.bind (h.verifyAnswer final) fun _ => ?_
  exact Keeps.bind (h.settle _ (settles_finishSuccess final)) fun _ => h.keepAnswer _ _

theorem settleLeft (userMessage final : String) (reason : StopReason) :
    Keeps law (ThreadForge.settleLeft env userMessage final reason) :=
  Keeps.bind (h.settle _ (settles_stop _ _)) fun _ => h.keepLeft _ _ _

end SettleLaws

namespace EndLaws

variable {env : AgentEnv X} {law : RunLaw (AgentState X) Failure} (h : EndLaws env law)

include h

theorem announceEnd (message : TaskState → String) :
    Keeps law (ThreadForge.announceEnd env message) :=
  Keeps.bind h.emitEnd fun _ => Keeps.bind keeps_task fun _ => h.emitProgress _

theorem finishLoop (userMessage : String) (ending : LoopEnd) :
    Keeps law (ThreadForge.finishLoop env userMessage ending) := by
  cases ending with
  | capHit reason attempts => exact h.finishCapHit reason attempts
  | finalsRejected => exact h.finishFinalsRejected
  | answered final =>
    refine Keeps.bind (h.settleAnswered userMessage final) fun _ => ?_
    exact Keeps.bind (h.announceEnd _) fun _ => Keeps.pure _
  | left protocolFailed attempts =>
    refine Keeps.bind (h.convergenceSummary _) fun final => ?_
    refine Keeps.bind (h.settleLeft userMessage final _) fun _ => ?_
    exact Keeps.bind (h.announceEnd _) fun _ => Keeps.pure _

theorem endCancelled : Keeps law (ThreadForge.endCancelled env) := by
  refine Keeps.bind (h.settle _ (settles_stop _ _)) fun _ => ?_
  refine Keeps.bind h.writeTaskState fun _ => ?_
  exact Keeps.bind (h.announceEnd _) fun _ => Keeps.pure _

/-- The handlers of a run keep a law that lets a run be failed. -/
theorem handleEnd
    (hfailed : ∀ final, Keeps law (onTask fun t => t.stop .processCleanupFailed .failed final))
    (failure : Failure) : Keeps law (ThreadForge.handleEnd env failure) := by
  cases failure with
  | cleanupFailed =>
    refine Keeps.bind (hfailed _) fun _ => Keeps.bind h.writeTaskState fun _ => ?_
    exact Keeps.bind h.emitEnd fun _ => Keeps.pure _
  | _ => exact h.endCancelled

end EndLaws

end ThreadForge

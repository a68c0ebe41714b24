import ThreadForge.Pico.RunLog

/-!
# Laws that do not look at the ending

Many facts about a run are about what it leaves, whatever it raised: which part of the task stays,
where an entry of the task comes from. Such a law holds of a call to the outside or to the files as
soon as it lets the world change and the log grow (`Roams`); what runs a tool does no more than that
(`roams_perform`, `roams_executeReviewTool`). So a law of the whole loop is left with the changes of
the task state, and with the commit of a call (`BlindLaws.loopLaws`).
-/

namespace ThreadForge

open Eff AgentM

variable {X : Type}

/-! ## The world changes and the log grows -/

/-- Nothing happened but that the world changed and the log grew. -/
def roaming (X : Type) : RunLaw (AgentState X) Failure where
  holds s _ t := ∃ w new, t = { s with world := w, log := s.log ++ new }
  refl s := ⟨s.world, [], by rw [List.append_nil]⟩
  trans := by
    rintro s _ _ _ ⟨w, new, rfl⟩ ⟨w', more, rfl⟩
    exact ⟨w', new ++ more, by rw [List.append_assoc]⟩

theorem roaming_world (s : AgentState X) (w : World X) (r : Option Failure) :
    (roaming X).holds s r { s with world := w } := ⟨w, [], by rw [List.append_nil]⟩

theorem roaming_self (s : AgentState X) (r : Option Failure) : (roaming X).holds s r s :=
  roaming_world s s.world r

theorem roams_note (event : Event) : Keeps (roaming X) (note event) :=
  fun s => ⟨s.world, [event], rfl⟩

theorem roams_raise {A : Type} (e : Failure) : Keeps (roaming X) (Eff.raise e : AgentM X A) :=
  Keeps.raise fun s => roaming_self s _

theorem roams_outer {A : Type} (f : Outer X A) : Keeps (roaming X) (outer f) := by
  intro s
  rcases outer_cases f s with ⟨a, w, hrun⟩ | ⟨e, w, hrun, _⟩
  · rw [hrun]
    exact roaming_world s w _
  · rw [hrun]
    exact roaming_world s w _

theorem roams_onFiles {A : Type} (m : FileM A) : Keeps (roaming X) (onFiles m) := by
  intro s
  rcases onFiles_cases m s with ⟨a, t, _, hrun⟩ | ⟨exc, t, _, hrun⟩
  · rw [hrun]
    exact roaming_world s _ _
  · rw [hrun]
    exact roaming_world s _ _

theorem roams_layered {A : Type} (f : TaskState → Outer X A) : Keeps (roaming X) (layered f) := by
  refine Keeps.bind keeps_task fun t => ?_
  refine Keeps.tryExcept (roams_outer (f t)) (fun _ _ _ _ h => h) fun _ _ => ?_
  exact Keeps.bind (roams_note _) fun _ => roams_raise _

theorem roams_attempt {A : Type} (site : Site) (x : Except PyError A) :
    Keeps (roaming X) (attempt site x) := by
  refine Keeps.bind (roams_note _) fun _ => ?_
  cases x with
  | ok a => exact Keeps.pure a
  | error kind => exact roams_raise _

/-! ## What runs a tool -/

theorem roams_runTool (env : AgentEnv X) (route : Route) (tool : ToolName) (args : PyDict) :
    Keeps (roaming X) (runTool env route tool args) := by
  refine Keeps.bind (roams_note _) fun _ => Keeps.ite ?_ ?_
  · refine Keeps.bind (roams_onFiles _) fun _ => ?_
    refine Keeps.bind (roams_outer _) fun result => Keeps.ite ?_ (Keeps.ite ?_ (Keeps.pure _))
    · exact Keeps.bind (roams_note _) fun _ => roams_raise _
    · exact roams_raise _
  · exact Keeps.bind (fun s => roaming_world s _ _) fun oracle => roams_onFiles _

theorem roams_perform (env : AgentEnv X) (route : Route) {name : PyValue}
    (call : ReadyCall env name) (args : PyDict) : Keeps (roaming X) (perform env route call args) :=
  Keeps.tryExcept (Keeps.bind (roams_runTool _ _ _ _) fun _ => Keeps.pure _)
    (fun _ _ _ _ h => h) fun _ _ => Keeps.pure _

theorem roams_validateAndRun (env : AgentEnv X) (tool : ToolName) (args : PyValue) :
    Keeps (roaming X) (validateAndRun env tool args) := by
  by_cases hdict : ∃ entries, args = .dict entries
  · obtain ⟨entries, rfl⟩ := hdict
    refine Keeps.bind (roams_onFiles _) fun _ => ?_
    exact Keeps.bind (roams_runTool _ _ _ _) fun _ => Keeps.pure _
  · rw [validateAndRun_noDict env tool fun entries heq => hdict ⟨entries, heq⟩]
    refine Keeps.ite (roams_raise _) ?_
    refine Keeps.bind (roams_onFiles _) fun _ => ?_
    exact Keeps.bind (roams_note _) fun _ => roams_raise _

theorem roams_executeReviewTool (env : AgentEnv X) (name : String) (args : PyValue) :
    Keeps (roaming X) (executeReviewTool env name args) := by
  unfold executeReviewTool
  refine Keeps.ite (Keeps.pure _) ?_
  split
  · exact Keeps.pure _
  · exact Keeps.tryExcept (roams_validateAndRun env _ _) (fun _ _ _ _ h => h) fun _ _ => Keeps.pure _

/-! ## Blind laws -/

/-- A law that lets the world change and the log grow, whatever was raised. -/
structure Roams (law : RunLaw (AgentState X) Failure) : Prop where
  roams : ∀ s r w new, law.holds s r { s with world := w, log := s.log ++ new }
  blind : ∀ {s r t} (r' : Option Failure), law.holds s r t → law.holds s r' t

namespace Roams

variable {law : RunLaw (AgentState X) Failure} (h : Roams law)

include h

theorem keeps {A : Type} {m : AgentM X A} (hm : Keeps (roaming X) m) : Keeps law m := by
  intro s
  obtain ⟨w, new, ht⟩ := hm s
  rw [ht]
  exact h.roams s _ w new

/-- A handler keeps the law, whatever it catches. -/
theorem tryExcept {A : Type} {m : AgentM X A} {catches : Failure → Bool}
    {handler : Failure → AgentM X A} (hm : Keeps law m) (hhandler : ∀ e, Keeps law (handler e)) :
    Keeps law (Eff.tryExcept m catches handler) :=
  Keeps.tryExcept hm (fun _ _ _ _ hlaw => h.blind none hlaw) fun e _ => hhandler e

end Roams

/-- The changes of the state that are no call keep such a law. -/
structure BlindLaws (law : RunLaw (AgentState X) Failure) : Prop extends Roams law where
  onTask : ∀ f, Tame f → Keeps law (AgentM.onTask f)
  store : Keeps law (Eff.modify fun s => { s with taskFile := some s.task })
  remember : ∀ item, Keeps law (Eff.modify fun s => { s with history := s.history ++ [item] })

namespace BlindLaws

variable {law : RunLaw (AgentState X) Failure} (h : BlindLaws law)

include h

theorem stepLaws (env : AgentEnv X) : StepLaws env law where
  world s w := by
    have hroams := h.roams s none w []
    rw [List.append_nil] at hroams
    exact hroams
  storage call _ := Keeps.bind keeps_task fun t => h.keeps (roams_outer (env.service call t))
  layered f := h.keeps (roams_layered f)
  onTask f hf := h.onTask f hf
  store := h.store
  remember item := h.remember item
  cancelled s w := by
    have hroams := h.roams s (some .cancelled) w []
    rw [List.append_nil] at hroams
    exact hroams
  hook call _ := Keeps.bind keeps_task fun t => h.keeps (roams_outer (env.service call t))
  ask request := h.keeps (roams_outer (env.ask request))
  attempt site x _ := h.keeps (roams_attempt site x)

theorem answerReview (env : AgentEnv X) (progress : ReviewProgress) (raw : PyValue) :
    Keeps law (ThreadForge.answerReview env progress raw) := by
  refine Keeps.bind (h.keeps (roams_note _)) fun _ => ?_
  split
  · exact Keeps.pure _
  · refine Keeps.bind ?_ fun _ => Keeps.pure _
    refine Keeps.bind (h.keeps (roams_executeReviewTool env _ _)) fun result => ?_
    exact Keeps.bind (Keeps.when (h.onTask _ ⟨fun _ => rfl, fun _ => rfl⟩)) fun _ => Keeps.pure _
  · exact Keeps.pure _

theorem runCriterion (env : AgentEnv X) (command : String) :
    Keeps law (ThreadForge.runCriterion env command) := by
  refine h.tryExcept ?_ fun _ => Keeps.pure _
  refine Keeps.bind ?_ fun _ => Keeps.pure _
  exact (h.stepLaws env).execute fun call => h.keeps (roams_perform env .checklist call _)

/-- **The loop keeps a blind law when the commit of a call does.** -/
theorem loopLaws {env : AgentEnv X}
    (hcommit : ∀ (attempts : Nat) {name : PyValue} (args : PyDict) (window : List WindowEntry)
      {result : ToolResult}, NamesWrite name result →
      Keeps law (commitToolAction env attempts name args window result)) : LoopLaws env law where
  toStepLaws := h.stepLaws env
  commit := hcommit
  perform call args := h.keeps (roams_perform env .main call args)
  model _ _ := h.keeps (roams_outer _)
  criterion command := h.runCriterion env command
  answerReview progress raw := h.answerReview env progress raw
  forgives _ _ _ _ hlaw := h.blind none hlaw
  late _ _ _ _ _ hlaw hlater := h.blind _ (law.trans (h.blind none hlaw) hlater)

end BlindLaws

end ThreadForge

import ThreadForge.Pico.BlindLaws

/-!
# What the loop leaves of the task

The loop decides nothing about how the run ends: status, stop reason and final answer stay what they
were, and nothing is announced or reported (`loopLaws_steady`). All of that is done by `finishLoop`
and by the handlers of `AgentLoop.run`.
-/

namespace ThreadForge

open Eff AgentM

variable {X : Type}

/-! ## The law -/

/-- How the run ends is not decided, and nothing is announced. -/
def steady (X : Type) : RunLaw (AgentState X) Failure where
  holds s _ t := t.task.outcome = s.task.outcome ∧ t.hasTask = s.hasTask ∧
    t.finished = s.finished ∧ t.report = s.report
  refl _ := ⟨rfl, rfl, rfl, rfl⟩
  trans h h' := ⟨h'.1.trans h.1, h'.2.1.trans h.2.1, h'.2.2.1.trans h.2.2.1, h'.2.2.2.trans h.2.2.2⟩

theorem blindLaws_steady : BlindLaws (steady X) where
  roams _ _ _ _ := ⟨rfl, rfl, rfl, rfl⟩
  blind _ h := h
  onTask _ hf := fun s => ⟨hf.outcome s.task, rfl, rfl, rfl⟩
  store := fun _ => ⟨rfl, rfl, rfl, rfl⟩
  remember _ := fun _ => ⟨rfl, rfl, rfl, rfl⟩

theorem stepLaws_steady (env : AgentEnv X) : StepLaws env (steady X) := blindLaws_steady.stepLaws env

/-- The loop decides nothing about the end of the run. -/
theorem loopLaws_steady (env : AgentEnv X) : LoopLaws env (steady X) :=
  blindLaws_steady.loopLaws fun attempts _ args window result _ =>
    (stepLaws_steady env).commitToolAction (fun _ _ => ⟨rfl, rfl, rfl, rfl⟩) attempts _ args window
      result

/-- A run that is not a failed one does not become one. -/
def unfailed (X : Type) : RunLaw (AgentState X) Failure where
  holds s _ t := s.task.status ≠ .failed → t.task.status ≠ .failed
  refl _ h := h
  trans h h' hs := h' (h hs)

theorem unfailed_of_steady {s t : AgentState X} {r : Option Failure} (h : (steady X).holds s r t) :
    (unfailed X).holds s r t := by
  intro hs
  have hstatus : t.task.status = s.task.status := congrArg TaskState.Outcome.status h.1
  rw [hstatus]
  exact hs

theorem storeLaws_unfailed (env : AgentEnv X) : StoreLaws env (unfailed X) where
  world s w := unfailed_of_steady ((stepLaws_steady env).world s w)
  storage call hcall s := unfailed_of_steady ((stepLaws_steady env).storage call hcall s)
  layered f s := unfailed_of_steady ((stepLaws_steady env).layered f s)
  onTask f hf s := unfailed_of_steady ((stepLaws_steady env).onTask f hf s)
  store s := unfailed_of_steady ((stepLaws_steady env).store s)
  remember item s := unfailed_of_steady ((stepLaws_steady env).remember item s)

theorem endLaws_unfailed (env : AgentEnv X) : EndLaws env (unfailed X) where
  toStoreLaws := storeLaws_unfailed env
  settle f hf s _ := by
    show (f s.task).status ≠ .failed
    rcases hf.status s.task with hstatus | hstatus <;> rw [hstatus] <;> simp
  emitEnd := keeps_emitEnd (storeLaws_unfailed env).storage (fun _ hs => hs) (fun _ _ hs => hs)
    fun _ _ hs => hs

/-! ## How a run goes -/

/-- How a run goes: it does not begin, or the loop and what follows it run, and a cancellation or a
failed cleanup is handled. -/
inductive RunShape (env : AgentEnv X) (userMessage taskId runId : String) (s t : AgentState X) : Prop
  | unstarted (e : Failure)
      (start : (startRun env userMessage taskId runId).run s = (.error e, t))
  | passed (u : AgentState X) (r : Except Failure String)
      (start : (startRun env userMessage taskId runId).run s = (.ok (), u))
      (body : (runBody env userMessage).run u = (r, t))
      (uncaught : r ≠ .error .cleanupFailed)
  | handled (u v : AgentState X) (e : Failure)
      (start : (startRun env userMessage taskId runId).run s = (.ok (), u))
      (body : (runBody env userMessage).run u = (.error e, v))
      (handler : ((handleEnd env e).run v).2 = t)

theorem runShape (env : AgentEnv X) (userMessage taskId runId : String) (s : AgentState X) :
    RunShape env userMessage taskId runId s
      ((AgentLoop.run env userMessage taskId runId).run s).2 := by
  unfold AgentLoop.run
  rcases hstart : (startRun env userMessage taskId runId).run s with ⟨e | _, u⟩
  · rw [run_bind_error hstart]
    exact .unstarted e hstart
  · rw [run_bind_ok hstart]
    rcases hbody : (runBody env userMessage).run u with ⟨e | final, v⟩
    · by_cases hcatch : e.endsRun = true
      · rw [run_tryExcept_caught hbody hcatch]
        exact .handled u v e hstart hbody rfl
      · rw [run_tryExcept_passed hbody hcatch]
        refine .passed u (.error e) hstart hbody ?_
        intro heq
        rw [Except.error.inj heq] at hcatch
        exact hcatch rfl
    · rw [run_tryExcept_ok hbody]
      exact .passed u (.ok final) hstart hbody (by simp)

/-! ## The session history -/

/-- The history only grows. -/
def remembering (X : Type) : RunLaw (AgentState X) Failure where
  holds s _ t := s.history <+: t.history
  refl _ := List.prefix_rfl
  trans h h' := h.trans h'

theorem blindLaws_remembering : BlindLaws (remembering X) where
  roams _ _ _ _ := List.prefix_rfl
  blind _ h := h
  onTask _ _ _ := List.prefix_rfl
  store _ := List.prefix_rfl
  remember _ _ := List.prefix_append _ _

theorem endLaws_remembering (env : AgentEnv X) : EndLaws env (remembering X) where
  toStoreLaws := (blindLaws_remembering.stepLaws env).toStoreLaws
  settle _ _ _ := List.prefix_rfl
  emitEnd := keeps_emitEnd (blindLaws_remembering.stepLaws env).storage (fun _ => List.prefix_rfl)
    (fun _ _ => List.prefix_rfl) fun _ _ => List.prefix_rfl

/-- **A run takes nothing back of the session history**, whatever it raises. -/
theorem history_prefix_run (env : AgentEnv X) (userMessage taskId runId : String)
    (s : AgentState X) :
    s.history <+: ((AgentLoop.run env userMessage taskId runId).run s).2.history := by
  have hsteps := blindLaws_remembering.stepLaws env
  have hend := endLaws_remembering env
  have hstart : StartLaws env (remembering X) := ⟨hsteps.toStoreLaws, fun _ _ _ _ => List.prefix_rfl⟩
  have hloop : LoopLaws env (remembering X) := blindLaws_remembering.loopLaws fun _ _ _ _ _ _ =>
    hsteps.commitToolAction (fun _ _ => List.prefix_rfl) _ _ _ _ _
  refine Keeps.bind (hstart.startRun userMessage taskId runId) (fun _ => ?_) s
  refine blindLaws_remembering.tryExcept ?_ fun failure =>
    hend.handleEnd (fun _ _ => List.prefix_rfl) failure
  exact Keeps.bind (hloop.planAndLoop userMessage) fun ending => hend.finishLoop userMessage ending

end ThreadForge

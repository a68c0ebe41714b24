import ThreadForge.Pico.Steady

/-!
# When a run crashes

With nothing failing outside, an exception that ends a run comes from a value that the loop cannot
take: a reply whose JSON call is no object, a name that cannot be hashed, an infinite line number,
read ranges that cannot be sorted, a text that cannot be encoded, or a batch that answers a review
before any batch was read. The log says which values came to these places (`Site.Safe`).
-/

namespace ThreadForge

open Eff AgentM

variable {X : Type}

/-! ## Statements -/

/-- Storage and sink do not fail; hooks, approval and the model fail by a cancellation at most. -/
structure QuietOutside (env : AgentEnv X) : Prop extends StorageQuiet env where
  hook : ∀ call t w err, (env.service call t w).1 ≠ .error (.error err)
  ask : ∀ request w err, (env.ask request w).1 ≠ .error (.error err)
  model : ∀ purpose prompt w err, (env.complete purpose prompt w).1 ≠ .error (.error err)

/-- A value came to a place that cannot take it. -/
def Unsafe (env : AgentEnv X) (new : List Event) : Prop :=
  ∃ site, .site site ∈ new ∧ ¬site.Safe env.txt env.loads

theorem Unsafe.append_left {env : AgentEnv X} {new more : List Event} (h : Unsafe env new) :
    Unsafe env (new ++ more) := by
  obtain ⟨site, hmem, hunsafe⟩ := h
  exact ⟨site, List.mem_append_left _ hmem, hunsafe⟩

theorem Unsafe.append_right {env : AgentEnv X} {new more : List Event} (h : Unsafe env more) :
    Unsafe env (new ++ more) := by
  obtain ⟨site, hmem, hunsafe⟩ := h
  exact ⟨site, List.mem_append_right _ hmem, hunsafe⟩

/-- The run has ended: it is not running, and there is a reason. -/
def Decided (t : TaskState) : Prop := t.status ≠ .running ∧ t.stopReason ≠ none

/-! ## The law -/

variable {env : AgentEnv X} {bad : Failure → Prop}

/-- What decides the end is not undone. -/
def resolved (X : Type) : RunLaw (AgentState X) Failure where
  holds s _ t := Decided s.task → Decided t.task
  refl _ h := h
  trans h h' hs := h' (h hs)

theorem resolved_of_steady {s t : AgentState X} {r : Option Failure} (h : (steady X).holds s r t) :
    (resolved X).holds s r t := by
  rintro ⟨hstatus, hreason⟩
  have hstatus' : t.task.status = s.task.status := congrArg TaskState.Outcome.status h.1
  have hreason' : t.task.stopReason = s.task.stopReason := congrArg TaskState.Outcome.stopReason h.1
  exact ⟨hstatus' ▸ hstatus, hreason' ▸ hreason⟩

theorem Settles.decided {f : TaskState → TaskState} (hf : Settles f) (t : TaskState) :
    Decided (f t) := by
  refine ⟨?_, hf.reason t⟩
  rcases hf.status t with hstatus | hstatus <;> rw [hstatus] <;> simp

theorem endLaws_resolved (env : AgentEnv X) : EndLaws env (resolved X) where
  world s w := resolved_of_steady ((stepLaws_steady env).world s w)
  storage call hcall s := resolved_of_steady ((stepLaws_steady env).storage call hcall s)
  layered f s := resolved_of_steady ((stepLaws_steady env).layered f s)
  onTask f hf s := resolved_of_steady ((stepLaws_steady env).onTask f hf s)
  store s := resolved_of_steady ((stepLaws_steady env).store s)
  remember item s := resolved_of_steady ((stepLaws_steady env).remember item s)
  settle f hf s _ := hf.decided s.task
  emitEnd := by
    refine keeps_emitEnd (fun call hcall s => ?_) (fun _ hs => hs) (fun _ _ hs => hs)
      fun _ _ hs => hs
    exact resolved_of_steady ((stepLaws_steady env).storage call hcall s)

/-- A computation that decides the end wherever it returns. -/
def Decides {A : Type} (m : AgentM X A) : Prop := ∀ s a t, m.run s = (.ok a, t) → Decided t.task

theorem Decides.after {A B : Type} {m : AgentM X A} {k : A → AgentM X B}
    (hk : ∀ a, Decides (k a)) : Decides (m >>= k) := by
  intro s b t hrun
  obtain ⟨a, u, _, hrest⟩ := bind_eq_ok hrun
  exact hk a u b t hrest

theorem Decides.before {A B : Type} {m : AgentM X A} {k : A → AgentM X B} (hm : Decides m)
    (hk : ∀ a, Keeps (resolved X) (k a)) : Decides (m >>= k) := by
  intro s b t hrun
  obtain ⟨a, u, hfirst, hrest⟩ := bind_eq_ok hrun
  exact (hk a).ok hrest (hm s a u hfirst)

theorem decides_settle {f : TaskState → TaskState} (hf : Settles f) :
    Decides (onTask f : AgentM X Unit) := by
  intro s a t hrun
  cases hrun
  exact hf.decided s.task

theorem decides_finishLoop (env : AgentEnv X) (userMessage : String) (ending : LoopEnd) :
    Decides (finishLoop env userMessage ending) := by
  have hend := endLaws_resolved env
  cases ending with
  | capHit reason attempts =>
    refine Decides.after fun final => ?_
    refine (decides_settle (settles_capHit _ _ _)).before fun _ => ?_
    exact Keeps.bind (hend.emitTrace _) fun _ => hend.finishQuietly final
  | finalsRejected =>
    refine Decides.after fun _ => Decides.after fun _ => Decides.after fun final => ?_
    exact (decides_settle (settles_stop _ _)).before fun _ => hend.finishQuietly final
  | answered final =>
    refine Decides.before (Decides.after fun _ => ?_) fun _ => ?_
    · exact (decides_settle (settles_finishSuccess final)).before fun _ => hend.keepAnswer _ _
    · exact Keeps.bind (hend.announceEnd _) fun _ => Keeps.pure _
  | left protocolFailed attempts =>
    refine Decides.after fun final => Decides.before ?_ fun _ => ?_
    · exact (decides_settle (settles_stop _ _)).before fun _ => hend.keepLeft _ _ _
    · exact Keeps.bind (hend.announceEnd _) fun _ => Keeps.pure _

theorem decides_handleEnd (env : AgentEnv X) (e : Failure) : Decides (handleEnd env e) := by
  have hend := endLaws_resolved env
  have hcancelled : Decides (endCancelled env) := by
    refine (decides_settle (settles_stop _ _)).before fun _ => ?_
    refine Keeps.bind hend.writeTaskState fun _ => ?_
    exact Keeps.bind (hend.announceEnd _) fun _ => Keeps.pure _
  cases e with
  | cleanupFailed =>
    refine Decides.before (m := onTask _) ?_ fun _ => ?_
    · rintro s a t hrun
      cases hrun
      exact ⟨by simp [TaskState.stop], by simp [TaskState.stop]⟩
    · exact Keeps.bind hend.writeTaskState fun _ => Keeps.bind hend.emitEnd fun _ => Keeps.pure _
  | _ => exact hcancelled

/-! ## The result -/

/-- Every value that reached a place where the code can raise is one it goes on with. -/
def SafeSites (env : AgentEnv X) (new : List Event) : Prop :=
  ∀ site, .site site ∈ new → site.Safe env.txt env.loads

theorem SafeSites.right {new more : List Event} (h : SafeSites env (new ++ more)) :
    SafeSites env more := fun site hmem => h site (List.mem_append_right _ hmem)

/-- An agent without a plan and without a review. -/
def plainAgent : AgentEnv Script := .scripted [] .auto false false

theorem quietOutside_scripted (json : List (String × PyValue)) (strategy : ApprovalStrategy)
    (planning reviewSubagent : Bool) :
    QuietOutside (.scripted json strategy planning reviewSubagent) where
  storage _ _ _ _ := rfl
  hook _ _ _ _ := by simp [AgentEnv.scripted, Outer.idle]
  ask _ _ _ := by simp [AgentEnv.scripted, Outer.idle]
  model _ _ _ _ := by simp [AgentEnv.scripted]

end ThreadForge

import Mathlib.Order.Basic

/-!
# Labelled transition systems and their runs

A concurrent component is a step relation `step : σ → α → σ → Prop` on its states, one action at
a time. A run keeps every move it made, with the state before and after it, so that a condition on
the steps of a run and a property of its states are both statements about the same list.

## The induction is packaged once

`Run.invariant` is the only induction over runs a client needs: an invariant kept by every move
that meets a guard holds along every run whose moves all meet it. `Run.moves_iff_of_exact`,
`Run.law_iff_of_exact` and `Run.forall_moves_iff` are for a component that keeps a law exactly under
such a guard.
-/

namespace Transition

variable {σ α : Type*}

/-- One step taken: the state before it, the action, and the state after it. -/
structure Move (σ α : Type*) where
  pre : σ
  act : α
  post : σ

/-- The run from a state to a state through the listed moves, the latest last. -/
inductive Run (step : σ → α → σ → Prop) (s : σ) : List (Move σ α) → σ → Prop
  | nil : Run step s [] s
  | snoc {ms : List (Move σ α)} {t u : σ} {a : α} :
      Run step s ms t → step t a u → Run step s (ms ++ [⟨t, a, u⟩]) u

variable {step : σ → α → σ → Prop} {s t u : σ} {ms : List (Move σ α)}

/-! ## Composing runs -/

theorem Run.single {a : α} (h : step s a t) : Run step s [⟨s, a, t⟩] t :=
  Run.snoc Run.nil h

theorem Run.append {ns : List (Move σ α)} (h₁ : Run step s ms t) (h₂ : Run step t ns u) :
    Run step s (ms ++ ns) u := by
  induction h₂ with
  | nil => rw [List.append_nil]; exact h₁
  | snoc _ hstep ih => rw [← List.append_assoc]; exact Run.snoc ih hstep

theorem Run.cons {a : α} (hstep : step s a t) (h : Run step t ms u) :
    Run step s (⟨s, a, t⟩ :: ms) u :=
  (Run.single hstep).append h

/-! ## Facts about every move of a run -/

theorem Run.step_of_mem (h : Run step s ms t) {m : Move σ α} (hm : m ∈ ms) :
    step m.pre m.act m.post := by
  induction h with
  | nil => simp at hm
  | snoc _ hstep ih =>
    rcases List.mem_append.mp hm with hm | hm
    · exact ih hm
    · rw [List.mem_singleton] at hm
      subst hm
      exact hstep

/-- An invariant kept by every guarded step holds at the end of a run whose moves are all guarded,
and before each of its moves. -/
theorem Run.invariant {Inv : σ → Prop} {guard : σ → α → Prop}
    (hkeep : ∀ s a t, Inv s → guard s a → step s a t → Inv t) (h : Run step s ms t)
    (hs : Inv s) (hguard : ∀ m ∈ ms, guard m.pre m.act) :
    Inv t ∧ ∀ m ∈ ms, Inv m.pre := by
  induction h with
  | nil => exact ⟨hs, by simp⟩
  | snoc _ hstep ih =>
    obtain ⟨hinv, hpre⟩ := ih fun m hm => hguard m (List.mem_append_left _ hm)
    have hlast := hguard _ (List.mem_append_right _ (List.mem_singleton_self _))
    refine ⟨hkeep _ _ _ hinv hlast hstep, ?_⟩
    intro m hm
    rcases List.mem_append.mp hm with hm | hm
    · exact hpre m hm
    · rw [List.mem_singleton] at hm
      subst hm
      exact hinv

/-- The unguarded case: an invariant every step keeps holds in every state reached. -/
theorem Run.invariant_of_step {Inv : σ → Prop} (hkeep : ∀ s a t, Inv s → step s a t → Inv t)
    (h : Run step s ms t) (hs : Inv s) : Inv t := by
  induction h with
  | nil => exact hs
  | snoc _ hstep ih => exact hkeep _ _ _ ih hstep

/-- An invariant every step keeps holds before each move of a run. -/
theorem Run.invariant_before {Inv : σ → Prop} (hkeep : ∀ s a t, Inv s → step s a t → Inv t)
    (h : Run step s ms t) (hs : Inv s) : ∀ m ∈ ms, Inv m.pre := by
  have hguarded : ∀ s a t, Inv s → True → step s a t → Inv t :=
    fun s a t hinv _ hstep => hkeep s a t hinv hstep
  exact (h.invariant hguarded hs fun _ _ => trivial).2

/-- What no move of a run changes from true to false is still true at its end. -/
theorem Run.preserves {P : σ → Prop} (h : Run step s ms t)
    (hkeep : ∀ m ∈ ms, P m.pre → P m.post) (hs : P s) : P t := by
  induction h with
  | nil => exact hs
  | snoc _ _ ih =>
    have hlast := hkeep _ (List.mem_append_right _ (List.mem_singleton_self _))
    exact hlast (ih fun m hm => hkeep m (List.mem_append_left _ hm))

/-- What no move of a run changes from true to false is true before each of them. -/
theorem Run.preserves_before {P : σ → Prop} (h : Run step s ms t)
    (hkeep : ∀ m ∈ ms, P m.pre → P m.post) (hs : P s) : ∀ m ∈ ms, P m.pre := by
  induction h with
  | nil => simp
  | snoc hrun _ ih =>
    intro m hm
    have hearlier := fun m hm => hkeep m (List.mem_append_left _ hm)
    rcases List.mem_append.mp hm with hm | hm
    · exact ih hearlier m hm
    · rw [List.mem_singleton] at hm
      subst hm
      exact hrun.preserves hearlier hs

/-- **A law of moves kept exactly under a guard.** When every guarded step from an invariant state
keeps the invariant and the law, and no unguarded step keeps the law, the runs that keep the law
at each of their moves are the runs whose moves all meet the guard. -/
theorem Run.moves_iff_of_exact (Inv : σ → Prop) (guard : σ → α → Prop) (law : σ → σ → Prop)
    (hkeep : ∀ s a t, Inv s → guard s a → step s a t → Inv t)
    (hlaw : ∀ s a t, Inv s → guard s a → step s a t → law s t)
    (hexact : ∀ s a t, step s a t → law s t → guard s a)
    (h : Run step s ms t) (hs : Inv s) :
    (∀ m ∈ ms, law m.pre m.post) ↔ ∀ m ∈ ms, guard m.pre m.act := by
  constructor
  · intro hall m hm
    exact hexact _ _ _ (h.step_of_mem hm) (hall m hm)
  · intro hall m hm
    exact hlaw _ _ _ ((h.invariant hkeep hs hall).2 m hm) (hall m hm) (h.step_of_mem hm)

/-- **A law of histories kept exactly under a guard.** `Base` holds along every run. When guarded
steps keep a lawful invariant, and a step that ends lawfully began so and met the guard, the runs
that end lawfully are the runs whose moves all meet the guard. -/
theorem Run.law_iff_of_exact (Base Inv : σ → Prop) (guard : σ → α → Prop) (law : σ → Prop)
    (hbase : ∀ s a t, Base s → step s a t → Base t)
    (hkeep : ∀ s a t, Base s → Inv s → guard s a → step s a t → Inv t)
    (hlaw : ∀ s, Inv s → law s)
    (hexact : ∀ s a t, Base s → step s a t → law t → guard s a ∧ law s)
    (h : Run step s ms t) (hs : Base s) (hs' : Inv s) :
    law t ↔ ∀ m ∈ ms, guard m.pre m.act := by
  constructor
  · intro hend
    induction h with
    | nil => simp
    | @snoc ms t u a hrun hstep ih =>
      obtain ⟨hguard, hbefore⟩ := hexact t a u (hrun.invariant_of_step hbase hs) hstep hend
      intro m hm
      rcases List.mem_append.mp hm with hm | hm
      · exact ih hbefore m hm
      · rw [List.mem_singleton] at hm
        subst hm
        exact hguard
  · intro hall
    have hboth : ∀ s a t, Base s ∧ Inv s → guard s a → step s a t → Base t ∧ Inv t :=
      fun s a t hi hg hstep => ⟨hbase s a t hi.1 hstep, hkeep s a t hi.1 hi.2 hg hstep⟩
    exact hlaw t (h.invariant hboth ⟨hs, hs'⟩ hall).1.2

/-- **A law of single moves kept exactly under a guard.** `Base` holds along every run. When a
step from a state that meets the invariant is lawful exactly where it meets the guard, and then
keeps the invariant, the runs of lawful moves are the runs whose moves all meet the guard. -/
theorem Run.forall_moves_iff (Base Inv : σ → Prop) (guard : σ → α → Prop) (law : Move σ α → Prop)
    (hbase : ∀ s a t, Base s → step s a t → Base t)
    (hiff : ∀ s a t, Base s → Inv s → step s a t → (law ⟨s, a, t⟩ ↔ guard s a))
    (hkeep : ∀ s a t, Base s → Inv s → step s a t → guard s a → Inv t)
    (h : Run step s ms t) (hs : Base s) (hs' : Inv s) :
    (∀ m ∈ ms, law m) ↔ ∀ m ∈ ms, guard m.pre m.act := by
  have hboth : ∀ s a t, Base s ∧ Inv s → guard s a → step s a t → Base t ∧ Inv t :=
    fun s a t hi hg hstep => ⟨hbase s a t hi.1 hstep, hkeep s a t hi.1 hi.2 hstep hg⟩
  constructor
  · intro hall
    induction h with
    | nil => exact fun m hm => (by cases hm)
    | snoc hrun hstep ih =>
      have hearlier := ih fun m hm => hall m (List.mem_append_left _ hm)
      obtain ⟨⟨hpre, hpre'⟩, -⟩ := hrun.invariant hboth ⟨hs, hs'⟩ hearlier
      intro m hm
      rcases List.mem_append.mp hm with hm | hm
      · exact hearlier m hm
      · have hlast := hall m (List.mem_append_right _ hm)
        rw [List.mem_singleton] at hm
        subst hm
        exact (hiff _ _ _ hpre hpre' hstep).mp hlast
  · intro hall m hm
    obtain ⟨hpre, hpre'⟩ := (h.invariant hboth ⟨hs, hs'⟩ hall).2 m hm
    exact (hiff _ _ _ hpre hpre' (h.step_of_mem hm)).mpr (hall m hm)

/-! ## Running a list of actions -/

/-- The state after the actions, where each of them can be taken. -/
def execute (next : σ → α → Option σ) : σ → List α → Option σ
  | s, [] => some s
  | s, a :: as => (next s a).bind fun t => execute next t as

/-- The moves that running the actions makes. -/
def movesOf (next : σ → α → Option σ) : σ → List α → List (Move σ α)
  | _, [] => []
  | s, a :: as =>
    match next s a with
    | some t => ⟨s, a, t⟩ :: movesOf next t as
    | none => []

/-- Actions that execute are a run. -/
theorem Run.of_execute {next : σ → α → Option σ}
    (hnext : ∀ s a t, next s a = some t → step s a t) :
    ∀ {as : List α} {s t : σ}, execute next s as = some t → Run step s (movesOf next s as) t
  | [], s, t, h => by
    rw [← Option.some.inj h]
    exact Run.nil
  | a :: as, s, t, h => by
    obtain ⟨u, hu, hrest⟩ := Option.bind_eq_some_iff.mp h
    rw [movesOf, hu]
    exact Run.cons (hnext _ _ _ hu) (Run.of_execute hnext hrest)

end Transition

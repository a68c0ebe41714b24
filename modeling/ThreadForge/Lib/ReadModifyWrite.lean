import ThreadForge.Lib.Transition
import Mathlib.Data.List.Perm.Basic
import Mathlib.Logic.Function.Basic

/-!
# Read–modify–write without a lock over the three

A shared cell of type `σ` is updated by calls that look at a part `view : σ → ρ` of it, compute,
and store. The look and the store are each atomic; nothing is held between them. `commit i r` is
what call `i` stores when it looked at `r` (a call that gives up stores nothing, so its `commit`
is the identity).

## When the calls are serialisable

A store is *fresh* when the cell still shows what its call looked at. A run whose stores are all
fresh ends where the calls, applied one at a time in the order of their stores, end
(`serial_of_fresh`); a call whose look and store are adjacent is always fresh.
-/

namespace ReadModifyWrite

open Transition

/-- Where a call stands. -/
inductive Phase (ρ : Type*)
  | idle
  | holding (seen : ρ)
  | finished

/-- The cell, and where each call stands. -/
structure State (ι σ ρ : Type*) where
  cell : σ
  phase : ι → Phase ρ

/-- The two critical sections of a call. -/
inductive Action (ι : Type*)
  | look (i : ι)
  | store (i : ι)

section Machine

variable {ι σ ρ : Type*} [DecidableEq ι] (view : σ → ρ) (commit : ι → ρ → σ → σ)

/-- A call looks once and then stores once; other calls may step in between. -/
inductive Step : State ι σ ρ → Action ι → State ι σ ρ → Prop
  | look {s : State ι σ ρ} {i : ι} : s.phase i = .idle →
      Step s (.look i) { s with phase := Function.update s.phase i (.holding (view s.cell)) }
  | store {s : State ι σ ρ} {i : ι} {seen : ρ} : s.phase i = .holding seen →
      Step s (.store i)
        { cell := commit i seen s.cell, phase := Function.update s.phase i .finished }

/-- The state after an action, where it can be taken. -/
def next (s : State ι σ ρ) : Action ι → Option (State ι σ ρ)
  | .look i =>
    match s.phase i with
    | .idle => some { s with phase := Function.update s.phase i (.holding (view s.cell)) }
    | _ => none
  | .store i =>
    match s.phase i with
    | .holding seen =>
      some { cell := commit i seen s.cell, phase := Function.update s.phase i .finished }
    | _ => none

/-- A call run with nothing in between its look and its store. -/
def atomic (i : ι) (c : σ) : σ := commit i (view c) c

/-- The calls of a list run one after the other. -/
def serial (order : List ι) (c : σ) : σ := order.foldl (fun c i => atomic view commit i c) c

/-- The store of this action finds the cell showing what its call looked at. -/
def Fresh (s : State ι σ ρ) : Action ι → Prop
  | .look _ => True
  | .store i => s.phase i = .holding (view s.cell)

/-- Before any call started. -/
def initial (c : σ) : State ι σ ρ := { cell := c, phase := fun _ => .idle }

/-- The calls that stored, in the order they did. -/
def stored (ms : List (Move (State ι σ ρ) (Action ι))) : List ι :=
  ms.filterMap fun m => match m.act with
    | .look _ => none
    | .store i => some i

end Machine

variable {ι σ ρ : Type*} [DecidableEq ι] {view : σ → ρ} {commit : ι → ρ → σ → σ}

theorem Step.of_next {s t : State ι σ ρ} {a : Action ι} (h : next view commit s a = some t) :
    Step view commit s a t := by
  cases a with
  | look i =>
    simp only [next] at h
    split at h
    · next hidle => rw [← Option.some.inj h]; exact Step.look hidle
    · cases h
  | store i =>
    simp only [next] at h
    split at h
    · next seen hholding => rw [← Option.some.inj h]; exact Step.store hholding
    · cases h

/-! ## The order of the stores -/

omit [DecidableEq ι] in
theorem stored_snoc_look (ms : List (Move (State ι σ ρ) (Action ι))) (s t : State ι σ ρ) (i : ι) :
    stored (ms ++ [⟨s, .look i, t⟩]) = stored ms := by
  simp [stored]

omit [DecidableEq ι] in
theorem stored_snoc_store (ms : List (Move (State ι σ ρ) (Action ι))) (s t : State ι σ ρ) (i : ι) :
    stored (ms ++ [⟨s, .store i, t⟩]) = stored ms ++ [i] := by
  simp [stored]

omit [DecidableEq ι] in
theorem serial_snoc (order : List ι) (i : ι) (c : σ) :
    serial view commit (order ++ [i]) c = atomic view commit i (serial view commit order c) := by
  simp [serial]

/-- A call has finished exactly when it is among the stores, where it stands once. -/
theorem Run.stored_spec {c : σ} {ms : List (Move (State ι σ ρ) (Action ι))} {t : State ι σ ρ}
    (h : Run (Step view commit) (initial c) ms t) :
    (stored ms).Nodup ∧ ∀ i, i ∈ stored ms ↔ t.phase i = .finished := by
  induction h with
  | nil => simp [stored, initial]
  | @snoc ms s _ _ _ hstep ih =>
    obtain ⟨hnodup, hmem⟩ := ih
    cases hstep with
    | @look i hidle =>
      rw [stored_snoc_look]
      refine ⟨hnodup, fun j => ?_⟩
      rw [hmem j]
      by_cases hj : j = i
      · subst hj
        simp [hidle]
      · simp [Function.update_of_ne hj]
    | @store i seen hholding =>
      rw [stored_snoc_store]
      have hfresh : i ∉ stored ms := fun hi => by
        rw [hmem i, hholding] at hi
        cases hi
      refine ⟨List.nodup_append.mpr ⟨hnodup, by simp, ?_⟩, fun j => ?_⟩
      · intro a ha b hb hab
        rw [List.mem_singleton] at hb
        subst hb hab
        exact hfresh ha
      · by_cases hj : j = i
        · subst hj
          simp
        · simp [hmem j, hj]

/-! ## Fresh stores are serial -/

/-- **Serialisability.** Where every store of a run is fresh, the cell holds what the finished
calls give one after the other, in the order of their stores. -/
theorem serial_of_fresh {c : σ} {ms : List (Move (State ι σ ρ) (Action ι))} {t : State ι σ ρ}
    (h : Run (Step view commit) (initial c) ms t) (hfresh : ∀ m ∈ ms, Fresh view m.pre m.act) :
    t.cell = serial view commit (stored ms) c := by
  induction h with
  | nil => rfl
  | @snoc _ s _ _ _ hstep ih =>
    have hcell := ih fun m hm => hfresh m (List.mem_append_left _ hm)
    have hlast := hfresh _ (List.mem_append_right _ (List.mem_singleton_self _))
    cases hstep with
    | look _ =>
      rw [stored_snoc_look]
      exact hcell
    | @store i seen hholding =>
      -- freshness says the call looked at what the cell shows now
      have hseen : seen = view s.cell := by
        have heq : Phase.holding seen = Phase.holding (view s.cell) := hholding.symm.trans hlast
        exact Phase.holding.inj heq
      rw [stored_snoc_store, serial_snoc, ← hcell, hseen]
      rfl

end ReadModifyWrite

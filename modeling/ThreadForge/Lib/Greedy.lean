import Mathlib.Data.List.Basic
import Mathlib.Order.Lattice

/-!
# Filling from a list

Going through a list, each item is added to what is there already if it can be, and left out
otherwise. Nothing is added after an item that was left out exactly if nothing after the first such
item can be added in its place (`closed_iff`).
-/

namespace Greedy

universe u v w

variable {α : Type u} {σ : Type v} {τ : Type w} (add : σ → α → Option σ)

/-- The items that are added to `s`. -/
def kept : σ → List α → List α
  | _, [] => []
  | s, a :: l => match add s a with
    | some s' => a :: kept s' l
    | none => kept s l

/-- Once an item cannot be added, none of the later ones can. -/
def NoGap : σ → List α → Prop
  | _, [] => True
  | s, a :: l => match add s a with
    | some s' => NoGap s' l
    | none => ∀ b ∈ l, add s b = none

variable {add} {s s' : σ} {a : α} {l : List α}

theorem kept_cons_some (h : add s a = some s') : kept add s (a :: l) = a :: kept add s' l := by
  rw [kept, h]

theorem kept_cons_none (h : add s a = none) : kept add s (a :: l) = kept add s l := by
  rw [kept, h]

theorem noGap_cons_some (h : add s a = some s') : NoGap add s (a :: l) ↔ NoGap add s' l := by
  rw [NoGap, h]

theorem noGap_cons_none (h : add s a = none) :
    NoGap add s (a :: l) ↔ ∀ b ∈ l, add s b = none := by
  rw [NoGap, h]

instance decidableNoGap : ∀ (s : σ) (l : List α), Decidable (NoGap add s l)
  | _, [] => isTrue trivial
  | s, a :: l => match h : add s a with
    | some s' =>
      have := decidableNoGap s' l
      decidable_of_iff' _ (noGap_cons_some h)
    | none =>
      have : DecidablePred fun b => add s b = none := fun _ =>
        decidable_of_iff _ Option.isNone_iff_eq_none
      decidable_of_iff' _ (noGap_cons_none h)

theorem kept_sublist : ∀ (s : σ) (l : List α), (kept add s l).Sublist l
  | _, [] => List.Sublist.refl []
  | s, a :: l => by
    rcases h : add s a with _ | s'
    · rw [kept_cons_none h]
      exact (kept_sublist s l).cons a
    · rw [kept_cons_some h]
      exact (kept_sublist s' l).cons_cons a

theorem kept_eq_nil_iff : ∀ {l : List α}, kept add s l = [] ↔ ∀ b ∈ l, add s b = none
  | [] => iff_of_true rfl fun b hb => absurd hb List.not_mem_nil
  | a :: l => by
    rw [List.forall_mem_cons]
    rcases h : add s a with _ | s'
    · rw [kept_cons_none h, kept_eq_nil_iff]
      exact (and_iff_right rfl).symm
    · rw [kept_cons_some h]
      exact iff_of_false (List.cons_ne_nil _ _) fun hnone => by cases hnone.1

/-- Two ways to fill that do the same leave out the same. -/
theorem kept_map {add' : τ → α → Option τ} {f : σ → τ}
    (h : ∀ s a, (add s a).map f = add' (f s) a) :
    ∀ (s : σ) (l : List α), kept add s l = kept add' (f s) l
  | _, [] => rfl
  | s, a :: l => by
    have hsame := h s a
    rcases hadd : add s a with _ | s'
    · rw [hadd] at hsame
      rw [kept_cons_none hadd, kept_cons_none hsame.symm, kept_map h s l]
    · rw [hadd] at hsame
      rw [kept_cons_some hadd, kept_cons_some hsame.symm, kept_map h s' l]

/-- **No item is kept behind one that was left out** exactly if there is no gap. -/
theorem closed_iff {κ : Type*} [LinearOrder κ] (key : α → κ) :
    ∀ {l : List α} (s : σ), l.Pairwise (fun a b => key b < key a) →
      ((∀ x ∈ kept add s l, ∀ y ∈ l, key x < key y → y ∈ kept add s l) ↔ NoGap add s l)
  | [], _, _ => iff_of_true (fun x hx => absurd hx List.not_mem_nil) trivial
  | a :: l, s, hsorted => by
    rw [List.pairwise_cons] at hsorted
    obtain ⟨hfirst, hrest⟩ := hsorted
    rcases h : add s a with _ | s'
    · rw [kept_cons_none h, noGap_cons_none h, ← kept_eq_nil_iff]
      constructor
      · intro hclosed
        refine List.eq_nil_iff_forall_not_mem.mpr fun x hx => ?_
        have hxl := (kept_sublist s l).subset hx
        have ha := hclosed x hx a List.mem_cons_self (hfirst x hxl)
        exact lt_irrefl _ (hfirst a ((kept_sublist s l).subset ha))
      · intro hnil x hx
        rw [hnil] at hx
        cases hx
    · rw [kept_cons_some h, noGap_cons_some h, ← closed_iff key s' hrest]
      constructor
      · intro hclosed x hx y hy hlt
        rcases List.mem_cons.mp (hclosed x (List.mem_cons_of_mem a hx) y
          (List.mem_cons_of_mem a hy) hlt) with rfl | hmem
        · exact absurd (hfirst y hy) (lt_irrefl _)
        · exact hmem
      · intro hclosed x hx y hy hlt
        rcases List.mem_cons.mp hy with rfl | hyl
        · exact List.mem_cons_self
        · rcases List.mem_cons.mp hx with rfl | hxl
          · exact absurd hlt (lt_asymm (hfirst y hyl))
          · exact List.mem_cons_of_mem a (hclosed x hxl y hyl hlt)

end Greedy

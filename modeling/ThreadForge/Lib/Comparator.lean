import Mathlib.Data.List.Nodup
import Mathlib.Data.List.Perm.Subperm
import Mathlib.Data.List.Sort
import Mathlib.Data.Int.Order.Basic

/-!
# Sorting with a comparison function

A sort that takes a comparison function promises a result only when the function is consistent on
the elements of the list. What it then returns is a permutation, ascending, in which elements that
compare as equal keep their order, and there is one such list only.

## Main results

* `Comparator.Sorts.eq` — two sorts of a list agree.
* `Comparator.sorts_self` — a list that is ascending is its own sort.
-/

namespace Comparator

variable {α : Type*} {cmp : α → α → Int} {l r r' : List α} {a b : α}

/-! ## The order of two elements of a list -/

theorem sublist_or_sublist (hne : a ≠ b) (ha : a ∈ l) (hb : b ∈ l) :
    [a, b].Sublist l ∨ [b, a].Sublist l := by
  induction l with
  | nil => exact absurd ha List.not_mem_nil
  | cons c l ih =>
    rcases List.mem_cons.mp ha with rfl | ha'
    · rcases List.mem_cons.mp hb with rfl | hb'
      · exact absurd rfl hne
      · exact Or.inl ((List.singleton_sublist.mpr hb').cons_cons a)
    · rcases List.mem_cons.mp hb with rfl | hb'
      · exact Or.inr ((List.singleton_sublist.mpr ha').cons_cons b)
      · rcases ih ha' hb' with h | h
        · exact Or.inl (h.cons c)
        · exact Or.inr (h.cons c)

theorem not_sublist_swap (hnodup : l.Nodup) (h : [a, b].Sublist l) : ¬[b, a].Sublist l := by
  induction l with
  | nil => exact fun h' => absurd h'.length_le (by simp)
  | cons c l ih =>
    obtain ⟨hc, hl⟩ := List.nodup_cons.mp hnodup
    intro h'
    cases h with
    | cons _ h =>
      cases h' with
      | cons _ h' => exact ih hl h h'
      | cons_cons _ h' => exact hc (h.subset (by simp))
    | cons_cons _ h =>
      cases h' with
      | cons _ h' => exact hc (h'.subset (by simp))
      | cons_cons _ h' => exact hc (h.subset (by simp))

theorem ne_of_sublist (hnodup : l.Nodup) (h : [a, b].Sublist l) : a ≠ b := by
  have hpair := List.Nodup.sublist h hnodup
  simpa using hpair

/-! ## Consistency -/

/-- What a sort asks of a comparison function, on two or three elements of a list. -/
structure Consistent (cmp : α → α → Int) (l : List α) : Prop where
  swap : ∀ a ∈ l, ∀ b ∈ l, a ≠ b → (cmp b a).sign = -(cmp a b).sign
  trans : ∀ a ∈ l, ∀ b ∈ l, ∀ c ∈ l, a ≠ b → b ≠ c → a ≠ c →
    cmp a b ≤ 0 → cmp b c ≤ 0 → cmp a c ≤ 0

theorem Consistent.of_perm (h : Consistent cmp l) (hperm : r.Perm l) : Consistent cmp r where
  swap a ha b hb := h.swap a (hperm.mem_iff.mp ha) b (hperm.mem_iff.mp hb)
  trans a ha b hb c hc :=
    h.trans a (hperm.mem_iff.mp ha) b (hperm.mem_iff.mp hb) c (hperm.mem_iff.mp hc)

/-! ## Sorts -/

/-- What a sort returns. -/
structure Sorts (cmp : α → α → Int) (l r : List α) : Prop where
  perm : r.Perm l
  ascending : r.Pairwise fun a b => cmp a b ≤ 0
  stable : ∀ a b, cmp a b = 0 → [a, b].Sublist l → [a, b].Sublist r

/-- A sorting algorithm: what it promises where the comparison function is consistent. -/
def CorrectSort (sort : (α → α → Int) → List α → List α) : Prop :=
  ∀ cmp l, l.Nodup → Consistent cmp l → Sorts cmp l (sort cmp l)

open Classical in

/-- An element goes before another: it is less, or it is equal and came first. -/
def Precedes (cmp : α → α → Int) (l : List α) (a b : α) : Prop :=
  cmp a b < 0 ∨ cmp a b = 0 ∧ [a, b].Sublist l

theorem Sorts.precedes (h : Sorts cmp l r) (hcmp : Consistent cmp l) (hnodup : l.Nodup) :
    r.Pairwise (Precedes cmp l) := by
  have hr : r.Nodup := h.perm.nodup_iff.mpr hnodup
  rw [List.pairwise_iff_forall_sublist]
  intro a b hab
  have hle : cmp a b ≤ 0 := List.pairwise_iff_forall_sublist.mp h.ascending hab
  rcases Int.lt_or_eq_of_le hle with hlt | heq
  · exact Or.inl hlt
  · refine Or.inr ⟨heq, ?_⟩
    have hne := ne_of_sublist hr hab
    have ha : a ∈ l := h.perm.mem_iff.mp (hab.subset (by simp))
    have hb : b ∈ l := h.perm.mem_iff.mp (hab.subset (by simp))
    rcases sublist_or_sublist hne ha hb with hl | hl
    · exact hl
    · -- Had the equals come the other way round, the sort would have kept that.
      have hswap := hcmp.swap a ha b hb hne
      rw [heq] at hswap
      exact absurd (h.stable b a (Int.sign_eq_zero_iff_zero.mp (by simpa using hswap)) hl)
        (not_sublist_swap hr hab)

/-- Of two elements of a list one only goes before the other. -/
theorem Precedes.asymm (hcmp : Consistent cmp l) (hnodup : l.Nodup) (ha : a ∈ l) (hb : b ∈ l)
    (h : Precedes cmp l a b) (h' : Precedes cmp l b a) : a = b := by
  by_contra hne
  have hswap := hcmp.swap a ha b hb hne
  rcases h with hlt | ⟨heq, hab⟩
  · rw [Int.sign_eq_neg_one_of_neg hlt] at hswap
    have hpos : 0 < cmp b a := Int.pos_of_sign_eq_one (by simpa using hswap)
    rcases h' with hlt' | ⟨heq', -⟩ <;> omega
  · rw [heq] at hswap
    have hzero : cmp b a = 0 := Int.sign_eq_zero_iff_zero.mp (by simpa using hswap)
    rcases h' with hlt' | ⟨-, hba⟩
    · omega
    · exact not_sublist_swap hnodup hab hba

theorem Sorts.eq (hcmp : Consistent cmp l) (hnodup : l.Nodup) (h : Sorts cmp l r)
    (h' : Sorts cmp l r') : r = r' := by
  have hperm : r.Perm r' := h.perm.trans h'.perm.symm
  refine hperm.eq_of_pairwise ?_ (h.precedes hcmp hnodup) (h'.precedes hcmp hnodup)
  intro a b ha hb hab hba
  exact hab.asymm hcmp hnodup (h.perm.mem_iff.mp ha) (h'.perm.mem_iff.mp hb) hba

theorem sorts_self (h : l.Pairwise fun a b => cmp a b ≤ 0) : Sorts cmp l l :=
  ⟨List.Perm.refl l, h, fun _ _ _ hab => hab⟩

/-! ## By a time that may be missing -/

section ByTime

variable {time : α → Option Int} {tie : α → α → Int}

/-- Two dated elements with different times are compared by them, a dated one goes first, and two
others are compared otherwise. -/
def byTime (time : α → Option Int) (tie : α → α → Int) (a b : α) : Int :=
  match time a, time b with
  | some s, some t => if s ≠ t then s - t else -1
  | some _, none => -1
  | none, some _ => 1
  | none, none => tie a b

/-- Dated elements ascending, the others after them, equals in the order of the list. -/
def InOrder (time : α → Option Int) (l : List α) (a b : α) : Prop :=
  (∃ s t, time a = some s ∧ time b = some t ∧ s < t) ∨ (time a ≠ none ∧ time b = none) ∨
    (time a = time b ∧ [a, b].Sublist l)

/-- The permutation of a list in which the elements stand in their order. -/
def Chronological (time : α → Option Int) (l r : List α) : Prop :=
  r.Perm l ∧ r.Pairwise (InOrder time l)

/-- No two elements have the same time. -/
def DistinctTimes (time : α → Option Int) (l : List α) : Prop :=
  ∀ a ∈ l, ∀ b ∈ l, a ≠ b → time a = time b → time a = none

/-- What compares two elements without a time follows their order in the list, or says nothing. -/
structure TieFollows (tie : α → α → Int) (l : List α) : Prop where
  le : ∀ a b, [a, b].Sublist l → tie a b ≤ 0
  swap : ∀ a b, tie b a = -tie a b
  trans : ∀ a b c, tie a b ≤ 0 → tie b c ≤ 0 → tie a c ≤ 0

theorem InOrder.asymm (hnodup : l.Nodup) (h : InOrder time l a b) (h' : InOrder time l b a) :
    a = b := by
  rcases h with ⟨s, t, hs, ht, hlt⟩ | ⟨hsome, hnone⟩ | ⟨heq, hab⟩
  · rcases h' with ⟨s', t', hs', ht', hlt'⟩ | ⟨-, hnone'⟩ | ⟨heq', -⟩
    · rw [hs] at ht'
      rw [ht] at hs'
      cases ht'
      cases hs'
      omega
    · rw [hs] at hnone'
      cases hnone'
    · rw [hs, ht] at heq'
      cases heq'
      omega
  · rcases h' with ⟨s', t', hs', ht', hlt'⟩ | ⟨hsome', -⟩ | ⟨heq', -⟩
    · rw [hnone] at hs'
      cases hs'
    · exact absurd hnone hsome'
    · rw [hnone] at heq'
      exact absurd heq'.symm hsome
  · rcases h' with ⟨s', t', hs', ht', hlt'⟩ | ⟨hsome', hnone'⟩ | ⟨-, hba⟩
    · rw [ht', hs'] at heq
      cases heq
      omega
    · rw [hnone'] at heq
      exact absurd heq.symm hsome'
    · exact absurd hba (not_sublist_swap hnodup hab)

/-- The permutation in which the elements stand in their order is unique. -/
theorem Chronological.eq (hnodup : l.Nodup) (h : Chronological time l r)
    (h' : Chronological time l r') : r = r' := by
  refine (h.1.trans h'.1.symm).eq_of_pairwise ?_ h.2 h'.2
  intro a b _ _ hab hba
  exact hab.asymm hnodup hba

theorem byTime_eq_neg (hs : time a ≠ none) (ht : time b = none) : byTime time tie a b = -1 := by
  unfold byTime
  rw [ht]
  cases hb : time a with
  | none => exact absurd hb hs
  | some s => rfl

theorem byTime_eq_tie (hs : time a = none) (ht : time b = none) :
    byTime time tie a b = tie a b := by
  unfold byTime
  rw [hs, ht]

theorem byTime_eq_sub {s t : Int} (hs : time a = some s) (ht : time b = some t) (hne : s ≠ t) :
    byTime time tie a b = s - t := by
  unfold byTime
  rw [hs, ht]
  exact if_pos hne

theorem byTime_eq_one (hs : time a = none) (ht : time b ≠ none) : byTime time tie a b = 1 := by
  unfold byTime
  rw [hs]
  cases hb : time b with
  | none => exact absurd hb ht
  | some s => rfl

/-- With different times, an element that does not go after another is before it or undated. -/
theorem byTime_le_zero_iff (hne : time a = time b → time a = none) :
    byTime time tie a b ≤ 0 ↔
      (∃ s t, time a = some s ∧ time b = some t ∧ s < t) ∨ (time a ≠ none ∧ time b = none) ∨
        (time a = none ∧ time b = none ∧ tie a b ≤ 0) := by
  cases hs : time a with
  | none =>
    cases ht : time b with
    | none =>
      rw [byTime_eq_tie hs ht]
      simp
    | some t =>
      rw [byTime_eq_one hs (by rw [ht]; exact Option.some_ne_none t)]
      simp
  | some s =>
    cases ht : time b with
    | none =>
      rw [byTime_eq_neg (by rw [hs]; exact Option.some_ne_none s) ht]
      simp
    | some t =>
      have hst : s ≠ t := by
        rintro rfl
        rw [hs, ht] at hne
        cases hne rfl
      rw [byTime_eq_sub hs ht hst]
      simp
      omega

theorem byTime_swap (htie : TieFollows tie l) (hne : time a = time b → time a = none) :
    (byTime time tie b a).sign = -(byTime time tie a b).sign := by
  cases hs : time a with
  | none =>
    cases ht : time b with
    | none => rw [byTime_eq_tie hs ht, byTime_eq_tie ht hs, htie.swap, Int.sign_neg]
    | some t =>
      have hsome : time b ≠ none := by
        rw [ht]
        exact Option.some_ne_none t
      rw [byTime_eq_neg hsome hs, byTime_eq_one hs hsome]
      rfl
  | some s =>
    have hsome : time a ≠ none := by
      rw [hs]
      exact Option.some_ne_none s
    cases ht : time b with
    | none =>
      rw [byTime_eq_neg hsome ht, byTime_eq_one ht hsome]
      rfl
    | some t =>
      have hst : s ≠ t := by
        rintro rfl
        exact hsome (hne (hs.trans ht.symm))
      rw [byTime_eq_sub hs ht hst, byTime_eq_sub ht hs hst.symm, ← Int.sign_neg, Int.neg_sub]

theorem consistent_byTime (htie : TieFollows tie l) (h : DistinctTimes time l) :
    Consistent (byTime time tie) l where
  swap a ha b hb hne := byTime_swap htie (h a ha b hb hne)
  trans a ha b hb c hc hab hbc hac h₁ h₂ := by
    rw [byTime_le_zero_iff (h a ha b hb hab)] at h₁
    rw [byTime_le_zero_iff (h b hb c hc hbc)] at h₂
    rw [byTime_le_zero_iff (h a ha c hc hac)]
    rcases h₁ with ⟨s, t, hs, ht, hlt⟩ | ⟨hsome, hnone⟩ | ⟨hnone, hnone', hle⟩
    · rcases h₂ with ⟨s', t', hs', ht', hlt'⟩ | ⟨-, hnone'⟩ | ⟨hnone', -⟩
      · rw [ht] at hs'
        cases hs'
        exact Or.inl ⟨s, t', hs, ht', by omega⟩
      · exact Or.inr (Or.inl ⟨by rw [hs]; exact Option.some_ne_none s, hnone'⟩)
      · rw [ht] at hnone'
        cases hnone'
    · rcases h₂ with ⟨s', t', hs', -⟩ | ⟨hsome', -⟩ | ⟨-, hnone', -⟩
      · rw [hnone] at hs'
        cases hs'
      · exact absurd hnone hsome'
      · exact Or.inr (Or.inl ⟨hsome, hnone'⟩)
    · rcases h₂ with ⟨s', t', hs', -⟩ | ⟨hsome', -⟩ | ⟨-, hnone'', hle'⟩
      · rw [hnone'] at hs'
        cases hs'
      · exact absurd hnone' hsome'
      · exact Or.inr (Or.inr ⟨hnone, hnone'', htie.trans a b c hle hle'⟩)

/-- Two elements with the same time are each said to go before the other. -/
theorem not_consistent_byTime (h : ¬DistinctTimes time l) : ¬Consistent (byTime time tie) l := by
  intro hcmp
  refine h fun a ha b hb hne heq => ?_
  cases hs : time a with
  | none => rfl
  | some s =>
    have hswap := hcmp.swap a ha b hb hne
    have hab : byTime time tie a b = -1 := by
      unfold byTime
      rw [← heq, hs]
      exact if_neg fun h => h rfl
    have hba : byTime time tie b a = -1 := by
      unfold byTime
      rw [← heq, hs]
      exact if_neg fun h => h rfl
    rw [hab, hba] at hswap
    exact absurd hswap (by decide)

theorem consistent_byTime_iff (htie : TieFollows tie l) :
    Consistent (byTime time tie) l ↔ DistinctTimes time l :=
  ⟨fun hcmp => by_contra fun h => not_consistent_byTime h hcmp, consistent_byTime htie⟩

/-- What a sort by times returns stands in its order. -/
theorem Sorts.chronological (htie : TieFollows tie l) (hnodup : l.Nodup)
    (htimes : DistinctTimes time l) (h : Sorts (byTime time tie) l r) : Chronological time l r := by
  refine ⟨h.perm, ?_⟩
  have hcmp := consistent_byTime htie htimes
  rw [List.pairwise_iff_forall_sublist]
  intro a b hab
  have hne := ne_of_sublist (h.perm.nodup_iff.mpr hnodup) hab
  have ha : a ∈ l := h.perm.mem_iff.mp (hab.subset (by simp))
  have hb : b ∈ l := h.perm.mem_iff.mp (hab.subset (by simp))
  have hprec : Precedes (byTime time tie) l a b :=
    List.pairwise_iff_forall_sublist.mp (h.precedes hcmp hnodup) hab
  have hle : byTime time tie a b ≤ 0 := List.pairwise_iff_forall_sublist.mp h.ascending hab
  rcases (byTime_le_zero_iff (htimes a ha b hb hne)).mp hle with
    hboth | hdated | ⟨hnone, hnone', -⟩
  · exact Or.inl hboth
  · exact Or.inr (Or.inl hdated)
  · refine Or.inr (Or.inr ⟨hnone.trans hnone'.symm, ?_⟩)
    rcases hprec with hlt | ⟨-, hl⟩
    · rw [byTime_eq_tie hnone hnone'] at hlt
      rcases sublist_or_sublist hne ha hb with hl | hl
      · exact hl
      · have hle' := htie.le b a hl
        rw [htie.swap] at hle'
        omega
    · exact hl

end ByTime

end Comparator

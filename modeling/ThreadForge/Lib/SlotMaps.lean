import Mathlib.Logic.Function.Basic
import Mathlib.Data.List.Nodup

/-!
# One assignment kept in two maps

Items are held by holders, at most `capacity` by one holder, and the assignment is kept twice: the
holder of each item, and the items of each holder that has any. `Agree` is what makes the two maps
one assignment.

## Main results

`Agree.claim`, `Agree.release` and `Agree.drop` — taking a free item, giving one up and emptying a
holder keep the two maps in agreement.
-/

namespace SlotMaps

variable {ι κ : Type*}

/-- The two maps record one assignment, no holder has more than `capacity` items, and a holder
without items has no entry. -/
structure Agree (capacity : Nat) (holder : ι → Option κ) (held : κ → Option (List ι)) : Prop where
  holder_iff : ∀ i k, holder i = some k ↔ ∃ l, held k = some l ∧ i ∈ l
  nonempty : ∀ k, held k ≠ some []
  nodup : ∀ k l, held k = some l → l.Nodup
  bounded : ∀ k l, held k = some l → l.length ≤ capacity

variable {capacity : Nat} {holder : ι → Option κ} {held : κ → Option (List ι)} {i j : ι} {k m : κ}

theorem Agree.empty : Agree capacity (fun _ : ι => (none : Option κ)) fun _ => none where
  holder_iff _ _ := ⟨fun h => (by cases h), fun ⟨_, h, _⟩ => (by cases h)⟩
  nonempty _ h := (by cases h)
  nodup _ _ h := (by cases h)
  bounded _ _ h := (by cases h)

/-- The items of a holder, where a holder without an entry has none. -/
theorem Agree.mem_getD (h : Agree capacity holder held) :
    i ∈ (held k).getD [] ↔ holder i = some k := by
  rw [h.holder_iff]
  cases held k with
  | none => simp
  | some l => simp

/-- What the items of a holder are, whether it has an entry or not. -/
theorem getD_of_some {l : List ι} (h : held k = some l) : (held k).getD [] = l := by
  rw [h]
  rfl

variable [DecidableEq ι] [DecidableEq κ]

/-! ## Taking an item -/

/-- A free item taken by a holder with a slot left. -/
theorem Agree.claim (h : Agree capacity holder held) (hfree : holder i = none)
    (hslot : ((held k).getD []).length < capacity) :
    Agree capacity (fun j => if j = i then some k else holder j)
      (Function.update held k (some ((held k).getD [] ++ [i]))) := by
  have hnew : ∀ m, i ∉ (held m).getD [] := by
    intro m hmem
    rw [h.mem_getD, hfree] at hmem
    cases hmem
  have hnodup : ((held k).getD []).Nodup := by
    cases hk : held k with
    | none => exact List.nodup_nil
    | some l => exact h.nodup k l hk
  refine ⟨fun j m => ?_, fun m => ?_, fun m l hl => ?_, fun m l hl => ?_⟩
  · by_cases hm : m = k
    · subst hm
      rw [Function.update_self]
      by_cases hj : j = i
      · subst hj
        rw [if_pos rfl]
        exact ⟨fun _ => ⟨_, rfl, by simp⟩, fun _ => rfl⟩
      · rw [if_neg hj, ← h.mem_getD]
        constructor
        · intro hmem
          exact ⟨_, rfl, List.mem_append_left _ hmem⟩
        · rintro ⟨l, hl, hmem⟩
          rw [← Option.some.inj hl] at hmem
          rcases List.mem_append.mp hmem with hold | hlast
          · exact hold
          · exact absurd (List.mem_singleton.mp hlast) hj
    · rw [Function.update_of_ne hm, ← h.holder_iff]
      by_cases hj : j = i
      · subst hj
        rw [if_pos rfl, hfree]
        exact ⟨fun he => absurd (Option.some.inj he).symm hm, fun he => (by cases he)⟩
      · rw [if_neg hj]
  · by_cases hm : m = k
    · subst hm
      rw [Function.update_self]
      simp
    · rw [Function.update_of_ne hm]
      exact h.nonempty m
  · by_cases hm : m = k
    · subst hm
      rw [Function.update_self] at hl
      rw [← Option.some.inj hl]
      exact hnodup.append (List.nodup_singleton i)
        (List.disjoint_singleton.mpr (hnew m))
    · rw [Function.update_of_ne hm] at hl
      exact h.nodup m l hl
  · by_cases hm : m = k
    · subst hm
      rw [Function.update_self] at hl
      rw [← Option.some.inj hl, List.length_append, List.length_singleton]
      exact hslot
    · rw [Function.update_of_ne hm] at hl
      exact h.bounded m l hl

/-! ## Giving items up -/

/-- The items of each holder, once `k` has given up `i`. -/
def releaseHeld (held : κ → Option (List ι)) (i : ι) (k : κ) : κ → Option (List ι) :=
  match held k with
  | none => held
  | some l =>
    let rest := l.filter (· ≠ i)
    Function.update held k (if rest = [] then none else some rest)

/-- What a holder has after a release, if it still has anything. -/
theorem releaseHeld_some {l : List ι} (hl : releaseHeld held i k m = some l) :
    held m = some l ∧ m ≠ k ∨
      m = k ∧ ∃ l₀, held k = some l₀ ∧ l = l₀.filter (· ≠ i) ∧ l ≠ [] := by
  rw [releaseHeld] at hl
  cases hk : held k with
  | none =>
    simp only [hk] at hl
    refine Or.inl ⟨hl, fun hm => ?_⟩
    rw [hm, hk] at hl
    cases hl
  | some l₀ =>
    simp only [hk] at hl
    by_cases hm : m = k
    · subst hm
      rw [Function.update_self] at hl
      split at hl
      · cases hl
      · next hrest =>
        rw [← Option.some.inj hl]
        exact Or.inr ⟨rfl, l₀, rfl, rfl, hrest⟩
    · rw [Function.update_of_ne hm] at hl
      exact Or.inl ⟨hl, hm⟩

/-- The items of a holder after a release. -/
theorem mem_releaseHeld :
    (∃ l, releaseHeld held i k m = some l ∧ j ∈ l) ↔
      (∃ l, held m = some l ∧ j ∈ l) ∧ ¬ (m = k ∧ j = i) := by
  constructor
  · rintro ⟨l, hl, hj⟩
    rcases releaseHeld_some hl with ⟨hold, hm⟩ | ⟨rfl, l₀, hl₀, rfl, -⟩
    · exact ⟨⟨l, hold, hj⟩, fun he => hm he.1⟩
    · obtain ⟨hmem, hne⟩ := List.mem_filter.mp hj
      exact ⟨⟨l₀, hl₀, hmem⟩, fun he => by simp [he.2] at hne⟩
  · rintro ⟨⟨l, hl, hj⟩, hother⟩
    rw [releaseHeld]
    cases hk : held k with
    | none => exact ⟨l, hl, hj⟩
    | some l₀ =>
      by_cases hm : m = k
      · subst hm
        rw [hl] at hk
        rw [← Option.some.inj hk]
        have hrest : j ∈ l.filter (· ≠ i) := by
          rw [List.mem_filter]
          exact ⟨hj, by simpa using fun he => hother ⟨rfl, he⟩⟩
        exact ⟨l.filter (· ≠ i), by
          simp only [Function.update_self, if_neg (List.ne_nil_of_mem hrest)], hrest⟩
      · exact ⟨l, by simp only [Function.update_of_ne hm, hl], hj⟩

/-- A holder gives up an item that no other holder has. -/
theorem Agree.release (h : Agree capacity holder held)
    (hown : ∀ m, holder i = some m → m = k) :
    Agree capacity (fun j => if j = i then none else holder j) (releaseHeld held i k) where
  holder_iff j m := by
    rw [mem_releaseHeld, ← h.holder_iff]
    by_cases hj : j = i
    · subst hj
      rw [if_pos rfl]
      exact ⟨fun he => (by cases he), fun ⟨hm, hne⟩ => absurd ⟨hown m hm, rfl⟩ hne⟩
    · rw [if_neg hj]
      exact ⟨fun he => ⟨he, fun hne => hj hne.2⟩, fun he => he.1⟩
  nonempty m hm := by
    rcases releaseHeld_some hm with ⟨hold, -⟩ | ⟨-, _, -, -, hne⟩
    · exact h.nonempty m hold
    · exact hne rfl
  nodup m l hl := by
    rcases releaseHeld_some hl with ⟨hold, -⟩ | ⟨-, l₀, hl₀, rfl, -⟩
    · exact h.nodup m l hold
    · exact (h.nodup k l₀ hl₀).filter _
  bounded m l hl := by
    rcases releaseHeld_some hl with ⟨hold, -⟩ | ⟨-, l₀, hl₀, rfl, -⟩
    · exact h.bounded m l hold
    · exact Nat.le_trans (List.length_filter_le ..) (h.bounded k l₀ hl₀)

/-- A holder gives up all its items. -/
theorem Agree.drop (h : Agree capacity holder held) (k : κ) :
    Agree capacity (fun i => if i ∈ (held k).getD [] then none else holder i)
      (fun m => if m = k then none else held m) where
  holder_iff i m := by
    by_cases hi : i ∈ (held k).getD []
    · rw [if_pos hi]
      refine ⟨fun he => (by cases he), fun ⟨l, hl, hmem⟩ => ?_⟩
      split at hl
      · cases hl
      · next hm =>
        have hheld := (h.holder_iff i m).mpr ⟨l, hl, hmem⟩
        rw [h.mem_getD.mp hi] at hheld
        exact absurd (Option.some.inj hheld).symm hm
    · rw [if_neg hi, h.holder_iff]
      constructor
      · rintro ⟨l, hl, hmem⟩
        have hm : m ≠ k := by
          intro he
          rw [he] at hl
          rw [getD_of_some hl] at hi
          exact hi hmem
        exact ⟨l, by rw [if_neg hm]; exact hl, hmem⟩
      · rintro ⟨l, hl, hmem⟩
        split at hl
        · cases hl
        · exact ⟨l, hl, hmem⟩
  nonempty m := by
    split
    · exact fun he => (by cases he)
    · exact h.nonempty m
  nodup m l hl := by
    split at hl
    · cases hl
    · exact h.nodup m l hl
  bounded m l hl := by
    split at hl
    · cases hl
    · exact h.bounded m l hl

end SlotMaps

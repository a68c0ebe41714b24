import Mathlib.Data.List.Chain

/-!
# Numbered streams with markers

A stream of items of which some carry a number and the others are markers. The stream is gapless
where two neighbours that both carry a number carry consecutive ones: a marker ends one stretch of
numbers and begins another.

## Main results

* `Gapless.snoc`, `Gapless.drop_front` — a stream grows at its end and loses items at its front.
* `consecutive_iff` — numbers each the successor of the one before are a range.
-/

namespace Gapless

variable {α : Type*} {number? : α → Option ℕ} {l l₁ l₂ : List α} {a b : α}

/-- Where both carry a number, the second is the successor of the first. -/
def Follows (number? : α → Option ℕ) (a b : α) : Prop :=
  ∀ m n, number? a = some m → number? b = some n → n = m + 1

end Gapless

/-- Neighbours that carry numbers carry consecutive ones. -/
def Gapless {α : Type*} (number? : α → Option ℕ) (l : List α) : Prop :=
  l.IsChain (Gapless.Follows number?)

/-- Each number is the successor of the one before. -/
def Consecutive (l : List ℕ) : Prop := l.IsChain fun m n => n = m + 1

namespace Gapless

variable {α : Type*} {number? : α → Option ℕ} {l l₁ l₂ : List α} {a b : α}

theorem Follows.of_marker_left (h : number? a = none) : Follows number? a b := by
  intro m n ha _
  rw [h] at ha
  cases ha

theorem Follows.of_marker_right (h : number? b = none) : Follows number? a b := by
  intro m n _ hb
  rw [h] at hb
  cases hb

/-! ## Growing and shrinking -/

theorem left (h : Gapless number? (l₁ ++ l₂)) : Gapless number? l₁ :=
  List.IsChain.left_of_append h

theorem right (h : Gapless number? (l₁ ++ l₂)) : Gapless number? l₂ :=
  List.IsChain.right_of_append h

theorem append (h₁ : Gapless number? l₁) (h₂ : Gapless number? l₂)
    (hjoin : ∀ a ∈ l₁.getLast?, ∀ b ∈ l₂.head?, Follows number? a b) : Gapless number? (l₁ ++ l₂) :=
  List.isChain_append.mpr ⟨h₁, h₂, hjoin⟩

/-- What comes next may be put at the end. -/
theorem snoc (h : Gapless number? l) (hnext : ∀ a ∈ l.getLast?, Follows number? a b) :
    Gapless number? (l ++ [b]) := by
  refine h.append (List.isChain_singleton b) fun a ha c hc => ?_
  rw [List.head?_cons, Option.mem_some_iff] at hc
  exact hc ▸ hnext a ha

/-- A marker may be put at the end. -/
theorem snoc_marker (h : Gapless number? l) (hb : number? b = none) : Gapless number? (l ++ [b]) :=
  h.snoc fun _ _ => Follows.of_marker_right hb

/-- A marker may stand between two streams. -/
theorem append_marker (h₁ : Gapless number? l₁) (hb : number? b = none)
    (h₂ : Gapless number? l₂) : Gapless number? (l₁ ++ [b] ++ l₂) := by
  refine (h₁.snoc_marker hb).append h₂ fun a ha _ _ => ?_
  rw [List.getLast?_concat, Option.mem_some_iff] at ha
  exact Follows.of_marker_left (ha ▸ hb)

/-- The first item after a stretch may be left out where no number comes after it, or none comes
before it. -/
theorem drop_front {x : α} (h : Gapless number? (l₁ ++ x :: l₂))
    (hdrop : l₁ = [] ∨ ∀ b ∈ l₂.head?, number? b = none) : Gapless number? (l₁ ++ l₂) := by
  have htail : Gapless number? l₂ := List.IsChain.tail h.right
  rcases hdrop with rfl | hmarker
  · exact htail
  · exact h.left.append htail fun a _ b hb => Follows.of_marker_right (hmarker b hb)

/-- The numbers of a stream without markers are consecutive. -/
theorem consecutive {fn : α → ℕ} (h : Gapless number? l)
    (hnumber : ∀ a ∈ l, number? a = some (fn a)) : Consecutive (l.map fn) := by
  induction l with
  | nil => exact List.isChain_nil
  | cons a l ih =>
    have hrest := ih (List.IsChain.tail h) fun b hb => hnumber b (List.mem_cons_of_mem _ hb)
    cases l with
    | nil => exact List.isChain_singleton _
    | cons b l =>
      refine List.isChain_cons_cons.mpr ⟨?_, hrest⟩
      exact (List.isChain_cons_cons.mp h).1 _ _ (hnumber a List.mem_cons_self)
        (hnumber b (List.mem_cons_of_mem _ List.mem_cons_self))

end Gapless

/-- Numbers each the successor of the one before are a range. -/
theorem consecutive_iff {l : List ℕ} : Consecutive l ↔ ∃ start, l = List.range' start l.length := by
  constructor
  · intro h
    induction l with
    | nil => exact ⟨0, rfl⟩
    | cons n l ih =>
      refine ⟨n, ?_⟩
      obtain ⟨start, hl⟩ := ih (List.IsChain.tail h)
      cases l with
      | nil => rfl
      | cons m l =>
        have hnext := (List.isChain_cons_cons.mp h).1
        have hstart : start = m := by
          rw [List.length_cons, List.range'_succ] at hl
          exact (List.cons.inj hl).1.symm
        rw [hstart] at hl
        show n :: m :: l = List.range' n ((m :: l).length + 1)
        rw [List.range'_succ, ← hnext, ← hl]
  · rintro ⟨start, hl⟩
    rw [hl]
    generalize l.length = k
    clear hl
    induction k generalizing start with
    | zero => exact List.isChain_nil
    | succ k ih =>
      rw [List.range'_succ]
      refine List.isChain_cons.mpr ⟨fun m hm => ?_, ih (start + 1)⟩
      cases k with
      | zero => cases hm
      | succ k =>
        rw [List.range'_succ, List.head?_cons, Option.mem_some_iff] at hm
        exact hm.symm

import Mathlib.Data.List.Infix

/-!
# A text that arrives in pieces and as a whole

A stream brings the pieces of a text and, now and then, what it takes for the whole of it. Whoever
passes the stream on shows each piece, and of a whole only what is missing, if what was shown is a
beginning of it. The result is the last whole, or what was shown where there was none.

## Main results

* `SpelledStream.result_eq_shown_iff` — when the result is what was shown.
-/

namespace SpelledStream

variable {α : Type*}

/-- A piece of the text, or a whole. -/
inductive Piece (α : Type*)
  | more (xs : List α)
  | whole (xs : List α)
  deriving DecidableEq, Repr

/-- What was shown after one more piece. -/
def push [DecidableEq α] (shown : List α) : Piece α → List α
  | .more xs => shown ++ xs
  | .whole xs => if shown <+: xs then xs else shown

/-- What is shown of a stream. -/
def shownAfter [DecidableEq α] (shown : List α) (ps : List (Piece α)) : List α := ps.foldl push shown

/-- The last whole of a stream. -/
def lastWhole : List (Piece α) → Option (List α)
  | [] => none
  | .more _ :: ps => lastWhole ps
  | .whole xs :: ps => some ((lastWhole ps).getD xs)

/-- The result. -/
def result [DecidableEq α] (ps : List (Piece α)) : List α := (lastWhole ps).getD (shownAfter [] ps)

/-- After `shown`, the pieces spell a beginning of `t`: each piece goes on as `t` does, and each
whole that `shown` begins is a beginning of `t`. -/
def Spells (t : List α) : List α → List (Piece α) → Prop
  | shown, [] => shown <+: t
  | shown, .more xs :: ps => shown ++ xs <+: t ∧ Spells t (shown ++ xs) ps
  | shown, .whole xs :: ps =>
    (shown <+: xs → xs <+: t ∧ Spells t xs ps) ∧ (¬shown <+: xs → Spells t shown ps)

/-- The pieces are none but empty ones. -/
def Silent (ps : List (Piece α)) : Prop := ∀ p ∈ ps, p = .more []

variable {t shown : List α} {ps before after : List (Piece α)}

/-! ## The last whole -/

theorem lastWhole_eq_none_iff : lastWhole ps = none ↔ ∀ xs, .whole xs ∉ ps := by
  induction ps with
  | nil => simp [lastWhole]
  | cons p ps ih =>
    cases p with
    | more xs => simp [lastWhole, ih]
    | whole xs =>
      refine iff_of_false (by simp [lastWhole]) fun h => h xs List.mem_cons_self

theorem lastWhole_append_whole (t : List α) (h : lastWhole after = none) :
    lastWhole (before ++ .whole t :: after) = some t := by
  induction before with
  | nil => simp [lastWhole, h]
  | cons p ps ih =>
    cases p with
    | more xs => exact ih
    | whole xs =>
      show some ((lastWhole (ps ++ .whole t :: after)).getD xs) = some t
      rw [ih]
      rfl

/-- A stream with a whole is split at the last one. -/
theorem exists_lastWhole (h : lastWhole ps = some t) :
    ∃ before after, ps = before ++ .whole t :: after ∧ lastWhole after = none := by
  induction ps with
  | nil => cases h
  | cons p ps ih =>
    cases p with
    | more xs =>
      obtain ⟨before, after, rfl, hafter⟩ := ih h
      exact ⟨.more xs :: before, after, rfl, hafter⟩
    | whole xs =>
      cases hlast : lastWhole ps with
      | none =>
        have heq : some ((lastWhole ps).getD xs) = some t := h
        rw [hlast] at heq
        obtain rfl : xs = t := Option.some.inj heq
        exact ⟨[], ps, rfl, hlast⟩
      | some u =>
        have heq : some ((lastWhole ps).getD xs) = some t := h
        rw [hlast] at heq
        obtain rfl : u = t := Option.some.inj heq
        obtain ⟨before, after, rfl, hafter⟩ := ih hlast
        exact ⟨.whole xs :: before, after, rfl, hafter⟩

/-! ## What is shown only grows -/

variable [DecidableEq α]

theorem prefix_push (shown : List α) (p : Piece α) : shown <+: push shown p := by
  cases p with
  | more xs => exact List.prefix_append _ _
  | whole xs =>
    show shown <+: if shown <+: xs then xs else shown
    split
    · assumption
    · exact List.prefix_rfl

theorem prefix_shownAfter (shown : List α) (ps : List (Piece α)) :
    shown <+: shownAfter shown ps := by
  induction ps generalizing shown with
  | nil => exact List.prefix_rfl
  | cons p ps ih => exact (prefix_push shown p).trans (ih _)

@[simp] theorem shownAfter_append (shown : List α) (ps qs : List (Piece α)) :
    shownAfter shown (ps ++ qs) = shownAfter (shownAfter shown ps) qs := List.foldl_append

theorem shownAfter_of_silent (h : Silent ps) : shownAfter shown ps = shown := by
  induction ps with
  | nil => rfl
  | cons p ps ih =>
    obtain ⟨rfl, hps⟩ := List.forall_mem_cons.mp h
    show shownAfter (shown ++ []) ps = shown
    rw [List.append_nil]
    exact ih hps

/-- To spell a beginning of a text is to show one. -/
theorem spells_iff (t shown : List α) (ps : List (Piece α)) :
    Spells t shown ps ↔ shownAfter shown ps <+: t := by
  induction ps generalizing shown with
  | nil => exact Iff.rfl
  | cons p ps ih =>
    have hgrow : shownAfter (push shown p) ps <+: t → push shown p <+: t :=
      (prefix_shownAfter (push shown p) ps).trans
    cases p with
    | more xs =>
      show (shown ++ xs <+: t ∧ Spells t (shown ++ xs) ps) ↔ shownAfter (shown ++ xs) ps <+: t
      rw [ih]
      exact and_iff_right_of_imp hgrow
    | whole xs =>
      show ((shown <+: xs → xs <+: t ∧ Spells t xs ps) ∧ (¬shown <+: xs → Spells t shown ps)) ↔
        shownAfter (push shown (.whole xs)) ps <+: t
      by_cases hpre : shown <+: xs
      · have hpush : push shown (.whole xs) = xs := if_pos hpre
        rw [hpush] at hgrow ⊢
        rw [ih]
        exact ⟨fun h => (h.1 hpre).2, fun h => ⟨fun _ => ⟨hgrow h, h⟩, fun hno => absurd hpre hno⟩⟩
      · have hpush : push shown (.whole xs) = shown := if_neg hpre
        rw [hpush, ← ih]
        exact ⟨fun h => h.2 hpre, fun h => ⟨fun hyes => absurd hyes hpre, fun _ => h⟩⟩

/-- A stream without wholes that shows nothing more is silent. -/
theorem silent_of_shownAfter (hnone : lastWhole ps = none) (h : shownAfter shown ps = shown) :
    Silent ps := by
  induction ps generalizing shown with
  | nil => exact fun _ hp => absurd hp List.not_mem_nil
  | cons p ps ih =>
    cases p with
    | whole xs => cases hnone
    | more xs =>
      have hshown : shownAfter (shown ++ xs) ps = shown := h
      have hpre := prefix_shownAfter (shown ++ xs) ps
      rw [hshown] at hpre
      have hlength := hpre.length_le
      rw [List.length_append] at hlength
      obtain rfl : xs = [] := List.length_eq_zero_iff.mp (by omega)
      rw [List.append_nil] at hshown
      exact List.forall_mem_cons.mpr ⟨rfl, ih hnone hshown⟩

/-- **The result is what was shown exactly if the stream has no whole, or its last one is spelled by
what comes before, and nothing comes after.** -/
theorem result_eq_shown_iff (ps : List (Piece α)) :
    result ps = shownAfter [] ps ↔
      ∀ before t after, ps = before ++ .whole t :: after → lastWhole after = none →
        Spells t [] before ∧ Silent after := by
  cases hlast : lastWhole ps with
  | none =>
    refine iff_of_true (by rw [result, hlast]; rfl) fun before t after heq _ => ?_
    have hno := lastWhole_eq_none_iff.mp hlast t
    rw [heq] at hno
    exact absurd (List.mem_append_right _ List.mem_cons_self) hno
  | some t =>
    rw [result, hlast, Option.getD_some]
    constructor
    · intro hshown before u after heq hafter
      have hu : some t = some u := by
        rw [← hlast, heq]
        exact lastWhole_append_whole u hafter
      obtain rfl := Option.some.inj hu
      -- the last whole is the whole of what is shown
      have hsplit : t = shownAfter (push (shownAfter [] before) (.whole t)) after := by
        refine hshown.trans ?_
        rw [heq, shownAfter_append]
        rfl
      have hpre : push (shownAfter [] before) (.whole t) <+: t :=
        (prefix_shownAfter _ after).trans (by rw [← hsplit])
      have hbegin : shownAfter [] before <+: t := (prefix_push _ _).trans hpre
      have hpush : push (shownAfter [] before) (.whole t) = t := if_pos hbegin
      rw [hpush] at hsplit
      exact ⟨(spells_iff _ _ _).mpr hbegin, silent_of_shownAfter hafter hsplit.symm⟩
    · intro h
      obtain ⟨before, after, rfl, hafter⟩ := exists_lastWhole hlast
      obtain ⟨hspells, hsilent⟩ := h before t after rfl hafter
      have hpush : push (shownAfter [] before) (.whole t) = t :=
        if_pos ((spells_iff _ _ _).mp hspells)
      rw [shownAfter_append]
      show t = shownAfter (push (shownAfter [] before) (.whole t)) after
      rw [hpush, shownAfter_of_silent hsilent]

end SpelledStream

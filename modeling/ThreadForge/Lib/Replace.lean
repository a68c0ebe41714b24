import ThreadForge.Lib.PyString
import Mathlib.Data.List.Infix

/-!
# Finding and replacing a text

Facts on `find` and `replace` in terms of where a text occurs: `<:+:` says that it occurs. A
replacement goes from the first occurrence to the first one in what is left, so that everything about
it follows from the two equations `replaceAll_of_absent` and `replaceAll_first`.
-/

namespace PyChars

variable {sep old new cs u v : List Char}

/-! ## The first occurrence -/

/-- `sep` does not end before the end of `u ++ sep`. -/
def EndsFirst (sep u : List Char) : Prop := ¬sep <:+: u ++ sep.dropLast

theorem EndsFirst.of_cons {c : Char} (h : EndsFirst sep (c :: u)) : EndsFirst sep u :=
  fun hpart => h (List.infix_cons hpart)

theorem length_dropLast_lt (hne : sep ≠ []) : sep.dropLast.length < sep.length := by
  rw [List.length_dropLast]
  have hpos := List.length_pos_iff.mpr hne
  omega

theorem breakAt_eq_none_iff (hne : sep ≠ []) : breakAt sep cs = none ↔ ¬sep <:+: cs := by
  induction cs with
  | nil =>
    cases sep with
    | nil => exact absurd rfl hne
    | cons c sep => simp [breakAt_nil]
  | cons c cs ih =>
    rw [breakAt_cons, List.infix_cons_iff, not_or, ← ih]
    by_cases hstart : sep <+: c :: cs
    · rw [if_pos (List.isPrefixOf_iff_prefix.mpr hstart)]
      simp [hstart]
    · rw [if_neg fun hyes => hstart (List.isPrefixOf_iff_prefix.mp hyes), Option.map_eq_none_iff]
      simp [hstart]

theorem breakAt_of_endsFirst (hne : sep ≠ []) (hfirst : EndsFirst sep u) :
    breakAt sep (u ++ sep ++ v) = some (u, v) := by
  induction u with
  | nil =>
    cases sep with
    | nil => exact absurd rfl hne
    | cons c sep =>
      rw [List.nil_append, List.cons_append, breakAt_cons, ← List.cons_append,
        if_pos (List.isPrefixOf_iff_prefix.mpr (List.prefix_append _ _)), List.drop_left]
  | cons c u ih =>
    have hnot : ¬sep <+: c :: (u ++ sep ++ v) := by
      intro hstart
      refine hfirst (List.IsPrefix.isInfix ?_)
      have hwhole : c :: u ++ sep.dropLast <+: c :: (u ++ sep ++ v) := by
        rw [List.cons_append, List.cons_prefix_cons, List.append_assoc, List.prefix_append_right_inj]
        exact ⟨rfl, (List.dropLast_prefix sep).trans (List.prefix_append _ _)⟩
      refine List.prefix_of_prefix_length_le hstart hwhole ?_
      rw [List.length_append, List.length_cons, List.length_dropLast]
      omega
    rw [List.cons_append, List.cons_append, breakAt_cons,
      if_neg fun hyes => hnot (List.isPrefixOf_iff_prefix.mp hyes), ih hfirst.of_cons]
    rfl

theorem breakAt_eq_some (hne : sep ≠ []) (h : breakAt sep cs = some (u, v)) :
    cs = u ++ sep ++ v ∧ EndsFirst sep u := by
  induction cs generalizing u with
  | nil =>
    cases sep with
    | nil => exact absurd rfl hne
    | cons c sep => simp [breakAt_nil] at h
  | cons c cs ih =>
    rw [breakAt_cons] at h
    split at h
    · next hstart =>
      obtain ⟨rest, hrest⟩ := List.isPrefixOf_iff_prefix.mp hstart
      cases h
      refine ⟨?_, fun hpart => ?_⟩
      · rw [← hrest, List.nil_append, List.drop_left]
      · have hle := hpart.length_le
        have hlt := length_dropLast_lt hne
        rw [List.nil_append] at hle
        omega
    · next hnot =>
      obtain ⟨⟨u', v'⟩, hbreak, hparts⟩ := Option.map_eq_some_iff.mp h
      cases hparts
      obtain ⟨heq, hfirst⟩ := ih hbreak
      refine ⟨by rw [heq]; rfl, fun hpart => ?_⟩
      rcases List.infix_cons_iff.mp hpart with hstart | hlater
      · refine hnot (List.isPrefixOf_iff_prefix.mpr (hstart.trans ?_))
        rw [heq]
        show c :: (u' ++ sep.dropLast) <+: c :: (u' ++ sep ++ v')
        rw [List.cons_prefix_cons, List.append_assoc, List.prefix_append_right_inj]
        exact ⟨rfl, (List.dropLast_prefix sep).trans (List.prefix_append _ _)⟩
      · exact hfirst hlater

/-- A text that occurs has a first occurrence. -/
theorem exists_endsFirst (hne : sep ≠ []) (h : sep <:+: cs) :
    ∃ u v, cs = u ++ sep ++ v ∧ EndsFirst sep u := by
  cases hbreak : breakAt sep cs with
  | none => exact absurd h ((breakAt_eq_none_iff hne).mp hbreak)
  | some parts => exact ⟨parts.1, parts.2, breakAt_eq_some hne hbreak⟩

/-! ## Replacing -/

theorem replaceAll_skip (skip : Nat) (cs : List Char) :
    replaceAll old new skip cs = replaceAll old new 0 (cs.drop skip) := by
  induction skip generalizing cs with
  | zero => rfl
  | succ skip ih =>
    cases cs with
    | nil => simp [replaceAll]
    | cons c cs => rw [replaceAll, ih, List.drop_succ_cons]

theorem replaceAll_cons_of_not_prefix {c : Char} (h : ¬old <+: c :: cs) :
    replaceAll old new 0 (c :: cs) = c :: replaceAll old new 0 cs := by
  rw [replaceAll, if_neg fun hyes => h (List.isPrefixOf_iff_prefix.mp hyes)]

theorem replaceAll_append_self (hne : old ≠ []) :
    replaceAll old new 0 (old ++ v) = new ++ replaceAll old new 0 v := by
  cases old with
  | nil => exact absurd rfl hne
  | cons c old =>
    rw [List.cons_append, replaceAll, ← List.cons_append,
      if_pos (List.isPrefixOf_iff_prefix.mpr (List.prefix_append _ _)), replaceAll_skip]
    rw [List.length_cons, Nat.add_sub_cancel, List.drop_left]

/-- Before the first occurrence none begins. -/
theorem EndsFirst.not_prefix (hfirst : EndsFirst old u) (v : List Char) :
    ∀ x y, u = x ++ y → y ≠ [] → ¬old <+: y ++ (old ++ v) := by
  intro x y heq hy hstart
  refine hfirst ?_
  rw [heq, List.append_assoc]
  refine List.infix_append_of_infix_right (List.IsPrefix.isInfix ?_)
  have hwhole : y ++ old.dropLast <+: y ++ (old ++ v) := by
    rw [List.prefix_append_right_inj]
    exact (List.dropLast_prefix old).trans (List.prefix_append _ _)
  refine List.prefix_of_prefix_length_le hstart hwhole ?_
  have hpos := List.length_pos_iff.mpr hy
  rw [List.length_append, List.length_dropLast]
  omega

/-- What stands before every occurrence is left. -/
theorem replaceAll_append_of_later (h : ∀ x y, u = x ++ y → y ≠ [] → ¬old <+: y ++ v) :
    replaceAll old new 0 (u ++ v) = u ++ replaceAll old new 0 v := by
  induction u with
  | nil => rfl
  | cons c u ih =>
    have hnot : ¬old <+: c :: (u ++ v) := h [] (c :: u) rfl (List.cons_ne_nil c u)
    rw [List.cons_append, replaceAll_cons_of_not_prefix hnot, List.cons_append]
    rw [ih fun x y heq hy => h (c :: x) y (by rw [heq]; rfl) hy]

theorem replaceAll_of_absent (h : ¬old <:+: cs) : replaceAll old new 0 cs = cs := by
  have hlater : replaceAll old new 0 (cs ++ []) = cs ++ replaceAll old new 0 [] :=
    replaceAll_append_of_later ?_
  · rwa [List.append_nil, replaceAll, List.append_nil] at hlater
  · intro x y heq _ hstart
    rw [List.append_nil] at hstart
    exact h (heq ▸ hstart.isInfix.trans (List.suffix_append x y).isInfix)

/-- The first occurrence is replaced, and then those in the rest. -/
theorem replaceAll_first (hne : old ≠ []) (hfirst : EndsFirst old u) :
    replaceAll old new 0 (u ++ old ++ v) = u ++ new ++ replaceAll old new 0 v := by
  rw [List.append_assoc, replaceAll_append_of_later (hfirst.not_prefix v),
    replaceAll_append_self hne, List.append_assoc]

/-! ## Counting -/

theorem countOf_skip (skip : Nat) (cs : List Char) :
    countOf sep skip cs = countOf sep 0 (cs.drop skip) := by
  induction skip generalizing cs with
  | zero => rfl
  | succ skip ih =>
    cases cs with
    | nil => simp [countOf]
    | cons c cs => rw [countOf, ih, List.drop_succ_cons]

theorem countOf_append_of_later (h : ∀ x y, u = x ++ y → y ≠ [] → ¬sep <+: y ++ v) :
    countOf sep 0 (u ++ v) = countOf sep 0 v := by
  induction u with
  | nil => rfl
  | cons c u ih =>
    have hnot : ¬sep <+: c :: (u ++ v) := h [] (c :: u) rfl (List.cons_ne_nil c u)
    rw [List.cons_append, countOf, if_neg fun hyes => hnot (List.isPrefixOf_iff_prefix.mp hyes)]
    exact ih fun x y heq hy => h (c :: x) y (by rw [heq]; rfl) hy

/-- The first occurrence counts, and then those in the rest. -/
theorem countOf_first (hne : sep ≠ []) (hfirst : EndsFirst sep u) :
    countOf sep 0 (u ++ sep ++ v) = 1 + countOf sep 0 v := by
  rw [List.append_assoc, countOf_append_of_later (hfirst.not_prefix v)]
  cases sep with
  | nil => exact absurd rfl hne
  | cons c sep =>
    rw [List.cons_append, countOf, ← List.cons_append,
      if_pos (List.isPrefixOf_iff_prefix.mpr (List.prefix_append _ _)), countOf_skip]
    rw [List.length_cons, Nat.add_sub_cancel, List.drop_left]

theorem countOf_eq_zero_iff (hne : sep ≠ []) : countOf sep 0 cs = 0 ↔ ¬sep <:+: cs := by
  constructor
  · intro h hpart
    obtain ⟨u, v, rfl, hfirst⟩ := exists_endsFirst hne hpart
    rw [countOf_first hne hfirst] at h
    omega
  · intro h
    have hlater : countOf sep 0 (cs ++ []) = countOf sep 0 [] := by
      refine countOf_append_of_later fun x y heq _ hstart => ?_
      rw [List.append_nil] at hstart
      exact h (heq ▸ hstart.isInfix.trans (List.suffix_append x y).isInfix)
    rwa [List.append_nil] at hlater

/-- A text that counts once: its first occurrence has no other one behind it. -/
theorem countOf_eq_one_iff (hne : sep ≠ []) :
    countOf sep 0 cs = 1 ↔ ∃ u v, cs = u ++ sep ++ v ∧ EndsFirst sep u ∧ ¬sep <:+: v := by
  constructor
  · intro h
    have hpart : sep <:+: cs := by
      by_contra hnot
      rw [(countOf_eq_zero_iff hne).mpr hnot] at h
      cases h
    obtain ⟨u, v, rfl, hfirst⟩ := exists_endsFirst hne hpart
    rw [countOf_first hne hfirst] at h
    exact ⟨u, v, rfl, hfirst, (countOf_eq_zero_iff hne).mp (by omega)⟩
  · rintro ⟨u, v, rfl, hfirst, hnot⟩
    rw [countOf_first hne hfirst, (countOf_eq_zero_iff hne).mpr hnot]

/-! ## Where a text occurs -/

/-- `sep` occurs in `cs` behind its first `n` characters. -/
def OccursAt (sep cs : List Char) (n : Nat) : Prop := ∃ u v, cs = u ++ sep ++ v ∧ u.length = n

/-- No occurrence comes before the first one. -/
theorem EndsFirst.le_of_occursAt (hfirst : EndsFirst sep u) {n : Nat}
    (h : OccursAt sep (u ++ sep ++ v) n) : u.length ≤ n := by
  obtain ⟨x, y, heq, rfl⟩ := h
  rw [List.append_assoc, List.append_assoc] at heq
  rcases List.append_eq_append_iff.mp heq with ⟨z, hx, -⟩ | ⟨z, hu, hsep⟩
  · rw [hx, List.length_append]
    omega
  · by_cases hz : z = []
    · rw [hu, hz, List.append_nil]
    · refine absurd ⟨y, ?_⟩ (hfirst.not_prefix v x z hu hz)
      exact hsep

/-- Two occurrences overlap. -/
def Overlap (sep cs : List Char) : Prop :=
  ∃ m n, OccursAt sep cs m ∧ OccursAt sep cs n ∧ m < n ∧ n < m + sep.length

/-- A text that counts once stands in one place exactly if no two of its occurrences overlap. -/
theorem unique_iff_of_countOf (hne : sep ≠ []) (h : countOf sep 0 cs = 1) :
    (∃! n, OccursAt sep cs n) ↔ ¬Overlap sep cs := by
  obtain ⟨u, v, rfl, hfirst, hnot⟩ := (countOf_eq_one_iff hne).mp h
  have hthere : OccursAt sep (u ++ sep ++ v) u.length := ⟨u, v, rfl, rfl⟩
  constructor
  · rintro ⟨n, -, hunique⟩ ⟨i, j, hi, hj, hlt, -⟩
    rw [hunique i hi, hunique j hj] at hlt
    exact lt_irrefl _ hlt
  · intro hapart
    refine ⟨u.length, hthere, fun n hn => ?_⟩
    have hle := hfirst.le_of_occursAt hn
    by_contra hne'
    have hfar : u.length + sep.length ≤ n := by
      by_contra hnear
      exact hapart ⟨u.length, n, hthere, hn, by omega, by omega⟩
    -- then it stands behind the first one
    obtain ⟨x, y, heq, rfl⟩ := hn
    have hx : u ++ sep <+: x := by
      refine List.prefix_of_prefix_length_le (List.prefix_append (u ++ sep) v) ?_ ?_
      · rw [heq, List.append_assoc]
        exact List.prefix_append x _
      · rw [List.length_append]
        exact hfar
    obtain ⟨w, rfl⟩ := hx
    rw [List.append_assoc (u ++ sep), List.append_assoc (u ++ sep), List.append_cancel_left_eq]
      at heq
    exact hnot ⟨w, y, by rw [heq, List.append_assoc]⟩

end PyChars

import ThreadForge.Lib.Replace

/-!
# Looking for tags

`find` in a text that is put together from tags and from the texts between them. A mark starts with
an opening character that it does not have again; so it lies within one piece wherever every piece
behind a text starts with that character too.
-/

namespace PyChars

variable {o : Char} {m c p g s : List Char}

/-- A mark: an opening character, and others. -/
def IsMark (o : Char) (m : List Char) : Prop := ∃ rest, m = o :: rest ∧ o ∉ rest

/-- Nothing, or a text that starts with the opening character. -/
def Opens (o : Char) (c : List Char) : Prop := c = [] ∨ ∃ rest, c = o :: rest

theorem IsMark.ne_nil (hm : IsMark o m) : m ≠ [] := by
  obtain ⟨rest, rfl, -⟩ := hm
  exact List.cons_ne_nil _ _

theorem IsMark.opens (hm : IsMark o m) (c : List Char) : Opens o (m ++ c) := by
  obtain ⟨rest, rfl, -⟩ := hm
  exact Or.inr ⟨rest ++ c, rfl⟩

/-- A mark that starts in a text ends in it, where an opening character comes behind. -/
theorem IsMark.prefix_of_prefix_append {x : Char} (hm : IsMark o m) (hc : Opens o c)
    (h : m <+: x :: s ++ c) : m <+: x :: s := by
  obtain ⟨rest, rfl, hrest⟩ := hm
  rcases List.prefix_or_prefix_of_prefix h (List.prefix_append (x :: s) c) with hwithin | hacross
  · exact hwithin
  · obtain ⟨d, hd⟩ := hacross
    have hdc : d <+: c := by
      rw [← hd, List.prefix_append_right_inj] at h
      exact h
    cases d with
    | nil => rw [← hd, List.append_nil]
    | cons y d =>
      exfalso
      rcases hc with rfl | ⟨c', rfl⟩
      · exact absurd (List.prefix_nil.mp hdc) (List.cons_ne_nil _ _)
      · -- the mark would have its opening character again
        have hy : y = o := (List.cons_prefix_cons.mp hdc).1
        rw [hy, List.cons_append] at hd
        apply hrest
        rw [← (List.cons.inj hd).2]
        exact List.mem_append_right _ List.mem_cons_self

/-- The search for a mark goes through a text, and then through what comes behind. -/
theorem IsMark.breakAt_append (hm : IsMark o m) (hc : Opens o c) :
    ∀ s : List Char, breakAt m (s ++ c) = match breakAt m s with
      | some parts => some (parts.1, parts.2 ++ c)
      | none => (breakAt m c).map fun parts => (s ++ parts.1, parts.2)
  | [] => by
    have hnone : breakAt m [] = none := by
      rw [breakAt_nil, if_neg]
      obtain ⟨rest, rfl, -⟩ := hm
      exact Bool.false_ne_true
    rw [hnone, List.nil_append]
    rcases breakAt m c with _ | parts
    · rfl
    · rfl
  | x :: s => by
    have ih := hm.breakAt_append hc s
    rw [List.cons_append, breakAt_cons, breakAt_cons]
    by_cases hstart : m <+: x :: s
    · have hlonger : m <+: x :: (s ++ c) := hstart.trans (List.prefix_append (x :: s) c)
      rw [if_pos (List.isPrefixOf_iff_prefix.mpr hlonger),
        if_pos (List.isPrefixOf_iff_prefix.mpr hstart)]
      show some ([], (x :: s ++ c).drop m.length) = some ([], (x :: s).drop m.length ++ c)
      rw [List.drop_append_of_le_length hstart.length_le]
    · have hnot : ¬m <+: x :: (s ++ c) := fun h => hstart (hm.prefix_of_prefix_append hc h)
      rw [if_neg fun h => hnot (List.isPrefixOf_iff_prefix.mp h),
        if_neg fun h => hstart (List.isPrefixOf_iff_prefix.mp h), ih]
      rcases breakAt m s with _ | parts
      · rcases breakAt m c with _ | parts
        · rfl
        · rfl
      · rfl

/-- A text without the opening character is passed. -/
theorem IsMark.breakAt_pass (hm : IsMark o m) :
    ∀ {p : List Char}, o ∉ p →
      breakAt m (p ++ c) = (breakAt m c).map fun parts => (p ++ parts.1, parts.2)
  | [], _ => by
    rw [List.nil_append]
    rcases breakAt m c with _ | parts
    · rfl
    · rfl
  | x :: p, hp => by
    rw [List.mem_cons, not_or] at hp
    have hnot : ¬m <+: x :: (p ++ c) := by
      obtain ⟨rest, rfl, -⟩ := hm
      intro h
      exact hp.1 (List.cons_prefix_cons.mp h).1
    rw [List.cons_append, breakAt_cons, if_neg fun h => hnot (List.isPrefixOf_iff_prefix.mp h),
      hm.breakAt_pass hp.2]
    rcases breakAt m c with _ | parts
    · rfl
    · rfl

/-- Another mark is passed. -/
theorem IsMark.breakAt_other (hm : IsMark o m) (hg : IsMark o g) (hmg : ¬m <+: g)
    (hgm : ¬g <+: m) :
    breakAt m (g ++ c) = (breakAt m c).map fun parts => (g ++ parts.1, parts.2) := by
  have hnot : ¬m <+: g ++ c := by
    intro h
    rcases List.prefix_or_prefix_of_prefix h (List.prefix_append g c) with h' | h'
    · exact hmg h'
    · exact hgm h'
  obtain ⟨rest, rfl, hrest⟩ := hg
  rw [List.cons_append] at hnot ⊢
  rw [breakAt_cons, if_neg fun h => hnot (List.isPrefixOf_iff_prefix.mp h), hm.breakAt_pass hrest]
  rcases breakAt m c with _ | parts
  · rfl
  · rfl

/-- A mark is found where it stands. -/
theorem breakAt_self (hm : m ≠ []) (c : List Char) : breakAt m (m ++ c) = some ([], c) := by
  cases m with
  | nil => exact absurd rfl hm
  | cons x m =>
    rw [List.cons_append, breakAt_cons, ← List.cons_append,
      if_pos (List.isPrefixOf_iff_prefix.mpr (List.prefix_append _ _)), List.drop_left]

/-- A text is found behind one that ends with a character `q`, where neither has this character
before. -/
theorem breakAt_pass_closed {q : Char} {m₀ : List Char} (hm : q ∉ m₀) :
    ∀ {h : List Char}, q ∉ h → ¬m₀ <:+ h →
      breakAt (m₀ ++ [q]) (h ++ q :: c) =
        (breakAt (m₀ ++ [q]) c).map fun parts => (h ++ q :: parts.1, parts.2)
  | [], _, hsuffix => by
    cases m₀ with
    | nil => exact absurd (List.suffix_refl _) hsuffix
    | cons x m₀ =>
      have hnot : ¬x :: m₀ ++ [q] <+: q :: c := by
        intro h
        exact hm (by rw [(List.cons_prefix_cons.mp h).1]; exact List.mem_cons_self)
      rw [List.nil_append, breakAt_cons, if_neg fun h => hnot (List.isPrefixOf_iff_prefix.mp h)]
      rfl
  | x :: h, hq, hsuffix => by
    have hnot : ¬m₀ ++ [q] <+: x :: (h ++ q :: c) := by
      rintro ⟨d, hd⟩
      -- both texts have their first `q` behind `m₀`
      have hwhile : ∀ {a b : List Char}, q ∉ a → (a ++ q :: b).takeWhile (· ≠ q) = a := by
        intro a b ha
        have hpos : ∀ y ∈ a, decide (y ≠ q) = true :=
          fun y hy => decide_eq_true fun h : y = q => ha (h ▸ hy)
        rw [List.takeWhile_append_of_pos hpos, List.takeWhile_cons_of_neg (by simp),
          List.append_nil]
      have heq : m₀ = x :: h := by
        rw [← hwhile (b := d) hm, ← hwhile (b := c) hq]
        rw [List.append_assoc] at hd
        rw [List.cons_append, ← hd]
        rfl
      exact hsuffix (heq ▸ List.suffix_refl _)
    rw [List.cons_append, breakAt_cons, if_neg fun h => hnot (List.isPrefixOf_iff_prefix.mp h),
      breakAt_pass_closed hm (fun h => hq (List.mem_cons_of_mem _ h))
        (fun h => hsuffix (h.trans (List.suffix_cons _ _)))]
    rcases breakAt (m₀ ++ [q]) c with _ | parts
    · rfl
    · rfl

end PyChars

import ThreadForge.Lib.Replace

/-!
# Splitting at a character, and joining again

`split` at one character is `List.splitOn`, so that the parts joined with that character give the
text back, and the text that joins parts without it splits into them.
-/

namespace PyChars

variable {sep : Char}

theorem splitOn_eq_prepend (part cs : List Char) :
    splitOn sep part cs = cs.splitOnPPrepend (· == sep) part := by
  induction cs generalizing part with
  | nil => rfl
  | cons c cs ih =>
    rw [splitOn, List.splitOnPPrepend_cons_eq_if]
    by_cases hc : c = sep
    · rw [if_pos hc, if_pos (by rw [hc, beq_self_eq_true]), ih, List.splitOnPPrepend_nil_right]
    · rw [if_neg hc, if_neg (by rw [beq_iff_eq]; exact hc), ih]

theorem splitOn_eq (cs : List Char) : splitOn sep [] cs = cs.splitOn sep :=
  splitOn_eq_prepend [] cs

/-- No part has the separator. -/
theorem not_mem_of_mem_splitOn {cs part : List Char} (h : part ∈ cs.splitOn sep) : sep ∉ part := by
  induction cs generalizing part with
  | nil =>
    rw [List.splitOn_nil] at h
    rw [List.mem_singleton.mp h]
    exact List.not_mem_nil
  | cons c cs ih =>
    rw [List.splitOn_cons_eq_if_modifyHead] at h
    split at h
    · rcases List.mem_cons.mp h with rfl | hrest
      · exact List.not_mem_nil
      · exact ih hrest
    · next hc =>
      cases hparts : cs.splitOn sep with
      | nil => exact absurd hparts (List.splitOn_ne_nil _ _)
      | cons first rest =>
        rw [hparts] at h ih
        rcases List.mem_cons.mp h with rfl | hrest
        · intro hin
          rcases List.mem_cons.mp hin with rfl | hfirst
          · exact hc (beq_self_eq_true _)
          · exact ih List.mem_cons_self hfirst
        · exact ih (List.mem_cons_of_mem _ hrest)

/-- A text without the separator in front goes to the first part. -/
theorem splitOn_append_of_not_mem {front cs first : List Char} {rest : List (List Char)}
    (hfront : sep ∉ front) (h : cs.splitOn sep = first :: rest) :
    (front ++ cs).splitOn sep = (front ++ first) :: rest := by
  induction front with
  | nil => exact h
  | cons c front ih =>
    rw [List.mem_cons, not_or] at hfront
    rw [List.cons_append, List.splitOn_cons_eq_if_modifyHead, ih hfront.2,
      if_neg (by rw [beq_iff_eq]; exact fun heq => hfront.1 heq.symm)]
    rfl

/-- The last part ends as the text does. -/
theorem splitOn_concat {c : Char} (hc : c ≠ sep) :
    ∀ cs : List Char, ∃ init mid, (cs ++ [c]).splitOn sep = init ++ [mid ++ [c]]
  | [] => by
    refine ⟨[], [], ?_⟩
    rw [List.nil_append, List.splitOn_cons_eq_if_modifyHead,
      if_neg (by rw [beq_iff_eq]; exact hc), List.splitOn_nil]
    rfl
  | d :: cs => by
    obtain ⟨init, mid, h⟩ := splitOn_concat hc cs
    rw [List.cons_append, List.splitOn_cons_eq_if_modifyHead, h]
    split
    · exact ⟨[] :: init, mid, rfl⟩
    · cases init with
      | nil => exact ⟨[], d :: mid, rfl⟩
      | cons first init => exact ⟨(d :: first) :: init, mid, rfl⟩

/-- Leaving parts out makes the joined text no longer. -/
theorem length_intercalate_le {parts parts' : List (List Char)} (sep : List Char)
    (h : parts.Sublist parts') :
    (sep.intercalate parts).length ≤ (sep.intercalate parts').length := by
  induction h with
  | slnil => exact Nat.le_refl _
  | @cons kept whole part _ ih =>
    by_cases hwhole : whole = []
    · subst hwhole
      rw [List.intercalate_nil] at ih
      exact ih.trans (Nat.zero_le _)
    · rw [List.intercalate_cons_of_ne_nil hwhole, List.length_append, List.length_append]
      omega
  | @cons_cons kept whole part hsub ih =>
    by_cases hkept : kept = []
    · subst hkept
      by_cases hwhole : whole = []
      · rw [hwhole]
      · rw [List.intercalate_singleton, List.intercalate_cons_of_ne_nil hwhole,
          List.append_assoc, List.length_append]
        omega
    · have hwhole : whole ≠ [] := by
        rintro rfl
        exact hkept (List.sublist_nil.mp hsub)
      rw [List.intercalate_cons_of_ne_nil hkept, List.intercalate_cons_of_ne_nil hwhole]
      simp only [List.length_append]
      omega

end PyChars

/-! ## On strings -/

variable {sep : Char} {text part joint : String}

theorem pySplit_eq (text : String) (sep : Char) :
    pySplit text sep = (text.toList.splitOn sep).map String.ofList := by
  rw [pySplit, PyChars.splitOn_eq]

theorem pySplit_ne_nil : pySplit text sep ≠ [] := by
  rw [pySplit_eq]
  exact fun h => List.splitOn_ne_nil sep text.toList (List.map_eq_nil_iff.mp h)

theorem not_mem_of_mem_pySplit (h : part ∈ pySplit text sep) : sep ∉ part.toList := by
  rw [pySplit_eq] at h
  obtain ⟨cs, hcs, rfl⟩ := List.mem_map.mp h
  rw [String.toList_ofList]
  exact PyChars.not_mem_of_mem_splitOn hcs

theorem map_toList_pySplit : (pySplit text sep).map String.toList = text.toList.splitOn sep := by
  rw [pySplit_eq, List.map_map]
  refine (List.map_congr_left fun cs _ => ?_).trans (List.map_id _)
  exact String.toList_ofList

/-- The parts give the text back. -/
theorem intercalate_pySplit (hjoint : joint.toList = [sep]) :
    joint.intercalate (pySplit text sep) = text := by
  refine String.toList_inj.mp ?_
  rw [String.toList_intercalate, hjoint, map_toList_pySplit, List.intercalate_splitOn]

/-- A text joined of parts without the separator splits into them. -/
theorem pySplit_intercalate {parts : List String} (hjoint : joint.toList = [sep])
    (hne : parts ≠ []) (h : ∀ part ∈ parts, sep ∉ part.toList) :
    pySplit (joint.intercalate parts) sep = parts := by
  have hparts : ∀ cs ∈ parts.map String.toList, sep ∉ cs := by
    intro cs hcs
    obtain ⟨part, hpart, rfl⟩ := List.mem_map.mp hcs
    exact h part hpart
  rw [pySplit_eq, String.toList_intercalate, hjoint, List.splitOn_intercalate sep hparts
    fun hnil => hne (List.map_eq_nil_iff.mp hnil), List.map_map]
  refine (List.map_congr_left fun part _ => ?_).trans (List.map_id _)
  exact String.ofList_toList

/-- A text with the separator behind its first part. -/
theorem pySplit_append {rest : List Char} (htext : text.toList = part.toList ++ sep :: rest)
    (hpart : sep ∉ part.toList) :
    pySplit text sep = part :: pySplit (String.ofList rest) sep := by
  rw [pySplit_eq, htext, List.splitOn_append_cons_self_of_not_mem hpart, List.map_cons,
    String.ofList_toList, pySplit_eq, String.toList_ofList]

/-- The characters of the parts are those of the text. -/
theorem mem_toList_of_mem_pySplit {c : Char} (h : part ∈ pySplit text sep) (hc : c ∈ part.toList) :
    c ∈ text.toList := by
  have hjoint : (String.singleton sep).toList = [sep] := String.toList_singleton sep
  have htext := congrArg String.toList
    (intercalate_pySplit hjoint : _ = text)
  rw [String.toList_intercalate] at htext
  rw [← htext]
  obtain ⟨before, after, hsplit⟩ := List.append_of_mem h
  rw [hsplit, List.map_append, List.map_cons]
  clear htext hsplit h
  induction before with
  | nil =>
    rw [List.map_nil, List.nil_append]
    by_cases hafter : after.map String.toList = []
    · rw [hafter, List.intercalate_singleton]
      exact hc
    · rw [List.intercalate_cons_of_ne_nil hafter, List.append_assoc]
      exact List.mem_append_left _ hc
  | cons first before ih =>
    rw [List.map_cons, List.cons_append, List.intercalate_cons_of_ne_nil (by simp)]
    exact List.mem_append_right _ ih

/-- The characters of a joined text. -/
theorem mem_toList_intercalate {parts : List String} {c : Char}
    (h : c ∈ (joint.intercalate parts).toList) :
    c ∈ joint.toList ∨ ∃ part ∈ parts, c ∈ part.toList := by
  induction parts with
  | nil =>
    rw [String.intercalate_nil] at h
    exact absurd h List.not_mem_nil
  | cons part rest ih =>
    have hpart : c ∈ part.toList → c ∈ joint.toList ∨ ∃ part' ∈ part :: rest, c ∈ part'.toList :=
      fun hin => Or.inr ⟨part, List.mem_cons_self, hin⟩
    by_cases hrest : rest = []
    · rw [hrest, String.intercalate_singleton] at h
      exact hpart h
    · rw [String.intercalate_cons_of_ne_nil hrest, String.toList_append, String.toList_append] at h
      rcases List.mem_append.mp h with hfront | hlater
      · rcases List.mem_append.mp hfront with hin | hjoint
        · exact hpart hin
        · exact Or.inl hjoint
      · rcases ih hlater with hjoint | ⟨other, hother, hin⟩
        · exact Or.inl hjoint
        · exact Or.inr ⟨other, List.mem_cons_of_mem _ hother, hin⟩

/-- Leaving parts out makes the joined text no longer. -/
theorem length_intercalate_le {parts parts' : List String} (h : parts.Sublist parts') :
    (joint.intercalate parts).length ≤ (joint.intercalate parts').length := by
  rw [← String.length_toList, ← String.length_toList, String.toList_intercalate,
    String.toList_intercalate]
  exact PyChars.length_intercalate_le _ (h.map _)

import ThreadForge.Lib.PyString
import Mathlib.Data.List.DropRight

/-!
# Stripping and cutting texts

`strip` and `clip` of a text. A text that was stripped is stripped (`pyStrip_pyStrip`). Cutting adds a
notice behind the limit.
-/

section Strip

variable {txt : PyText}

/-- Dropping blanks stops at a character that is none. -/
theorem dropWhile_append_solid {p : Char → Bool} {a : Char} (ha : p a = false) (tail : List Char) :
    ∀ cs : List Char, ∃ cs', (cs ++ a :: tail).dropWhile p = cs' ++ a :: tail ∧ cs' <:+ cs
  | [] => ⟨[], List.dropWhile_cons_of_neg (by simp [ha]), List.suffix_refl _⟩
  | c :: cs => by
    by_cases hc : p c = true
    · obtain ⟨cs', heq, hsuffix⟩ := dropWhile_append_solid ha tail cs
      refine ⟨cs', ?_, hsuffix.trans (List.suffix_cons c cs)⟩
      rw [List.cons_append, List.dropWhile_cons_of_pos hc, heq]
    · exact ⟨c :: cs, List.dropWhile_cons_of_neg hc, List.suffix_refl _⟩

/-- `strip` keeps what stands between two characters that are no blanks. -/
theorem toList_pyStrip_of_solid {text : String} {front mid rest : List Char} {a b : Char}
    (ha : txt.isSpace a = false) (hb : txt.isSpace b = false)
    (htext : text.toList = front ++ a :: (mid ++ b :: rest)) :
    ∃ front' rest', (pyStrip txt text).toList = front' ++ a :: (mid ++ b :: rest') ∧
      front' <:+ front ∧ rest' <+: rest := by
  obtain ⟨front', hfront, hsuffix⟩ := dropWhile_append_solid ha (mid ++ b :: rest) front
  obtain ⟨rest', hrest, hrest'⟩ :=
    dropWhile_append_solid hb (front' ++ a :: mid).reverse rest.reverse
  refine ⟨front', rest'.reverse, ?_, hsuffix, ?_⟩
  swap
  · rw [← List.reverse_suffix, List.reverse_reverse]
    exact hrest'
  have hback : (front' ++ a :: (mid ++ b :: rest)).reverse =
      rest.reverse ++ b :: (front' ++ a :: mid).reverse := by
    simp only [List.reverse_append, List.reverse_cons, List.append_assoc, List.cons_append,
      List.nil_append]
  rw [pyStrip, String.toList_ofList, PyValue.stripChars, htext, hfront, hback, hrest,
    List.reverse_append, List.reverse_cons, List.reverse_reverse]
  simp only [List.cons_append, List.append_assoc, List.nil_append]

/-- `strip` takes the blanks before and behind a text that has none at its ends. -/
theorem toList_pyStrip_eq {text : String} {front core back mid mid' : List Char} {a b : Char}
    (htext : text.toList = front ++ core ++ back) (hfront : ∀ c ∈ front, txt.isSpace c = true)
    (hback : ∀ c ∈ back, txt.isSpace c = true) (hhead : core = a :: mid)
    (ha : txt.isSpace a = false) (hlast : core = mid' ++ [b]) (hb : txt.isSpace b = false) :
    (pyStrip txt text).toList = core := by
  have hstart : (front ++ core ++ back).dropWhile txt.isSpace = core ++ back := by
    rw [List.append_assoc, List.dropWhile_append_of_pos hfront, hhead, List.cons_append,
      List.dropWhile_cons_of_neg (by rw [ha]; exact Bool.false_ne_true)]
  have hend : (core ++ back).reverse.dropWhile txt.isSpace = core.reverse := by
    rw [List.reverse_append, List.dropWhile_append_of_pos fun c hc =>
      hback c (List.mem_reverse.mp hc), hlast, List.reverse_append, List.reverse_singleton,
      List.singleton_append, List.dropWhile_cons_of_neg (by rw [hb]; exact Bool.false_ne_true)]
  unfold pyStrip PyValue.stripChars
  rw [String.toList_ofList, htext, hstart, hend, List.reverse_reverse]

/-- A text that was stripped is stripped. -/
theorem pyStrip_pyStrip (text : String) : pyStrip txt (pyStrip txt text) = pyStrip txt text := by
  have hstrip : ∀ s : String, PyValue.stripChars txt s =
      (s.toList.dropWhile txt.isSpace).rdropWhile txt.isSpace := fun _ => rfl
  unfold pyStrip
  rw [hstrip, String.toList_ofList, hstrip]
  obtain ⟨rest, hrest⟩ := List.rdropWhile_prefix txt.isSpace (text.toList.dropWhile txt.isSpace)
  have hfront : ((text.toList.dropWhile txt.isSpace).rdropWhile txt.isSpace).dropWhile txt.isSpace =
      (text.toList.dropWhile txt.isSpace).rdropWhile txt.isSpace := by
    rcases hkept : (text.toList.dropWhile txt.isSpace).rdropWhile txt.isSpace with _ | ⟨c, cs⟩
    · rfl
    · have hhead := List.head?_dropWhile_not txt.isSpace text.toList
      rw [← hrest, hkept, List.cons_append, List.head?_cons] at hhead
      exact List.dropWhile_cons_of_neg (by simp [hhead])
  rw [hfront, List.rdropWhile_idempotent]

/-- The first character of a text that is stripped. -/
theorem not_isSpace_of_stripped {text : String} {c : Char} {cs : List Char}
    (h : pyStrip txt text = text) (htext : text.toList = c :: cs) : txt.isSpace c = false := by
  rw [Bool.eq_false_iff]
  intro hspace
  have hlength : (pyStrip txt text).toList.length ≤ cs.length := by
    unfold pyStrip PyValue.stripChars
    rw [String.toList_ofList, htext, List.dropWhile_cons_of_pos hspace, List.length_reverse]
    refine (List.length_dropWhile_le _ _).trans ?_
    rw [List.length_reverse]
    exact List.length_dropWhile_le _ _
  rw [h, htext, List.length_cons] at hlength
  omega

/-- The last character of a text that is stripped. -/
theorem not_isSpace_of_stripped_last {text : String} {c : Char} {cs : List Char}
    (h : pyStrip txt text = text) (htext : text.toList = cs ++ [c]) : txt.isSpace c = false := by
  rw [Bool.eq_false_iff]
  intro hspace
  have hdrop : (text.toList.dropWhile txt.isSpace).length ≤ text.toList.length :=
    List.length_dropWhile_le _ _
  have hlength : (pyStrip txt text).toList.length ≤ cs.length := by
    unfold pyStrip PyValue.stripChars
    rw [String.toList_ofList, List.length_reverse]
    rcases List.eq_nil_or_concat (text.toList.dropWhile txt.isSpace) with hnil | ⟨init, last, hkept⟩
    · rw [hnil]
      exact Nat.zero_le _
    · -- what is left ends with the last character of the text
      have hsuffix := List.dropWhile_suffix txt.isSpace (l := text.toList)
      rw [List.concat_eq_append] at hkept
      rw [hkept, htext] at hsuffix
      obtain ⟨before, hbefore⟩ := hsuffix
      rw [← List.append_assoc] at hbefore
      obtain ⟨hinit, hsame⟩ := List.append_inj' hbefore rfl
      obtain rfl : last = c := List.head_eq_of_cons_eq hsame
      rw [hkept, List.reverse_append, List.reverse_singleton, List.singleton_append,
        List.dropWhile_cons_of_pos hspace, ← hinit, List.length_append]
      have hle := List.length_dropWhile_le txt.isSpace init.reverse
      rw [List.length_reverse] at hle
      omega
  rw [h, htext, List.length_append, List.length_singleton] at hlength
  omega

end Strip

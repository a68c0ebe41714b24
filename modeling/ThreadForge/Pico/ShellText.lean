import ThreadForge.Pico.ShellSuccess

/-!
# What a command printed, in the text of its result

`tool_run_shell` puts the two outputs into an indented template and takes the common margin of all
lines from the result. A line of an output behind its first one is not indented, so it takes part in
the margin.

## Main results

* `dedent_eq` : `dedent` line by line
* `toList_shown_eq` : the lines of the text, for every output
* `shell_verbatim_iff` : the outputs stand in the text as they are exactly if each is one line
-/

namespace ThreadForge

variable {txt : PyText}

/-! ## `dedent`, line by line -/

theorem isPrefix_commonStart_right : ∀ as bs : List Char, commonStart as bs <+: bs
  | [], _ => List.nil_prefix
  | _ :: _, [] => List.nil_prefix
  | a :: as, b :: bs => by
    rw [commonStart]
    split
    · next heq =>
      subst heq
      exact List.cons_prefix_cons.mpr ⟨rfl, isPrefix_commonStart_right as bs⟩
    · exact List.nil_prefix

/-- The common start is a start of each. -/
theorem foldl_commonStart_isPrefix {line : List Char} : ∀ {first : List Char}
    {rest : List (List Char)}, line ∈ rest → rest.foldl commonStart first <+: line
  | first, next :: rest, h => by
    rw [List.foldl_cons]
    rcases List.mem_cons.mp h with rfl | h
    · exact (isPrefix_foldl_commonStart rest _).trans (isPrefix_commonStart_right first line)
    · exact foldl_commonStart_isPrefix h

/-- The blanks that `dedent` takes from the lines of a text. -/
def margin (lines : List (List Char)) : List Char :=
  match (lines.filter fun line => !line.all isBlankChar).map (List.takeWhile isBlankChar) with
  | [] => []
  | first :: rest => rest.foldl commonStart first

/-- A line with `k` characters taken off; a blank one is emptied. -/
def dedentLine (k : Nat) (line : List Char) : List Char :=
  if line.all isBlankChar then [] else line.drop k

theorem margin_isPrefix {lines : List (List Char)} {line : List Char} (hmem : line ∈ lines)
    (hsolid : line.all isBlankChar = false) : margin lines <+: line.takeWhile isBlankChar := by
  have hkept : line.takeWhile isBlankChar ∈
      (lines.filter fun line => !line.all isBlankChar).map (List.takeWhile isBlankChar) :=
    List.mem_map.mpr ⟨line, List.mem_filter.mpr ⟨hmem, by rw [hsolid]; rfl⟩, rfl⟩
  unfold margin
  split
  · next hnil =>
    rw [hnil] at hkept
    cases hkept
  · next first rest hlines =>
    rw [hlines] at hkept
    rcases List.mem_cons.mp hkept with heq | hkept
    · rw [heq]
      exact isPrefix_foldl_commonStart rest first
    · exact foldl_commonStart_isPrefix hkept

/-- `dedent`, line by line. -/
theorem dedent_eq (text : String) :
    (dedent text).toList = ['\n'].intercalate
      ((text.toList.splitOn '\n').map
        (dedentLine (margin (text.toList.splitOn '\n')).length)) := by
  have hjoin : ∀ lines : List (List Char),
      (joinLines (lines.map String.ofList)).toList = ['\n'].intercalate lines := by
    intro lines
    unfold joinLines
    rw [String.toList_intercalate, List.map_map]
    refine congrArg _ ((List.map_congr_left fun line _ => ?_).trans (List.map_id lines))
    exact String.toList_ofList
  unfold dedent margin
  rw [PyChars.splitOn_eq]
  generalize text.toList.splitOn '\n' = lines
  have hfilter : ((lines.map fun line => if line.all isBlankChar then [] else line).filter
      fun line => decide (line ≠ [])) = lines.filter fun line => !line.all isBlankChar := by
    induction lines with
    | nil => rfl
    | cons line lines ih =>
      rw [List.map_cons]
      rcases hblank : line.all isBlankChar with _ | _
      · rw [if_neg Bool.false_ne_true, List.filter_cons_of_pos, List.filter_cons_of_pos, ih]
        · rw [hblank]
          rfl
        · refine decide_eq_true ?_
          rintro rfl
          cases hblank
      · rw [if_pos rfl, List.filter_cons_of_neg, List.filter_cons_of_neg, ih]
        · rw [hblank]
          exact Bool.false_ne_true
        · simp
  dsimp only
  rw [hfilter]
  generalize (lines.filter fun line => !line.all isBlankChar).map (List.takeWhile isBlankChar) =
    starts
  rcases starts with _ | ⟨first, rest⟩
  · rw [hjoin]
    rfl
  · have hdrop : ∀ k : Nat, ((lines.map fun line => if line.all isBlankChar then [] else line).map
        fun line => String.ofList (line.drop k)) = (lines.map (dedentLine k)).map String.ofList := by
      intro k
      rw [List.map_map, List.map_map]
      refine List.map_congr_left fun line _ => ?_
      show String.ofList (List.drop k (if line.all isBlankChar then [] else line)) = _
      unfold dedentLine
      dsimp only [Function.comp]
      split
      · rw [List.drop_nil]
      · rfl
    dsimp only
    rw [hdrop, hjoin]

/-! ## The outputs that are shown -/

/-- What the table of characters says of the template. -/
structure ShellTable (txt : PyText) : Prop where
  space : txt.isSpace ' ' = true
  tab : txt.isSpace '\t' = true
  newline : txt.isSpace '\n' = true
  letter : txt.isSpace 'e' = false
  bracket : txt.isSpace ')' = false

theorem isBlankChar_eq_false (htable : ShellTable txt) {c : Char} (hc : txt.isSpace c = false) :
    isBlankChar c = false := by
  unfold isBlankChar
  rw [Bool.or_eq_false_iff]
  constructor
  · refine decide_eq_false ?_
    rintro rfl
    rw [htable.space] at hc
    cases hc
  · refine decide_eq_false ?_
    rintro rfl
    rw [htable.tab] at hc
    cases hc

/-- An output that is shown begins with a character that is no blank and ends with one that is no
space. -/
structure ShownStream (txt : PyText) (out : List Char) : Prop where
  head : ∃ a cs, out = a :: cs ∧ isBlankChar a = false ∧ a ≠ '\n'
  last : ∃ cs b, out = cs ++ [b] ∧ txt.isSpace b = false

theorem shown_shownStream (htable : ShellTable txt) (stream : String) :
    ShownStream txt (shownStream txt stream).toList := by
  have hnewline : ∀ c, txt.isSpace c = false → c ≠ '\n' := by
    rintro c hc rfl
    rw [htable.newline] at hc
    cases hc
  unfold shownStream
  dsimp only
  split
  · exact ⟨⟨'(', "empty)".toList, rfl, rfl, by decide⟩, "(empty".toList, ')', rfl, htable.bracket⟩
  · next hne =>
    have hstripped : pyStrip txt (pyStrip txt stream) = pyStrip txt stream :=
      pyStrip_pyStrip stream
    constructor
    · rcases hchars : (pyStrip txt stream).toList with _ | ⟨a, cs⟩
      · exact absurd (String.toList_eq_nil_iff.mp hchars) hne
      · have ha := not_isSpace_of_stripped hstripped hchars
        exact ⟨a, cs, rfl, isBlankChar_eq_false htable ha, hnewline a ha⟩
    · rcases List.eq_nil_or_concat (pyStrip txt stream).toList with hnil | ⟨cs, b, hchars⟩
      · exact absurd (String.toList_eq_nil_iff.mp hnil) hne
      · rw [List.concat_eq_append] at hchars
        exact ⟨cs, b, hchars, not_isSpace_of_stripped_last hstripped hchars⟩

/-! ## The template -/

/-- The indentation of the template. -/
def templateIndent : List Char := List.replicate 8 ' '

/-- The lines that the template makes of an output. -/
def outputLines (out : List Char) : List (List Char) := (templateIndent ++ out).splitOn '\n'

/-- The lines of the filled template. -/
def templateLines (code out err : List Char) : List (List Char) :=
  (templateIndent ++ code) :: (templateIndent ++ "stdout:".toList) :: (outputLines out ++
    (templateIndent ++ "stderr:".toList) :: (outputLines err ++ [templateIndent]))

/-- The characters that `dedent` takes from each line of the filled template. -/
def templateMargin (code out err : List Char) : Nat := (margin (templateLines code out err)).length

theorem outputLines_eq {out : List Char} {first : List Char} {rest : List (List Char)}
    (h : out.splitOn '\n' = first :: rest) :
    outputLines out = (templateIndent ++ first) :: rest :=
  PyChars.splitOn_append_of_not_mem (by decide) h

theorem splitOn_template {code out err text : List Char} (hcode : '\n' ∉ code)
    (htext : text = (templateIndent ++ code) ++ '\n' ::
      ((templateIndent ++ "stdout:".toList) ++ '\n' :: ((templateIndent ++ out) ++ '\n' ::
        ((templateIndent ++ "stderr:".toList) ++ '\n' :: ((templateIndent ++ err) ++ '\n' ::
          templateIndent))))) :
    text.splitOn '\n' = templateLines code out err := by
  have hline : ∀ line : List Char, '\n' ∉ line →
      (templateIndent ++ line).splitOn '\n' = [templateIndent ++ line] := by
    intro line hline
    refine PyChars.splitOn_append_of_not_mem (by decide) ?_
    exact List.splitOn_eq_singleton hline
  have hlast : templateIndent.splitOn '\n' = [templateIndent] := by decide
  rw [htext, List.splitOn_append_cons_self, List.splitOn_append_cons_self,
    List.splitOn_append_cons_self, List.splitOn_append_cons_self, List.splitOn_append_cons_self,
    hline code hcode, hline "stdout:".toList (by decide), hline "stderr:".toList (by decide), hlast]
  rfl

/-- The first line of the template bounds the margin. -/
theorem templateMargin_le {code : List Char} (out err : List Char) {c : Char} {cs : List Char}
    (hcode : code = c :: cs) (hc : isBlankChar c = false) : templateMargin code out err ≤ 8 := by
  have hsolid : (templateIndent ++ code).all isBlankChar = false := by
    rw [List.all_append, hcode, List.all_cons, hc, Bool.false_and, Bool.and_false]
  have hfirst : templateIndent ++ code ∈ templateLines code out err := List.mem_cons_self
  have hprefix := margin_isPrefix hfirst hsolid
  have hblanks : (templateIndent ++ code).takeWhile isBlankChar = templateIndent := by
    rw [List.takeWhile_append_of_pos (List.all_eq_true.mp (by decide)), hcode,
      List.takeWhile_cons_of_neg (by rw [hc]; exact Bool.false_ne_true), List.append_nil]
  rw [hblanks] at hprefix
  exact hprefix.length_le

/-! ## The lines of the text -/

/-- The lines of an output in the text, where `k` characters are taken off. -/
def shownLines (k : Nat) (out : List Char) : List (List Char) := (outputLines out).map (dedentLine k)

theorem dedentLine_indent {k : Nat} (label : List Char) {c : Char} {cs : List Char} (hk : k ≤ 8)
    (hlabel : label = c :: cs) (hc : isBlankChar c = false) :
    dedentLine k (templateIndent ++ label) = List.replicate (8 - k) ' ' ++ label := by
  have hsolid : (templateIndent ++ label).all isBlankChar = false := by
    rw [List.all_append, hlabel, List.all_cons, hc, Bool.false_and, Bool.and_false]
  unfold dedentLine
  rw [hsolid, if_neg Bool.false_ne_true, List.drop_append_of_le_length hk]
  exact congrArg (· ++ label) List.drop_replicate

/-- An empty line behind the last one ends it. -/
theorem intercalate_concat_nil {lines : List (List Char)} (hne : lines ≠ []) :
    ['\n'].intercalate (lines ++ [[]]) = ['\n'].intercalate lines ++ ['\n'] := by
  induction lines with
  | nil => exact absurd rfl hne
  | cons line lines ih =>
    rw [List.cons_append, List.intercalate_cons_of_ne_nil (List.append_ne_nil_of_right_ne_nil _
      (List.cons_ne_nil _ _))]
    by_cases hnil : lines = []
    · subst hnil
      rw [List.intercalate_singleton, List.nil_append, List.intercalate_singleton, List.append_nil]
    · rw [ih hnil, List.intercalate_cons_of_ne_nil hnil]
      simp only [List.append_assoc]

/-- The joined lines end with the last one. -/
theorem suffix_intercalate (lines : List (List Char)) (last : List Char) :
    last <:+ ['\n'].intercalate (lines ++ [last]) := by
  induction lines with
  | nil =>
    rw [List.nil_append, List.intercalate_singleton]
  | cons line lines ih =>
    rw [List.cons_append, List.intercalate_cons_of_ne_nil (List.append_ne_nil_of_right_ne_nil _
      (List.cons_ne_nil _ _))]
    exact ih.trans (List.suffix_append _ _)

section Template

variable {code out err : List Char}

/-- The last line of the text ends as the error output does. -/
theorem shownLines_last (code out : List Char) (htable : ShellTable txt) {cs : List Char}
    {b : Char} (herr : err = cs ++ [b]) (hb : txt.isSpace b = false) :
    ∃ init last, shownLines (templateMargin code out err) err = init ++ [last ++ [b]] := by
  have hblank := isBlankChar_eq_false htable hb
  have hline : b ≠ '\n' := by
    rintro rfl
    rw [htable.newline] at hb
    cases hb
  obtain ⟨init, mid, hsplit⟩ := PyChars.splitOn_concat hline (templateIndent ++ cs)
  have hlines : outputLines err = init ++ [mid ++ [b]] := by
    unfold outputLines
    rw [herr, ← List.append_assoc]
    exact hsplit
  have hsolid : (mid ++ [b]).all isBlankChar = false := by
    rw [List.all_append, List.all_cons, hblank, Bool.false_and, Bool.and_false]
  have hmem : mid ++ [b] ∈ templateLines code out err := by
    unfold templateLines
    rw [hlines]
    simp
  -- the margin leaves the last character of the line
  have hle : templateMargin code out err ≤ mid.length := by
    have hprefix := margin_isPrefix hmem hsolid
    refine hprefix.length_le.trans ?_
    by_contra hlong
    have htake := List.takeWhile_prefix (l := mid ++ [b]) isBlankChar
    have hwhole := htake.eq_of_length_le (by
      rw [List.length_append, List.length_singleton]
      omega)
    have hb' : b ∈ (mid ++ [b]).takeWhile isBlankChar := by
      rw [hwhole]
      exact List.mem_append_right mid List.mem_cons_self
    have htrue := List.mem_takeWhile_imp hb'
    rw [hblank] at htrue
    cases htrue
  refine ⟨init.map (dedentLine (templateMargin code out err)),
    mid.drop (templateMargin code out err), ?_⟩
  unfold shownLines
  rw [hlines, List.map_append, List.map_singleton]
  unfold dedentLine
  rw [hsolid, if_neg Bool.false_ne_true, List.drop_append_of_le_length hle]

/-- The lines of the text that is left of the filled template. -/
def textLines (code out err : List Char) : List (List Char) :=
  let k := templateMargin code out err
  code :: (List.replicate (8 - k) ' ' ++ "stdout:".toList) ::
    (shownLines k out ++ (List.replicate (8 - k) ' ' ++ "stderr:".toList) :: shownLines k err)

/-- **What is left of the filled template**, line by line. -/
theorem toList_stripped_template (htable : ShellTable txt) {text : String} {cs : List Char}
    (hcode : code = 'e' :: cs) (hline : '\n' ∉ code) (herr : ShownStream txt err)
    (htext : text.toList = (templateIndent ++ code) ++ '\n' ::
      ((templateIndent ++ "stdout:".toList) ++ '\n' :: ((templateIndent ++ out) ++ '\n' ::
        ((templateIndent ++ "stderr:".toList) ++ '\n' :: ((templateIndent ++ err) ++ '\n' ::
          templateIndent))))) :
    (pyStrip txt (dedent text)).toList = ['\n'].intercalate (textLines code out err) := by
  obtain ⟨errs, b, herrs, hb⟩ := herr.last
  have hk : templateMargin code out err ≤ 8 :=
    templateMargin_le out err hcode (by decide)
  obtain ⟨init, last, hlast⟩ := shownLines_last code out htable herrs hb
  have hblank : dedentLine (templateMargin code out err) templateIndent = [] := if_pos (by decide)
  have hmap : (templateLines code out err).map (dedentLine (templateMargin code out err)) =
      (List.replicate (8 - templateMargin code out err) ' ' ++ code) ::
        (textLines code out err).tail ++ [[]] := by
    unfold templateLines textLines
    dsimp only [List.tail_cons]
    rw [List.map_cons, List.map_cons, List.map_append, List.map_cons, List.map_append,
      List.map_singleton, hblank, dedentLine_indent _ hk hcode (by decide),
      dedentLine_indent "stdout:".toList hk rfl (by decide),
      dedentLine_indent "stderr:".toList hk rfl (by decide)]
    unfold shownLines
    simp only [List.cons_append, List.append_assoc]
  have htail : (textLines code out err).tail ≠ [] := List.cons_ne_nil _ _
  have hcore : ['\n'].intercalate (textLines code out err) =
      code ++ ['\n'] ++ ['\n'].intercalate (textLines code out err).tail :=
    List.intercalate_cons_of_ne_nil htail
  have hdedent : (dedent text).toList =
      List.replicate (8 - templateMargin code out err) ' ' ++
        ['\n'].intercalate (textLines code out err) ++ ['\n'] := by
    rw [dedent_eq, splitOn_template hline htext]
    show ['\n'].intercalate ((templateLines code out err).map
      (dedentLine (templateMargin code out err))) = _
    rw [hmap, intercalate_concat_nil (List.cons_ne_nil _ _), List.intercalate_cons_of_ne_nil htail,
      hcore]
    simp only [List.append_assoc]
  have hhead : ['\n'].intercalate (textLines code out err) = 'e' :: (cs ++ ['\n'] ++
      ['\n'].intercalate (textLines code out err).tail) := by
    rw [hcore, hcode]
    rfl
  obtain ⟨before, hbefore⟩ : ∃ before, ['\n'].intercalate (textLines code out err) =
      before ++ [b] := by
    have hlines : ∃ lines, textLines code out err = lines ++ [last ++ [b]] := by
      unfold textLines
      dsimp only
      rw [hlast]
      refine ⟨code :: (List.replicate (8 - templateMargin code out err) ' ' ++ "stdout:".toList) ::
        (shownLines (templateMargin code out err) out ++
          (List.replicate (8 - templateMargin code out err) ' ' ++ "stderr:".toList) :: init), ?_⟩
      simp only [List.cons_append, List.append_assoc]
    obtain ⟨lines, hlines⟩ := hlines
    obtain ⟨before, hbefore⟩ := suffix_intercalate lines (last ++ [b])
    refine ⟨before ++ last, ?_⟩
    rw [hlines, ← hbefore, List.append_assoc]
  refine toList_pyStrip_eq hdedent ?_ ?_ hhead htable.letter hbefore hb
  · intro c hc
    rw [List.eq_of_mem_replicate hc]
    exact htable.space
  · intro c hc
    rw [List.mem_singleton.mp hc]
    exact htable.newline

/-- The lines that the text should have. -/
def verbatimLines (code out err : List Char) : List (List Char) :=
  code :: "stdout:".toList :: (out.splitOn '\n' ++ "stderr:".toList :: err.splitOn '\n')

theorem length_shownLines (k : Nat) (out : List Char) :
    (shownLines k out).length = (out.splitOn '\n').length := by
  rcases hout : out.splitOn '\n' with _ | ⟨first, rest⟩
  · exact absurd hout (List.splitOn_ne_nil _ _)
  · unfold shownLines
    rw [outputLines_eq hout, List.length_map]
    rfl

/-- An output of several lines does not stand in the text as it is. -/
theorem not_mem_of_shownLines (hout : ShownStream txt out) (hnewline : txt.isSpace '\n' = true)
    (h : shownLines 8 out = out.splitOn '\n') : '\n' ∉ out := by
  obtain ⟨cs, b, hlast, hb⟩ := hout.last
  have hline : b ≠ '\n' := by
    rintro rfl
    rw [hnewline] at hb
    cases hb
  obtain ⟨init, mid, hsplit⟩ := PyChars.splitOn_concat hline cs
  rw [← hlast] at hsplit
  have hempty : ∀ line, dedentLine 8 line = line → line = [] := by
    intro line heq
    unfold dedentLine at heq
    split at heq
    · exact heq.symm
    · have hlength := congrArg List.length heq
      rw [List.length_drop] at hlength
      exact List.eq_nil_of_length_eq_zero (by omega)
  cases init with
  | nil =>
    rw [List.nil_append] at hsplit
    have htext : ['\n'].intercalate (out.splitOn '\n') = out := List.intercalate_splitOn '\n'
    rw [hsplit, List.intercalate_singleton] at htext
    have hpart : mid ++ [b] ∈ out.splitOn '\n' := by
      rw [hsplit]
      exact List.mem_cons_self
    have hnot := PyChars.not_mem_of_mem_splitOn hpart
    rwa [htext] at hnot
  | cons first rest =>
    -- a line behind the first one would be empty, and the last one is not
    rw [List.cons_append] at hsplit
    unfold shownLines at h
    rw [outputLines_eq hsplit, hsplit, List.map_cons] at h
    have hrest := (List.cons.inj h).2
    have hmem : mid ++ [b] ∈ rest ++ [mid ++ [b]] := List.mem_append_right _ List.mem_cons_self
    have hsame : dedentLine 8 (mid ++ [b]) = mid ++ [b] := by
      have hall := List.map_eq_iff.mp hrest
      obtain ⟨i, hi⟩ := List.getElem?_of_mem hmem
      have hi' := hall i
      rw [hi] at hi'
      exact (Option.some.inj hi').symm
    exact absurd (hempty _ hsame) (List.append_ne_nil_of_right_ne_nil _ (List.cons_ne_nil _ _))

/-- Where each output is one line, the margin is that of the template. -/
theorem templateMargin_eq (hcode : ∃ c cs, code = c :: cs ∧ isBlankChar c = false)
    (hout : ShownStream txt out) (herr : ShownStream txt err) (hline : '\n' ∉ out) (hline' : '\n' ∉ err) :
    templateMargin code out err = 8 := by
  have hsolid : ∀ line : List Char, (∃ c cs, line = c :: cs ∧ isBlankChar c = false) →
      (!(templateIndent ++ line).all isBlankChar) = true ∧
        (templateIndent ++ line).takeWhile isBlankChar = templateIndent := by
    rintro line ⟨c, cs, rfl, hc⟩
    constructor
    · rw [List.all_append, List.all_cons, hc, Bool.false_and, Bool.and_false]
      rfl
    · rw [List.takeWhile_append_of_pos (List.all_eq_true.mp (by decide)),
        List.takeWhile_cons_of_neg (by rw [hc]; exact Bool.false_ne_true), List.append_nil]
  obtain ⟨a, cs, hhead, ha, -⟩ := hout.head
  obtain ⟨a', cs', hhead', ha', -⟩ := herr.head
  have h1 := hsolid code hcode
  have h2 := hsolid "stdout:".toList ⟨'s', "tdout:".toList, rfl, by decide⟩
  have h3 := hsolid out ⟨a, cs, hhead, ha⟩
  have h4 := hsolid "stderr:".toList ⟨'s', "tderr:".toList, rfl, by decide⟩
  have h5 := hsolid err ⟨a', cs', hhead', ha'⟩
  have hlines : templateLines code out err = [templateIndent ++ code,
      templateIndent ++ "stdout:".toList, templateIndent ++ out, templateIndent ++ "stderr:".toList,
      templateIndent ++ err, templateIndent] := by
    unfold templateLines
    rw [outputLines_eq (List.splitOn_eq_singleton hline),
      outputLines_eq (List.splitOn_eq_singleton hline')]
    rfl
  have hlast : (!templateIndent.all isBlankChar) = false := by decide
  unfold templateMargin margin
  have hkept : (templateLines code out err).filter (fun line => !line.all isBlankChar) =
      [templateIndent ++ code, templateIndent ++ "stdout:".toList, templateIndent ++ out,
        templateIndent ++ "stderr:".toList, templateIndent ++ err] := by
    rw [hlines]
    simp only [List.filter_cons, h1.1, h2.1, h3.1, h4.1, h5.1, hlast, List.filter_nil, if_true,
      Bool.false_eq_true, if_false]
  rw [hkept]
  simp only [List.map_cons, List.map_nil, h1.2, h2.2, h3.2, h4.2, h5.2]
  decide

/-- The lines are those of the template exactly if each output is one line. -/
theorem textLines_eq_iff (hcode : ∃ c cs, code = c :: cs ∧ isBlankChar c = false)
    (hnewline : txt.isSpace '\n' = true) (hout : ShownStream txt out) (herr : ShownStream txt err) :
    textLines code out err = verbatimLines code out err ↔ '\n' ∉ out ∧ '\n' ∉ err := by
  constructor
  · intro h
    unfold textLines verbatimLines at h
    dsimp only at h
    obtain ⟨hlabel, hlines⟩ := List.cons.inj (List.cons.inj h).2
    have hk : 8 - templateMargin code out err = 0 := by
      have hlength := congrArg List.length hlabel
      rw [List.length_append, List.length_replicate] at hlength
      omega
    obtain ⟨c, cs, hhead, hc⟩ := hcode
    have hmargin : templateMargin code out err = 8 := by
      have hle := templateMargin_le out err hhead hc
      omega
    rw [hmargin] at hlines
    obtain ⟨houts, herrs⟩ := List.append_inj hlines (length_shownLines 8 out)
    exact ⟨not_mem_of_shownLines hout hnewline houts,
      not_mem_of_shownLines herr hnewline (List.cons.inj herrs).2⟩
  · rintro ⟨hline, hline'⟩
    have hmargin := templateMargin_eq hcode hout herr hline hline'
    have hone : ∀ out : List Char, ShownStream txt out → '\n' ∉ out →
        shownLines 8 out = out.splitOn '\n' := by
      intro out hout hline
      obtain ⟨a, cs, hhead, ha, -⟩ := hout.head
      unfold shownLines
      rw [outputLines_eq (List.splitOn_eq_singleton hline), List.splitOn_eq_singleton hline,
        List.map_singleton, dedentLine_indent _ (le_refl 8) hhead ha]
      rfl
    unfold textLines verbatimLines
    dsimp only
    rw [hmargin, hone out hout hline, hone err herr hline']
    rfl

end Template

/-! ## The text -/

/-- The notes behind the outputs. -/
def shellNotes (timeout : Nat) (result : ShellResult) : String :=
  (if result.timedOut then "\n[tool timed out after " ++ toString timeout ++ "s]" else "") ++
    (if result.outputTruncated then "\n[output truncated]" else "")

/-- The code and the two outputs, each behind its label. -/
def verbatimText (txt : PyText) (timeout : Nat) (result : ShellResult) : String :=
  "exit_code: " ++ toString result.returncode ++ "\nstdout:\n" ++ shownStream txt result.stdout ++
    "\nstderr:\n" ++ shownStream txt result.stderr ++ shellNotes timeout result

/-- The characters of the first line. -/
def codeLine (result : ShellResult) : List Char :=
  ("exit_code: " ++ toString result.returncode).toList

theorem codeLine_eq (result : ShellResult) :
    codeLine result = 'e' :: ("xit_code: ".toList ++ (toString result.returncode).toList) := by
  unfold codeLine
  rw [String.toList_append]
  rfl

theorem newline_not_mem_codeLine (result : ShellResult) : '\n' ∉ codeLine result := by
  obtain ⟨digits, last, hdigits, -, hline⟩ := toString_int_last result.returncode
  unfold codeLine
  rw [String.toList_append, hdigits, List.mem_append]
  rintro (h | h)
  · exact absurd h (by decide)
  · exact hline h

/-- **The lines of the text**, for every output: what the margin leaves of the template. -/
theorem toList_shellText_lines (htable : ShellTable txt) (timeout : Nat) (result : ShellResult) :
    (shellText txt timeout result).toList =
      ['\n'].intercalate (textLines (codeLine result) (shownStream txt result.stdout).toList
        (shownStream txt result.stderr).toList) ++ (shellNotes timeout result).toList := by
  unfold shellText
  dsimp only
  rw [String.append_assoc, String.toList_append, toList_stripped_template htable
    (codeLine_eq result) (newline_not_mem_codeLine result) (shown_shownStream htable result.stderr)]
  · rfl
  · unfold codeLine
    simp only [String.toList_append, List.append_assoc]
    rfl

theorem toList_verbatimText (timeout : Nat) (result : ShellResult) :
    (verbatimText txt timeout result).toList =
      ['\n'].intercalate (verbatimLines (codeLine result) (shownStream txt result.stdout).toList
        (shownStream txt result.stderr).toList) ++ (shellNotes timeout result).toList := by
  generalize hout : (shownStream txt result.stdout).toList = out
  generalize herr : (shownStream txt result.stderr).toList = err
  have htext : ("exit_code: " ++ toString result.returncode ++ "\nstdout:\n" ++
      shownStream txt result.stdout ++ "\nstderr:\n" ++ shownStream txt result.stderr).toList =
      codeLine result ++ '\n' :: ("stdout:".toList ++ '\n' :: (out ++ '\n' ::
        ("stderr:".toList ++ '\n' :: err))) := by
    have hstdout : "\nstdout:\n".toList = '\n' :: ("stdout:".toList ++ ['\n']) := by decide
    have hstderr : "\nstderr:\n".toList = '\n' :: ("stderr:".toList ++ ['\n']) := by decide
    unfold codeLine
    rw [String.toList_append, String.toList_append, String.toList_append, String.toList_append,
      hout, herr, hstdout, hstderr]
    simp only [List.append_assoc, List.cons_append, List.nil_append]
  have hsplit : (codeLine result ++ '\n' :: ("stdout:".toList ++ '\n' :: (out ++ '\n' ::
      ("stderr:".toList ++ '\n' :: err)))).splitOn '\n' =
      verbatimLines (codeLine result) out err := by
    rw [List.splitOn_append_cons_self, List.splitOn_append_cons_self, List.splitOn_append_cons_self,
      List.splitOn_append_cons_self, List.splitOn_eq_singleton (newline_not_mem_codeLine result),
      List.splitOn_eq_singleton (show '\n' ∉ "stdout:".toList by decide),
      List.splitOn_eq_singleton (show '\n' ∉ "stderr:".toList by decide)]
    rfl
  unfold verbatimText
  rw [String.toList_append, htext, ← hsplit, List.intercalate_splitOn]

theorem newline_not_mem_shownLines {k : Nat} {out line : List Char}
    (h : line ∈ shownLines k out) : '\n' ∉ line := by
  obtain ⟨whole, hwhole, rfl⟩ := List.mem_map.mp h
  have hnot := PyChars.not_mem_of_mem_splitOn hwhole
  unfold dedentLine
  split
  · exact List.not_mem_nil
  · exact fun hmem => hnot (List.mem_of_mem_drop hmem)

/-- Lines without a line end are those of their text. -/
theorem intercalate_inj {lines lines' : List (List Char)} (hne : lines ≠ []) (hne' : lines' ≠ [])
    (h : ∀ line ∈ lines, '\n' ∉ line) (h' : ∀ line ∈ lines', '\n' ∉ line) :
    ['\n'].intercalate lines = ['\n'].intercalate lines' ↔ lines = lines' := by
  constructor
  · intro heq
    rw [← List.splitOn_intercalate '\n' h hne, heq, List.splitOn_intercalate '\n' h' hne']
  · exact fun heq => congrArg _ heq

theorem newline_mem_shownStream (stream : String) :
    '\n' ∈ (shownStream txt stream).toList ↔ '\n' ∈ (pyStrip txt stream).toList := by
  unfold shownStream
  dsimp only
  split
  · next hempty =>
    rw [hempty]
    exact iff_of_false (by decide) (by decide)
  · exact Iff.rfl

/-- **The text shows the outputs as they are** exactly if each of them, stripped, is one line. -/
theorem shell_verbatim_iff (htable : ShellTable txt) (timeout : Nat) (result : ShellResult) :
    shellText txt timeout result = verbatimText txt timeout result ↔
      '\n' ∉ (pyStrip txt result.stdout).toList ∧ '\n' ∉ (pyStrip txt result.stderr).toList := by
  have hcode := newline_not_mem_codeLine result
  have hlabel : ∀ (k : Nat) (label : List Char), '\n' ∉ label →
      '\n' ∉ List.replicate k ' ' ++ label := by
    intro k label hlabel
    rw [List.mem_append]
    rintro (h | h)
    · exact absurd (List.eq_of_mem_replicate h) (by decide)
    · exact hlabel h
  have htextLines : ∀ out err : List Char, ∀ line ∈ textLines (codeLine result) out err,
      '\n' ∉ line := by
    intro out err line hline
    unfold textLines at hline
    dsimp only at hline
    rcases List.mem_cons.mp hline with rfl | hline
    · exact hcode
    rcases List.mem_cons.mp hline with rfl | hline
    · exact hlabel _ _ (by decide)
    rcases List.mem_append.mp hline with hline | hline
    · exact newline_not_mem_shownLines hline
    rcases List.mem_cons.mp hline with rfl | hline
    · exact hlabel _ _ (by decide)
    · exact newline_not_mem_shownLines hline
  have hverbatim : ∀ out err : List Char, ∀ line ∈ verbatimLines (codeLine result) out err,
      '\n' ∉ line := by
    intro out err line hline
    rcases List.mem_cons.mp hline with rfl | hline
    · exact hcode
    rcases List.mem_cons.mp hline with rfl | hline
    · decide
    rcases List.mem_append.mp hline with hline | hline
    · exact PyChars.not_mem_of_mem_splitOn hline
    rcases List.mem_cons.mp hline with rfl | hline
    · decide
    · exact PyChars.not_mem_of_mem_splitOn hline
  have hne : ∀ out err : List Char, textLines (codeLine result) out err ≠ [] :=
    fun out err => List.cons_ne_nil _ _
  have hne' : ∀ out err : List Char, verbatimLines (codeLine result) out err ≠ [] :=
    fun out err => List.cons_ne_nil _ _
  rw [← String.toList_inj, toList_shellText_lines htable, toList_verbatimText, List.append_left_inj,
    intercalate_inj (hne _ _) (hne' _ _) (htextLines _ _) (hverbatim _ _), textLines_eq_iff ⟨_, _, codeLine_eq result, by decide⟩ htable.newline
      (shown_shownStream htable _) (shown_shownStream htable _),
    newline_mem_shownStream, newline_mem_shownStream]

theorem shell_verbatim_line :
    shellText .ascii 20 { returncode := 0, stdout := "ok\n", stderr := "" } =
      verbatimText .ascii 20 { returncode := 0, stdout := "ok\n", stderr := "" } :=
  (shell_verbatim_iff ⟨by decide, by decide, by decide, by decide, by decide⟩ 20 _).mpr
    ⟨by decide, by decide⟩

/-- With two lines, the labels and the first line are indented. -/
theorem shell_indents_output :
    shellText .ascii 20 { returncode := 0, stdout := "a\nb", stderr := "" } =
        "exit_code: 0\n        stdout:\n        a\nb\n        stderr:\n        (empty)" ∧
      verbatimText .ascii 20 { returncode := 0, stdout := "a\nb", stderr := "" } =
        "exit_code: 0\nstdout:\na\nb\nstderr:\n(empty)" := by
  constructor
  · decide +kernel
  · decide +kernel

end ThreadForge

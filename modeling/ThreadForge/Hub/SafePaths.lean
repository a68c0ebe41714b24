import ThreadForge.Hub.Sanitizer
import ThreadForge.Lib.SplitJoin

/-!
# The paths a Worker reports

`_safe_relative_path` looks at the start and at the first part of a text, and drops the parts that
are empty or `.` behind that. A leading `.` therefore hides the part after it from both checks.

## Main results

* `sanitisesPath_iff` — what is forwarded is a safe relative path exactly where no leading `.` hides
  a drive, a home directory or nothing at all.
* `not_sanitisesPath` — a drive behind `./` is forwarded.
-/

namespace ThreadForge

namespace SafePaths

variable (env : SanitizerEnv)

/-- The text of a value, with slashes only. -/
def slashed (value : PyValue) : String := pyReplace (value.text env.txt) "\\" "/"

/-- The parts of a path that name something. -/
def keptParts (text : String) : List String :=
  (pySplit text '/').filter fun part => part ≠ "" ∧ part ≠ "."

/-- A path that may be forwarded. -/
structure SafePath (path : String) : Prop where
  nonempty : path ≠ ""
  parts : ∀ part ∈ pySplit path '/', part ≠ "" ∧ part ≠ "." ∧ part ≠ ".."
  noRoot : pyStartsWith path "/" = false
  noHome : pyStartsWith path "~/" = false
  noDrive : ∀ letter rest, path.toList ≠ letter :: ':' :: rest
  fixed : Sanitizer.safeRelativePath env (.str path) = some path

/-- What is forwarded of a value is a safe path. -/
def SanitisesPath (value : PyValue) : Prop :=
  ∀ path, Sanitizer.safeRelativePath env value = some path → SafePath env path

/-- The text begins with the part `.`, and behind it stands nothing, a part with a colon, or `~`
with a path in it. No other check turns the text away. -/
def HidesHead (text : String) : Prop :=
  text.length ≤ 500 ∧ (pySplit text '/').headD "" = "." ∧ ".." ∉ keptParts text ∧
    (keptParts text = [] ∨ ∃ first rest, keptParts text = first :: rest ∧
      (':' ∈ first.toList ∨ first = "~" ∧ rest ≠ []))

/-! ## The checks -/

variable {env} {text path first : String} {rest : List String}

theorem toList_slash : ("/" : String).toList = ['/'] := rfl

theorem pyContains_colon : pyContains text ":" = true ↔ ':' ∈ text.toList := by
  have hcolon : (":" : String).toList = [':'] := rfl
  have hnone : PyChars.breakAt [':'] text.toList = none ↔ ':' ∉ text.toList := by
    rw [PyChars.breakAt_eq_none_iff (List.cons_ne_nil ':' []), List.singleton_infix_iff]
  rw [pyContains, hcolon, Option.isSome_iff_ne_none, ne_eq, hnone, not_not]

theorem pyStartsWith_iff {start : String} :
    pyStartsWith text start = true ↔ start.toList <+: text.toList := List.isPrefixOf_iff_prefix

/-- A text that begins with a slash has an empty first part. -/
theorem pySplit_of_root (h : pyStartsWith text "/" = true) :
    ∃ rest, pySplit text '/' = "" :: rest := by
  obtain ⟨rest, hrest⟩ := pyStartsWith_iff.mp h
  exact ⟨_, pySplit_append hrest.symm List.not_mem_nil⟩

/-- A text that begins with `~/` has the first part `~`, and another one. -/
theorem pySplit_of_home (h : pyStartsWith text "~/" = true) :
    ∃ rest, rest ≠ [] ∧ pySplit text '/' = "~" :: rest := by
  obtain ⟨rest, hrest⟩ := pyStartsWith_iff.mp h
  have htilde : '/' ∉ ("~" : String).toList := by decide
  have hsplit : pySplit text '/' = "~" :: pySplit (String.ofList rest) '/' :=
    pySplit_append hrest.symm htilde
  exact ⟨_, pySplit_ne_nil, hsplit⟩

theorem home_of_parts (hrest : rest ≠ []) :
    pyStartsWith ("/".intercalate ("~" :: rest)) "~/" = true := by
  rw [pyStartsWith_iff, String.toList_intercalate, List.map_cons,
    List.intercalate_cons_of_ne_nil fun hnil => hrest (List.map_eq_nil_iff.mp hnil)]
  exact List.prefix_append _ _

theorem mem_keptParts {part : String} (h : part ∈ keptParts text) :
    part ∈ pySplit text '/' ∧ part ≠ "" ∧ part ≠ "." := by
  obtain ⟨hin, hkept⟩ := List.mem_filter.mp h
  exact ⟨hin, of_decide_eq_true hkept⟩

/-- The kept parts are the parts of the text they are joined to. -/
theorem pySplit_keptParts (hne : keptParts text ≠ []) :
    pySplit ("/".intercalate (keptParts text)) '/' = keptParts text :=
  pySplit_intercalate toList_slash hne fun _ hpart =>
    not_mem_of_mem_pySplit (mem_keptParts hpart).1

theorem keptParts_keptParts (hne : keptParts text ≠ []) :
    keptParts ("/".intercalate (keptParts text)) = keptParts text := by
  rw [keptParts, pySplit_keptParts hne, keptParts, List.filter_filter]
  simp only [Bool.and_self]

/-- The joined text is no longer than the text. -/
theorem length_keptParts_le : ("/".intercalate (keptParts text)).length ≤ text.length := by
  have hsublist : (keptParts text).Sublist (pySplit text '/') := List.filter_sublist
  have hle : ("/".intercalate (keptParts text)).length ≤ _ := length_intercalate_le hsublist
  rw [intercalate_pySplit toList_slash] at hle
  exact hle

theorem not_mem_slashed (value : PyValue) : '\\' ∉ (slashed env value).toList := by
  have hmark : ∀ (skip : Nat) (cs : List Char),
      '\\' ∉ PyChars.replaceAll ['\\'] ['/'] skip cs := by
    intro skip cs
    induction cs generalizing skip with
    | nil =>
      rw [PyChars.replaceAll.eq_def]
      cases skip with
      | zero => exact List.not_mem_nil
      | succ skip => exact List.not_mem_nil
    | cons c cs ih =>
      cases skip with
      | succ skip =>
        rw [PyChars.replaceAll]
        exact ih skip
      | zero =>
        rw [PyChars.replaceAll]
        split
        · intro hin
          rcases List.mem_append.mp hin with hslash | hlater
          · revert hslash
            decide
          · exact ih _ hlater
        · next hnot =>
          intro hin
          rcases List.mem_cons.mp hin with rfl | hlater
          · exact hnot (List.isPrefixOf_iff_prefix.mpr (List.prefix_append ['\\'] cs))
          · exact ih _ hlater
  rw [slashed, pyReplace, String.toList_ofList]
  exact hmark 0 _

theorem slashed_of_not_mem (h : '\\' ∉ text.toList) : slashed env (.str text) = text := by
  rw [slashed, pyReplace]
  refine String.toList_inj.mp ?_
  rw [String.toList_ofList]
  refine PyChars.replaceAll_of_absent fun hpart => h ?_
  have hmem : ['\\'] <:+: text.toList := hpart
  rwa [List.singleton_infix_iff] at hmem

/-- A path that is joined of parts of a text has slashes only. -/
theorem slashed_of_kept (value : PyValue) :
    slashed env (.str ("/".intercalate (keptParts (slashed env value))))
      = "/".intercalate (keptParts (slashed env value)) := by
  refine slashed_of_not_mem fun hin => ?_
  rcases mem_toList_intercalate hin with hjoint | ⟨part, hpart, hin⟩
  · revert hjoint
    decide
  · exact not_mem_slashed value (mem_toList_of_mem_pySplit (mem_keptParts hpart).1 hin)

/-- What turns a text away. -/
def Rejected (text : String) : Prop :=
  (text = "" ∨ 500 < text.length ∨ pyStartsWith text "/" = true ∨
    pyStartsWith text "~/" = true) ∨
  (':' ∈ ((pySplit text '/').headD "").toList ∨ ".." ∈ keptParts text)

theorem safeRelativePath_of_rejected {value : PyValue} (h : Rejected (slashed env value)) :
    Sanitizer.safeRelativePath env value = none := by
  unfold Sanitizer.safeRelativePath
  dsimp only
  by_cases hstart : slashed env value = "" ∨ 500 < (slashed env value).length ∨
      pyStartsWith (slashed env value) "/" = true ∨ pyStartsWith (slashed env value) "~/" = true
  · exact if_pos hstart
  · refine (if_neg hstart).trans (if_pos ?_)
    rcases h with hearly | hcolon | hup
    · exact absurd hearly hstart
    · exact Or.inl (pyContains_colon.mpr hcolon)
    · exact Or.inr hup

theorem safeRelativePath_of_not_rejected {value : PyValue} (h : ¬ Rejected (slashed env value)) :
    Sanitizer.safeRelativePath env value
      = some ("/".intercalate (keptParts (slashed env value))) := by
  obtain ⟨hstart, hparts⟩ := not_or.mp h
  unfold Sanitizer.safeRelativePath
  dsimp only
  refine (if_neg hstart).trans (if_neg ?_)
  rintro (hcolon | hup)
  · exact hparts (Or.inl (pyContains_colon.mp hcolon))
  · exact hparts (Or.inr hup)

/-! ## What is forwarded -/

/-- A text that is not turned away, and hides nothing behind a leading `.`: its first part that is
kept has no colon, and is `~` only where it is the only one. -/
theorem head_of_not_hidden (hnot : ¬ Rejected text) (hhead : ¬ HidesHead text) :
    ∃ first rest, keptParts text = first :: rest ∧ ':' ∉ first.toList ∧
      ¬(first = "~" ∧ rest ≠ []) := by
  obtain ⟨hstart, hparts⟩ := not_or.mp hnot
  obtain ⟨hcolon, hup⟩ := not_or.mp hparts
  simp only [not_or, not_lt] at hstart
  obtain ⟨hne, hlength, hroot, hhome⟩ := hstart
  by_cases hdot : (pySplit text '/').headD "" = "."
  · -- the head is dropped: the next part is the one the condition is about
    have hrest := fun hkind => hhead ⟨hlength, hdot, hup, hkind⟩
    cases hkept : keptParts text with
    | nil => exact absurd (Or.inl hkept) hrest
    | cons first rest =>
      refine ⟨first, rest, rfl, fun hin => hrest ?_, fun hboth => hrest ?_⟩
      · exact Or.inr ⟨first, rest, hkept, Or.inl hin⟩
      · exact Or.inr ⟨first, rest, hkept, Or.inr hboth⟩
  · -- the head stays, and was looked at
    cases hsplit : pySplit text '/' with
    | nil => exact absurd hsplit pySplit_ne_nil
    | cons first rest =>
      rw [hsplit, List.headD_cons] at hdot hcolon
      have hjoin : "/".intercalate (first :: rest) = text := by
        rw [← hsplit, intercalate_pySplit toList_slash]
      have hfirst : first ≠ "" := by
        rintro rfl
        by_cases hrest : rest = []
        · rw [hrest, String.intercalate_singleton] at hjoin
          exact hne hjoin.symm
        · refine hroot ?_
          rw [← hjoin, pyStartsWith_iff, String.intercalate_cons_of_ne_nil hrest]
          rw [String.toList_append, String.toList_append]
          exact List.prefix_append _ _
      refine ⟨first, rest.filter fun part => part ≠ "" ∧ part ≠ ".", ?_, hcolon, ?_⟩
      · have hin : decide (first ≠ "" ∧ first ≠ ".") = true := decide_eq_true ⟨hfirst, hdot⟩
        rw [keptParts, hsplit]
        exact List.filter_cons_of_pos hin
      · rintro ⟨rfl, hkept⟩
        refine hhome ?_
        rw [← hjoin]
        exact home_of_parts fun hnil => hkept (by rw [hnil, List.filter_nil])

/-- A colon in the second place is in the first part. -/
theorem colon_mem_of_drive {letter : Char} {others : List Char} (hfirst : first ≠ "")
    (hdrive : ("/".intercalate (first :: rest)).toList = letter :: ':' :: others) :
    ':' ∈ first.toList := by
  cases hchars : first.toList with
  | nil => exact absurd (String.toList_eq_nil_iff.mp hchars) hfirst
  | cons c cs =>
    have hstart : ∃ tail, letter :: ':' :: others = c :: cs ++ tail ∧ (tail = [] ∨ ∃ tail',
        tail = '/' :: tail') := by
      rw [← hdrive]
      by_cases hrest : rest = []
      · refine ⟨[], ?_, Or.inl rfl⟩
        rw [hrest, String.intercalate_singleton, hchars, List.append_nil]
      · refine ⟨_, ?_, Or.inr ⟨("/".intercalate rest).toList, rfl⟩⟩
        rw [String.intercalate_cons_of_ne_nil hrest, String.toList_append, String.toList_append,
          hchars, toList_slash, List.append_assoc, List.singleton_append]
    obtain ⟨tail, htail, hend⟩ := hstart
    rw [List.cons_append] at htail
    obtain ⟨-, hcs⟩ := List.cons.inj htail
    cases cs with
    | nil =>
      rcases hend with rfl | ⟨tail', rfl⟩
      · cases hcs
      · exact absurd (List.cons.inj hcs).1 (by decide)
    | cons d ds =>
      rw [← (List.cons.inj hcs).1]
      exact List.mem_cons_of_mem _ List.mem_cons_self

/-- What is joined of such parts is a safe path. -/
theorem safePath_of_head {value : PyValue} (hnot : ¬ Rejected (slashed env value))
    (hkept : keptParts (slashed env value) = first :: rest) (hcolon : ':' ∉ first.toList)
    (hhome : ¬(first = "~" ∧ rest ≠ [])) :
    SafePath env ("/".intercalate (keptParts (slashed env value))) := by
  obtain ⟨hstart, hparts⟩ := not_or.mp hnot
  simp only [not_or, not_lt] at hstart
  have hne : keptParts (slashed env value) ≠ [] := by
    rw [hkept]
    exact List.cons_ne_nil _ _
  have hsplit := pySplit_keptParts hne
  have hfirst : first ≠ "" := (mem_keptParts (hkept ▸ List.mem_cons_self)).2.1
  generalize hpath : "/".intercalate (keptParts (slashed env value)) = path at hsplit ⊢
  have hempty : path ≠ "" := by
    rintro rfl
    have hsingle : pySplit "" '/' = [""] := by decide
    rw [hsingle, hkept] at hsplit
    exact hfirst (List.cons.inj hsplit).1.symm
  have hroot : ¬ pyStartsWith path "/" = true := by
    intro hyes
    obtain ⟨others, hothers⟩ := pySplit_of_root hyes
    rw [hothers, hkept] at hsplit
    exact hfirst (List.cons.inj hsplit).1.symm
  have htilde : ¬ pyStartsWith path "~/" = true := by
    intro hyes
    obtain ⟨others, hothers, hall⟩ := pySplit_of_home hyes
    rw [hall, hkept] at hsplit
    obtain ⟨hhead, htail⟩ := List.cons.inj hsplit
    exact hhome ⟨hhead.symm, htail ▸ hothers⟩
  have hslash : slashed env (.str path) = path := by
    rw [← hpath, slashed_of_kept]
  have hlength : path.length ≤ 500 := by
    rw [← hpath]
    exact length_keptParts_le.trans hstart.2.1
  have hsame : keptParts path = keptParts (slashed env value) := by
    rw [← hpath, keptParts_keptParts hne]
  have hagain : ¬ Rejected (slashed env (.str path)) := by
    rw [hslash]
    rintro ((hno | hlong | hyes | hyes) | hin | hup)
    · exact hempty hno
    · exact absurd hlength (Nat.not_le_of_lt hlong)
    · exact hroot hyes
    · exact htilde hyes
    · rw [hsplit, hkept] at hin
      exact hcolon hin
    · rw [hsame] at hup
      exact hparts (Or.inr hup)
  refine ⟨hempty, fun part hpart => ?_, ?_, ?_, fun letter others hdrive => ?_, ?_⟩
  · rw [hsplit] at hpart
    obtain ⟨-, hnotEmpty, hnotDot⟩ := mem_keptParts hpart
    refine ⟨hnotEmpty, hnotDot, ?_⟩
    rintro rfl
    exact hparts (Or.inr hpart)
  · exact Bool.eq_false_iff.mpr hroot
  · exact Bool.eq_false_iff.mpr htilde
  · refine hcolon ?_
    rw [← hpath, hkept] at hdrive
    exact colon_mem_of_drive hfirst hdrive
  · rw [safeRelativePath_of_not_rejected hagain, hslash, hsame, hpath]

/-- **What is forwarded of a value is a safe relative path** exactly where the value hides no head
behind a leading `.`. -/
theorem sanitisesPath_iff (env : SanitizerEnv) (value : PyValue) :
    SanitisesPath env value ↔ ¬ HidesHead (slashed env value) := by
  by_cases hreject : Rejected (slashed env value)
  · -- nothing is forwarded, and the other checks are among the conditions
    constructor
    · rintro - ⟨hlength, hdot, hup, -⟩
      rcases hreject with (hempty | hlong | hroot | hhome) | hcolon | hin
      · rw [hempty] at hdot
        exact absurd hdot (by decide)
      · exact absurd hlength (Nat.not_le_of_lt hlong)
      · obtain ⟨rest, hrest⟩ := pySplit_of_root hroot
        rw [hrest, List.headD_cons] at hdot
        exact absurd hdot (by decide)
      · obtain ⟨rest, -, hrest⟩ := pySplit_of_home hhome
        rw [hrest, List.headD_cons] at hdot
        exact absurd hdot (by decide)
      · rw [hdot] at hcolon
        exact absurd hcolon (by decide)
      · exact hup hin
    · intro _ path hpath
      rw [safeRelativePath_of_rejected hreject] at hpath
      cases hpath
  have hforwarded := safeRelativePath_of_not_rejected hreject
  constructor
  · rintro hsafe ⟨-, -, -, hkind⟩
    have hpath := hsafe _ hforwarded
    rcases hkind with hnone | ⟨first, rest, hkept, hbad⟩
    · refine hpath.nonempty ?_
      rw [hnone, String.intercalate_nil]
    have hne : keptParts (slashed env value) ≠ [] := by
      rw [hkept]
      exact List.cons_ne_nil _ _
    rcases hbad with hcolon | ⟨rfl, hrest⟩
    · -- asked again, the path is turned away
      have hfixed := hpath.fixed
      have hslash : slashed env (.str ("/".intercalate (keptParts (slashed env value))))
          = "/".intercalate (keptParts (slashed env value)) := slashed_of_kept value
      rw [safeRelativePath_of_rejected (Or.inr (Or.inl ?_))] at hfixed
      · cases hfixed
      · rw [hslash, pySplit_keptParts hne, hkept]
        exact hcolon
    · have hhome := hpath.noHome
      rw [hkept, home_of_parts hrest] at hhome
      cases hhome
  · intro hhead path hpath
    rw [hforwarded] at hpath
    obtain ⟨first, rest, hkept, hcolon, hhome⟩ := head_of_not_hidden hreject hhead
    rw [← Option.some.inj hpath]
    exact safePath_of_head hreject hkept hcolon hhome

/-- A sanitizer without secrets. -/
def plainEnv : SanitizerEnv where
  txt := .ascii
  upper := String.toUpper
  secrets := []
  others _ data := data

/-- A drive behind a leading `.` is forwarded. -/
theorem not_sanitisesPath : ¬ ∀ (env : SanitizerEnv) (value : PyValue),
    SanitisesPath env value := by
  intro hclaim
  have hpath := hclaim plainEnv (.str "./C:/Windows") "C:/Windows" (by decide +kernel)
  exact hpath.noDrive 'C' "/Windows".toList rfl

end SafePaths

end ThreadForge

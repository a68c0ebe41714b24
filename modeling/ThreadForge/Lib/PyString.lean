import ThreadForge.Lib.PyValue
import Mathlib.Tactic.IntervalCases

/-!
# The string methods of Python

`strip`, `find`, `in`, `partition`, `replace`, `count`, `splitlines` and the slices, on the
characters of a string. A separator or a text to replace is never empty where these are called.
-/

/-! ## On lists of characters -/

namespace PyChars

/-- The text before the first `sep`, and the text after it. -/
def breakAt (sep : List Char) : List Char → Option (List Char × List Char)
  | [] => if sep.isEmpty then some ([], []) else none
  | c :: cs =>
    if sep.isPrefixOf (c :: cs) then some ([], (c :: cs).drop sep.length)
    else (breakAt sep cs).map fun parts => (c :: parts.1, parts.2)

theorem breakAt_nil (sep : List Char) :
    breakAt sep [] = if sep.isEmpty then some ([], []) else none := rfl

theorem breakAt_cons (sep : List Char) (c : Char) (cs : List Char) :
    breakAt sep (c :: cs) =
      if sep.isPrefixOf (c :: cs) then some ([], (c :: cs).drop sep.length)
      else (breakAt sep cs).map fun parts => (c :: parts.1, parts.2) := rfl

/-- `s.replace(old, new)`, with the number of characters of the last match still to skip. -/
def replaceAll (old new : List Char) : Nat → List Char → List Char
  | _, [] => []
  | skip + 1, _ :: cs => replaceAll old new skip cs
  | 0, c :: cs =>
    if old.isPrefixOf (c :: cs) then new ++ replaceAll old new (old.length - 1) cs
    else c :: replaceAll old new 0 cs

/-- `s.count(sub)`, with the number of characters of the last match still to skip. -/
def countOf (sub : List Char) : Nat → List Char → Nat
  | _, [] => 0
  | skip + 1, _ :: cs => countOf sub skip cs
  | 0, c :: cs =>
    if sub.isPrefixOf (c :: cs) then 1 + countOf sub (sub.length - 1) cs else countOf sub 0 cs

/-- The characters that end a line for `splitlines`. -/
def isLineBreak (c : Char) : Bool :=
  c ∈ ['\n', '\r', '\x0b', '\x0c', '\x1c', '\x1d', '\x1e', '\u0085', '\u2028', '\u2029']

/-- `s.splitlines()`, with the characters of the line being read, latest first. -/
def splitLines : List Char → List Char → List (List Char)
  | line, [] => if line.isEmpty then [] else [line.reverse]
  | line, '\r' :: '\n' :: cs => line.reverse :: splitLines [] cs
  | line, c :: cs =>
    if isLineBreak c then line.reverse :: splitLines [] cs else splitLines (c :: line) cs

/-- `s.split(sep)` at one character. -/
def splitOn (sep : Char) : List Char → List Char → List (List Char)
  | part, [] => [part.reverse]
  | part, c :: cs => if c = sep then part.reverse :: splitOn sep [] cs else splitOn sep (c :: part) cs

/-- What reading in text mode makes of the line ends. -/
def universalNewlines : List Char → List Char
  | [] => []
  | '\r' :: '\n' :: cs => '\n' :: universalNewlines cs
  | c :: cs => (if c = '\r' then '\n' else c) :: universalNewlines cs

end PyChars

/-! ## On strings -/

/-- `s.strip()`. -/
def pyStrip (txt : PyText) (s : String) : String := String.ofList (PyValue.stripChars txt s)

/-- `sub in s`. -/
def pyContains (s sub : String) : Bool := (PyChars.breakAt sub.toList s.toList).isSome

/-- `s.find(sub)`, where it is not -1. -/
def pyFind? (s sub : String) : Option Nat :=
  (PyChars.breakAt sub.toList s.toList).map fun parts => parts.1.length

/-- `s[n:]`. -/
def pyDrop (s : String) (n : Nat) : String := String.ofList (s.toList.drop n)

/-- `s.partition(sep)`, without the middle part. -/
def pyPartition (s sep : String) : String × String :=
  match PyChars.breakAt sep.toList s.toList with
  | some parts => (String.ofList parts.1, String.ofList parts.2)
  | none => (s, "")

/-- `s.replace(old, new)`. -/
def pyReplace (s old new : String) : String :=
  String.ofList (PyChars.replaceAll old.toList new.toList 0 s.toList)

/-- `s.replace(old, new, 1)`. -/
def pyReplaceFirst (s old new : String) : String :=
  match PyChars.breakAt old.toList s.toList with
  | some parts => String.ofList (parts.1 ++ new.toList ++ parts.2)
  | none => s

/-- `s.count(sub)`. -/
def pyCount (s sub : String) : Nat := PyChars.countOf sub.toList 0 s.toList

/-- `s.splitlines()`. -/
def pySplitLines (s : String) : List String := (PyChars.splitLines [] s.toList).map String.ofList

/-- `s.split(sep)` at one character. -/
def pySplit (s : String) (sep : Char) : List String :=
  (PyChars.splitOn sep [] s.toList).map String.ofList

/-- `s.endswith(suffix)`. -/
def pyEndsWith (s suffix : String) : Bool := suffix.toList.isSuffixOf s.toList

/-- `s.rstrip(c)`. -/
def pyRstripChar (s : String) (c : Char) : String :=
  String.ofList ((s.toList.reverse.dropWhile (· == c)).reverse)

/-- `s.strip(c)`. -/
def pyStripChar (s : String) (c : Char) : String :=
  pyRstripChar (String.ofList (s.toList.dropWhile (· == c))) c

/-- `"\n".join(lines)`. -/
def joinLines (lines : List String) : String := "\n".intercalate lines

/-- The decimal text of a number, right aligned in `width` columns. -/
def padLeft (n : Nat) (width : Nat) : String :=
  let digits := toString n
  String.ofList (List.replicate (width - digits.length) ' ') ++ digits

/-! ## Anchored patterns

`re.match` of the few patterns in use: a pattern maps a text to what can be left after a match at
its start. -/

/-- A pattern. -/
abbrev PyPattern := List Char → List (List Char)

namespace PyPattern

/-- A literal text. -/
def lit (text : String) : PyPattern := fun cs =>
  if text.toList.isPrefixOf cs then [cs.drop text.length] else []

/-- One of several patterns. -/
def oneOf (patterns : List PyPattern) : PyPattern := fun cs => patterns.flatMap fun p => p cs

/-- One pattern after the other. -/
def andThen (p q : PyPattern) : PyPattern := fun cs => (p cs).flatMap q

/-- A pattern, or nothing. -/
def opt (p : PyPattern) : PyPattern := fun cs => p cs ++ [cs]

/-- Any number of characters of a class. -/
def many (cls : Char → Bool) : PyPattern
  | [] => [[]]
  | c :: cs => (if cls c then many cls cs else []) ++ [c :: cs]

/-- At least one character of a class. -/
def many1 (cls : Char → Bool) : PyPattern
  | [] => []
  | c :: cs => if cls c then many cls cs else []

/-- `re.match(pattern, text)` finds something. -/
def matchesStart (p : PyPattern) (text : String) : Bool := !(p text.toList).isEmpty

/-- `pattern.fullmatch(text)` finds something. -/
def matchesAll (p : PyPattern) (text : String) : Bool := (p text.toList).any List.isEmpty

/-- One character as `re.IGNORECASE` compares it with a lower-case ASCII letter. -/
def foldCase (c : Char) : Char :=
  if c = 'İ' ∨ c = 'ı' then 'i'
  else if c = 'ſ' then 's'
  else if c.toNat = 0x212a then 'k'
  else c.toLower

end PyPattern

/-! ## `workspace.clip` -/

/-- `MAX_TOOL_OUTPUT`. -/
def maxToolOutput : Nat := 4000

/-- `clip(text, limit)`. -/
def clipText (text : String) (limit : Nat) : String :=
  if text.length ≤ limit then text
  else pyClip text limit ++ "\n...[truncated " ++ toString (text.length - limit) ++ " chars]"

example : pyReplace "a/b/c" "/" "--" = "a--b--c" ∧ pyCount "aaaa" "aa" = 2 ∧
    pySplitLines "x\r\ny\n\nz" = ["x", "y", "", "z"] ∧ pyPartition "p:q:r" ":" = ("p", "q:r") := by
  decide

/-! ## Numerals -/

/-- A number that is not 0 does not start with the digit 0. -/
theorem toDigits_head : ∀ n : Nat, 0 < n → ∃ c cs, Nat.toDigits 10 n = c :: cs ∧ c ≠ '0' := by
  intro n
  induction n using Nat.strongRecOn with
  | ind n ih =>
    intro hn
    rw [Nat.toDigits_eq_if (by decide)]
    split
    · next hsmall =>
      refine ⟨n.digitChar, [], rfl, ?_⟩
      interval_cases n <;> decide
    · obtain ⟨c, cs, hhead, hc⟩ := ih (n / 10) (by omega) (by omega)
      exact ⟨c, cs ++ [Nat.digitChar (n % 10)], by rw [hhead]; rfl, hc⟩

/-- The sign of a number and its digits. -/
theorem toString_int (n : Int) :
    (toString n).toList =
      (if n < 0 then ['-'] else []) ++ Nat.toDigits 10 n.natAbs := by
  cases n with
  | ofNat m =>
    rw [if_neg (show ¬Int.ofNat m < 0 from Int.not_lt.mpr (Int.natCast_nonneg m)), List.nil_append]
    exact Nat.toList_repr
  | negSucc m =>
    rw [if_pos (Int.negSucc_lt_zero m)]
    show ("-" ++ Nat.repr (m + 1)).toList = _
    rw [String.toList_append, Nat.toList_repr]
    rfl

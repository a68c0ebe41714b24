import ThreadForge.Lib.PyValue

/-!
# JSON texts

`json.dumps(value, sort_keys=True, ensure_ascii=True)` and `json.loads`, on the characters of a
text. Decoding is by recursive descent; whatever is not JSON is refused, as `JSONDecodeError`.

## Main results

* `PyJson.scanString_encoded` — a string is read back from its text.
* `PyJson.loads_objectText` — an object of strings is read back from its text.
* `PyJson.loads_joined` — an object text that was cut short and continued by another one is refused.
-/

namespace PyJson

/-- What decoding reads of CPython: `float` of a numeral, and the character that stands for a lone
surrogate. -/
structure Tables where
  float : String → PyFloat
  loneSurrogate : Nat → Char

/-! ## Encoding -/

/-- The UTF-16 code units of a character. -/
def unitsOf (c : Char) : List Nat :=
  if c.toNat < 0x10000 then [c.toNat]
  else [0xd800 + (c.toNat - 0x10000) / 0x400, 0xdc00 + (c.toNat - 0x10000) % 0x400]

/-- The pieces a string is written in: a character as it is, a short escape, or a code unit. -/
inductive Atom
  | plain (c : Char)
  | short (e : Char) (c : Char)
  | unit (n : Nat)
  deriving DecidableEq, Repr

/-- The letter of the short escape of a character. -/
def escapeOf (c : Char) : Option Char :=
  if c = '"' ∨ c = '\\' then some c
  else if c = '\n' then some 'n'
  else if c = '\r' then some 'r'
  else if c = '\t' then some 't'
  else if c.toNat = 8 then some 'b'
  else if c.toNat = 12 then some 'f'
  else none

/-- How `ensure_ascii` writes a character. -/
def atomsOf (c : Char) : List Atom :=
  match escapeOf c with
  | some e => [.short e c]
  | none => if 0x20 ≤ c.toNat ∧ c.toNat ≤ 0x7e then [.plain c] else (unitsOf c).map .unit

/-- `"\\u{:04x}"`, without its first two characters. -/
def hexFour (n : Nat) : List Char :=
  [Nat.digitChar (n / 4096), Nat.digitChar (n / 256 % 16), Nat.digitChar (n / 16 % 16),
    Nat.digitChar (n % 16)]

def Atom.text : Atom → List Char
  | .plain c => [c]
  | .short e _ => ['\\', e]
  | .unit n => '\\' :: 'u' :: hexFour n

/-- The code unit an atom stands for. -/
def Atom.code : Atom → Nat
  | .plain c => c.toNat
  | .short _ c => c.toNat
  | .unit n => n

/-- A string between its quotes. -/
def stringBody (s : String) : List Char := (s.toList.flatMap atomsOf).flatMap Atom.text

def stringText (s : String) : List Char := '"' :: (stringBody s ++ ['"'])

/-- `", ".join(...)`, on characters. -/
def joinTexts : List (List Char) → List Char
  | [] => []
  | [x] => x
  | x :: y :: rest => x ++ ',' :: ' ' :: joinTexts (y :: rest)

/-- `"key": text`. -/
def memberText (member : String × List Char) : List Char :=
  stringText member.1 ++ ':' :: ' ' :: member.2

/-- The text of an object, from its members and their texts in the order they are written. -/
def objectOf (members : List (String × List Char)) : List Char :=
  '\x7b' :: (joinTexts (members.map memberText) ++ ['\x7d'])

mutual

/-- `json.dumps(value, sort_keys=True, ensure_ascii=True)`. -/
def dumps (txt : PyText) : PyValue → List Char
  | .none => "null".toList
  | .bool b => (if b then "true" else "false").toList
  | .int n => (toString n).toList
  | .float x => (PyValue.jsonFloat txt x).toList
  | .str s => stringText s
  | .list items => '[' :: (joinTexts (dumpsItems txt items) ++ [']'])
  | .dict entries => objectOf ((dumpsEntries txt entries).insertionSort fun a b => a.1 ≤ b.1)

def dumpsItems (txt : PyText) : List PyValue → List (List Char)
  | [] => []
  | x :: xs => dumps txt x :: dumpsItems txt xs

def dumpsEntries (txt : PyText) : List (String × PyValue) → List (String × List Char)
  | [] => []
  | (k, x) :: xs => (k, dumps txt x) :: dumpsEntries txt xs

end

/-! ## Decoding -/

def isBlank (c : Char) : Bool := c = ' ' || c = '\t' || c = '\n' || c = '\r'

def skipBlanks (cs : List Char) : List Char := cs.dropWhile isBlank

/-- The value of a hexadecimal digit. -/
def hexValue (c : Char) : Option Nat :=
  if '0' ≤ c ∧ c ≤ '9' then some (c.toNat - 48)
  else if 'a' ≤ c ∧ c ≤ 'f' then some (c.toNat - 87)
  else if 'A' ≤ c ∧ c ≤ 'F' then some (c.toNat - 55)
  else none

/-- The code unit of four hexadecimal digits. -/
def hexUnit (a b c d : Char) : Option Nat := do
  let a ← hexValue a
  let b ← hexValue b
  let c ← hexValue c
  let d ← hexValue d
  pure (a * 4096 + b * 256 + c * 16 + d)

/-- The character of a short escape. -/
def escapeCode (e : Char) : Option Nat :=
  if e = '"' ∨ e = '\\' ∨ e = '/' then some e.toNat
  else if e = 'b' then some 8
  else if e = 'f' then some 12
  else if e = 'n' then some 10
  else if e = 'r' then some 13
  else if e = 't' then some 9
  else none

/-- The code units of a string up to its closing quote, and the text after it. -/
def scanUnits : List Char → Option (List Nat × List Char)
  | [] => none
  | '"' :: cs => some ([], cs)
  | '\\' :: 'u' :: a :: b :: c :: d :: cs =>
    (hexUnit a b c d).bind fun n => (scanUnits cs).map fun r => (n :: r.1, r.2)
  | '\\' :: e :: cs =>
    (escapeCode e).bind fun n => (scanUnits cs).map fun r => (n :: r.1, r.2)
  | c :: cs =>
    if c = '\\' ∨ c.toNat < 0x20 then none
    else (scanUnits cs).map fun r => (c.toNat :: r.1, r.2)

def isHigh (n : Nat) : Bool := 0xd800 ≤ n && n < 0xdc00

def isLow (n : Nat) : Bool := 0xdc00 ≤ n && n < 0xe000

section

variable (t : Tables)

def unitChar (n : Nat) : Char := if isHigh n || isLow n then t.loneSurrogate n else Char.ofNat n

/-- The characters of the code units: a high surrogate and the low one after it are one. -/
def joinUnits : List Nat → List Char
  | [] => []
  | [n] => [unitChar t n]
  | high :: low :: rest =>
    if isHigh high && isLow low then
      Char.ofNat (0x10000 + (high - 0xd800) * 0x400 + (low - 0xdc00)) :: joinUnits rest
    else unitChar t high :: joinUnits (low :: rest)

/-- A string, after its opening quote. -/
def scanString (cs : List Char) : Option (String × List Char) :=
  (scanUnits cs).map fun r => (String.ofList (joinUnits t r.1), r.2)

/-- The digits at the start of a text, and the rest. -/
def scanDigits (cs : List Char) : List Char × List Char :=
  (cs.takeWhile Char.isDigit, cs.dropWhile Char.isDigit)

/-- The digits of an integer: no zero before another digit. -/
def scanWhole : List Char → Option (List Char × List Char)
  | '0' :: cs => some (['0'], cs)
  | cs => if (scanDigits cs).1 = [] then none else some (scanDigits cs)

def scanFraction : List Char → List Char × List Char
  | '.' :: cs =>
    if (scanDigits cs).1 = [] then ([], '.' :: cs)
    else ('.' :: (scanDigits cs).1, (scanDigits cs).2)
  | cs => ([], cs)

def scanSign : List Char → List Char × List Char
  | '-' :: cs => (['-'], cs)
  | '+' :: cs => (['+'], cs)
  | cs => ([], cs)

def scanExponent : List Char → List Char × List Char
  | [] => ([], [])
  | c :: cs =>
    let digits := scanDigits (scanSign cs).2
    if (c = 'e' ∨ c = 'E') ∧ digits.1 ≠ [] then (c :: (scanSign cs).1 ++ digits.1, digits.2)
    else ([], c :: cs)

/-- The value of decimal digits. -/
def digitsValue (cs : List Char) : Nat := cs.foldl (fun n c => 10 * n + (c.toNat - 48)) 0

/-- A number, after its sign. -/
def scanUnsigned (negative : Bool) (cs : List Char) : Option (PyValue × List Char) := do
  let whole ← scanWhole cs
  let fraction := scanFraction whole.2
  let exponent := scanExponent fraction.2
  if fraction.1 = [] ∧ exponent.1 = [] then
    if PyValue.maxStrDigits < whole.1.length then none
    else
      let n : Int := digitsValue whole.1
      pure (.int (if negative then -n else n), whole.2)
  else
    let text := (if negative then ['-'] else []) ++ whole.1 ++ fraction.1 ++ exponent.1
    pure (.float (t.float (String.ofList text)), exponent.2)

/-- The words of JSON with their values. -/
def words : List (String × PyValue) :=
  [("null", .none), ("true", .bool true), ("false", .bool false), ("NaN", .float .nan),
    ("Infinity", .float (.inf false)), ("-Infinity", .float (.inf true))]

/-- A word or a number. -/
def scanWord (cs : List Char) : Option (PyValue × List Char) :=
  match words.find? fun word => word.1.toList.isPrefixOf cs with
  | some word => some (word.2, cs.drop word.1.length)
  | none => match cs with
    | '-' :: cs => scanUnsigned t true cs
    | cs => scanUnsigned t false cs

mutual

/-- A value and the text after it. -/
def scanValue : Nat → List Char → Option (PyValue × List Char)
  | 0, _ => none
  | _ + 1, '"' :: cs => (scanString t cs).map fun r => (.str r.1, r.2)
  | fuel + 1, '\x7b' :: cs =>
    match skipBlanks cs with
    | '\x7d' :: cs => some (.dict [], cs)
    | cs => (scanMembers fuel [] cs).map fun r => (.dict r.1, r.2)
  | fuel + 1, '[' :: cs =>
    match skipBlanks cs with
    | ']' :: cs => some (.list [], cs)
    | cs => (scanItems fuel [] cs).map fun r => (.list r.1, r.2)
  | _ + 1, cs => scanWord t cs

/-- The members of an object, after its brace or a comma. -/
def scanMembers : Nat → PyDict → List Char → Option (PyDict × List Char)
  | fuel + 1, members, '"' :: cs =>
    match scanString t cs with
    | none => none
    | some (key, cs) => match skipBlanks cs with
      | ':' :: cs => match scanValue fuel (skipBlanks cs) with
        | none => none
        | some (value, cs) => match skipBlanks cs with
          | '\x7d' :: cs => some (members.set key value, cs)
          | ',' :: cs => scanMembers fuel (members.set key value) (skipBlanks cs)
          | _ => none
      | _ => none
  | _, _, _ => none

/-- The items of an array, after its bracket or a comma. -/
def scanItems : Nat → List PyValue → List Char → Option (List PyValue × List Char)
  | 0, _, _ => none
  | fuel + 1, items, cs =>
    match scanValue fuel cs with
    | none => none
    | some (value, cs) => match skipBlanks cs with
      | ']' :: cs => some (items ++ [value], cs)
      | ',' :: cs => scanItems fuel (items ++ [value]) (skipBlanks cs)
      | _ => none

end

/-- `json.loads(text)`; every step of the descent takes a character. -/
def loads (cs : List Char) : Option PyValue :=
  if cs.head? = some '\ufeff' then none
  else match scanValue t (cs.length + 1) (skipBlanks cs) with
    | some (value, rest) => if skipBlanks rest = [] then some value else none
    | none => none

end

/-! ## Strings are read back -/

/-- An atom is what `atomsOf` can write. -/
def Atom.Valid : Atom → Prop
  | .plain c => 0x20 ≤ c.toNat ∧ c.toNat ≤ 0x7e ∧ c ≠ '"' ∧ c ≠ '\\'
  | .short e c => e ≠ 'u' ∧ 0x20 ≤ e.toNat ∧ e.toNat ≤ 0x7e ∧ c.toNat < 0x80 ∧
    escapeCode e = some c.toNat
  | .unit n => n < 0x10000

variable {cs rest : List Char} {c : Char} {s : String} {a : Atom}

theorem short_of_escapeOf {e : Char} (h : escapeOf c = some e) :
    (Atom.short e c).Valid := by
  have hcode : ∀ n, c.toNat = n → c = Char.ofNat n := fun n hn => by
    rw [← hn, Char.ofNat_toNat]
  unfold escapeOf at h
  split at h
  · next hc =>
    rw [← Option.some.inj h]
    rcases hc with rfl | rfl <;> exact ⟨by decide, by decide, by decide, by decide, by decide⟩
  split at h
  · next hc =>
    rw [← Option.some.inj h, hc]
    exact ⟨by decide, by decide, by decide, by decide, by decide⟩
  split at h
  · next hc =>
    rw [← Option.some.inj h, hc]
    exact ⟨by decide, by decide, by decide, by decide, by decide⟩
  split at h
  · next hc =>
    rw [← Option.some.inj h, hc]
    exact ⟨by decide, by decide, by decide, by decide, by decide⟩
  split at h
  · next hc =>
    rw [← Option.some.inj h, hcode 8 hc]
    exact ⟨by decide, by decide, by decide, by decide, by decide⟩
  split at h
  · next hc =>
    rw [← Option.some.inj h, hcode 12 hc]
    exact ⟨by decide, by decide, by decide, by decide, by decide⟩
  · cases h

theorem plain_of_escapeOf (h : escapeOf c = none) : c ≠ '"' ∧ c ≠ '\\' := by
  unfold escapeOf at h
  split at h
  · cases h
  · next hc => exact not_or.mp hc

theorem lt_of_mem_unitsOf {n : Nat} (h : n ∈ unitsOf c) : n < 0x10000 := by
  have hc : c.toNat < 0x110000 := by
    rcases c.valid with hsmall | ⟨-, hlarge⟩
    · exact Nat.lt_trans hsmall (by decide)
    · exact hlarge
  unfold unitsOf at h
  split at h
  · next hsmall =>
    rw [List.mem_singleton] at h
    omega
  · simp only [List.mem_cons, List.not_mem_nil, or_false] at h
    omega

theorem valid_atomsOf (h : a ∈ atomsOf c) : a.Valid := by
  unfold atomsOf at h
  split at h
  · next e he =>
    rw [List.mem_singleton] at h
    rw [h]
    exact short_of_escapeOf he
  next hnone =>
  split at h
  · next hplain =>
    rw [List.mem_singleton] at h
    rw [h]
    exact ⟨hplain.1, hplain.2, plain_of_escapeOf hnone⟩
  · obtain ⟨n, hn, rfl⟩ := List.mem_map.mp h
    exact lt_of_mem_unitsOf hn

/-- The atoms of a character stand for its code units. -/
theorem code_atomsOf (c : Char) : (atomsOf c).map Atom.code = unitsOf c := by
  unfold atomsOf
  split
  · next e he =>
    obtain ⟨-, -, -, hsmall, -⟩ := short_of_escapeOf he
    rw [unitsOf, if_pos (by omega)]
    rfl
  · split
    · next hplain =>
      rw [unitsOf, if_pos (by omega)]
      rfl
    · rw [List.map_map]
      exact List.map_id _

theorem hexValue_digitChar {n : Nat} (h : n < 16) : hexValue (Nat.digitChar n) = some n := by
  have hall : ∀ n < 16, hexValue (Nat.digitChar n) = some n := by decide
  exact hall n h

theorem hexUnit_hexFour {n : Nat} (h : n < 0x10000) :
    hexUnit (Nat.digitChar (n / 4096)) (Nat.digitChar (n / 256 % 16))
      (Nat.digitChar (n / 16 % 16)) (Nat.digitChar (n % 16)) = some n := by
  unfold hexUnit
  rw [hexValue_digitChar (by omega), hexValue_digitChar (by omega), hexValue_digitChar (by omega),
    hexValue_digitChar (by omega)]
  simp only [Option.bind_eq_bind, Option.bind_some, Option.pure_def, Option.some.injEq]
  omega

theorem scanUnits_quote (cs : List Char) : scanUnits ('"' :: cs) = some ([], cs) := rfl

theorem scanUnits_unicode (a b c d : Char) (cs : List Char) :
    scanUnits ('\\' :: 'u' :: a :: b :: c :: d :: cs) =
      (hexUnit a b c d).bind fun n => (scanUnits cs).map fun r => (n :: r.1, r.2) := rfl

theorem scanUnits_escape {e : Char} (he : e ≠ 'u') (cs : List Char) :
    scanUnits ('\\' :: e :: cs) =
      (escapeCode e).bind fun n => (scanUnits cs).map fun r => (n :: r.1, r.2) := by
  rw [scanUnits.eq_4]
  intro a b c d cs' h
  exact absurd h he

theorem scanUnits_plain (hquote : c ≠ '"') (hslash : c ≠ '\\') (hvisible : 0x20 ≤ c.toNat)
    (cs : List Char) :
    scanUnits (c :: cs) = (scanUnits cs).map fun r => (c.toNat :: r.1, r.2) := by
  rw [scanUnits.eq_5]
  · exact if_neg (by
      rintro (h | h)
      · exact hslash h
      · omega)
  · exact fun h => hquote h
  · exact fun a b c d cs' h _ => hslash h
  · exact fun e cs' h _ => hslash h

/-- An atom is read as its code unit. -/
theorem scanUnits_atom (h : a.Valid) (cs : List Char) :
    scanUnits (a.text ++ cs) = (scanUnits cs).map fun r => (a.code :: r.1, r.2) := by
  cases a with
  | plain c =>
    obtain ⟨hvisible, -, hquote, hslash⟩ := h
    exact scanUnits_plain hquote hslash hvisible cs
  | short e c =>
    obtain ⟨hne, -, -, -, hcode⟩ := h
    show scanUnits ('\\' :: e :: cs) = _
    rw [scanUnits_escape hne, hcode]
    rfl
  | unit n =>
    show scanUnits ('\\' :: 'u' :: _ :: _ :: _ :: _ :: cs) = _
    rw [scanUnits_unicode, hexUnit_hexFour h]
    rfl

theorem scanUnits_atoms {as : List Atom} (h : ∀ a ∈ as, a.Valid) (rest : List Char) :
    scanUnits (as.flatMap Atom.text ++ '"' :: rest) = some (as.map Atom.code, rest) := by
  induction as with
  | nil => rw [List.flatMap_nil, List.nil_append, scanUnits_quote, List.map_nil]
  | cons a as ih =>
    rw [List.flatMap_cons, List.append_assoc, scanUnits_atom (h a List.mem_cons_self),
      ih fun b hb => h b (List.mem_cons_of_mem _ hb)]
    rfl

variable (t : Tables)

theorem unitChar_of_char (c : Char) : unitChar t c.toNat = c := by
  have hscalar : (isHigh c.toNat || isLow c.toNat) = false := by
    simp only [isHigh, isLow, Bool.or_eq_false_iff, Bool.and_eq_false_iff, decide_eq_false_iff_not]
    have hvalid : c.toNat < 0xd800 ∨ (0xdfff < c.toNat ∧ c.toNat < 0x110000) := c.valid
    omega
  rw [unitChar, hscalar]
  exact Char.ofNat_toNat c

theorem joinUnits_unitsOf_append (c : Char) (units : List Nat) :
    joinUnits t (unitsOf c ++ units) = c :: joinUnits t units := by
  have hvalid : c.toNat < 0xd800 ∨ (0xdfff < c.toNat ∧ c.toNat < 0x110000) := c.valid
  unfold unitsOf
  split
  · next hsmall =>
    have hnot : isHigh c.toNat = false := by
      simp only [isHigh, Bool.and_eq_false_iff, decide_eq_false_iff_not]
      omega
    cases units with
    | nil =>
      show [unitChar t c.toNat] = [c]
      rw [unitChar_of_char]
    | cons n units =>
      show joinUnits t (c.toNat :: n :: units) = _
      rw [joinUnits, hnot, Bool.false_and, if_neg (by decide), unitChar_of_char]
  · next hlarge =>
    have hhigh : isHigh (0xd800 + (c.toNat - 0x10000) / 0x400) = true := by
      simp only [isHigh, Bool.and_eq_true, decide_eq_true_eq]
      omega
    have hlow : isLow (0xdc00 + (c.toNat - 0x10000) % 0x400) = true := by
      simp only [isLow, Bool.and_eq_true, decide_eq_true_eq]
      omega
    have hjoined : 0x10000 + (0xd800 + (c.toNat - 0x10000) / 0x400 - 0xd800) * 0x400
        + (0xdc00 + (c.toNat - 0x10000) % 0x400 - 0xdc00) = c.toNat := by
      omega
    show joinUnits t (_ :: _ :: units) = _
    rw [joinUnits, hhigh, hlow, Bool.true_and, if_pos rfl, hjoined, Char.ofNat_toNat]

theorem joinUnits_flatMap (cs : List Char) : joinUnits t (cs.flatMap unitsOf) = cs := by
  induction cs with
  | nil => rfl
  | cons c cs ih => rw [List.flatMap_cons, joinUnits_unitsOf_append, ih]

theorem valid_of_mem_atoms (h : a ∈ cs.flatMap atomsOf) : a.Valid := by
  obtain ⟨c, -, ha⟩ := List.mem_flatMap.mp h
  exact valid_atomsOf ha

theorem map_code_atoms (cs : List Char) :
    (cs.flatMap atomsOf).map Atom.code = cs.flatMap unitsOf := by
  induction cs with
  | nil => rfl
  | cons c cs ih => rw [List.flatMap_cons, List.map_append, code_atomsOf, ih, List.flatMap_cons]

/-- **A string is read back from its text.** -/
theorem scanString_encoded (s : String) (rest : List Char) :
    scanString t (stringBody s ++ '"' :: rest) = some (s, rest) := by
  rw [scanString, stringBody, scanUnits_atoms fun a => valid_of_mem_atoms, map_code_atoms,
    Option.map_some, joinUnits_flatMap, String.ofList_toList]

/-! ## Objects of strings are read back -/

/-- The members of an object whose values are strings, with their texts. -/
def stringMembers (entries : List (String × String)) : List (String × List Char) :=
  entries.map fun entry => (entry.1, stringText entry.2)

/-- The text of such an object. -/
def objectText (entries : List (String × String)) : List Char := objectOf (stringMembers entries)

/-- What follows the opening brace of an object of strings. -/
def membersText (entries : List (String × String)) : List Char :=
  joinTexts ((stringMembers entries).map memberText) ++ ['\x7d']

theorem objectText_eq (entries : List (String × String)) :
    objectText entries = '\x7b' :: membersText entries := rfl

/-- What follows a member. -/
def restText : List (String × String) → List Char
  | [] => ['\x7d']
  | entry :: entries => ',' :: ' ' :: membersText (entry :: entries)

theorem membersText_cons (entry : String × String) (entries : List (String × String)) :
    membersText (entry :: entries) = '"' :: (stringBody entry.1 ++ '"' :: ':' :: ' ' :: '"' ::
      (stringBody entry.2 ++ '"' :: restText entries)) := by
  cases entries with
  | nil =>
    simp [membersText, restText, stringMembers, joinTexts, memberText, stringText]
  | cons next entries =>
    simp [membersText, restText, stringMembers, joinTexts, memberText, stringText]

@[simp] theorem skipBlanks_cons_of_not (h : isBlank c = false) (cs : List Char) :
    skipBlanks (c :: cs) = c :: cs := by
  rw [skipBlanks, List.dropWhile_cons, h]
  rfl

theorem skipBlanks_space (cs : List Char) : skipBlanks (' ' :: cs) = skipBlanks cs := rfl

/-- A key that is not there goes last. -/
theorem set_of_absent {pending : PyDict} {key : String} {value : PyValue}
    (h : ∀ entry ∈ pending, entry.1 ≠ key) : pending.set key value = pending ++ [(key, value)] := by
  induction pending with
  | nil => rfl
  | cons entry rest ih =>
    rw [PyDict.set, if_neg (h entry List.mem_cons_self),
      ih fun entry hentry => h entry (List.mem_cons_of_mem _ hentry), List.cons_append]

/-- The dictionary the members are read into. -/
def readInto (members : PyDict) (entries : List (String × String)) : PyDict :=
  entries.foldl (fun members entry => members.set entry.1 (.str entry.2)) members

/-- One member of an object, up to what comes after its value. -/
theorem scanMembers_member (fuel : Nat) (members : PyDict) (key value : String)
    (rest : List Char) :
    scanMembers t (fuel + 2) members ('"' :: (stringBody key ++ '"' :: ':' :: ' ' :: '"' ::
        (stringBody value ++ '"' :: rest))) =
      match skipBlanks rest with
      | '\x7d' :: cs => some (members.set key (.str value), cs)
      | ',' :: cs => scanMembers t (fuel + 1) (members.set key (.str value)) (skipBlanks cs)
      | _ => none := by
  rw [scanMembers, scanString_encoded]
  simp only [skipBlanks_cons_of_not (show isBlank ':' = false from rfl), skipBlanks_space,
    skipBlanks_cons_of_not (show isBlank '"' = false from rfl), scanValue, scanString_encoded,
    Option.map_some]

theorem scanMembers_membersText (entries : List (String × String)) (hne : entries ≠ [])
    (members : PyDict) (fuel : Nat) (rest : List Char) :
    scanMembers t fuel members (membersText entries ++ rest)
      = if entries.length < fuel then some (readInto members entries, rest) else none := by
  induction entries generalizing fuel members with
  | nil => exact absurd rfl hne
  | cons entry entries ih =>
    rw [membersText_cons]
    simp only [List.cons_append, List.append_assoc]
    match fuel with
    | 0 => rfl
    | 1 =>
      rw [scanMembers, scanString_encoded, if_neg (by rw [List.length_cons]; omega)]
      rfl
    | k + 2 =>
      rw [scanMembers_member]
      cases entries with
      | nil => rw [if_pos (by rw [List.length_singleton]; omega)]; rfl
      | cons next entries =>
        obtain ⟨cs, hcs⟩ : ∃ cs, membersText (next :: entries) = '"' :: cs :=
          ⟨_, membersText_cons next entries⟩
        have hread := ih (by simp) (members.set entry.1 (.str entry.2)) (k + 1)
        simp only [restText, List.cons_append,
          skipBlanks_cons_of_not (show isBlank ',' = false from rfl), skipBlanks_space, hcs,
          skipBlanks_cons_of_not (show isBlank '"' = false from rfl)]
        rw [hcs] at hread
        rw [List.length_cons, List.length_cons] at *
        simp only [Nat.succ_lt_succ_iff] at *
        exact hread

/-- An object that is not empty is its members. -/
theorem scanValue_brace (fuel : Nat) (hblank : isBlank c = false) (hclose : c ≠ '\x7d') :
    scanValue t (fuel + 1) ('\x7b' :: c :: cs)
      = (scanMembers t fuel [] (c :: cs)).map fun r => (.dict r.1, r.2) := by
  rw [scanValue, skipBlanks_cons_of_not hblank]
  split
  · next cs' h => exact absurd (List.cons.inj h).1 hclose
  · rfl

theorem scanValue_objectText {entries : List (String × String)} (hne : entries ≠ [])
    (fuel : Nat) (rest : List Char) :
    scanValue t (fuel + 1) (objectText entries ++ rest)
      = if entries.length < fuel then some (.dict (readInto [] entries), rest) else none := by
  obtain ⟨entry, entries', rfl⟩ := List.exists_cons_of_ne_nil hne
  obtain ⟨cs, hcs⟩ : ∃ cs, membersText (entry :: entries') = '"' :: cs :=
    ⟨_, membersText_cons entry entries'⟩
  have hread := scanMembers_membersText t (entry :: entries') hne [] fuel rest
  rw [hcs, List.cons_append] at hread
  rw [objectText_eq, List.cons_append, hcs, List.cons_append,
    scanValue_brace t fuel rfl (by decide), hread]
  split <;> rfl

theorem length_le_membersText (entries : List (String × String)) :
    entries.length ≤ (membersText entries).length := by
  induction entries with
  | nil => exact Nat.zero_le _
  | cons entry entries ih =>
    rw [membersText_cons]
    cases entries with
    | nil => simp only [List.length_cons, List.length_append, List.length_nil]; omega
    | cons next entries =>
      simp only [List.length_cons, List.length_append, restText] at ih ⊢
      omega

/-- **An object of strings is read back from its text.** -/
theorem loads_objectText {entries : List (String × String)} (hne : entries ≠ [])
    (hrest : skipBlanks rest = []) :
    loads t (objectText entries ++ rest) = some (.dict (readInto [] entries)) := by
  have hlength := length_le_membersText entries
  have hfuel : entries.length < (objectText entries ++ rest).length := by
    rw [List.length_append, objectText_eq, List.length_cons]
    omega
  have hread := scanValue_objectText t hne (objectText entries ++ rest).length rest
  rw [if_pos hfuel] at hread
  rw [loads, if_neg (by rw [objectText_eq]; simp)]
  have hskip : skipBlanks (objectText entries ++ rest) = objectText entries ++ rest := by
    rw [objectText_eq, List.cons_append, skipBlanks_cons_of_not rfl]
  rw [hskip, hread]
  exact if_pos hrest

/-! ## Objects that were cut short -/

/-- A character that ends nothing an object of strings can end with. -/
def Bars (c : Char) : Prop := isBlank c = false ∧ c ≠ ':' ∧ c ≠ ',' ∧ c ≠ '\x7d'

/-- The first key of the object begins with a character of that kind. -/
def Opens (entries : List (String × String)) : Prop :=
  ∃ c cs, membersText entries = '"' :: c :: cs ∧ Bars c

/-- Texts of objects written one after the other on one line: each but the last may have been cut
short, and the last ends the line. -/
inductive Joined : List Char → Prop
  | last {entries : List (String × String)} : Opens entries → Joined (objectText entries ++ ['\n'])
  | cons {entries : List (String × String)} {p z : List Char} : Opens entries →
      p <+: objectText entries → p ≠ [] → Joined z → Joined (p ++ z)

variable {entries : List (String × String)} {p z : List Char}

theorem Opens.ne_nil (h : Opens entries) : entries ≠ [] := by
  rintro rfl
  obtain ⟨c, cs, h, -⟩ := h
  cases h

/-- A key that begins with a letter, for one. -/
theorem opens_cons {key value : String} {entries : List (String × String)}
    (hkey : key.toList = c :: cs) (hplain : atomsOf c = [.plain c]) (hbars : Bars c) :
    Opens ((key, value) :: entries) := by
  have hbody : stringBody key = c :: (cs.flatMap atomsOf).flatMap Atom.text := by
    rw [stringBody, hkey, List.flatMap_cons, hplain]
    rfl
  rw [Opens, membersText_cons]
  exact ⟨c, _, by rw [hbody]; rfl, hbars⟩

theorem prefix_append_cases {a b p : List Char} (h : p <+: a ++ b) :
    p <+: a ∨ ∃ q, p = a ++ q ∧ q <+: b := by
  rcases List.prefix_or_prefix_of_prefix h (List.prefix_append a b) with hp | ⟨q, rfl⟩
  · exact Or.inl hp
  · exact Or.inr ⟨q, rfl, (List.prefix_append_right_inj a).mp h⟩

theorem prefix_cons_cases {b p : List Char} (h : p <+: c :: b) :
    p = [] ∨ ∃ q, p = c :: q ∧ q <+: b := by
  cases p with
  | nil => exact Or.inl rfl
  | cons d q =>
    obtain ⟨rfl, hq⟩ := List.cons_prefix_cons.mp h
    exact Or.inr ⟨q, rfl, hq⟩

/-- Every joined text begins as an object. -/
theorem Joined.brace (h : Joined z) : ∃ cs, z = '\x7b' :: cs := by
  cases h with
  | last => exact ⟨_, rfl⟩
  | cons _ hp hne _ =>
    rcases prefix_cons_cases hp with rfl | ⟨q, rfl, -⟩
    · exact absurd rfl hne
    · exact ⟨_, rfl⟩

/-! ### A string that was cut short -/

/-- Reading a string fails, or stops before a character nothing can go on with. -/
def Stops (r : Option (List Nat × List Char)) : Prop :=
  ∀ units rest, r = some (units, rest) → ∃ c cs, rest = c :: cs ∧ Bars c

theorem Stops.map {r : Option (List Nat × List Char)} (h : Stops r)
    (f : List Nat → List Nat) : Stops (r.map fun r => (f r.1, r.2)) := by
  intro units rest hr
  obtain ⟨⟨units', rest'⟩, hr', heq⟩ := Option.map_eq_some_iff.mp hr
  rw [← (Prod.mk.inj heq).2]
  exact h units' rest' hr'

theorem bars_brace : Bars '\x7b' := ⟨rfl, by decide, by decide, by decide⟩

/-- The next object closes the string with the quote of its first key. -/
theorem Joined.stops (h : Joined z) : Stops (scanUnits z) := by
  have hbrace : ∀ cs, scanUnits ('\x7b' :: cs)
      = (scanUnits cs).map fun r => ('\x7b'.toNat :: r.1, r.2) := fun cs =>
    scanUnits_plain (by decide) (by decide) (by decide) cs
  have hquote : ∀ c cs, Bars c → Stops (scanUnits ('"' :: c :: cs)) := by
    intro c cs hbars units rest hr
    rw [scanUnits_quote, Option.some.injEq, Prod.mk.injEq] at hr
    exact ⟨c, cs, hr.2.symm, hbars⟩
  induction h with
  | last hopens =>
    obtain ⟨c, cs, hcs, hbars⟩ := hopens
    rw [objectText_eq, hcs, List.cons_append, hbrace]
    exact (hquote c _ hbars).map _
  | @cons entries p z hopens hp hne hz ih =>
    obtain ⟨c, cs, hcs, hbars⟩ := hopens
    rw [objectText_eq, hcs] at hp
    rcases prefix_cons_cases hp with rfl | ⟨q, rfl, hq⟩
    · exact absurd rfl hne
    rw [List.cons_append, hbrace]
    refine Stops.map ?_ _
    rcases prefix_cons_cases hq with rfl | ⟨q', rfl, hq'⟩
    · exact ih
    rcases prefix_cons_cases hq' with rfl | ⟨q, rfl, -⟩
    · obtain ⟨cs, rfl⟩ := hz.brace
      exact hquote _ cs bars_brace
    · exact hquote c _ hbars

/-- An escape that was cut short is not one. -/
theorem scanUnits_cut (ha : a.Valid) (hp : p <+: a.text) (hne : p ≠ []) (hcut : p ≠ a.text)
    (cs : List Char) : scanUnits (p ++ '\x7b' :: cs) = none := by
  have hslash : scanUnits ('\\' :: '\x7b' :: cs) = none := by
    rw [scanUnits_escape (by decide)]
    rfl
  cases a with
  | plain c =>
    rcases prefix_cons_cases hp with rfl | ⟨q, rfl, hq⟩
    · exact absurd rfl hne
    · rw [List.prefix_nil.mp hq] at hcut
      exact absurd rfl hcut
  | short e c =>
    rcases prefix_cons_cases hp with rfl | ⟨q, rfl, hq⟩
    · exact absurd rfl hne
    rcases prefix_cons_cases hq with rfl | ⟨q', rfl, hq'⟩
    · exact hslash
    · rw [List.prefix_nil.mp hq'] at hcut
      exact absurd rfl hcut
  | unit n =>
    have hbrace : hexValue '\x7b' = none := rfl
    have hunit : ∀ a b c d, a = '\x7b' ∨ b = '\x7b' ∨ c = '\x7b' ∨ d = '\x7b' →
        hexUnit a b c d = none := by
      intro a b c d h
      unfold hexUnit
      rcases h with rfl | rfl | rfl | rfl
      · rw [hbrace]; rfl
      · rw [hbrace]; cases hexValue a <;> rfl
      · rw [hbrace]; cases hexValue a <;> cases hexValue b <;> rfl
      · rw [hbrace]; cases hexValue a <;> cases hexValue b <;> cases hexValue c <;> rfl
    -- a brace among the four digits, or too few characters for an escape
    have hfour : ∀ q, '\x7b' ∈ q.take 4 → scanUnits ('\\' :: 'u' :: q) = none := by
      intro q hq
      match q with
      | a :: b :: c :: d :: q =>
        rw [scanUnits_unicode, hunit a b c d (by simpa [eq_comm] using hq)]
        rfl
      | [] | [_] | [_, _] | [_, _, _] => rfl
    rcases prefix_cons_cases hp with rfl | ⟨q, rfl, hq⟩
    · exact absurd rfl hne
    rcases prefix_cons_cases hq with rfl | ⟨q', rfl, hq'⟩
    · exact hslash
    refine hfour _ ?_
    have hlength : q'.length < 4 := by
      refine Nat.lt_of_le_of_ne hq'.length_le fun heq => hcut ?_
      rw [hq'.eq_of_length heq]
      rfl
    show '\x7b' ∈ (q' ++ '\x7b' :: cs).take 4
    rw [List.take_append, List.mem_append]
    refine Or.inr ?_
    obtain ⟨k, hk⟩ : ∃ k, 4 - q'.length = k + 1 := ⟨3 - q'.length, by omega⟩
    rw [hk, List.take_succ_cons]
    exact List.mem_cons_self

/-- **A string that was cut short does not end well.** -/
theorem stops_of_prefix {as : List Atom} (has : ∀ a ∈ as, a.Valid)
    (hp : p <+: as.flatMap Atom.text) (hz : Joined z) : Stops (scanUnits (p ++ z)) := by
  induction as generalizing p with
  | nil =>
    rw [List.prefix_nil.mp hp]
    exact hz.stops
  | cons a as ih =>
    have ha := has a List.mem_cons_self
    rw [List.flatMap_cons] at hp
    rcases prefix_append_cases hp with hp | ⟨q, rfl, hq⟩
    · by_cases hne : p = []
      · rw [hne]
        exact hz.stops
      by_cases hwhole : p = a.text
      · rw [hwhole, scanUnits_atom ha]
        exact hz.stops.map _
      · obtain ⟨cs, rfl⟩ := hz.brace
        rw [scanUnits_cut ha hp hne hwhole]
        intro units rest h
        cases h
    · rw [List.append_assoc, scanUnits_atom ha]
      exact (ih (fun b hb => has b (List.mem_cons_of_mem _ hb)) hq).map _

theorem scanString_stops {key : String} (hp : p <+: stringBody s) (hz : Joined z)
    (h : scanString t (p ++ z) = some (key, rest)) : ∃ c cs, rest = c :: cs ∧ Bars c := by
  obtain ⟨⟨units, rest'⟩, hunits, heq⟩ := Option.map_eq_some_iff.mp h
  rw [← (Prod.mk.inj heq).2]
  exact stops_of_prefix (fun a => valid_of_mem_atoms) hp hz units rest' hunits

/-! ### Members that were cut short -/

/-- What is left after a value does not go on with an object. -/
def Ends (rest : List Char) : Prop :=
  ∀ c cs, skipBlanks rest = c :: cs → Bars c

theorem ends_of_bars (h : Bars c) (cs : List Char) : Ends (c :: cs) := by
  intro d ds hskip
  rw [skipBlanks_cons_of_not h.1] at hskip
  rw [← (List.cons.inj hskip).1]
  exact h

theorem Joined.ends (h : Joined z) : Ends z := by
  obtain ⟨cs, rfl⟩ := h.brace
  exact ends_of_bars bars_brace cs

theorem Joined.skipBlanks_eq (h : Joined z) : skipBlanks z = z := by
  obtain ⟨cs, rfl⟩ := h.brace
  exact skipBlanks_cons_of_not rfl cs

/-- Members that start with a brace are none. -/
theorem Joined.scanMembers_eq_none (h : Joined z) (fuel : Nat) (members : PyDict) :
    scanMembers t fuel members z = none := by
  obtain ⟨cs, rfl⟩ := h.brace
  cases fuel with
  | zero => rfl
  | succ fuel =>
    rw [scanMembers]
    intro fuel' cs' _ hquote
    cases hquote

/-- Nothing follows a member but a comma or the end of the object. -/
theorem scanMembers_none_of_ends {fuel : Nat} {members : PyDict} {key : String} {value : PyValue}
    {after beyond : List Char} (hkey : scanString t cs = some (key, after))
    (hcolon : skipBlanks after = ':' :: rest)
    (hvalue : scanValue t fuel (skipBlanks rest) = some (value, beyond))
    (hends : Ends beyond) : scanMembers t (fuel + 1) members ('"' :: cs) = none := by
  rw [scanMembers, hkey]
  simp only [hcolon, hvalue]
  split
  · next cs' h => exact absurd rfl (hends _ _ h).2.2.2
  · next cs' h => exact absurd rfl (hends _ _ h).2.2.1
  · rfl

/-- Without its colon a key has no value. -/
theorem scanMembers_none_of_no_colon {fuel : Nat} {members : PyDict} {key : String}
    {after : List Char} (hkey : scanString t cs = some (key, after)) (hends : Ends after) :
    scanMembers t (fuel + 1) members ('"' :: cs) = none := by
  rw [scanMembers, hkey]
  simp only
  split
  · next cs' h => exact absurd rfl (hends _ _ h).2.1
  · rfl

theorem scanMembers_none_of_no_key {fuel : Nat} {members : PyDict}
    (hkey : scanString t cs = none) : scanMembers t (fuel + 1) members ('"' :: cs) = none := by
  rw [scanMembers, hkey]

theorem scanMembers_none_of_no_value {fuel : Nat} {members : PyDict} {key : String}
    {after : List Char} (hkey : scanString t cs = some (key, after))
    (hcolon : skipBlanks after = ':' :: rest)
    (hvalue : scanValue t fuel (skipBlanks rest) = none) :
    scanMembers t (fuel + 1) members ('"' :: cs) = none := by
  rw [scanMembers, hkey]
  simp only [hcolon, hvalue]

/-- The cut is in a key. -/
theorem scanMembers_cut_key {key : String} (hz : Joined z) (hp : p <+: stringBody key) (fuel : Nat)
    (members : PyDict) : scanMembers t fuel members ('"' :: (p ++ z)) = none := by
  cases fuel with
  | zero => rfl
  | succ fuel =>
    cases hread : scanString t (p ++ z) with
    | none => exact scanMembers_none_of_no_key t hread
    | some read =>
      obtain ⟨c, cs, hcs, hbars⟩ := scanString_stops t hp hz hread
      exact scanMembers_none_of_no_colon t hread (by rw [hcs]; exact ends_of_bars hbars cs)

/-- The cut is before a value, which is then the next object. -/
theorem scanMembers_cut_before_value {key : String}
    (hvalue : ∀ fuel value rest, scanValue t fuel z = some (value, rest) → Ends rest)
    (hblank : skipBlanks cs = z) (fuel : Nat) (members : PyDict) :
    scanMembers t fuel members ('"' :: (stringBody key ++ '"' :: ':' :: cs)) = none := by
  cases fuel with
  | zero => rfl
  | succ fuel =>
    have hkey := scanString_encoded t key (':' :: cs)
    cases hread : scanValue t fuel z with
    | none => exact scanMembers_none_of_no_value t hkey rfl (by rw [hblank]; exact hread)
    | some read =>
      exact scanMembers_none_of_ends t hkey rfl (by rw [hblank]; exact hread) (hvalue _ _ _ hread)

/-- The cut is in a value. -/
theorem scanMembers_cut_value {key text : String} (hz : Joined z) (hp : p <+: stringBody text)
    (fuel : Nat) (members : PyDict) : scanMembers t fuel members
      ('"' :: (stringBody key ++ '"' :: ':' :: ' ' :: '"' :: (p ++ z))) = none := by
  have hskip : skipBlanks (' ' :: '"' :: (p ++ z)) = '"' :: (p ++ z) := rfl
  match fuel with
  | 0 => rfl
  | 1 =>
    exact scanMembers_none_of_no_value t (scanString_encoded t key _) rfl (by rw [hskip]; rfl)
  | fuel + 2 =>
    have hkey := scanString_encoded t key (':' :: ' ' :: '"' :: (p ++ z))
    cases hread : scanString t (p ++ z) with
    | none =>
      refine scanMembers_none_of_no_value t hkey rfl ?_
      rw [hskip, scanValue, hread]
      rfl
    | some read =>
      obtain ⟨c, cs, hcs, hbars⟩ := scanString_stops t hp hz hread
      have hvalue : scanValue t (fuel + 1) (skipBlanks (' ' :: '"' :: (p ++ z)))
          = some (.str read.1, read.2) := by
        rw [hskip, scanValue, hread]
        rfl
      exact scanMembers_none_of_ends t hkey rfl hvalue (by rw [hcs]; exact ends_of_bars hbars cs)

/-- **Members that were cut short are refused.** -/
theorem scanMembers_cut (hz : Joined z)
    (hvalue : ∀ fuel value rest, scanValue t fuel z = some (value, rest) → Ends rest)
    (hp : p <+: membersText entries) (hcut : p ≠ membersText entries) (hne : entries ≠ [])
    (fuel : Nat) (members : PyDict) : scanMembers t fuel members (p ++ z) = none := by
  induction entries generalizing p fuel members with
  | nil => exact absurd rfl hne
  | cons entry entries ih =>
    obtain ⟨key, text⟩ := entry
    rw [membersText_cons] at hp hcut
    rcases prefix_cons_cases hp with rfl | ⟨p₁, rfl, hp₁⟩
    · exact hz.scanMembers_eq_none t _ _
    rcases prefix_append_cases hp₁ with hkey | ⟨p₂, rfl, hp₂⟩
    · exact scanMembers_cut_key t hz hkey fuel members
    rcases prefix_cons_cases hp₂ with rfl | ⟨p₃, rfl, hp₃⟩
    · rw [List.append_nil]
      exact scanMembers_cut_key t hz (List.prefix_refl _) fuel members
    simp only [List.cons_append, List.append_assoc]
    rcases prefix_cons_cases hp₃ with rfl | ⟨p₄, rfl, hp₄⟩
    · -- the key has been read, and its colon is missing
      cases fuel with
      | zero => rfl
      | succ fuel => exact scanMembers_none_of_no_colon t (scanString_encoded t key _) hz.ends
    rcases prefix_cons_cases hp₄ with rfl | ⟨p₅, rfl, hp₅⟩
    · exact scanMembers_cut_before_value t hvalue hz.skipBlanks_eq fuel members
    rcases prefix_cons_cases hp₅ with rfl | ⟨p₆, rfl, hp₆⟩
    · have hspace : skipBlanks (' ' :: z) = z := hz.skipBlanks_eq
      exact scanMembers_cut_before_value t hvalue hspace fuel members
    rcases prefix_append_cases hp₆ with htext | ⟨p₇, rfl, hp₇⟩
    · exact scanMembers_cut_value t hz htext fuel members
    rcases prefix_cons_cases hp₇ with rfl | ⟨p₈, rfl, hp₈⟩
    · rw [List.append_nil]
      exact scanMembers_cut_value t hz (List.prefix_refl _) fuel members
    have hcut₈ : p₈ ≠ restText entries := fun h => hcut (by rw [h])
    simp only [List.cons_append, List.append_assoc]
    -- one member has been read whole
    match fuel with
    | 0 => rfl
    | 1 => exact scanMembers_none_of_no_value t (scanString_encoded t key _) rfl rfl
    | fuel + 2 =>
      rw [scanMembers_member]
      have hnone : ∀ cs', skipBlanks (p₈ ++ z) = '\x7b' :: cs' →
          (match skipBlanks (p₈ ++ z) with
            | '\x7d' :: cs => some (members.set key (.str text), cs)
            | ',' :: cs =>
              scanMembers t (fuel + 1) (members.set key (.str text)) (skipBlanks cs)
            | _ => none) = none := by
        intro cs' h
        rw [h]
        rfl
      obtain ⟨cs, hcs⟩ := hz.brace
      cases entries with
      | nil =>
        rcases prefix_cons_cases hp₈ with rfl | ⟨p₉, rfl, hp₉⟩
        · exact hnone cs (hz.skipBlanks_eq.trans hcs)
        · rw [List.prefix_nil.mp hp₉] at hcut₈
          exact absurd rfl hcut₈
      | cons next entries =>
        rcases prefix_cons_cases hp₈ with rfl | ⟨p₉, rfl, hp₉⟩
        · exact hnone cs (hz.skipBlanks_eq.trans hcs)
        show scanMembers t (fuel + 1) (members.set key (.str text)) (skipBlanks (p₉ ++ z)) = none
        rcases prefix_cons_cases hp₉ with rfl | ⟨p₁₀, rfl, hp₁₀⟩
        · rw [List.nil_append, hz.skipBlanks_eq]
          exact hz.scanMembers_eq_none t _ _
        have hcut₁₀ : p₁₀ ≠ membersText (next :: entries) := fun h => hcut₈ (by rw [h]; rfl)
        have hskip : skipBlanks (' ' :: p₁₀ ++ z) = p₁₀ ++ z := by
          rw [List.cons_append, skipBlanks_space]
          rw [membersText_cons] at hp₁₀
          rcases prefix_cons_cases hp₁₀ with rfl | ⟨q, rfl, -⟩
          · exact hz.skipBlanks_eq
          · rfl
        rw [hskip]
        exact ih hp₁₀ hcut₁₀ (by simp) (fuel + 1) _

/-! ### Joined texts -/

/-- A piece of an object, whole or cut short, with its brace. -/
theorem prefix_objectText (hp : p <+: objectText entries) (hne : p ≠ []) :
    ∃ q, p = '\x7b' :: q ∧ q <+: membersText entries := by
  rcases prefix_cons_cases hp with rfl | h
  · exact absurd rfl hne
  · exact h

theorem scanValue_cut (hz : Joined z)
    (hvalue : ∀ fuel value rest, scanValue t fuel z = some (value, rest) → Ends rest)
    (hopens : Opens entries) (hp : p <+: membersText entries) (hcut : p ≠ membersText entries)
    (fuel : Nat) : scanValue t fuel ('\x7b' :: (p ++ z)) = none := by
  cases fuel with
  | zero => rfl
  | succ fuel =>
    have hnone := scanMembers_cut t hz hvalue hp hcut hopens.ne_nil fuel []
    obtain ⟨c, cs, hcs, -⟩ := hopens
    rw [hcs] at hp
    rcases prefix_cons_cases hp with rfl | ⟨q, rfl, -⟩
    · obtain ⟨cs, rfl⟩ := hz.brace
      rw [List.nil_append] at hnone ⊢
      rw [scanValue_brace t fuel rfl (by decide), hnone]
      rfl
    · rw [List.cons_append] at hnone ⊢
      rw [scanValue_brace t fuel rfl (by decide), hnone]
      rfl

/-- What is read at the start of a joined text ends before the next object, or at the end of the
line. -/
theorem Joined.ends_of_scanValue (h : Joined z) : ∀ fuel value rest,
    scanValue t fuel z = some (value, rest) → Ends rest := by
  induction h with
  | last hopens =>
    intro fuel value rest hread
    cases fuel with
    | zero => cases hread
    | succ fuel =>
      rw [scanValue_objectText t hopens.ne_nil] at hread
      split at hread
      · rw [← (Prod.mk.inj (Option.some.inj hread)).2]
        intro c cs hskip
        cases hskip
      · cases hread
  | @cons entries p z hopens hp hne hz ih =>
    intro fuel value rest hread
    obtain ⟨q, rfl, hq⟩ := prefix_objectText hp hne
    by_cases hcut : q = membersText entries
    · rw [hcut] at hread
      cases fuel with
      | zero => cases hread
      | succ fuel =>
        have hwhole := scanValue_objectText t hopens.ne_nil fuel z
        rw [objectText_eq] at hwhole
        rw [hwhole] at hread
        split at hread
        · rw [← (Prod.mk.inj (Option.some.inj hread)).2]
          exact hz.ends
        · cases hread
    · rw [List.cons_append, scanValue_cut t hz ih hopens hq hcut] at hread
      cases hread

/-- **A text that was cut short, or only not ended, and then continued is refused.** -/
theorem loads_joined (hopens : Opens entries) (hp : p <+: objectText entries) (hne : p ≠ [])
    (hz : Joined z) : loads t (p ++ z) = none := by
  obtain ⟨q, rfl, hq⟩ := prefix_objectText hp hne
  obtain ⟨cs, hcs⟩ := hz.brace
  have hskip : skipBlanks ('\x7b' :: q ++ z) = '\x7b' :: q ++ z := rfl
  rw [loads, if_neg (by rw [List.cons_append]; simp), hskip]
  by_cases hcut : q = membersText entries
  · have hwhole := scanValue_objectText t hopens.ne_nil ('\x7b' :: q ++ z).length z
    rw [objectText_eq, ← hcut] at hwhole
    rw [hwhole]
    split
    · next value rest hread =>
      split at hread
      · rw [← (Prod.mk.inj (Option.some.inj hread)).2, hz.skipBlanks_eq, hcs]
        exact if_neg (by simp)
      · cases hread
    · rfl
  · rw [List.cons_append, scanValue_cut t hz (hz.ends_of_scanValue t) hopens hq hcut]

/-! ## The characters of a text -/

/-- A character `ensure_ascii` leaves in a text. -/
def Visible (c : Char) : Prop := 0x20 ≤ c.toNat ∧ c.toNat ≤ 0x7e

theorem visible_digitChar {n : Nat} (h : n < 16) : Visible (Nat.digitChar n) := by
  have hall : ∀ n < 16, 0x20 ≤ (Nat.digitChar n).toNat ∧ (Nat.digitChar n).toNat ≤ 0x7e := by decide
  exact hall n h

theorem visible_atom (ha : a.Valid) (hc : c ∈ a.text) : Visible c := by
  cases a with
  | plain d =>
    rw [List.mem_singleton.mp hc]
    exact ⟨ha.1, ha.2.1⟩
  | short e d =>
    simp only [Atom.text, List.mem_cons, List.not_mem_nil, or_false] at hc
    rcases hc with rfl | rfl
    · exact ⟨by decide, by decide⟩
    · exact ⟨ha.2.1, ha.2.2.1⟩
  | unit n =>
    have hn : n < 0x10000 := ha
    simp only [Atom.text, hexFour, List.mem_cons, List.not_mem_nil, or_false] at hc
    rcases hc with rfl | rfl | rfl | rfl | rfl | rfl
    · exact ⟨by decide, by decide⟩
    · exact ⟨by decide, by decide⟩
    all_goals exact visible_digitChar (by omega)

theorem visible_stringBody (hc : c ∈ stringBody s) : Visible c := by
  obtain ⟨a, ha, hc⟩ := List.mem_flatMap.mp hc
  exact visible_atom (valid_of_mem_atoms ha) hc

theorem visible_membersText (entries : List (String × String)) :
    ∀ c ∈ membersText entries, Visible c := by
  induction entries with
  | nil =>
    intro c hc
    rw [List.mem_singleton.mp hc]
    exact ⟨by decide, by decide⟩
  | cons entry entries ih =>
    have hrest : ∀ c ∈ restText entries, Visible c := by
      cases entries with
      | nil => exact ih
      | cons next entries =>
        intro c hc
        rcases List.mem_cons.mp hc with rfl | hc
        · exact ⟨by decide, by decide⟩
        rcases List.mem_cons.mp hc with rfl | hc
        · exact ⟨by decide, by decide⟩
        · exact ih c hc
    intro c hc
    simp only [membersText_cons, List.mem_cons, List.mem_append] at hc
    rcases hc with rfl | hc | rfl | rfl | rfl | rfl | hc | rfl | hc
    · exact ⟨by decide, by decide⟩
    · exact visible_stringBody hc
    · exact ⟨by decide, by decide⟩
    · exact ⟨by decide, by decide⟩
    · exact ⟨by decide, by decide⟩
    · exact ⟨by decide, by decide⟩
    · exact visible_stringBody hc
    · exact ⟨by decide, by decide⟩
    · exact hrest c hc

/-- **An object text is printable ASCII on one line.** -/
theorem visible_objectText (hc : c ∈ objectText entries) : Visible c := by
  rw [objectText_eq, List.mem_cons] at hc
  rcases hc with rfl | hc
  · exact ⟨by decide, by decide⟩
  · exact visible_membersText entries c hc

end PyJson

import Mathlib.Algebra.Order.Ring.Int
import Mathlib.Data.List.Basic
import Mathlib.Data.List.Sort

/-!
# Python values that came out of JSON

The values `json.loads` builds, with the operations of the language on them: truth value, `str`,
`repr`, `int`, dictionary access and slicing of strings.

## What is a parameter

`PyText` holds what CPython reads from its Unicode tables and its float printer: which characters
are printable, blank or decimal digits, the lower case of a text, and the shortest text of a float.
Everything else is computed here. A string is a sequence of Unicode scalar values; `surrogate` says
which of them stand for the lone surrogates that a Python string can hold beside these.
-/

/-- A `float`: a dyadic rational, or one of the three values JSON text can spell beside them. -/
inductive PyFloat
  | finite (mantissa exponent : Int)
  | inf (negative : Bool)
  | nan
  deriving DecidableEq, Repr

/-- A value of `json.loads`. A dictionary keeps its entries in insertion order. -/
inductive PyValue
  | none
  | bool (b : Bool)
  | int (n : Int)
  | float (x : PyFloat)
  | str (s : String)
  | list (items : List PyValue)
  | dict (entries : List (String × PyValue))
  deriving Repr, Inhabited

/-- The entries of a dictionary with string keys. -/
abbrev PyDict := List (String × PyValue)

/-- The exceptions of the language that the modelled code can raise. -/
inductive PyError
  | typeError
  | valueError
  | overflowError
  | keyError
  | attributeError
  | unboundLocalError
  | unicodeEncodeError
  | osError
  | runtimeError
  deriving DecidableEq, Repr

/-- What CPython looks up outside the language: its Unicode tables and its float printer. -/
structure PyText where
  isPrintable : Char → Bool
  isSpace : Char → Bool
  digit : Char → Option Nat
  lower : String → String
  surrogate : Char → Bool
  floatRepr : PyFloat → String

/-- The tables restricted to ASCII, with integral floats printed exactly. -/
def PyText.ascii : PyText where
  isPrintable c := 0x20 ≤ c.toNat ∧ c.toNat < 0x7f
  isSpace c := c = ' ' ∨ (9 ≤ c.toNat ∧ c.toNat ≤ 13)
  digit c := if c.isDigit then some (c.toNat - 48) else none
  lower s := s.toLower
  surrogate _ := false
  floatRepr
    | .finite m e => toString (if 0 ≤ e then m * 2 ^ e.toNat else m.tdiv (2 ^ (-e).toNat)) ++ ".0"
    | .inf negative => if negative then "-inf" else "inf"
    | .nan => "nan"

/-- `text.encode("utf-8")` goes through. -/
def PyText.encodable (txt : PyText) (text : String) : Bool := !text.toList.any txt.surrogate

/-- A computation that went through went through its first part. -/
theorem Except.bind_eq_ok.{u, v} {ε : Type u} {α β : Type v} {x : Except ε α} {f : α → Except ε β} {b : β}
    (h : x >>= f = .ok b) : ∃ a, x = .ok a ∧ f a = .ok b := by
  cases x with
  | error e => cases h
  | ok a => exact ⟨a, rfl, h⟩

namespace PyValue

/-! ## Decidable equality -/

mutual

/-- Structural equality, as a program. -/
def beq : PyValue → PyValue → Bool
  | .none, .none => true
  | .bool a, .bool b => a == b
  | .int a, .int b => a == b
  | .float a, .float b => a == b
  | .str a, .str b => a == b
  | .list as, .list bs => beqList as bs
  | .dict as, .dict bs => beqEntries as bs
  | _, _ => false

def beqList : List PyValue → List PyValue → Bool
  | [], [] => true
  | a :: as, b :: bs => beq a b && beqList as bs
  | _, _ => false

def beqEntries : List (String × PyValue) → List (String × PyValue) → Bool
  | [], [] => true
  | (k, a) :: as, (l, b) :: bs => k == l && beq a b && beqEntries as bs
  | _, _ => false

end

mutual

theorem beq_iff : ∀ a b : PyValue, beq a b = true ↔ a = b
  | .none, b => by cases b <;> simp [beq]
  | .bool _, b => by cases b <;> simp [beq]
  | .int _, b => by cases b <;> simp [beq]
  | .float _, b => by cases b <;> simp [beq]
  | .str _, b => by cases b <;> simp [beq]
  | .list as, b => by
    cases b with
    | list bs => rw [beq, beqList_iff as bs, PyValue.list.injEq]
    | _ => simp [beq]
  | .dict as, b => by
    cases b with
    | dict bs => rw [beq, beqEntries_iff as bs, PyValue.dict.injEq]
    | _ => simp [beq]

theorem beqList_iff : ∀ as bs : List PyValue, beqList as bs = true ↔ as = bs
  | [], [] => by simp [beqList]
  | [], _ :: _ => by simp [beqList]
  | _ :: _, [] => by simp [beqList]
  | a :: as, b :: bs => by
    rw [beqList, Bool.and_eq_true, beq_iff a b, beqList_iff as bs, List.cons.injEq]

theorem beqEntries_iff : ∀ as bs : List (String × PyValue), beqEntries as bs = true ↔ as = bs
  | [], [] => by simp [beqEntries]
  | [], _ :: _ => by simp [beqEntries]
  | _ :: _, [] => by simp [beqEntries]
  | (k, a) :: as, (l, b) :: bs => by
    rw [beqEntries, Bool.and_eq_true, Bool.and_eq_true, beq_iff a b, beqEntries_iff as bs,
      beq_iff_eq, List.cons.injEq, Prod.mk.injEq]

end

instance : DecidableEq PyValue := fun a b => decidable_of_iff _ (beq_iff a b)

/-! ## Truth value and text -/

/-- `bool(value)`. -/
def truthy : PyValue → Bool
  | .none => false
  | .bool b => b
  | .int n => n != 0
  | .float (.finite m _) => m != 0
  | .float _ => true
  | .str s => s != ""
  | .list items => !items.isEmpty
  | .dict entries => !entries.isEmpty

/-- `a or b`. -/
def or (a b : PyValue) : PyValue := if a.truthy then a else b

/-- `n` in base sixteen, padded with zeros to `width`. -/
def hexPadded (n width : Nat) : String :=
  let digits := Nat.toDigits 16 n
  String.ofList (List.replicate (width - digits.length) '0' ++ digits)

/-- One character inside the quotes of a `repr`. -/
def reprChar (txt : PyText) (quote c : Char) : String :=
  if c = quote ∨ c = '\\' then "\\" ++ String.singleton c
  else if c = '\t' then "\\t"
  else if c = '\n' then "\\n"
  else if c = '\r' then "\\r"
  else if txt.isPrintable c then String.singleton c
  else if c.toNat < 0x100 then "\\x" ++ hexPadded c.toNat 2
  else if c.toNat < 0x10000 then "\\u" ++ hexPadded c.toNat 4
  else "\\U" ++ hexPadded c.toNat 8

/-- `repr(s)` of a string: single quotes unless only they occur in it. -/
def reprString (txt : PyText) (s : String) : String :=
  let quote := if s.toList.contains '\'' && !s.toList.contains '"' then '"' else '\''
  String.singleton quote ++ String.join (s.toList.map (reprChar txt quote)) ++
    String.singleton quote

mutual

/-- `repr(value)`. -/
def repr (txt : PyText) : PyValue → String
  | .none => "None"
  | .bool true => "True"
  | .bool false => "False"
  | .int n => toString n
  | .float x => txt.floatRepr x
  | .str s => reprString txt s
  | .list items => "[" ++ ", ".intercalate (reprItems txt items) ++ "]"
  | .dict entries => "\x7b" ++ ", ".intercalate (reprEntries txt entries) ++ "\x7d"

def reprItems (txt : PyText) : List PyValue → List String
  | [] => []
  | x :: xs => repr txt x :: reprItems txt xs

def reprEntries (txt : PyText) : List (String × PyValue) → List String
  | [] => []
  | (k, x) :: xs => (reprString txt k ++ ": " ++ repr txt x) :: reprEntries txt xs

end

/-- `str(value)`: a string is its own text. -/
def text (txt : PyText) : PyValue → String
  | .str s => s
  | v => repr txt v

@[simp] theorem text_str (txt : PyText) (s : String) : text txt (.str s) = s := rfl

/-! ## `json.dumps` -/

/-- One character inside the quotes of a JSON string, `ensure_ascii` off. -/
def jsonChar (c : Char) : String :=
  if c = '"' ∨ c = '\\' then "\\" ++ String.singleton c
  else if c = '\n' then "\\n"
  else if c = '\r' then "\\r"
  else if c = '\t' then "\\t"
  else if c.toNat = 8 then "\\b"
  else if c.toNat = 12 then "\\f"
  else if c.toNat < 0x20 then "\\u" ++ hexPadded c.toNat 4
  else String.singleton c

def jsonString (s : String) : String :=
  "\"" ++ String.join (s.toList.map jsonChar) ++ "\""

/-- A float is its `repr`, except for the three values JSON has other names for. -/
def jsonFloat (txt : PyText) : PyFloat → String
  | .inf negative => if negative then "-Infinity" else "Infinity"
  | .nan => "NaN"
  | x => txt.floatRepr x

mutual

/-- `json.dumps(value, sort_keys=True, separators=(",", ":"), ensure_ascii=False)`. -/
def dumpsSorted (txt : PyText) : PyValue → String
  | .none => "null"
  | .bool b => if b then "true" else "false"
  | .int n => toString n
  | .float x => jsonFloat txt x
  | .str s => jsonString s
  | .list items => "[" ++ ",".intercalate (dumpsItems txt items) ++ "]"
  | .dict entries =>
    let members := (dumpsEntries txt entries).insertionSort fun a b => a.1 ≤ b.1
    "\x7b" ++ ",".intercalate (members.map fun m => jsonString m.1 ++ ":" ++ m.2) ++ "\x7d"

def dumpsItems (txt : PyText) : List PyValue → List String
  | [] => []
  | x :: xs => dumpsSorted txt x :: dumpsItems txt xs

def dumpsEntries (txt : PyText) : List (String × PyValue) → List (String × String)
  | [] => []
  | (k, x) :: xs => (k, dumpsSorted txt x) :: dumpsEntries txt xs

end

/-! ## Integers -/

/-- The digits of an integer literal: single underscores may stand between two digits. -/
def digitsValue (txt : PyText) : List Char → Option Nat → Option Nat
  | [], acc => acc
  | '_' :: c :: cs, some n => (txt.digit c).bind fun d => digitsValue txt cs (some (10 * n + d))
  | c :: cs, acc => (txt.digit c).bind fun d => digitsValue txt cs (some (10 * acc.getD 0 + d))

/-- `s.strip()`, on the characters. -/
def stripChars (txt : PyText) (s : String) : List Char :=
  ((s.toList.dropWhile txt.isSpace).reverse.dropWhile txt.isSpace).reverse

/-- The longest integer literal CPython converts. -/
def maxStrDigits : Nat := 4300

/-- `int(s)` of a string. -/
def intOfString (txt : PyText) (s : String) : Except PyError Int :=
  let parse (cs : List Char) : Except PyError Nat :=
    if maxStrDigits < cs.countP (fun c => (txt.digit c).isSome) then .error .valueError
    else match digitsValue txt cs Option.none with
      | some n => .ok n
      | Option.none => .error .valueError
  match stripChars txt s with
  | '-' :: cs => (parse cs).map fun n => -(n : Int)
  | '+' :: cs => (parse cs).map fun n => (n : Int)
  | cs => (parse cs).map fun n => (n : Int)

/-- `int(value)`. -/
def toInt (txt : PyText) : PyValue → Except PyError Int
  | .int n => .ok n
  | .bool b => .ok (if b then 1 else 0)
  | .float (.finite m e) =>
    .ok (if 0 ≤ e then m * 2 ^ e.toNat else m.tdiv (2 ^ (-e).toNat))
  | .float (.inf _) => .error .overflowError
  | .float .nan => .error .valueError
  | .str s => intOfString txt s
  | _ => .error .typeError

/-- `isinstance(value, int) and not isinstance(value, bool)`. -/
def asInt? : PyValue → Option Int
  | .int n => some n
  | _ => Option.none

end PyValue

/-! ## Dictionaries -/

namespace PyDict

/-- `d.get(key)`, with no default. -/
def get? (d : PyDict) (key : String) : Option PyValue := d.lookup key

/-- `d.get(key, default)`. -/
def getD (d : PyDict) (key : String) (default : PyValue) : PyValue := (d.get? key).getD default

/-- `d[key] = value`: an entry keeps its place, a new one goes last. -/
def set (d : PyDict) (key : String) (value : PyValue) : PyDict :=
  match d with
  | [] => [(key, value)]
  | (k, v) :: rest => if k = key then (key, value) :: rest else (k, v) :: set rest key value

/-- `str(d.get(key, ""))`. -/
def textOf (txt : PyText) (d : PyDict) (key : String) : String :=
  (d.getD key (.str "")).text txt

@[simp] theorem get?_nil (key : String) : get? [] key = none := rfl

theorem get?_cons (k key : String) (v : PyValue) (d : PyDict) :
    get? ((k, v) :: d) key = if key = k then some v else get? d key := by
  by_cases h : key = k
  · simp [get?, h]
  · simp [get?, List.lookup_cons, beq_eq_false_iff_ne.mpr h, h]

/-- What is set is what is read back, and no other key changes. -/
@[simp] theorem get?_set (d : PyDict) (key key' : String) (value : PyValue) :
    (d.set key value).get? key' = if key' = key then some value else d.get? key' := by
  induction d with
  | nil => rw [set, get?_cons]
  | cons entry rest ih =>
    obtain ⟨k, v⟩ := entry
    rw [set]
    by_cases hk : k = key
    · subst hk
      rw [if_pos rfl, get?_cons, get?_cons]
      by_cases hkey : key' = k
      · rw [if_pos hkey, if_pos hkey]
      · rw [if_neg hkey, if_neg hkey, if_neg hkey]
    · rw [if_neg hk, get?_cons, ih, get?_cons]
      by_cases hkey : key' = k
      · rw [if_pos hkey, if_pos hkey, if_neg (by rw [hkey]; exact hk)]
      · rw [if_neg hkey, if_neg hkey]

end PyDict

/-! ## Slices of strings -/

/-- `s[:n]`. -/
def pyClip (s : String) (n : Nat) : String := String.ofList (s.toList.take n)

theorem length_pyClip_le (s : String) (n : Nat) : (pyClip s n).length ≤ n := by
  rw [pyClip, String.length_ofList]
  exact List.length_take_le n s.toList

theorem pyClip_of_length_le {s : String} {n : Nat} (h : s.length ≤ n) : pyClip s n = s := by
  rw [pyClip, List.take_of_length_le (by rwa [String.length_toList]), String.ofList_toList]

/-- `s.startswith(pre)`. -/
def pyStartsWith (s pre : String) : Bool := pre.toList.isPrefixOf s.toList

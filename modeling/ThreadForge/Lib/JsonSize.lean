import ThreadForge.Lib.PyValue

/-!
# The size of a JSON text

`len(json.dumps(value, ensure_ascii=False, separators=(",", ":")).encode("utf-8"))`, computed from
the value, and whether the encoding goes through. The order of the keys does not matter for either.
-/

namespace PyValue

/-! ## Sizes -/

/-- The bytes of one character inside the quotes of a JSON string. -/
def jsonCharSize (c : Char) : Nat :=
  if c = '"' ∨ c = '\\' ∨ c = '\n' ∨ c = '\r' ∨ c = '\t' ∨ c.toNat = 8 ∨ c.toNat = 12 then 2
  else if c.toNat < 0x20 then 6
  else c.utf8Size

/-- The bytes of a JSON string, its quotes included. -/
def jsonStringSize (s : String) : Nat := 2 + (s.toList.map jsonCharSize).sum

/-- The bytes of the commas between `n` items. -/
def commas (n : Nat) : Nat := n - 1

mutual

/-- The bytes of the JSON text of a value. -/
def jsonSize (txt : PyText) : PyValue → Nat
  | .none => 4
  | .bool b => if b then 4 else 5
  | .int n => (toString n).utf8ByteSize
  | .float x => (jsonFloat txt x).utf8ByteSize
  | .str s => jsonStringSize s
  | .list items => 2 + commas items.length + jsonSizeItems txt items
  | .dict entries => 2 + commas entries.length + jsonSizeEntries txt entries

def jsonSizeItems (txt : PyText) : List PyValue → Nat
  | [] => 0
  | x :: xs => jsonSize txt x + jsonSizeItems txt xs

def jsonSizeEntries (txt : PyText) : List (String × PyValue) → Nat
  | [] => 0
  | (k, x) :: xs => jsonStringSize k + 1 + jsonSize txt x + jsonSizeEntries txt xs

end

mutual

/-- No string of the value has a lone surrogate. -/
def jsonEncodable (txt : PyText) : PyValue → Bool
  | .str s => txt.encodable s
  | .list items => jsonEncodableItems txt items
  | .dict entries => jsonEncodableEntries txt entries
  | _ => true

def jsonEncodableItems (txt : PyText) : List PyValue → Bool
  | [] => true
  | x :: xs => jsonEncodable txt x && jsonEncodableItems txt xs

def jsonEncodableEntries (txt : PyText) : List (String × PyValue) → Bool
  | [] => true
  | (k, x) :: xs => txt.encodable k && jsonEncodable txt x && jsonEncodableEntries txt xs

end

end PyValue

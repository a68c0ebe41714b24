import ThreadForge.Lib.JsonSize

/-!
# Texts cut to a number of bytes

`text.encode("utf-8")[:n].decode("utf-8", errors="ignore")` keeps the characters that are there as a
whole. Its size, and the size of a text inside the quotes of a JSON string.
-/

namespace PyChars

/-- The bytes of a text in UTF-8. -/
def utf8Bytes (cs : List Char) : Nat := (cs.map Char.utf8Size).sum

/-- The characters that lie in the first `n` bytes as a whole. -/
def takeUtf8 : Nat → List Char → List Char
  | _, [] => []
  | n, c :: cs => if c.utf8Size ≤ n then c :: takeUtf8 (n - c.utf8Size) cs else []

/-- The bytes of a text inside the quotes of a JSON string. -/
def escapedBytes (cs : List Char) : Nat := (cs.map PyValue.jsonCharSize).sum

variable {cs : List Char}

@[simp] theorem utf8Bytes_cons (c : Char) (cs : List Char) :
    utf8Bytes (c :: cs) = c.utf8Size + utf8Bytes cs := rfl

@[simp] theorem escapedBytes_cons (c : Char) (cs : List Char) :
    escapedBytes (c :: cs) = PyValue.jsonCharSize c + escapedBytes cs := rfl

theorem takeUtf8_isInit (n : Nat) (cs : List Char) : takeUtf8 n cs <+: cs := by
  induction cs generalizing n with
  | nil => exact List.prefix_rfl
  | cons c cs ih =>
    rw [takeUtf8]
    split
    · exact List.cons_prefix_cons.mpr ⟨rfl, ih _⟩
    · exact List.nil_prefix

theorem escapedBytes_replicate (n : Nat) (c : Char) :
    escapedBytes (List.replicate n c) = n * PyValue.jsonCharSize c := by
  unfold escapedBytes
  rw [List.map_replicate, List.sum_replicate_nat]

theorem utf8Bytes_replicate (n : Nat) (c : Char) :
    utf8Bytes (List.replicate n c) = n * c.utf8Size := by
  unfold utf8Bytes
  rw [List.map_replicate, List.sum_replicate_nat]

end PyChars

import ThreadForge.Lib.JsonText
import ThreadForge.Lib.PyString

/-!
# Values are read back from their JSON text

`json.dumps(value)` with its default options, which writes the members of a dictionary in their
order, and that `json.loads` reads the same value from what it wrote. Floats are left out: what
their text is read as depends on tables.

## Main results

* `PyJson.loads_encode` — a readable value is read back.
-/

namespace PyJson

mutual

/-- `json.dumps(value)`. -/
def encode (txt : PyText) : PyValue → List Char
  | .none => "null".toList
  | .bool b => (if b then "true" else "false").toList
  | .int n => (toString n).toList
  | .float x => (PyValue.jsonFloat txt x).toList
  | .str s => stringText s
  | .list items => '[' :: (joinTexts (encodeItems txt items) ++ [']'])
  | .dict entries => objectOf (encodeEntries txt entries)

def encodeItems (txt : PyText) : List PyValue → List (List Char)
  | [] => []
  | x :: xs => encode txt x :: encodeItems txt xs

def encodeEntries (txt : PyText) : List (String × PyValue) → List (String × List Char)
  | [] => []
  | (k, x) :: xs => (k, encode txt x) :: encodeEntries txt xs

end

/-- The digits of an integer. -/
def digitCount (n : Int) : Nat := (Nat.toDigits 10 n.natAbs).length

mutual

/-- A value without floats, with one member of a key and integers that can be converted. -/
def Readable : PyValue → Prop
  | .int n => digitCount n ≤ PyValue.maxStrDigits
  | .float _ => False
  | .list items => ReadableItems items
  | .dict entries => ReadableEntries entries
  | _ => True

def ReadableItems : List PyValue → Prop
  | [] => True
  | x :: xs => Readable x ∧ ReadableItems xs

def ReadableEntries : List (String × PyValue) → Prop
  | [] => True
  | (k, x) :: xs => Readable x ∧ k ∉ xs.map Prod.fst ∧ ReadableEntries xs

end

/-- What can come after a value: nothing that could go on with a number. -/
def Closes : List Char → Prop
  | [] => True
  | c :: _ => c = ',' ∨ c = ']' ∨ c = '\x7d'

variable {txt : PyText} {rest : List Char}

/-! ## Numbers -/

theorem not_digit_of_closes (h : Closes rest) : rest.takeWhile Char.isDigit = [] ∧
    rest.dropWhile Char.isDigit = rest := by
  cases rest with
  | nil => exact ⟨rfl, rfl⟩
  | cons c cs =>
    have hdigit : c.isDigit = false := by
      rcases h with rfl | rfl | rfl <;> rfl
    rw [List.takeWhile_cons_of_neg (by simp [hdigit]),
      List.dropWhile_cons_of_neg (by simp [hdigit])]
    exact ⟨rfl, rfl⟩

theorem scanDigits_toDigits (n : Nat) (h : Closes rest) :
    scanDigits (Nat.toDigits 10 n ++ rest) = (Nat.toDigits 10 n, rest) := by
  have hdigit : ∀ c ∈ Nat.toDigits 10 n, c.isDigit = true := fun c hc =>
    Nat.isDigit_of_mem_toDigits (by decide) (by decide) hc
  rw [scanDigits, List.takeWhile_append_of_pos hdigit, List.dropWhile_append_of_pos hdigit,
    (not_digit_of_closes h).1, (not_digit_of_closes h).2, List.append_nil]

theorem scanWhole_toDigits (n : Nat) (h : Closes rest) :
    scanWhole (Nat.toDigits 10 n ++ rest) = some (Nat.toDigits 10 n, rest) := by
  rcases Nat.eq_zero_or_pos n with rfl | hn
  · rw [Nat.toDigits_zero]
    rfl
  · obtain ⟨c, cs, hhead, hc⟩ := toDigits_head n hn
    have hscan := scanDigits_toDigits n h
    rw [hhead] at hscan ⊢
    rw [List.cons_append, scanWhole.eq_2 _ (by simp [hc]), ← List.cons_append, hscan,
      if_neg (by simp)]

theorem scanUnsigned_toDigits (t : Tables) (negative : Bool) (n : Nat) (h : Closes rest)
    (hsize : (Nat.toDigits 10 n).length ≤ PyValue.maxStrDigits) :
    scanUnsigned t negative (Nat.toDigits 10 n ++ rest) =
      some (.int (if negative then -n else n), rest) := by
  have hvalue : digitsValue (Nat.toDigits 10 n) = n := Nat.ofDigitChars_ten_toDigits
  have hfraction : scanFraction rest = ([], rest) := by
    cases rest with
    | nil => rfl
    | cons c cs => rcases h with rfl | rfl | rfl <;> rfl
  have hexponent : scanExponent rest = ([], rest) := by
    cases rest with
    | nil => rfl
    | cons c cs => rcases h with rfl | rfl | rfl <;> rfl
  unfold scanUnsigned
  rw [scanWhole_toDigits n h]
  simp only [Option.bind_eq_bind, Option.bind_some, hfraction, hexponent]
  rw [if_pos ⟨trivial, trivial⟩, if_neg (Nat.not_lt.mpr hsize), hvalue]
  rfl

/-- No word of JSON begins as a number does. -/
theorem find?_words_of_number {c : Char} (h : c.isDigit = true) (cs : List Char) :
    (words.find? fun word => word.1.toList.isPrefixOf (c :: cs)) = none ∧
      (words.find? fun word => word.1.toList.isPrefixOf ('-' :: c :: cs)) = none := by
  have hne : ∀ d : Char, d.isDigit = false → (d == c) = false := by
    intro d hd
    refine beq_eq_false_iff_ne.mpr fun heq => ?_
    rw [heq, h] at hd
    cases hd
  constructor <;>
    simp [words, List.find?, List.isPrefixOf, hne 'n' rfl, hne 't' rfl, hne 'f' rfl, hne 'N' rfl,
      hne 'I' rfl, hne '-' rfl]

theorem scanWord_int (t : Tables) (n : Int) (h : Closes rest)
    (hsize : digitCount n ≤ PyValue.maxStrDigits) :
    scanWord t ((toString n).toList ++ rest) = some (.int n, rest) := by
  obtain ⟨c, cs, hdigits⟩ := List.exists_cons_of_ne_nil
    (show Nat.toDigits 10 n.natAbs ≠ [] from Nat.toDigits_ne_nil)
  have hdigit : c.isDigit = true := by
    refine @Nat.isDigit_of_mem_toDigits 10 n.natAbs _ (by decide) (by decide) ?_
    rw [hdigits]
    exact List.mem_cons_self
  have hread := fun negative => scanUnsigned_toDigits t negative n.natAbs h hsize
  rw [toString_int]
  unfold scanWord
  by_cases hn : n < 0
  · rw [if_pos hn, List.singleton_append, List.cons_append, hdigits, List.cons_append,
      (find?_words_of_number hdigit _).2, ← List.cons_append, ← hdigits]
    refine (hread true).trans ?_
    rw [if_pos rfl, show -(n.natAbs : Int) = n by omega]
  · rw [if_neg hn, List.nil_append]
    have hplain : scanUnsigned t false (c :: cs ++ rest) = some (.int n, rest) := by
      rw [← hdigits]
      refine (hread false).trans ?_
      rw [if_neg (by decide), show (n.natAbs : Int) = n by omega]
    rw [hdigits, List.cons_append, (find?_words_of_number hdigit _).1]
    split
    · next heq =>
      cases heq
    · next heq =>
      split
      · next cs' hminus =>
        rw [(List.cons.inj hminus).1] at hdigit
        cases hdigit
      · exact hplain

/-- Whatever opens no string, array or object is a word or a number. -/
theorem scanValue_scanWord (t : Tables) (fuel : Nat) {c : Char} (cs : List Char)
    (h : c ≠ '"' ∧ c ≠ '\x7b' ∧ c ≠ '[') : scanValue t (fuel + 1) (c :: cs) = scanWord t (c :: cs) := by
  rw [scanValue.eq_5]
  · exact fun ds heq => h.1 (List.cons.inj heq).1
  · exact fun ds heq => h.2.1 (List.cons.inj heq).1
  · exact fun ds heq => h.2.2 (List.cons.inj heq).1

/-! ## Arrays and objects -/

/-- The text of an integer begins with a digit or a minus. -/
theorem encode_int_head (txt : PyText) (n : Int) :
    ∃ c cs, encode txt (.int n) = c :: cs ∧ (isBlank c = false ∧ c ≠ ']' ∧ c ≠ '\ufeff') ∧
      c ≠ '"' ∧ c ≠ '\x7b' ∧ c ≠ '[' := by
  obtain ⟨c, cs, hdigits⟩ := List.exists_cons_of_ne_nil
    (show Nat.toDigits 10 n.natAbs ≠ [] from Nat.toDigits_ne_nil)
  have hdigit : c.isDigit = true := by
    refine @Nat.isDigit_of_mem_toDigits 10 n.natAbs _ (by decide) (by decide) ?_
    rw [hdigits]
    exact List.mem_cons_self
  have hne : ∀ d : Char, d.isDigit = false → c ≠ d := by
    rintro d hd rfl
    rw [hdigit] at hd
    cases hd
  rw [encode, toString_int, hdigits]
  by_cases hn : n < 0
  · rw [if_pos hn]
    exact ⟨'-', _, rfl, by decide⟩
  · rw [if_neg hn]
    refine ⟨c, cs, rfl, ⟨?_, hne ']' rfl, hne '\ufeff' rfl⟩, hne '"' rfl, hne '\x7b' rfl,
      hne '[' rfl⟩
    simp [isBlank, hne ' ' rfl, hne '\t' rfl, hne '\n' rfl, hne '\r' rfl]

/-- No text of a value begins with a blank or a byte order mark, or closes an array. -/
theorem encode_head (txt : PyText) (v : PyValue) (h : Readable v) :
    ∃ c cs, encode txt v = c :: cs ∧ isBlank c = false ∧ c ≠ ']' ∧ c ≠ '\ufeff' := by
  cases v with
  | none => exact ⟨'n', _, rfl, rfl, by decide, by decide⟩
  | bool b => cases b <;> exact ⟨_, _, rfl, rfl, by decide, by decide⟩
  | float x => exact absurd h (by simp [Readable])
  | str s => exact ⟨'"', _, rfl, rfl, by decide, by decide⟩
  | list items => exact ⟨'[', _, rfl, rfl, by decide, by decide⟩
  | dict entries => exact ⟨'\x7b', _, rfl, rfl, by decide, by decide⟩
  | int n =>
    obtain ⟨c, cs, hhead, hplain, -⟩ := encode_int_head txt n
    exact ⟨c, cs, hhead, hplain⟩

/-- What comes after an item or a member of which `texts` are still to come. -/
def after (close : Char) (texts : List (List Char)) (rest : List Char) : List Char :=
  match texts with
  | [] => close :: rest
  | text :: texts => ',' :: ' ' :: (joinTexts (text :: texts) ++ close :: rest)

theorem joinTexts_append (close : Char) (text : List Char) (texts : List (List Char))
    (rest : List Char) :
    joinTexts (text :: texts) ++ close :: rest = text ++ after close texts rest := by
  cases texts with
  | nil => rfl
  | cons next texts => simp [joinTexts, after]

theorem length_le_joinTexts (text : List Char) (texts : List (List Char)) :
    text.length + (joinTexts texts).length ≤ (joinTexts (text :: texts)).length := by
  cases texts with
  | nil => simp [joinTexts]
  | cons next texts =>
    simp only [joinTexts, List.length_append, List.length_cons]
    omega

theorem length_lt_joinTexts (text next : List Char) (texts : List (List Char)) :
    text.length + (joinTexts (next :: texts)).length <
      (joinTexts (text :: next :: texts)).length := by
  simp only [joinTexts, List.length_append, List.length_cons]
  omega

theorem length_le_memberText (key : String) (text : List Char) :
    text.length ≤ (memberText (key, text)).length := by
  simp only [memberText, List.length_append, List.length_cons]
  omega

theorem closes_after {close : Char} (h : close = ']' ∨ close = '\x7d') (texts : List (List Char))
    (rest : List Char) : Closes (after close texts rest) := by
  cases texts with
  | nil => exact Or.inr h
  | cons text texts => exact Or.inl rfl

theorem skipBlanks_after {close : Char} (h : close = ']' ∨ close = '\x7d')
    (texts : List (List Char))
    (rest : List Char) : skipBlanks (after close texts rest) = after close texts rest := by
  cases texts with
  | nil => rcases h with rfl | rfl <;> exact skipBlanks_cons_of_not rfl _
  | cons text texts => exact skipBlanks_cons_of_not rfl _

/-- One member of an object, up to what comes after its value. -/
theorem scanMembers_step (t : Tables) (fuel : Nat) (members : PyDict) (key : String)
    (cs : List Char) :
    scanMembers t (fuel + 1) members (stringText key ++ ':' :: ' ' :: cs) =
      match scanValue t fuel (skipBlanks cs) with
      | none => none
      | some (value, cs) => match skipBlanks cs with
        | '\x7d' :: cs => some (members.set key value, cs)
        | ',' :: cs => scanMembers t fuel (members.set key value) (skipBlanks cs)
        | _ => none := by
  have htext : stringText key ++ ':' :: ' ' :: cs =
      '"' :: (stringBody key ++ '"' :: ':' :: ' ' :: cs) := by
    simp [stringText]
  rw [htext, scanMembers, scanString_encoded]
  rfl

theorem skipBlanks_members (key : String) (text : List Char) (texts : List (List Char))
    (cs : List Char) : skipBlanks (joinTexts (memberText (key, text) :: texts) ++ cs) =
      joinTexts (memberText (key, text) :: texts) ++ cs := by
  cases texts with
  | nil => exact skipBlanks_cons_of_not rfl _
  | cons next texts => exact skipBlanks_cons_of_not rfl _

/-- A member whose value is read, with the members that come after it. -/
theorem scanMembers_value (t : Tables) {fuel : Nat} {members : PyDict} {k : String} {x : PyValue}
    {text : List Char} {texts : List (List Char)} {rest : List Char}
    (hvalue : scanValue t fuel (text ++ after '\x7d' texts rest) = some (x, after '\x7d' texts rest))
    (hstart : ∃ c cs, text = c :: cs ∧ isBlank c = false)
    (habsent : ∀ entry ∈ members, entry.1 ≠ k) :
    scanMembers t (fuel + 1) members (joinTexts (memberText (k, text) :: texts) ++ '\x7d' :: rest) =
      match texts with
      | [] => some (members ++ [(k, x)], rest)
      | next :: texts => scanMembers t fuel (members ++ [(k, x)])
          (skipBlanks (joinTexts (next :: texts) ++ '\x7d' :: rest)) := by
  obtain ⟨c, cs, hc, hblank⟩ := hstart
  have hstep := scanMembers_step t fuel members k (text ++ after '\x7d' texts rest)
  rw [show skipBlanks (text ++ after '\x7d' texts rest) = text ++ after '\x7d' texts rest by
    rw [hc, List.cons_append, skipBlanks_cons_of_not hblank], hvalue] at hstep
  rw [joinTexts_append]
  simp only [memberText, List.append_assoc, List.cons_append]
  rw [hstep]
  simp only [skipBlanks_after (Or.inr rfl), set_of_absent habsent]
  cases texts with
  | nil => rfl
  | cons next texts =>
    simp only [after, skipBlanks_space]

mutual

/-- A value is read back, whatever comes after it. -/
theorem scanValue_encode (t : Tables) (txt : PyText) :
    ∀ v, Readable v → ∀ fuel rest, (encode txt v).length ≤ fuel → Closes rest →
      scanValue t fuel (encode txt v ++ rest) = some (v, rest)
  | .none, _, fuel, rest, hfuel, hrest => by
    cases fuel with
    | zero => cases hfuel
    | succ fuel => exact scanValue_scanWord t fuel _ (by decide)
  | .bool b, _, fuel, rest, hfuel, hrest => by
    cases fuel with
    | zero => cases b <;> cases hfuel
    | succ fuel => cases b <;> exact scanValue_scanWord t fuel _ (by decide)
  | .float _, h, _, _, _, _ => by
    simp [Readable] at h
  | .int n, h, fuel, rest, hfuel, hrest => by
    obtain ⟨c, cs, hhead, hplain⟩ := encode_int_head txt n
    rw [hhead] at hfuel
    cases fuel with
    | zero => cases hfuel
    | succ fuel =>
      rw [hhead, List.cons_append, scanValue_scanWord t fuel _ hplain.2, ← List.cons_append,
        ← hhead]
      exact scanWord_int t n hrest h
  | .str s, _, fuel, rest, hfuel, hrest => by
    cases fuel with
    | zero => cases hfuel
    | succ fuel =>
      have htext : encode txt (.str s) ++ rest = '"' :: (stringBody s ++ '"' :: rest) := by
        simp [encode, stringText]
      rw [htext, scanValue, scanString_encoded]
      rfl
  | .list [], _, fuel, rest, hfuel, hrest => by
    cases fuel with
    | zero => cases hfuel
    | succ fuel => rfl
  | .list (x :: xs), h, fuel, rest, hfuel, hrest => by
    cases fuel with
    | zero => cases hfuel
    | succ fuel =>
      obtain ⟨c, cs, hhead, hblank, hclose, -⟩ := encode_head txt x h.1
      have hlength : (encode txt (.list (x :: xs))).length =
          (joinTexts (encodeItems txt (x :: xs))).length + 2 := by
        simp [encode]
      have hread := scanItems_encode t txt x xs h fuel [] rest (by omega)
      have htext : encode txt (.list (x :: xs)) ++ rest =
          '[' :: (joinTexts (encodeItems txt (x :: xs)) ++ ']' :: rest) := by
        simp [encode]
      rw [encodeItems, joinTexts_append, hhead, List.cons_append] at hread
      rw [htext, encodeItems, joinTexts_append, hhead, List.cons_append, scanValue,
        skipBlanks_cons_of_not hblank]
      split
      · next cs' heq => exact absurd (List.cons.inj heq).1 hclose
      · rw [hread]
        rfl
  | .dict [], _, fuel, rest, hfuel, hrest => by
    cases fuel with
    | zero => cases hfuel
    | succ fuel => rfl
  | .dict ((k, x) :: xs), h, fuel, rest, hfuel, hrest => by
    cases fuel with
    | zero => cases hfuel
    | succ fuel =>
      have hlength : (encode txt (.dict ((k, x) :: xs))).length =
          (joinTexts ((encodeEntries txt ((k, x) :: xs)).map memberText)).length + 2 := by
        simp [encode, objectOf]
      have hread := scanMembers_encode t txt k x xs h fuel [] rest (by simp) (by omega)
      have htext : encode txt (.dict ((k, x) :: xs)) ++ rest = '\x7b' ::
          (joinTexts ((encodeEntries txt ((k, x) :: xs)).map memberText) ++ '\x7d' :: rest) := by
        simp [encode, objectOf]
      rw [encodeEntries, List.map_cons, joinTexts_append] at hread
      rw [htext, encodeEntries, List.map_cons, joinTexts_append]
      refine (scanValue_brace t fuel rfl (by decide)).trans ?_
      exact congrArg (Option.map fun r => (PyValue.dict r.1, r.2)) hread
termination_by v => sizeOf v

theorem scanItems_encode (t : Tables) (txt : PyText) :
    ∀ x xs, ReadableItems (x :: xs) → ∀ fuel items rest,
      (joinTexts (encodeItems txt (x :: xs))).length < fuel →
      scanItems t fuel items (joinTexts (encodeItems txt (x :: xs)) ++ ']' :: rest) =
        some (items ++ x :: xs, rest)
  | x, xs, h, fuel, items, rest, hfuel => by
    cases fuel with
    | zero => cases hfuel
    | succ fuel =>
      have hsize := length_le_joinTexts (encode txt x) (encodeItems txt xs)
      have hhead := scanValue_encode t txt x h.1 fuel (after ']' (encodeItems txt xs) rest)
        (by rw [encodeItems] at hfuel; omega) (closes_after (Or.inl rfl) _ _)
      rw [encodeItems, joinTexts_append, scanItems, hhead]
      simp only [skipBlanks_after (Or.inl rfl)]
      cases xs with
      | nil => rfl
      | cons next xs =>
        obtain ⟨c, cs, hnext, hblank, -⟩ := encode_head txt next h.2.1
        have hless := length_lt_joinTexts (encode txt x) (encode txt next) (encodeItems txt xs)
        have hrest := scanItems_encode t txt next xs h.2 fuel (items ++ [x]) rest (by
          simp only [encodeItems] at hfuel ⊢
          omega)
        rw [encodeItems, joinTexts_append, hnext, List.cons_append] at hrest
        rw [encodeItems, after, joinTexts_append, hnext, List.cons_append]
        simp only [skipBlanks_space, skipBlanks_cons_of_not hblank]
        rw [hrest, List.append_assoc, List.singleton_append]
termination_by x xs => sizeOf (x :: xs)

theorem scanMembers_encode (t : Tables) (txt : PyText) :
    ∀ k x xs, ReadableEntries ((k, x) :: xs) → ∀ fuel members rest,
      (∀ entry ∈ members, entry.1 ∉ ((k, x) :: xs).map Prod.fst) →
      (joinTexts ((encodeEntries txt ((k, x) :: xs)).map memberText)).length < fuel →
      scanMembers t fuel members
          (joinTexts ((encodeEntries txt ((k, x) :: xs)).map memberText) ++ '\x7d' :: rest) =
        some (members ++ (k, x) :: xs, rest)
  | k, x, xs, h, 0, members, rest, hfresh, hfuel => by cases hfuel
  | k, x, [], h, fuel + 1, members, rest, hfresh, hfuel => by
    have hsize := length_le_memberText k (encode txt x)
    have hvalue := scanValue_encode t txt x h.1 fuel ('\x7d' :: rest)
      (by simp only [encodeEntries, List.map_cons, List.map_nil, joinTexts] at hfuel; omega)
      (Or.inr (Or.inr rfl))
    obtain ⟨c, cs, hx, hblank, -⟩ := encode_head txt x h.1
    exact @scanMembers_value t fuel members k x (encode txt x) [] rest hvalue ⟨c, cs, hx, hblank⟩
      fun entry hentry heq => hfresh entry hentry (by rw [heq]; exact List.mem_cons_self)
  -- The fuel is enough for the value and for the members behind it: each is a part of the text.
  | k, x, (k', x') :: xs, h, fuel + 1, members, rest, hfresh, hfuel => by
    have hsize := length_le_memberText k (encode txt x)
    have hless := length_lt_joinTexts (memberText (k, encode txt x))
      (memberText (k', encode txt x'))
      ((encodeEntries txt xs).map memberText)
    have hvalue := scanValue_encode t txt x h.1 fuel
      (after '\x7d' ((encodeEntries txt ((k', x') :: xs)).map memberText) rest)
      (by simp only [encodeEntries, List.map_cons] at hfuel; omega) (closes_after (Or.inr rfl) _ _)
    have hrest := scanMembers_encode t txt k' x' xs h.2.2 fuel (members ++ [(k, x)]) rest
      (by
        intro entry hentry hmem
        rcases List.mem_append.mp hentry with hold | hnew
        · exact hfresh entry hold (List.mem_cons_of_mem _ hmem)
        · rw [List.mem_singleton.mp hnew] at hmem
          exact h.2.1 hmem)
      (by
        simp only [encodeEntries, List.map_cons] at hfuel ⊢
        omega)
    obtain ⟨c, cs, hx, hblank, -⟩ := encode_head txt x h.1
    rw [List.append_assoc, List.singleton_append] at hrest
    rw [← hrest]
    refine (@scanMembers_value t fuel members k x (encode txt x) _ rest hvalue ⟨c, cs, hx, hblank⟩
      fun entry hentry heq => hfresh entry hentry (by rw [heq]; exact List.mem_cons_self)).trans ?_
    exact congrArg (scanMembers t fuel (members ++ [(k, x)])) (skipBlanks_members _ _ _ _)
termination_by k x xs => sizeOf ((k, x) :: xs)

end

/-- **A readable value is read back from its text.** -/
theorem loads_encode (t : Tables) (txt : PyText) {v : PyValue} (h : Readable v) :
    loads t (encode txt v) = some v := by
  obtain ⟨c, cs, hhead, hblank, -, hmark⟩ := encode_head txt v h
  have hread := scanValue_encode t txt v h ((encode txt v).length + 1) [] (Nat.le_succ _) trivial
  rw [List.append_nil] at hread
  have hskip : skipBlanks (encode txt v) = encode txt v := by
    rw [hhead, skipBlanks_cons_of_not hblank]
  rw [loads, if_neg, hskip, hread]
  · rfl
  · rw [hhead, List.head?_cons]
    exact fun heq => hmark (Option.some.inj heq)

end PyJson

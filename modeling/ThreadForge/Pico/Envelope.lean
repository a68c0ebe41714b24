import ThreadForge.Lib.Markup
import ThreadForge.Pico.CommandExit

/-!
# The envelope of a tool call

The notices of the runtime ask the model to write a call as a `<tool …>` element: its name and the
short arguments as attributes, the long ones as child elements. `parse` finds the pieces of such an
envelope by substring searches, each of which takes the first hit wherever it lies. So the text of
one child can be taken for another child, or for an envelope of its own.

## Main results

* `parseReply_envelope` : what `parse` makes of an envelope, argument by argument
* `roundTrips_iff` : an envelope comes back as the call it was written for exactly where it is
  unambiguous
-/

namespace ThreadForge

open PyChars

/-! ## Writing a call -/

/-- `<key>`. -/
def openTag (key : String) : List Char := ("<" ++ key ++ ">").toList

/-- `</key>`. -/
def closeTag (key : String) : List Char := ("</" ++ key ++ ">").toList

/-- ` key="value"`. -/
def attributeChars (a : String × String) : List Char :=
  ' ' :: (a.1.toList ++ '=' :: '"' :: (a.2.toList ++ ['"']))

/-- `<key>text</key>`. -/
def elementChars (c : String × String) : List Char :=
  openTag c.1 ++ (c.2.toList ++ closeTag c.1)

/-- A key that `parse_attrs` reads. -/
def isIdentifier (key : String) : Bool :=
  match key.toList with
  | [] => false
  | c :: cs => isNameStart c && cs.all isNameChar

/-- A tool call as the model writes it: the name, the short arguments and the long ones. -/
structure Envelope where
  name : String
  attrs : List (String × String)
  children : List (String × String)
  quotable : ∀ a ∈ ("name", name) :: attrs, '"' ∉ a.2.toList ∧ '>' ∉ a.2.toList
  keyed : ∀ a ∈ attrs, isIdentifier a.1 = true ∧ a.1 ≠ "name"
  known : ∀ c ∈ children, c.1 ∈ childTags
  closed : ∀ c ∈ children, breakAt (closeTag c.1) c.2.toList = none ∧
    breakAt (closeTag "tool") c.2.toList = none
  distinct : ((attrs ++ children).map Prod.fst).Nodup

namespace Envelope

/-- The attributes. -/
def head (e : Envelope) : List Char := (("name", e.name) :: e.attrs).flatMap attributeChars

/-- The child elements. -/
def body (e : Envelope) : List Char := e.children.flatMap elementChars

/-- `<tool name="…" key="value"><key>text</key></tool>`. -/
def text (e : Envelope) : String :=
  String.ofList ("<tool".toList ++ (e.head ++ '>' :: (e.body ++ closeTag "tool")))

/-- The arguments that the envelope was written for. -/
def args (e : Envelope) : PyDict := (e.attrs ++ e.children).map fun a => (a.1, .str a.2)

/-- The envelope comes back as its own call. -/
def RoundTrips (txt : PyText) (loads : JsonLoads) (e : Envelope) : Prop :=
  ∃ args, parseReply txt loads (.str e.text) = .ok (.tool (.str e.name) args) ∧
    ∀ key, args.get? key = e.args.get? key

end Envelope

/-! ## Where the searches go wrong -/

/-- What stands behind the first `<key>`, where this lies in the text of a child that comes before
the element of `key` itself. -/
def strayOpening (key : String) : List (String × String) → Option (List Char)
  | [] => none
  | (k, text) :: rest =>
    if k = key then none
    else match breakAt (openTag key) text.toList with
      | some (_, behind) => some (behind ++ (closeTag k ++ rest.flatMap elementChars))
      | none => strayOpening key rest

/-- The text up to the closing tag, or all of it. -/
def untilClosing (key : String) (behind : List Char) : List Char :=
  match breakAt (closeTag key) behind with
  | some parts => parts.1
  | none => behind

/-- The name is its own stripped form; no child's text opens a `<tool>`, unless a `<final>` comes
first; a stray opening tag is followed by the value that its key has anyway; and the argument for
which the whole body stands in is given. -/
structure Envelope.Unambiguous (txt : PyText) (e : Envelope) : Prop where
  named : pyStrip txt e.name = e.name ∧ e.name ≠ ""
  enclosed : standsBefore (String.ofList e.body) "<tool>" "<final>" = false
  own : ∀ key ∈ childTags, ∀ behind, strayOpening key e.children = some behind →
    e.args.get? key = some (.str (String.ofList (untilClosing key behind)))
  content : e.name = "write_file" → e.children ≠ [] → (e.args.get? "content").isSome
  task : e.name = "delegate" → e.children ≠ [] → (e.args.get? "task").isSome

/-! ## Reading the attributes -/

section Attributes

variable {txt : PyText}

/-- The characters of the markup are no blanks. -/
structure MarkupTable (txt : PyText) : Prop where
  less : txt.isSpace '<' = false
  greater : txt.isSpace '>' = false
  equals : txt.isSpace '=' = false
  quote : txt.isSpace '"' = false

theorem all_isNameChar {key : String} (h : isIdentifier key = true) :
    ∃ c cs, key.toList = c :: cs ∧ isNameStart c = true ∧ ∀ d ∈ c :: cs, isNameChar d = true := by
  unfold isIdentifier at h
  rcases hkey : key.toList with _ | ⟨c, cs⟩
  · rw [hkey] at h
    exact absurd h (by decide)
  · rw [hkey] at h
    obtain ⟨hstart, hrest⟩ := (Bool.and_eq_true _ _).mp h
    refine ⟨c, cs, rfl, hstart, fun d hd => ?_⟩
    rcases List.mem_cons.mp hd with rfl | hd
    · exact Bool.or_eq_true_iff.mpr (Or.inl hstart)
    · exact List.all_eq_true.mp hrest d hd

/-- A text up to a character that it does not have. -/
theorem breakAt_singleton {q : Char} {value rest : List Char} (h : q ∉ value) :
    breakAt [q] (value ++ q :: rest) = some (value, rest) := by
  have hfirst : EndsFirst [q] value := by
    intro hpart
    rw [List.dropLast_singleton, List.append_nil] at hpart
    exact h (hpart.subset List.mem_cons_self)
  have hbreak := breakAt_of_endsFirst (v := rest) (List.cons_ne_nil q []) hfirst
  rwa [List.append_assoc] at hbreak

theorem attributeAt_written (htxt : MarkupTable txt) {a : String × String}
    (hkey : isIdentifier a.1 = true) (hvalue : '"' ∉ a.2.toList) (rest : List Char) :
    attributeAt txt (a.1.toList ++ '=' :: '"' :: (a.2.toList ++ ['"']) ++ rest) =
      some (a, rest) := by
  obtain ⟨c, cs, hchars, hstart, hall⟩ := all_isNameChar hkey
  have heq : a.1.toList ++ '=' :: '"' :: (a.2.toList ++ ['"']) ++ rest =
      (c :: cs) ++ '=' :: '"' :: (a.2.toList ++ '"' :: rest) := by
    rw [hchars]
    simp only [List.append_assoc, List.cons_append, List.nil_append]
  have hequals : ¬isNameChar '=' = true := by decide
  have htake : ((c :: cs) ++ '=' :: '"' :: (a.2.toList ++ '"' :: rest)).takeWhile isNameChar =
      c :: cs := by
    rw [List.takeWhile_append_of_pos hall, List.takeWhile_cons_of_neg hequals, List.append_nil]
  have hdrop : ((c :: cs) ++ '=' :: '"' :: (a.2.toList ++ '"' :: rest)).dropWhile isNameChar =
      '=' :: '"' :: (a.2.toList ++ '"' :: rest) := by
    rw [List.dropWhile_append_of_pos hall, List.dropWhile_cons_of_neg hequals]
  have hquoted : quotedValue ('"' :: (a.2.toList ++ '"' :: rest)) = some (a.2, rest) := by
    rw [quotedValue, if_pos (Or.inl rfl), breakAt_singleton hvalue, Option.map_some,
      String.ofList_toList]
  rw [heq, List.cons_append, attributeAt, if_pos hstart, ← List.cons_append, hdrop,
    List.dropWhile_cons_of_neg (by simp [htxt.equals])]
  show (quotedValue (List.dropWhile txt.isSpace ('"' :: (a.2.toList ++ '"' :: rest)))).map _ = _
  rw [List.dropWhile_cons_of_neg (by simp [htxt.quote]), hquoted, htake, Option.map_some, ← hchars,
    String.ofList_toList]

/-- `parse_attrs` reads the attributes one after the other. -/
theorem parseAttrs_written (htxt : MarkupTable txt) :
    ∀ (attrs : List (String × String)) (fuel : Nat) (acc : PyDict),
      (∀ a ∈ attrs, isIdentifier a.1 = true ∧ '"' ∉ a.2.toList) →
      (attrs.flatMap attributeChars).length ≤ fuel →
      parseAttrs txt fuel (attrs.flatMap attributeChars) acc =
        attrs.foldl (fun acc a => acc.set a.1 (.str a.2)) acc
  | [], fuel, acc, _, _ => by
    cases fuel with
    | zero => rfl
    | succ fuel => rfl
  | a :: attrs, fuel, acc, hattrs, hfuel => by
    obtain ⟨hkey, hvalue⟩ := hattrs a List.mem_cons_self
    obtain ⟨c, cs, hchars, -, -⟩ := all_isNameChar hkey
    rw [List.flatMap_cons, List.length_append] at hfuel
    have hlen : 2 ≤ (attributeChars a).length := by
      rw [attributeChars, List.length_cons, List.length_append, List.length_cons]
      omega
    obtain ⟨fuel, rfl⟩ : ∃ n, fuel = n + 2 := ⟨fuel - 2, by omega⟩
    have hskip : attributeAt txt (' ' :: (a.1.toList ++ '=' :: '"' :: (a.2.toList ++ ['"']) ++
        attrs.flatMap attributeChars)) = none := by
      rw [attributeAt, if_neg (by decide)]
    have hread := attributeAt_written htxt hkey hvalue (attrs.flatMap attributeChars)
    rw [List.flatMap_cons, attributeChars, List.cons_append, parseAttrs, hskip]
    show parseAttrs txt (fuel + 1) (a.1.toList ++ _ ++ _) acc = _
    have hcons : ∃ d ds, a.1.toList ++ '=' :: '"' :: (a.2.toList ++ ['"']) ++
        attrs.flatMap attributeChars = d :: ds := by
      rw [hchars]
      exact ⟨_, _, rfl⟩
    obtain ⟨d, ds, hds⟩ := hcons
    rw [hds] at hread ⊢
    rw [parseAttrs, hread]
    refine parseAttrs_written htxt attrs fuel (acc.set a.1 (.str a.2))
      (fun b hb => hattrs b (List.mem_cons_of_mem _ hb)) ?_
    omega

end Attributes

/-! ## Searching the body -/

theorem openTag_eq (key : String) : openTag key = '<' :: (key.toList ++ ['>']) := by
  rw [openTag, String.toList_append, String.toList_append]
  rfl

theorem closeTag_eq (key : String) : closeTag key = '<' :: '/' :: (key.toList ++ ['>']) := by
  rw [closeTag, String.toList_append, String.toList_append]
  rfl

/-- The tags that `parse` looks for. -/
def soughtTags : List String := "tool" :: "final" :: childTags

theorem mem_soughtTags {key : String} (hkey : key ∈ childTags) : key ∈ soughtTags :=
  List.mem_cons_of_mem _ (List.mem_cons_of_mem _ hkey)

theorem isMark_openTag {key : String} (hkey : key ∈ soughtTags) : IsMark '<' (openTag key) := by
  refine ⟨key.toList ++ ['>'], openTag_eq key, ?_⟩
  revert key
  decide +kernel

theorem isMark_closeTag {key : String} (hkey : key ∈ soughtTags) : IsMark '<' (closeTag key) := by
  refine ⟨'/' :: (key.toList ++ ['>']), closeTag_eq key, ?_⟩
  revert key
  decide +kernel

/-- Neither mark starts with the other. -/
def NeitherPrefix (m g : List Char) : Prop := ¬m <+: g ∧ ¬g <+: m

instance (m g : List Char) : Decidable (NeitherPrefix m g) := inferInstanceAs (Decidable (_ ∧ _))

theorem neitherPrefix_openTag_openTag {key k : String} (hkey : key ∈ soughtTags)
    (hk : k ∈ childTags) (hne : k ≠ key) : NeitherPrefix (openTag key) (openTag k) := by
  have hall : ∀ key ∈ soughtTags, ∀ k ∈ childTags, k ≠ key →
      NeitherPrefix (openTag key) (openTag k) := by decide +kernel
  exact hall key hkey k hk hne

theorem neitherPrefix_openTag_closeTag {key k : String} (hkey : key ∈ soughtTags)
    (hk : k ∈ soughtTags) : NeitherPrefix (openTag key) (closeTag k) := by
  have hall : ∀ key ∈ soughtTags, ∀ k ∈ soughtTags, NeitherPrefix (openTag key) (closeTag k) := by
    decide +kernel
  exact hall key hkey k hk

theorem neitherPrefix_closeTag_tool {k : String} (hk : k ∈ childTags) :
    NeitherPrefix (closeTag "tool") (openTag k) ∧ NeitherPrefix (closeTag "tool") (closeTag k) := by
  revert k
  decide +kernel

/-- A mark that is none of an element's own tags is found in its text, or behind it. -/
theorem breakAt_elementChars {m : List Char} (hm : IsMark '<' m) {c : String × String}
    (hc : c.1 ∈ childTags) (hopen : NeitherPrefix m (openTag c.1))
    (hclose : NeitherPrefix m (closeTag c.1))
    (tail : List Char) :
    breakAt m (elementChars c ++ tail) = match breakAt m c.2.toList with
      | some parts => some (openTag c.1 ++ parts.1, parts.2 ++ (closeTag c.1 ++ tail))
      | none => (breakAt m tail).map fun parts => (elementChars c ++ parts.1, parts.2) := by
  have hmark := isMark_closeTag (mem_soughtTags hc)
  rw [elementChars, List.append_assoc, List.append_assoc,
    hm.breakAt_other (isMark_openTag (mem_soughtTags hc)) hopen.1 hopen.2,
    hm.breakAt_append (hmark.opens tail), hm.breakAt_other hmark hclose.1 hclose.2]
  rcases breakAt m c.2.toList with _ | parts
  · rcases breakAt m tail with _ | parts
    · rfl
    · simp only [Option.map_some, List.append_assoc]
  · rfl

section Body

variable {children : List (String × String)}

/-- The first `</tool>` is the one of the envelope. -/
theorem breakAt_closeTag_tool :
    ∀ {children : List (String × String)}, (∀ c ∈ children, c.1 ∈ childTags) →
      (∀ c ∈ children, breakAt (closeTag "tool") c.2.toList = none) →
      breakAt (closeTag "tool") (children.flatMap elementChars ++ closeTag "tool") =
        some (children.flatMap elementChars, [])
  | [], _, _ => by
    have hself := breakAt_self (m := closeTag "tool") (by decide) []
    rwa [List.append_nil] at hself
  | c :: rest, hknown, hclosed => by
    have hc := hknown c List.mem_cons_self
    obtain ⟨hopen, hclose⟩ := neitherPrefix_closeTag_tool hc
    rw [List.flatMap_cons, List.append_assoc,
      breakAt_elementChars (isMark_closeTag (by decide)) hc hopen hclose,
      hclosed c List.mem_cons_self,
      breakAt_closeTag_tool (fun d hd => hknown d (List.mem_cons_of_mem _ hd))
        fun d hd => hclosed d (List.mem_cons_of_mem _ hd)]
    rfl

/-- Where the first `<key>` of the body lies. -/
theorem breakAt_openTag {key : String} (hkey : key ∈ childTags) :
    ∀ {children : List (String × String)}, (∀ c ∈ children, c.1 ∈ childTags) →
      (∃ before behind, strayOpening key children = some behind ∧
        breakAt (openTag key) (children.flatMap elementChars) = some (before, behind)) ∨
      strayOpening key children = none ∧
        ((children.lookup key = none ∧
          breakAt (openTag key) (children.flatMap elementChars) = none) ∨
        ∃ text before rest, children.lookup key = some text ∧
          breakAt (openTag key) (children.flatMap elementChars) =
            some (before, text.toList ++ (closeTag key ++ rest)))
  | [], _ => by
    refine Or.inr ⟨rfl, Or.inl ⟨rfl, ?_⟩⟩
    rw [List.flatMap_nil, breakAt_nil, if_neg]
    rw [openTag_eq]
    exact Bool.false_ne_true
  | (k, text) :: rest, hknown => by
    have hmark := isMark_openTag (mem_soughtTags hkey)
    have hk := hknown (k, text) List.mem_cons_self
    rw [List.flatMap_cons, strayOpening, List.lookup_cons]
    by_cases hown : k = key
    · -- the element of `key`
      subst hown
      refine Or.inr ⟨if_pos rfl, Or.inr ⟨text, [], rest.flatMap elementChars, ?_, ?_⟩⟩
      · rw [beq_self_eq_true]
      · rw [elementChars, List.append_assoc, breakAt_self hmark.ne_nil, List.append_assoc]
    · -- the element of another key
      have hbeq : (key == k) = false := beq_eq_false_iff_ne.mpr (Ne.symm hown)
      rw [if_neg hown, hbeq, breakAt_elementChars hmark hk
        (neitherPrefix_openTag_openTag (mem_soughtTags hkey) hk hown)
        (neitherPrefix_openTag_closeTag (mem_soughtTags hkey) (mem_soughtTags hk))]
      rcases hstray : breakAt (openTag key) text.toList with _ | ⟨u, v⟩
      · rcases breakAt_openTag hkey fun d hd => hknown d (List.mem_cons_of_mem _ hd) with
          ⟨before, behind, hbehind, hbreak⟩ | ⟨hnone, hplace⟩
        · exact Or.inl ⟨_, behind, hbehind, by rw [hbreak]; rfl⟩
        · rcases hplace with ⟨hlookup, hbreak⟩ | ⟨t, before, r, hlookup, hbreak⟩
          · exact Or.inr ⟨hnone, Or.inl ⟨hlookup, by rw [hbreak]; rfl⟩⟩
          · exact Or.inr ⟨hnone, Or.inr ⟨t, _, r, hlookup, by rw [hbreak]; rfl⟩⟩
      · exact Or.inl ⟨_, _, rfl, rfl⟩

/-- An own element is read up to its own closing tag. -/
theorem untilClosing_own {key : String} (hkey : key ∈ childTags) {text : List Char}
    (hclosed : breakAt (closeTag key) text = none) (rest : List Char) :
    untilClosing key (text ++ (closeTag key ++ rest)) = text := by
  have hmark := isMark_closeTag (mem_soughtTags hkey)
  rw [untilClosing, hmark.breakAt_append (hmark.opens rest), hclosed, breakAt_self hmark.ne_nil]
  exact List.append_nil text

theorem extractRaw_of_breakAt {raw key : String} {before behind : List Char}
    (h : breakAt (openTag key) raw.toList = some (before, behind)) :
    extractRaw raw key = String.ofList (untilClosing key behind) := by
  have hopen : breakAt ("<" ++ key ++ ">").toList raw.toList = some (before, behind) := h
  rw [extractRaw, hopen, untilClosing, closeTag]
  dsimp only
  rcases breakAt ("</" ++ key ++ ">").toList behind with _ | parts
  · rfl
  · rfl

/-- The body is empty or ends with a closing tag. -/
theorem closeTag_append_body (k : String) (children : List (String × String)) :
    ∃ l, closeTag k ++ children.flatMap elementChars = l ++ ['>'] := by
  induction children generalizing k with
  | nil =>
    refine ⟨'<' :: '/' :: k.toList, ?_⟩
    rw [List.flatMap_nil, List.append_nil, closeTag_eq]
    rfl
  | cons c rest ih =>
    obtain ⟨l, hl⟩ := ih c.1
    refine ⟨closeTag k ++ (openTag c.1 ++ (c.2.toList ++ l)), ?_⟩
    rw [List.flatMap_cons, elementChars]
    simp only [List.append_assoc]
    rw [hl]

/-- What stands behind a tag that is none of the children's own ends with a closing tag. -/
theorem ends_of_breakAt {m : List Char} (hm : IsMark '<' m)
    (hm' : ∀ k ∈ childTags, NeitherPrefix m (openTag k) ∧ NeitherPrefix m (closeTag k)) :
    ∀ {children : List (String × String)} {before behind : List Char},
      (∀ c ∈ children, c.1 ∈ childTags) →
      breakAt m (children.flatMap elementChars) = some (before, behind) →
      ∃ l, behind = l ++ ['>']
  | [], before, behind, _, h => by
    obtain ⟨rest, rfl, -⟩ := hm
    rw [List.flatMap_nil, breakAt_nil, if_neg (by exact Bool.false_ne_true)] at h
    exact absurd h (Option.some_ne_none _).symm
  | c :: rest, before, behind, hknown, h => by
    have hc := hknown c List.mem_cons_self
    rw [List.flatMap_cons, breakAt_elementChars hm hc (hm' c.1 hc).1 (hm' c.1 hc).2] at h
    rcases htext : breakAt m c.2.toList with _ | parts
    · rw [htext] at h
      obtain ⟨⟨u, v⟩, hrest, hparts⟩ := Option.map_eq_some_iff.mp h
      cases hparts
      exact ends_of_breakAt hm hm' (fun d hd => hknown d (List.mem_cons_of_mem _ hd)) hrest
    · rw [htext] at h
      obtain ⟨l, hl⟩ := closeTag_append_body c.1 rest
      refine ⟨parts.2 ++ l, ?_⟩
      rw [← (Prod.mk.inj (Option.some.inj h)).2, hl, List.append_assoc]

end Body

/-! ## Arguments by key -/

section Arguments

theorem lookup_map_str (entries : List (String × String)) (key : String) :
    (entries.map fun a => (a.1, PyValue.str a.2)).lookup key = (entries.lookup key).map .str := by
  induction entries with
  | nil => rfl
  | cons a rest ih =>
    rw [List.map_cons, List.lookup_cons, List.lookup_cons]
    rcases key == a.1 with _ | _
    · exact ih
    · rfl

theorem lookup_eq_none {entries : List (String × String)} {key : String}
    (h : key ∉ entries.map Prod.fst) : entries.lookup key = none := by
  rw [List.lookup_eq_none_iff]
  intro a ha
  refine bne_iff_ne.mpr fun heq => h ?_
  rw [heq]
  exact List.mem_map_of_mem ha

/-- Where no key comes twice, each entry that is set is read back. -/
theorem get?_foldl_set {attrs : List (String × String)} (hnodup : (attrs.map Prod.fst).Nodup)
    (acc : PyDict) (key : String) :
    (attrs.foldl (fun acc a => acc.set a.1 (.str a.2)) acc).get? key =
      ((attrs.lookup key).map .str).or (acc.get? key) := by
  induction attrs generalizing acc with
  | nil => rfl
  | cons a rest ih =>
    rw [List.map_cons, List.nodup_cons] at hnodup
    rw [List.foldl_cons, ih hnodup.2, PyDict.get?_set, List.lookup_cons]
    by_cases hkey : key = a.1
    · rw [hkey, lookup_eq_none hnodup.1, if_pos rfl, beq_self_eq_true]
      rfl
    · rw [if_neg hkey, beq_eq_false_iff_ne.mpr hkey]

theorem get?_dropKey (d : PyDict) (key key' : String) :
    (dropKey d key).get? key' = if key' = key then none else d.get? key' := by
  induction d with
  | nil => rw [dropKey, List.filter_nil, PyDict.get?_nil, ite_self]
  | cons entry rest ih =>
    obtain ⟨k, v⟩ := entry
    rw [dropKey] at ih ⊢
    by_cases hk : k = key
    · rw [List.filter_cons_of_neg (by simp [hk]), ih, PyDict.get?_cons]
      by_cases hkey : key' = key
      · rw [if_pos hkey, if_pos hkey]
      · rw [if_neg hkey, if_neg hkey, if_neg (by rw [hk]; exact hkey)]
    · rw [List.filter_cons_of_pos (by simp [hk]), PyDict.get?_cons, ih, PyDict.get?_cons]
      by_cases hkey : key' = k
      · rw [if_pos hkey, if_pos hkey, if_neg (by rw [hkey]; exact hk)]
      · rw [if_neg hkey, if_neg hkey]

/-- The children that are found become arguments. -/
theorem get?_foldl_found {tags : List String} (found : String → Bool) (value : String → PyValue)
    (hnodup : tags.Nodup) (args : PyDict) (key : String) :
    (tags.foldl (fun args key => if found key then args.set key (value key) else args) args).get?
        key =
      if key ∈ tags ∧ found key = true then some (value key) else args.get? key := by
  induction tags generalizing args with
  | nil => rw [List.foldl_nil, if_neg fun h => List.not_mem_nil h.1]
  | cons tag rest ih =>
    rw [List.nodup_cons] at hnodup
    rw [List.foldl_cons, ih hnodup.2]
    by_cases hrest : key ∈ rest ∧ found key = true
    · rw [if_pos hrest, if_pos ⟨List.mem_cons_of_mem _ hrest.1, hrest.2⟩]
    rw [if_neg hrest]
    by_cases htag : key = tag
    · subst htag
      by_cases hfound : found key = true
      · rw [if_pos hfound, PyDict.get?_set, if_pos rfl, if_pos ⟨List.mem_cons_self, hfound⟩]
      · rw [if_neg hfound, if_neg fun h => hfound h.2]
    · rw [if_neg fun h : key ∈ tag :: rest ∧ found key = true =>
        hrest ⟨(List.mem_cons.mp h.1).resolve_left htag, h.2⟩]
      by_cases hfound : found tag = true
      · rw [if_pos hfound, PyDict.get?_set, if_neg htag]
      · rw [if_neg hfound]

/-- An argument that is set only where it is missing. -/
theorem get?_set_missing {P : Prop} [Decidable P] {text : String} (args : PyDict)
    (key key' : String) (value : PyValue) :
    (if P ∧ (args.get? key).isNone ∧ text ≠ "" then args.set key value else args).get? key' =
      (args.get? key').or (if P ∧ text ≠ "" ∧ key' = key then some value else none) := by
  by_cases hset : P ∧ (args.get? key).isNone ∧ text ≠ ""
  · obtain ⟨hP, hnone, htext⟩ := hset
    rw [if_pos ⟨hP, hnone, htext⟩, PyDict.get?_set]
    by_cases hkey : key' = key
    · rw [if_pos hkey, if_pos ⟨hP, htext, hkey⟩, hkey, Option.isNone_iff_eq_none.mp hnone,
        Option.none_or]
    · rw [if_neg hkey, if_neg fun h => hkey h.2.2, Option.or_none]
  · rw [if_neg hset]
    by_cases hkey : P ∧ text ≠ "" ∧ key' = key
    · obtain ⟨hP, htext, rfl⟩ := hkey
      rcases hsome : args.get? key' with _ | given
      · exact absurd ⟨hP, by rw [hsome]; rfl, htext⟩ hset
      · rw [Option.some_or]
    · rw [if_neg hkey, Option.or_none]

end Arguments

/-! ## The pieces of an envelope -/

namespace Envelope

variable {txt : PyText} {loads : JsonLoads}

/-- What `parse_xml_tool` makes of the children, and of the attributes where no child's tag is
found. -/
def readAs (e : Envelope) (key : String) : Option PyValue :=
  match if key ∈ childTags then strayOpening key e.children else none with
  | some behind => some (.str (String.ofList (untilClosing key behind)))
  | none => e.args.get? key

/-- The argument that `parse` hands over. -/
def received (txt : PyText) (e : Envelope) (key : String) : Option PyValue :=
  let bodyText := pyStripChar (String.ofList e.body) '\n'
  (e.readAs key).or
    (if e.children = [] then none
    else if e.name = "write_file" ∧ key = "content" then some (.str bodyText)
    else if e.name = "delegate" ∧ key = "task" then some (.str (pyStrip txt bodyText))
    else none)

theorem toList_text (e : Envelope) :
    e.text.toList = "<tool".toList ++ (e.head ++ '>' :: (e.body ++ closeTag "tool")) :=
  String.toList_ofList

theorem identifiers (e : Envelope) :
    ∀ a ∈ ("name", e.name) :: e.attrs, isIdentifier a.1 = true ∧ '"' ∉ a.2.toList := by
  intro a ha
  refine ⟨?_, (e.quotable a ha).1⟩
  rcases List.mem_cons.mp ha with rfl | ha
  · show isIdentifier "name" = true
    decide
  · exact (e.keyed a ha).1

theorem not_mem_head (e : Envelope) : '>' ∉ e.head := by
  intro hmem
  obtain ⟨a, ha, hmem⟩ := List.mem_flatMap.mp hmem
  obtain ⟨c, cs, hchars, -, hall⟩ := all_isNameChar (e.identifiers a ha).1
  rw [attributeChars] at hmem
  simp only [List.mem_cons, List.mem_append, List.not_mem_nil, or_false] at hmem
  rcases hmem with h | hkey | h | h | hvalue | h
  · exact absurd h (by decide)
  · rw [hchars] at hkey
    exact absurd (hall '>' hkey) (by decide)
  · exact absurd h (by decide)
  · exact absurd h (by decide)
  · exact (e.quotable a ha).2 hvalue
  · exact absurd h (by decide)

theorem attributes_end (a : String × String) :
    ∀ attrs, ∃ l, (a :: attrs).flatMap attributeChars = l ++ ['"']
  | [] => by
    refine ⟨' ' :: (a.1.toList ++ '=' :: '"' :: a.2.toList), ?_⟩
    rw [List.flatMap_singleton, attributeChars]
    simp only [List.cons_append, List.append_assoc]
  | b :: attrs => by
    obtain ⟨l, hl⟩ := attributes_end b attrs
    exact ⟨attributeChars a ++ l, by rw [List.flatMap_cons, hl, List.append_assoc]⟩

/-- A tag is not found in the head. -/
theorem breakAt_text (e : Envelope) {m : List Char} (hm : '>' ∉ m ++ ['l']) :
    breakAt (m ++ ['l'] ++ ['>']) e.text.toList =
      (breakAt (m ++ ['l'] ++ ['>']) (e.body ++ closeTag "tool")).map fun parts =>
        ("<tool".toList ++ e.head ++ '>' :: parts.1, parts.2) := by
  have hhead : '>' ∉ "<tool".toList ++ e.head := by
    rw [List.mem_append, not_or]
    exact ⟨by decide, e.not_mem_head⟩
  have hsuffix : ¬m ++ ['l'] <:+ "<tool".toList ++ e.head := by
    obtain ⟨l, hl⟩ := attributes_end ("name", e.name) e.attrs
    rw [head, hl, ← List.append_assoc]
    intro h
    rw [← List.reverse_prefix, List.reverse_append, List.reverse_append] at h
    exact absurd (List.cons_prefix_cons.mp h).1 (by decide)
  rw [toList_text, ← List.append_assoc]
  exact breakAt_pass_closed hm hhead hsuffix

theorem breakAt_closeTag_body (e : Envelope) :
    breakAt (closeTag "tool") (e.body ++ closeTag "tool") = some (e.body, []) :=
  breakAt_closeTag_tool e.known fun c hc => (e.closed c hc).2

/-- What is found in an envelope is found in its body. -/
theorem breakAt_openTag_text (e : Envelope) {m : List Char} (hm : '>' ∉ m ++ ['l'])
    (hmark : IsMark '<' (m ++ ['l'] ++ ['>']))
    (htool : breakAt (m ++ ['l'] ++ ['>']) (closeTag "tool") = none) :
    breakAt (m ++ ['l'] ++ ['>']) e.text.toList =
      (breakAt (m ++ ['l'] ++ ['>']) e.body).map fun parts =>
        ("<tool".toList ++ e.head ++ '>' :: parts.1, parts.2 ++ closeTag "tool") := by
  have hopens : Opens '<' (closeTag "tool") := Or.inr ⟨_, closeTag_eq "tool"⟩
  rw [e.breakAt_text hm, hmark.breakAt_append hopens, htool]
  rcases breakAt (m ++ ['l'] ++ ['>']) e.body with _ | parts
  · rfl
  · rfl

theorem toolElement_text (e : Envelope) :
    toolElement e.text = some (String.ofList e.head, String.ofList e.body) := by
  have hstart : breakAt "<tool".toList e.text.toList =
      some ([], e.head ++ '>' :: (e.body ++ closeTag "tool")) := by
    rw [toList_text]
    exact breakAt_self (by decide) _
  have hclose : breakAt "</tool>".toList (e.body ++ closeTag "tool") = some (e.body, []) :=
    e.breakAt_closeTag_body
  rw [toolElement, hstart]
  dsimp only
  rw [breakAt_singleton e.not_mem_head]
  show (breakAt "</tool>".toList (e.body ++ closeTag "tool")).map _ = _
  rw [hclose]
  rfl

/-! ## What `parse` makes of an envelope -/

theorem exists_strip_text (htxt : MarkupTable txt) (e : Envelope) :
    ∃ rest, (pyStrip txt e.text).toList = '<' :: rest := by
  have hopen : "<tool".toList = '<' :: "tool".toList := by decide
  have hclose : closeTag "tool" = "</tool".toList ++ ['>'] := by decide
  have hsolid : e.text.toList =
      [] ++ '<' :: (("tool".toList ++ (e.head ++ '>' :: (e.body ++ "</tool".toList))) ++
        '>' :: []) := by
    rw [toList_text, hopen, hclose]
    simp only [List.append_assoc, List.cons_append, List.nil_append]
  obtain ⟨front, rest, hstrip, hfront, -⟩ :=
    toList_pyStrip_of_solid htxt.less htxt.greater hsolid
  rw [List.suffix_nil.mp hfront, List.nil_append] at hstrip
  exact ⟨_, hstrip⟩

theorem pyStartsWith_strip_text (htxt : MarkupTable txt) (e : Envelope) (pre : String) {c : Char}
    {cs : List Char} (hpre : pre.toList = c :: cs) (hc : c ≠ '<') :
    pyStartsWith (pyStrip txt e.text) pre = false := by
  obtain ⟨rest, hstrip⟩ := exists_strip_text htxt e
  rw [pyStartsWith, hstrip, hpre, List.isPrefixOf_cons_cons, beq_eq_false_iff_ne.mpr hc,
    Bool.false_and]

/-- No JSON call. -/
theorem parseJsonTool_text (htxt : MarkupTable txt) (e : Envelope) :
    parseJsonTool txt loads e.text = .ok none := by
  have hfence := pyStartsWith_strip_text htxt e "```" (c := '`') rfl (by decide)
  have hbrace := pyStartsWith_strip_text htxt e "\x7b" (c := '\x7b') rfl (by decide)
  have hwhole : wholeObject txt loads e.text = none := by
    unfold wholeObject
    simp only [hfence, hbrace, Bool.false_and, Bool.false_eq_true, if_false]
  unfold parseJsonTool
  rw [hwhole]

theorem pyFind?_text (e : Envelope) (tag : String) {m : List Char}
    (htag : ("<" ++ tag ++ ">").toList = m ++ ['l'] ++ ['>']) (hm : '>' ∉ m ++ ['l'])
    (hmark : IsMark '<' (m ++ ['l'] ++ ['>']))
    (htool : breakAt (m ++ ['l'] ++ ['>']) (closeTag "tool") = none) :
    pyFind? e.text ("<" ++ tag ++ ">") =
      (pyFind? (String.ofList e.body) ("<" ++ tag ++ ">")).map
        (("<tool".toList ++ e.head ++ ['>']).length + ·) := by
  have hbody : (String.ofList e.body).toList = e.body := String.toList_ofList
  rw [pyFind?, pyFind?, htag, e.breakAt_openTag_text hm hmark htool, hbody]
  rcases breakAt (m ++ ['l'] ++ ['>']) e.body with _ | parts
  · rfl
  · simp only [Option.map_some, List.length_append, List.length_cons, List.length_nil]
    congr 1
    omega

/-- Whether a `<tool>` comes first is decided in the body. -/
theorem standsBefore_tool (e : Envelope) :
    standsBefore e.text "<tool>" "<final>" =
      standsBefore (String.ofList e.body) "<tool>" "<final>" := by
  have htool := e.pyFind?_text "tool" (m := "<too".toList) (by decide) (by decide)
    (show IsMark '<' (openTag "tool") from isMark_openTag (by decide)) (by decide)
  have hfinal := e.pyFind?_text "final" (m := "<fina".toList) (by decide) (by decide)
    (show IsMark '<' (openTag "final") from isMark_openTag (by decide)) (by decide)
  have heq : ("<" ++ "tool" ++ ">" : String) = "<tool>" ∧
      ("<" ++ "final" ++ ">" : String) = "<final>" := by decide
  rw [heq.1] at htool
  rw [heq.2] at hfinal
  rw [standsBefore, standsBefore, htool, hfinal]
  rcases pyFind? (String.ofList e.body) "<tool>" with _ | i
  · rfl
  · rcases pyFind? (String.ofList e.body) "<final>" with _ | j
    · rfl
    · exact decide_eq_decide.mpr (Nat.add_lt_add_iff_left)

/-- The envelope itself comes first. -/
theorem standsBefore_element (e : Envelope) : standsBefore e.text "<tool" "<final>" = true := by
  have hstart : pyFind? e.text "<tool" = some 0 := by
    rw [pyFind?, toList_text, breakAt_self (by decide)]
    rfl
  have hfinal := e.breakAt_text (m := "<fina".toList) (by decide)
  rw [standsBefore, hstart, pyFind?]
  rcases hbreak : breakAt "<final>".toList e.text.toList with _ | parts
  · rfl
  · obtain ⟨parts', -, hparts⟩ := Option.map_eq_some_iff.mp (hfinal.symm.trans hbreak)
    rw [← hparts]
    rfl

/-- The entries of the head. -/
theorem get?_parseAttrs (htxt : MarkupTable txt) (e : Envelope) (key : String) :
    (parseAttrs txt (String.ofList e.head).length (String.ofList e.head).toList []).get? key =
      ((("name", e.name) :: e.attrs).lookup key).map .str := by
  have hhead : (String.ofList e.head).toList = e.head := String.toList_ofList
  have hnodup : ((("name", e.name) :: e.attrs).map Prod.fst).Nodup := by
    rw [List.map_cons, List.nodup_cons]
    refine ⟨fun hmem => ?_, ?_⟩
    · obtain ⟨a, ha, hname⟩ := List.mem_map.mp hmem
      exact (e.keyed a ha).2 hname
    · have hall := e.distinct
      rw [List.map_append] at hall
      exact (List.nodup_append.mp hall).1
  rw [hhead, head, parseAttrs_written htxt _ _ _ e.identifiers
    (by rw [← head, String.length_ofList]), get?_foldl_set hnodup, PyDict.get?_nil, Option.or_none]

theorem get?_args (e : Envelope) (key : String) :
    e.args.get? key = ((e.attrs.lookup key).or (e.children.lookup key)).map .str := by
  rw [args, PyDict.get?, lookup_map_str, List.lookup_append]

/-- The children replace what the head gave. -/
theorem get?_found (e : Envelope) (attrs : PyDict)
    (hattrs : ∀ key, attrs.get? key = (e.attrs.lookup key).map .str) (key : String) :
    (childTags.foldl (fun args key =>
      if pyContains (String.ofList e.body) ("<" ++ key ++ ">")
        then args.set key (.str (extractRaw (String.ofList e.body) key))
      else args) attrs).get? key = e.readAs key := by
  have hbody : (String.ofList e.body).toList = e.body := String.toList_ofList
  rw [get?_foldl_found (fun key => pyContains (String.ofList e.body) ("<" ++ key ++ ">"))
    (fun key => .str (extractRaw (String.ofList e.body) key)) (by decide), hattrs, readAs,
    get?_args]
  by_cases hkey : key ∈ childTags
  · have hcontains : pyContains (String.ofList e.body) ("<" ++ key ++ ">") =
        (breakAt (openTag key) e.body).isSome := by
      rw [pyContains, hbody, openTag]
    have hraw : ∀ before behind, breakAt (openTag key) e.body = some (before, behind) →
        extractRaw (String.ofList e.body) key = String.ofList (untilClosing key behind) := by
      intro before behind h
      exact extractRaw_of_breakAt (by rw [hbody]; exact h)
    rw [if_pos hkey, hcontains]
    rcases breakAt_openTag hkey e.known with ⟨before, behind, hstray, hbreak⟩ |
      ⟨hstray, ⟨hlookup, hbreak⟩ | ⟨text, before, rest, hlookup, hbreak⟩⟩
    · rw [hstray, show breakAt (openTag key) e.body = _ from hbreak,
        if_pos ⟨hkey, rfl⟩, hraw before behind hbreak]
    · rw [hstray, show breakAt (openTag key) e.body = _ from hbreak,
        if_neg fun h => Bool.false_ne_true h.2, hlookup, Option.or_none]
    · have hmem : (key, text) ∈ e.children := by
        obtain ⟨l₁, l₂, heq, -⟩ := List.lookup_eq_some_iff.mp hlookup
        rw [heq]
        exact List.mem_append_right _ List.mem_cons_self
      have hattr : e.attrs.lookup key = none := by
        refine lookup_eq_none fun h => ?_
        have hall := e.distinct
        rw [List.map_append] at hall
        exact (List.nodup_append.mp hall).2.2 key h key (List.mem_map_of_mem hmem) rfl
      rw [hstray, show breakAt (openTag key) e.body = _ from hbreak, if_pos ⟨hkey, rfl⟩,
        hraw before _ hbreak, untilClosing_own hkey (e.closed _ hmem).1, hattr, hlookup]
      show some (PyValue.str (String.ofList text.toList)) = some (.str text)
      rw [String.ofList_toList]
  · have hchild : e.children.lookup key = none := by
      refine lookup_eq_none fun h => ?_
      obtain ⟨c, hc, hckey⟩ := List.mem_map.mp h
      exact hkey (hckey ▸ e.known c hc)
    rw [if_neg hkey, if_neg fun h => hkey h.1, hchild, Option.or_none]

theorem bodyText_eq_empty_iff (e : Envelope) :
    pyStripChar (String.ofList e.body) '\n' = "" ↔ e.children = [] := by
  constructor
  · intro hempty
    rcases hchildren : e.children with _ | ⟨c, rest⟩
    · rfl
    · exfalso
      have hbody : (String.ofList e.body).toList = e.body := String.toList_ofList
      obtain ⟨cs, hcs⟩ : ∃ cs, e.body = '<' :: cs := by
        rw [body, hchildren, List.flatMap_cons, elementChars, openTag_eq]
        exact ⟨_, rfl⟩
      have hfront : ('<' :: cs).dropWhile (· == '\n') = '<' :: cs :=
        List.dropWhile_cons_of_neg (by decide)
      have hchars : (('<' :: cs).reverse.dropWhile (· == '\n')).reverse = [] := by
        have h := congrArg String.toList hempty
        rw [pyStripChar, pyRstripChar, hbody, hcs, hfront, String.toList_ofList,
          String.toList_ofList] at h
        exact h
      have hall := List.dropWhile_eq_nil_iff.mp (List.reverse_eq_nil_iff.mp hchars)
      exact absurd (hall '<' (List.mem_reverse.mpr List.mem_cons_self)) (by decide)
  · intro hchildren
    rw [body, hchildren]
    decide

/-- `parse_xml_tool` on an envelope. -/
theorem parseXmlTool_text (htxt : MarkupTable txt) (e : Envelope)
    (hname : pyStrip txt e.name ≠ "") :
    ∃ args, parseXmlTool txt e.text = some (pyStrip txt e.name, args) ∧
      (pyStrip txt e.name = e.name → ∀ key, args.get? key = e.received txt key) := by
  have hparsed := e.get?_parseAttrs htxt
  generalize hattrs : parseAttrs txt (String.ofList e.head).length
    (String.ofList e.head).toList [] = attrs at hparsed
  have htext : pyStrip txt (attrs.textOf txt "name") = pyStrip txt e.name := by
    rw [PyDict.textOf, PyDict.getD, hparsed, List.lookup_cons, beq_self_eq_true]
    rfl
  have hdropped : ∀ key, (dropKey attrs "name").get? key = (e.attrs.lookup key).map .str := by
    intro key
    rw [get?_dropKey, hparsed, List.lookup_cons]
    by_cases hkey : key = "name"
    · have hnone : e.attrs.lookup key = none := by
        refine lookup_eq_none fun h => ?_
        obtain ⟨a, ha, hname⟩ := List.mem_map.mp h
        exact (e.keyed a ha).2 (hname.trans hkey)
      rw [if_pos hkey, hnone, Option.map_none]
    · rw [if_neg hkey, beq_eq_false_iff_ne.mpr hkey]
  have hfound := e.get?_found (dropKey attrs "name") hdropped
  unfold parseXmlTool
  rw [e.toolElement_text, Option.bind_some]
  simp only [hattrs, htext, if_neg hname]
  refine ⟨_, rfl, fun hnamed key => ?_⟩
  rw [hnamed, get?_set_missing, get?_set_missing, hfound, Option.or_assoc, received]
  refine congrArg (e.readAs key).or ?_
  by_cases hchildren : e.children = []
  · rw [if_pos hchildren, if_neg fun h => h.2.1 (e.bodyText_eq_empty_iff.mpr hchildren),
      if_neg fun h => h.2.1 (e.bodyText_eq_empty_iff.mpr hchildren), Option.or_none]
  · have hbody : pyStripChar (String.ofList e.body) '\n' ≠ "" :=
      fun h => hchildren (e.bodyText_eq_empty_iff.mp h)
    rw [if_neg hchildren]
    by_cases hwrite : e.name = "write_file" ∧ key = "content"
    · rw [if_pos ⟨hwrite.1, hbody, hwrite.2⟩, if_pos hwrite, Option.some_or]
    · rw [if_neg fun h => hwrite ⟨h.1, h.2.2⟩, if_neg hwrite, Option.none_or]
      by_cases hdelegate : e.name = "delegate" ∧ key = "task"
      · rw [if_pos ⟨hdelegate.1, hbody, hdelegate.2⟩, if_pos hdelegate]
      · rw [if_neg fun h => hdelegate ⟨h.1, h.2.2⟩, if_neg hdelegate]

theorem parseReply_text (htxt : MarkupTable txt) (e : Envelope) :
    parseReply txt loads (.str e.text) = .ok (parseMarkup txt loads e.text) := by
  have hjson : parseJsonTool txt loads e.text = .ok none := parseJsonTool_text htxt e
  show parseText txt loads e.text = _
  unfold parseText
  rw [hjson]

/-- What `parse` makes of an envelope in which no `<tool>` comes first. -/
theorem parseReply_envelope (htxt : MarkupTable txt) (e : Envelope)
    (hname : pyStrip txt e.name ≠ "")
    (henclosed : standsBefore (String.ofList e.body) "<tool>" "<final>" = false) :
    ∃ args, parseReply txt loads (.str e.text) = .ok (.tool (.str (pyStrip txt e.name)) args) ∧
      (pyStrip txt e.name = e.name → ∀ key, args.get? key = e.received txt key) := by
  obtain ⟨args, hxml, hargs⟩ := parseXmlTool_text htxt e hname
  refine ⟨args, ?_, hargs⟩
  rw [parseReply_text htxt e]
  unfold parseMarkup
  rw [e.standsBefore_tool, henclosed, if_neg Bool.false_ne_true, e.standsBefore_element,
    if_pos rfl, hxml]

/-- A call without a name is no call. -/
theorem parseReply_unnamed (htxt : MarkupTable txt) (e : Envelope)
    (hname : pyStrip txt e.name = "")
    (henclosed : standsBefore (String.ofList e.body) "<tool>" "<final>" = false) :
    parseReply txt loads (.str e.text) = .ok (.retry retryNotice) := by
  have hparsed := e.get?_parseAttrs htxt "name"
  generalize hattrs : parseAttrs txt (String.ofList e.head).length
    (String.ofList e.head).toList [] = attrs at hparsed
  have htext : pyStrip txt (attrs.textOf txt "name") = "" := by
    rw [PyDict.textOf, PyDict.getD, hparsed, List.lookup_cons, beq_self_eq_true]
    exact hname
  have hxml : parseXmlTool txt e.text = none := by
    unfold parseXmlTool
    rw [e.toolElement_text, Option.bind_some]
    simp only [hattrs, htext, if_true]
  rw [parseReply_text htxt e]
  unfold parseMarkup
  rw [e.standsBefore_tool, henclosed, if_neg Bool.false_ne_true, e.standsBefore_element,
    if_pos rfl, hxml]

theorem endsWith_strip (htxt : MarkupTable txt) (l : List Char) :
    pyEndsWith (pyStrip txt (String.ofList (l ++ ['>']))) ">" = true := by
  have hchars : (String.ofList (l ++ ['>'])).toList = l ++ ['>'] := String.toList_ofList
  obtain ⟨front, hfront, -⟩ := dropWhile_append_solid htxt.greater [] l
  have hback : ((front ++ ['>']).reverse.dropWhile txt.isSpace).reverse = front ++ ['>'] := by
    rw [List.reverse_append, List.reverse_singleton, List.singleton_append,
      List.dropWhile_cons_of_neg (by simp [htxt.greater]), List.reverse_cons, List.reverse_reverse]
  have hstrip : (pyStrip txt (String.ofList (l ++ ['>']))).toList = front ++ ['>'] := by
    rw [pyStrip, String.toList_ofList, PyValue.stripChars, hchars, hfront, hback]
  rw [pyEndsWith, hstrip]
  exact List.isSuffixOf_iff_suffix.mpr (List.suffix_append front ['>'])

/-- An envelope whose body opens a `<tool>` is taken for a call as JSON, and is none. -/
theorem parseReply_opened (htxt : MarkupTable txt)
    (hloads : ∀ text, pyEndsWith text ">" = true → loads text = none) (e : Envelope)
    (hopened : standsBefore (String.ofList e.body) "<tool>" "<final>" = true) :
    parseReply txt loads (.str e.text) =
      .ok (.retry (retryNotice "model returned malformed tool JSON")) := by
  have hbody : (String.ofList e.body).toList = e.body := String.toList_ofList
  have hmark : IsMark '<' (openTag "tool") := isMark_openTag (by decide)
  obtain ⟨before, behind, hbreak⟩ : ∃ before behind,
      breakAt (openTag "tool") e.body = some (before, behind) := by
    rcases hbreak : breakAt (openTag "tool") e.body with _ | ⟨before, behind⟩
    · exfalso
      have hnone : pyFind? (String.ofList e.body) "<tool>" = none := by
        have hnone' : breakAt "<tool>".toList e.body = none := hbreak
        rw [pyFind?, hbody, hnone', Option.map_none]
      rw [standsBefore, hnone] at hopened
      exact absurd hopened Bool.false_ne_true
    · exact ⟨before, behind, rfl⟩
  -- the body of that `<tool>` ends with a tag of a child
  obtain ⟨l, rfl⟩ := ends_of_breakAt hmark (fun k hk =>
    ⟨neitherPrefix_openTag_openTag (by decide) hk fun h => absurd (h ▸ hk) (by decide),
      neitherPrefix_openTag_closeTag (by decide) (mem_soughtTags hk)⟩) e.known hbreak
  have hne : closeTag "tool" ≠ [] := (isMark_closeTag (by decide)).ne_nil
  have hnoBody : ¬closeTag "tool" <:+: e.body := by
    rw [← breakAt_eq_none_iff hne]
    have hall := e.breakAt_closeTag_body
    rw [(isMark_closeTag (by decide)).breakAt_append (Or.inr ⟨_, closeTag_eq "tool"⟩)] at hall
    rcases hin : breakAt (closeTag "tool") e.body with _ | parts
    · rfl
    · rw [hin] at hall
      have hnil := (Prod.mk.inj (Option.some.inj hall)).2
      exact absurd (List.append_eq_nil_iff.mp hnil).2 hne
  have hno : breakAt (closeTag "tool") (l ++ ['>']) = none := by
    rw [breakAt_eq_none_iff hne]
    intro hin
    have heq := (breakAt_eq_some hmark.ne_nil hbreak).1
    exact hnoBody (hin.trans (heq ▸ (List.suffix_append _ (l ++ ['>'])).isInfix))
  have huntil : untilClosing "tool" (l ++ ['>'] ++ closeTag "tool") = l ++ ['>'] := by
    rw [untilClosing, (isMark_closeTag (by decide)).breakAt_append
      (Or.inr ⟨_, closeTag_eq "tool"⟩), hno]
    have hself := breakAt_self hne []
    rw [List.append_nil] at hself
    rw [hself]
    exact List.append_nil _
  have hfound := e.breakAt_openTag_text (m := "<too".toList) (by decide) hmark (by decide)
  have hfound' : breakAt (openTag "tool") e.text.toList =
      (breakAt (openTag "tool") e.body).map fun parts =>
        ("<tool".toList ++ e.head ++ '>' :: parts.1, parts.2 ++ closeTag "tool") := hfound
  rw [hbreak, Option.map_some] at hfound'
  have hextract : loads (extractTag txt e.text "tool") = none := by
    refine hloads _ ?_
    have hopen : breakAt ("<" ++ "tool" ++ ">").toList e.text.toList = _ := hfound'
    rw [extractTag, hopen]
    show pyEndsWith (pyStrip txt (extractRaw e.text "tool")) ">" = true
    rw [extractRaw_of_breakAt hfound', huntil]
    exact endsWith_strip htxt l
  rw [parseReply_text htxt e]
  unfold parseMarkup
  rw [e.standsBefore_tool, hopened, if_pos rfl]
  unfold parseToolBody
  rw [hextract]

/-! ## The round trip -/

/-- Every argument is received as it was given. -/
theorem received_eq_iff (txt : PyText) (e : Envelope) :
    (∀ key, e.received txt key = e.args.get? key) ↔
      (∀ key ∈ childTags, ∀ behind, strayOpening key e.children = some behind →
        e.args.get? key = some (.str (String.ofList (untilClosing key behind)))) ∧
      (e.name = "write_file" → e.children ≠ [] → (e.args.get? "content").isSome) ∧
      (e.name = "delegate" → e.children ≠ [] → (e.args.get? "task").isSome) := by
  constructor
  · intro h
    have hread : ∀ key v, e.readAs key = some v → e.args.get? key = some v := by
      intro key v hv
      rw [← h key, received, hv, Option.some_or]
    refine ⟨fun key hkey behind hbehind => ?_, fun hname hchildren => ?_, fun hname hchildren => ?_⟩
    · exact hread key _ (by rw [readAs, if_pos hkey, hbehind])
    · rw [← h "content", received, if_neg hchildren, if_pos ⟨hname, rfl⟩]
      rcases e.readAs "content" with _ | v
      · rfl
      · rfl
    · rw [← h "task", received, if_neg hchildren,
        if_neg fun hwrite => absurd hwrite.2 (by decide), if_pos ⟨hname, rfl⟩]
      rcases e.readAs "task" with _ | v
      · rfl
      · rfl
  · rintro ⟨hown, hcontent, htask⟩ key
    have hread : e.readAs key = e.args.get? key := by
      unfold readAs
      by_cases hkey : key ∈ childTags
      · rw [if_pos hkey]
        rcases hstray : strayOpening key e.children with _ | behind
        · rfl
        · exact (hown key hkey behind hstray).symm
      · rw [if_neg hkey]
    rw [received, hread]
    rcases hgiven : e.args.get? key with _ | v
    · -- nothing stands in for an argument that is not given
      rw [Option.none_or]
      by_cases hchildren : e.children = []
      · rw [if_pos hchildren]
      rw [if_neg hchildren, if_neg, if_neg]
      · rintro ⟨hname, rfl⟩
        have hsome := htask hname hchildren
        rw [hgiven] at hsome
        exact absurd hsome Bool.false_ne_true
      · rintro ⟨hname, rfl⟩
        have hsome := hcontent hname hchildren
        rw [hgiven] at hsome
        exact absurd hsome Bool.false_ne_true
    · rw [Option.some_or]

/-- An envelope comes back as the call it was written for exactly where it is unambiguous. -/
theorem roundTrips_iff (htxt : MarkupTable txt)
    (hloads : ∀ text, pyEndsWith text ">" = true → loads text = none) (e : Envelope) :
    e.RoundTrips txt loads ↔ e.Unambiguous txt := by
  rcases henclosed : standsBefore (String.ofList e.body) "<tool>" "<final>" with _ | _
  · by_cases hname : pyStrip txt e.name = ""
    · -- no name
      have hparse : parseReply txt loads (.str e.text) = .ok (.retry retryNotice) :=
        parseReply_unnamed htxt e hname henclosed
      constructor
      · rintro ⟨args, hcall, -⟩
        rw [hparse] at hcall
        exact Decision.noConfusion (Except.ok.inj hcall)
      · intro h
        exact absurd (h.named.1.symm.trans hname) h.named.2
    · obtain ⟨args, hparse, hargs⟩ := parseReply_envelope htxt e hname henclosed
      have hparse : parseReply txt loads (.str e.text) =
          .ok (.tool (.str (pyStrip txt e.name)) args) := hparse
      constructor
      · rintro ⟨args', hcall, hargs'⟩
        rw [hparse] at hcall
        obtain ⟨hstr, rfl⟩ := Decision.tool.inj (Except.ok.inj hcall)
        have hnamed := PyValue.str.inj hstr
        obtain ⟨hown, hcontent, htask⟩ := (received_eq_iff txt e).mp fun key =>
          (hargs hnamed key).symm.trans (hargs' key)
        exact ⟨⟨hnamed, hnamed ▸ hname⟩, henclosed, hown, hcontent, htask⟩
      · intro h
        have hreceived := (received_eq_iff txt e).mpr ⟨h.own, h.content, h.task⟩
        refine ⟨args, by rw [hparse, h.named.1], fun key => ?_⟩
        exact (hargs h.named.1 key).trans (hreceived key)
  · -- a `<tool>` in the body
    have hparse := parseReply_opened htxt hloads e henclosed
    constructor
    · rintro ⟨args, hcall, -⟩
      rw [hparse] at hcall
      exact Decision.noConfusion (Except.ok.inj hcall)
    · intro h
      exact absurd (h.enclosed.symm.trans henclosed) Bool.false_ne_true

/-- A page without markup of the envelope. -/
def plainPage : Envelope where
  name := "write_file"
  attrs := [("path", "a.html")]
  children := [("content", "<p>b</p>\n")]
  quotable := by decide +kernel
  keyed := by decide +kernel
  known := by decide
  closed := by decide +kernel
  distinct := by decide

theorem roundTrips_iff_plainPage :
    plainPage.RoundTrips PyText.ascii (fun _ => none) ∧ plainPage.Unambiguous PyText.ascii := by
  have htxt : MarkupTable PyText.ascii := ⟨by decide, by decide, by decide, by decide⟩
  have hplain : plainPage.Unambiguous PyText.ascii := by
    refine ⟨⟨by decide +kernel, by decide⟩, by decide +kernel, ?_, fun _ _ => by decide,
      fun h => absurd h (by decide)⟩
    have hnone : ∀ key ∈ childTags, strayOpening key plainPage.children = none := by
      decide +kernel
    intro key hkey behind hbehind
    rw [hnone key hkey] at hbehind
    exact absurd hbehind (Option.some_ne_none behind).symm
  exact ⟨(roundTrips_iff htxt (fun _ _ => rfl) plainPage).mpr hplain, hplain⟩

/-- A page that documents another element. -/
def nestedPage : Envelope where
  name := "write_file"
  attrs := [("path", "a.html")]
  children := [("content", "<path>b</path>\n")]
  quotable := by decide +kernel
  keyed := by decide +kernel
  known := by decide
  closed := by decide +kernel
  distinct := by decide

/-- The page is written under the path that its text mentions. -/
theorem not_roundTrips_nestedPage : ¬nestedPage.RoundTrips PyText.ascii fun _ => none := by
  rintro ⟨args, hcall, hargs⟩
  have htxt : MarkupTable PyText.ascii := ⟨by decide, by decide, by decide, by decide⟩
  obtain ⟨args', hparse, hargs'⟩ := parseReply_envelope htxt nestedPage (by decide +kernel)
    (by decide +kernel)
  have hcall : Except.ok _ = _ := hparse.symm.trans hcall
  obtain ⟨-, rfl⟩ := Decision.tool.inj (Except.ok.inj hcall)
  have hpath : nestedPage.received PyText.ascii "path" = nestedPage.args.get? "path" :=
    (hargs' (by decide +kernel) "path").symm.trans (hargs "path")
  exact absurd hpath (by decide +kernel)

end Envelope

end ThreadForge

import ThreadForge.Lib.Replace
import ThreadForge.Pico.FileWrites

/-!
# What `patch_file` changes

`patch_file` reads the file in text mode, which makes a line end of each carriage return, counts the
old text without overlaps, replaces its first occurrence and writes the whole text back.

## Main results

* `toolPatchFile_cases` : what one call does to the file
* `patch_touches_only_match_iff` : when a call changes nothing but the matched text
-/

/-! ## Line ends in text mode -/

namespace PyChars

theorem not_mem_universalNewlines (cs : List Char) : '\r' ∉ universalNewlines cs := by
  induction cs using universalNewlines.induct with
  | case1 => exact List.not_mem_nil
  | case2 cs ih =>
    rw [universalNewlines, List.mem_cons, not_or]
    exact ⟨by decide, ih⟩
  | case3 c cs _ ih =>
    rw [universalNewlines, List.mem_cons, not_or]
    · refine ⟨?_, ih⟩
      split
      · decide
      · next hc => exact fun h => hc h.symm
    · assumption

/-- A text without carriage returns is read as it is. -/
theorem universalNewlines_of_not_mem {cs : List Char} (h : '\r' ∉ cs) :
    universalNewlines cs = cs := by
  induction cs using universalNewlines.induct with
  | case1 => rfl
  | case2 cs ih => exact absurd List.mem_cons_self h
  | case3 c cs _ ih =>
    rw [List.mem_cons, not_or] at h
    rw [universalNewlines, ih h.2, if_neg fun hc => h.1 hc.symm]
    assumption

theorem mem_of_mem_universalNewlines {c : Char} {cs : List Char} (h : c ∈ universalNewlines cs) :
    c ∈ cs ∨ c = '\n' := by
  induction cs using universalNewlines.induct with
  | case1 => cases h
  | case2 cs ih =>
    rw [universalNewlines] at h
    rcases List.mem_cons.mp h with rfl | h
    · exact Or.inr rfl
    · exact (ih h).imp_left fun hmem => List.mem_cons_of_mem _ (List.mem_cons_of_mem _ hmem)
  | case3 d cs hnot ih =>
    rw [universalNewlines] at h
    · rcases List.mem_cons.mp h with rfl | h
      · split
        · exact Or.inr rfl
        · exact Or.inl List.mem_cons_self
      · exact (ih h).imp_left (List.mem_cons_of_mem d)
    · assumption

end PyChars

namespace ThreadForge

open Eff FileM FileTree

variable {env : FileEnv} {t : FileTree}

/-! ## The codec -/

/-- What UTF-8 says of the codec: each text is written as one sequence of bytes, character by
character, and a sequence that is decoded is the one of its text, which holds no surrogate. -/
structure Utf8 (env : FileEnv) : Prop where
  decoded : ∀ bytes text, env.decode bytes = some text →
    env.encode text = bytes ∧ env.txt.encodable text = true
  encoded : ∀ text, env.txt.encodable text = true → env.decode (env.encode text) = some text
  append : ∀ a b : String, env.encode (a ++ b) = env.encode a ++ env.encode b
  newline : env.txt.surrogate '\n' = false

/-! ## One call -/

section Call

variable {args : PyDict} {raw : PyValue} {path : Parts} {bytes : List UInt8} {text : String}

/-- The arguments name a file of the workspace, and its bytes are UTF-8. -/
structure Patches (env : FileEnv) (t : FileTree) (args : PyDict) (path : Parts) (bytes : List UInt8)
    (text : String) : Prop where
  named : ∃ raw, args.get? "path" = some raw ∧ picoPathIn env t raw = .ok path
  file : t.content? path = some bytes
  valid : env.decode bytes = some text

/-- The text of the file as it is read. -/
def textAsRead (text : String) : List Char := PyChars.universalNewlines text.toList

/-- The old text. -/
def oldText (env : FileEnv) (args : PyDict) : List Char := (args.textOf env.txt "old_text").toList

/-- The call comes to the point where it writes. -/
def Attempted (env : FileEnv) (args : PyDict) (text : String) (new : PyValue) : Prop :=
  oldText env args ≠ [] ∧ args.get? "new_text" = some new ∧
    PyChars.countOf (oldText env args) 0 (textAsRead text) = 1

theorem Patches.located (h : Patches env t args path bytes text) :
    t.locate path = some path ∧ t.node? path = some (.file bytes) ∧ path ≠ [] ∧ NoUp path := by
  obtain ⟨raw, -, hpath⟩ := h.named
  have hresolved := resolved_of_picoPathIn hpath
  have hfile := h.file
  unfold content? stat? at hfile
  rcases hlocate : t.locate path with _ | location
  · rw [hlocate] at hfile
    cases hfile
  obtain rfl := hresolved.locate hlocate
  rw [hlocate, Option.bind_some] at hfile
  rcases hnode : t.node? location with _ | _ | content | target
  · rw [hnode] at hfile
    cases hfile
  · rw [hnode] at hfile
    cases hfile
  · rw [hnode] at hfile
    obtain rfl := Option.some.inj hfile
    refine ⟨rfl, rfl, ?_, hresolved.noUp⟩
    rintro rfl
    rw [node?_root] at hnode
    cases hnode
  · rw [hnode] at hfile
    cases hfile

/-- What `patch_file` reads: the arguments, or an error where it does not come to writing. -/
theorem Patches.arguments_cases (h : Patches env t args path bytes text) :
    (∃ new, Attempted env args text new ∧ (patchArguments env args).run ⟨t, []⟩ =
      (.ok (path, args.textOf env.txt "old_text", new, String.ofList (textAsRead text)),
        ⟨t, [.read path]⟩)) ∨
    (∀ new, ¬Attempted env args text new) ∧
      ∃ exc u, (patchArguments env args).run ⟨t, []⟩ = (.error exc, u) ∧ u.tree = t := by
  obtain ⟨raw, hraw, hpath⟩ := h.named
  obtain ⟨hlocate, -, -, -⟩ := h.located
  have hargument : (pathArgument env args).run ⟨t, []⟩ = (.ok path, ⟨t, []⟩) := by
    unfold pathArgument
    rw [hraw]
    exact run_picoPath_ok env hpath
  have hisFile : t.isFile path = true := by
    unfold isFile
    rw [h.file]
    rfl
  have hfound : (fileArgument env args).run ⟨t, []⟩ = (.ok path, ⟨t, []⟩) := by
    unfold fileArgument
    rw [run_bind_ok hargument, run_look_bind, hisFile]
    rfl
  have hbytes : (readBytes path).run ⟨t, []⟩ = (.ok bytes, ⟨t, [.read path]⟩) := by
    unfold readBytes
    dsimp only
    rw [hlocate, h.file]
    rfl
  have hread : (readText env path).run ⟨t, []⟩ =
      (.ok (String.ofList (textAsRead text)), ⟨t, [.read path]⟩) := by
    unfold readText
    rw [run_bind_ok hbytes, h.valid]
    rfl
  unfold patchArguments
  rw [run_bind_ok hfound]
  dsimp only
  split
  · next hempty =>
    refine Or.inr ⟨fun new hnew => hnew.1 ?_, _, _, rfl, rfl⟩
    unfold oldText
    rw [hempty]
    rfl
  next hold =>
  split
  · next hnone =>
    refine Or.inr ⟨fun new hnew => ?_, _, _, rfl, rfl⟩
    have hsome := hnew.2.1
    rw [hnone] at hsome
    cases hsome
  next new hnew =>
  have hcount : pyCount (String.ofList (textAsRead text)) (args.textOf env.txt "old_text") =
      PyChars.countOf (oldText env args) 0 (textAsRead text) := by
    unfold pyCount oldText
    rw [String.toList_ofList]
  rw [run_bind_ok hread, hcount]
  split
  · next hmany =>
    exact Or.inr ⟨fun other hother => hmany hother.2.2, _, _, rfl, rfl⟩
  · next hone =>
    refine Or.inl ⟨new, ⟨fun hnil => hold ?_, hnew, not_not.mp hone⟩, rfl⟩
    exact String.toList_eq_nil_iff.mp hnil

/-- **What one call does**: nothing, or it writes the text as it is read with the first occurrence of
the old text replaced; a text that cannot be encoded leaves the file empty. -/
theorem toolPatchFile_cases (h : Patches env t args path bytes text) :
    ((∀ new, ¬Attempted env args text new) ∧
      ∃ exc u, (toolPatchFile env args).run ⟨t, []⟩ = (.error exc, u) ∧ u.tree = t) ∨
    ∃ new before after, Attempted env args text new ∧
      textAsRead text = before ++ oldText env args ++ after ∧
      PyChars.EndsFirst (oldText env args) before ∧
      (toolPatchFile env args).run ⟨t, []⟩ =
        if env.txt.encodable (String.ofList (before ++ (new.text env.txt).toList ++ after)) = true then
          (.ok ("patched " ++ relativeText env path),
            ⟨t.put path (.file (env.encode
              (String.ofList (before ++ (new.text env.txt).toList ++ after)))),
              [.read path, .write path]⟩)
        else (.error ⟨.unicodeEncodeError, none⟩,
          ⟨t.put path (.file []), [.read path, .write path]⟩) := by
  obtain ⟨hlocate, hnode, hne, hup⟩ := h.located
  rcases h.arguments_cases with ⟨new, hattempted, hrun⟩ | ⟨hnot, exc, u, hrun, htree⟩
  · right
    obtain ⟨hold, hnew, hcount⟩ := hattempted
    obtain ⟨before, after, hsplit, hfirst, hafter⟩ := (PyChars.countOf_eq_one_iff hold).mp hcount
    refine ⟨new, before, after, ⟨hold, hnew, hcount⟩, hsplit, hfirst, ?_⟩
    have hreplaced : pyReplaceFirst (String.ofList (textAsRead text))
        (args.textOf env.txt "old_text") (new.text env.txt) =
        String.ofList (before ++ (new.text env.txt).toList ++ after) := by
      have hbreak := PyChars.breakAt_of_endsFirst (v := after) hold hfirst
      rw [← hsplit] at hbreak
      unfold pyReplaceFirst
      rw [String.toList_ofList]
      unfold oldText at hbreak
      rw [hbreak]
    have hopen : openForWriting t path = some path := by
      unfold openForWriting
      rw [hlocate]
      dsimp only
      rw [hnode, if_neg (by exact fun heq => by cases heq)]
    unfold toolPatchFile
    rw [run_bind_ok hrun]
    dsimp only
    rw [hreplaced]
    have hwrite : ∀ content, (writeText env path content).run ⟨t, [.read path]⟩ =
        if env.txt.encodable content = true then
          (.ok (), ⟨t.put path (.file (env.encode content)), [.read path, .write path]⟩)
        else (.error ⟨.unicodeEncodeError, none⟩,
          ⟨t.put path (.file []), [.read path, .write path]⟩) := by
      intro content
      unfold writeText
      dsimp only
      rw [hopen]
      rfl
    split
    · next hencodable => exact run_bind_ok ((hwrite _).trans (if_pos hencodable))
    · next hencodable => exact run_bind_error ((hwrite _).trans (if_neg hencodable))
  · refine Or.inl ⟨hnot, exc, u, ?_, htree⟩
    unfold toolPatchFile
    exact run_bind_error hrun

/-! ## The law -/

/-- Where a call goes through, the old text stands in one place of the file, and the new bytes are
the old ones but for it. Where it does not, the file is as it was. -/
structure TouchesOnlyMatch (env : FileEnv) (t : FileTree) (args : PyDict) (path : Parts)
    (bytes : List UInt8) (text : String) : Prop where
  done : ∀ message u, (toolPatchFile env args).run ⟨t, []⟩ = (.ok message, u) →
    ∃ new before after, args.get? "new_text" = some new ∧
      text = before ++ args.textOf env.txt "old_text" ++ after ∧
      (∃! n, PyChars.OccursAt (oldText env args) text.toList n) ∧
      bytes = env.encode before ++ env.encode (args.textOf env.txt "old_text") ++
        env.encode after ∧
      u.tree.regular? path = some (env.encode before ++ env.encode (new.text env.txt) ++
        env.encode after)
  failed : ∀ exc u, (toolPatchFile env args).run ⟨t, []⟩ = (.error exc, u) →
    u.tree.regular? path = some bytes
  rejected : ∀ exc u, (validateTool env .patchFile args).run ⟨t, []⟩ = (.error exc, u) → u.tree = t

theorem encodable_iff {txt : PyText} {text : String} :
    txt.encodable text = true ↔ ∀ c ∈ text.toList, txt.surrogate c = false := by
  unfold PyText.encodable
  rw [Bool.not_eq_true', List.any_eq_false]
  exact forall₂_congr fun c _ => Bool.not_eq_true _ ▸ Iff.rfl

theorem encodable_append_iff {txt : PyText} {a b c : List Char} :
    txt.encodable (String.ofList (a ++ b ++ c)) = true ↔
      txt.encodable (String.ofList a) = true ∧ txt.encodable (String.ofList b) = true ∧
        txt.encodable (String.ofList c) = true := by
  simp only [encodable_iff, String.toList_ofList, List.forall_mem_append, and_assoc]

/-- What stands in the text as it is read can be encoded. -/
theorem Utf8.encodable_part (hutf : Utf8 env) (hvalid : env.decode bytes = some text)
    {before old after : List Char} (h : textAsRead text = before ++ old ++ after) :
    env.txt.encodable (String.ofList before) = true ∧
      env.txt.encodable (String.ofList after) = true := by
  have hwhole : env.txt.encodable (String.ofList (before ++ old ++ after)) = true := by
    rw [encodable_iff, String.toList_ofList, ← h]
    intro c hc
    rcases PyChars.mem_of_mem_universalNewlines hc with hmem | rfl
    · exact encodable_iff.mp (hutf.decoded _ _ hvalid).2 c hmem
    · exact hutf.newline
  obtain ⟨hbefore, -, hafter⟩ := encodable_append_iff.mp hwhole
  exact ⟨hbefore, hafter⟩

theorem Utf8.encode_inj (hutf : Utf8 env) {a b : String} (ha : env.txt.encodable a = true)
    (hb : env.txt.encodable b = true) (h : env.encode a = env.encode b) : a = b := by
  have hdecode := hutf.encoded a ha
  rw [h, hutf.encoded b hb] at hdecode
  exact (Option.some.inj hdecode).symm

theorem Utf8.text_of_nil (hutf : Utf8 env) (h : env.decode [] = some text) : text = "" := by
  have hempty : env.encode "" = [] := by
    have happend := congrArg List.length (hutf.append "" "")
    rw [String.append_empty, List.length_append] at happend
    exact List.eq_nil_of_length_eq_zero (by omega)
  have hdecode := hutf.encoded "" rfl
  rw [hempty, h] at hdecode
  exact Option.some.inj hdecode

/-- A call that is rejected changes nothing. -/
theorem Patches.validate_tree (h : Patches env t args path bytes text) {exc : PyExc} {u : FileState}
    (hrun : (validateTool env .patchFile args).run ⟨t, []⟩ = (.error exc, u)) : u.tree = t := by
  unfold validateTool at hrun
  dsimp only at hrun
  rcases h.arguments_cases with ⟨new, -, harguments⟩ | ⟨-, exc', u', harguments, htree⟩
  · rw [run_bind_ok harguments] at hrun
    cases hrun
  · rw [run_bind_error harguments] at hrun
    obtain ⟨-, rfl⟩ := Prod.mk.inj hrun
    exact htree

theorem regular?_put (hne : path ≠ []) (hup : NoUp path) (content : List UInt8) :
    (t.put path (.file content)).regular? path = some content := by
  unfold regular?
  rw [node?_put t hne hup, if_pos rfl]

/-- A call that writes does what it should exactly if the text was read as it is, nothing overlaps
and the new text can be encoded. -/
theorem touches_iff_of_attempted (hutf : Utf8 env) (h : Patches env t args path bytes text)
    {new : PyValue} (hattempted : Attempted env args text new) :
    TouchesOnlyMatch env t args path bytes text ↔
      '\r' ∉ text.toList ∧ ¬PyChars.Overlap (oldText env args) text.toList ∧
        env.txt.encodable (new.text env.txt) = true := by
  obtain ⟨-, -, hne, hup⟩ := h.located
  rcases toolPatchFile_cases h with ⟨hnot, -⟩ | ⟨new', before, after, hnew', hsplit, -, hrun⟩
  · exact absurd hattempted (hnot new)
  obtain rfl : new' = new := Option.some.inj (hnew'.2.1.symm.trans hattempted.2.1)
  obtain ⟨hbefore, hafter⟩ := hutf.encodable_part h.valid hsplit
  have hparts : env.txt.encodable
      (String.ofList (before ++ (new'.text env.txt).toList ++ after)) = true ↔
        env.txt.encodable (new'.text env.txt) = true := by
    rw [encodable_append_iff, String.ofList_toList]
    exact ⟨fun hall => hall.2.1, fun hnew => ⟨hbefore, hnew, hafter⟩⟩
  have hread : '\r' ∉ before ++ oldText env args ++ after := by
    rw [← hsplit]
    exact PyChars.not_mem_universalNewlines text.toList
  simp only [List.mem_append, not_or] at hread
  obtain ⟨⟨hreadBefore, hreadOld⟩, hreadAfter⟩ := hread
  have hsame : '\r' ∉ text.toList → textAsRead text = text.toList :=
    PyChars.universalNewlines_of_not_mem
  by_cases hencodable : env.txt.encodable (new'.text env.txt) = true
  · rw [if_pos (hparts.mpr hencodable)] at hrun
    rw [and_iff_left hencodable]
    have htree := regular?_put (t := t) hne hup
      (env.encode (String.ofList (before ++ (new'.text env.txt).toList ++ after)))
    constructor
    · intro htouches
      obtain ⟨other, before', after', hother, htext, hunique, -, hwritten⟩ :=
        htouches.done _ _ hrun
      obtain rfl : other = new' := Option.some.inj (hother.symm.trans hattempted.2.1)
      have hwhole := (hutf.decoded _ _ h.valid).2
      rw [htext] at hwhole
      have hencode : env.encode (String.ofList (before ++ (other.text env.txt).toList ++ after)) =
          env.encode (before' ++ other.text env.txt ++ after') := by
        rw [hutf.append, hutf.append]
        rw [htree] at hwritten
        exact Option.some.inj hwritten
      have hwhole' : env.txt.encodable (before' ++ other.text env.txt ++ after') = true := by
        rw [encodable_iff] at hwhole hencodable ⊢
        simp only [String.toList_append, List.forall_mem_append] at hwhole ⊢
        exact ⟨⟨hwhole.1.1, hencodable⟩, hwhole.2⟩
      have htexts := hutf.encode_inj (hparts.mpr hencodable) hwhole' hencode
      -- the new text has as many carriage returns as what was written
      have hcount := congrArg (fun s : String => s.toList.count '\r') htexts
      simp only [String.toList_ofList, String.toList_append, List.count_append,
        List.count_eq_zero_of_not_mem hreadBefore, List.count_eq_zero_of_not_mem hreadAfter] at hcount
      have hclean : '\r' ∉ text.toList := by
        rw [htext, String.toList_append, String.toList_append]
        simp only [List.mem_append, not_or]
        exact ⟨⟨List.count_eq_zero.mp (by omega), hreadOld⟩, List.count_eq_zero.mp (by omega)⟩
      refine ⟨hclean, ?_⟩
      have hone := hattempted.2.2
      rw [hsame hclean] at hone
      exact (PyChars.unique_iff_of_countOf hattempted.1 hone).mp hunique
    · rintro ⟨hclean, hapart⟩
      have hone := hattempted.2.2
      rw [hsame hclean] at hone hsplit
      have htext : text = String.ofList before ++ args.textOf env.txt "old_text" ++
          String.ofList after := by
        refine String.toList_inj.mp ?_
        rw [String.toList_append, String.toList_append, String.toList_ofList, String.toList_ofList]
        exact hsplit
      refine ⟨fun message u hok => ?_, fun exc u herror => ?_, ?_⟩
      · rw [hrun] at hok
        obtain ⟨-, rfl⟩ := Prod.mk.inj hok
        refine ⟨new', String.ofList before, String.ofList after, hattempted.2.1, htext,
          (PyChars.unique_iff_of_countOf hattempted.1 hone).mpr hapart, ?_, ?_⟩
        · rw [← hutf.append, ← hutf.append, ← htext]
          exact (hutf.decoded _ _ h.valid).1.symm
        · rw [htree, ← hutf.append, ← hutf.append, String.ofList_append, String.ofList_append,
            String.ofList_toList]
      · rw [hrun] at herror
        cases herror
      · exact fun exc u herror => h.validate_tree herror
  · rw [if_neg fun hall => hencodable (hparts.mp hall)] at hrun
    refine iff_of_false (fun htouches => ?_) fun hall => hencodable hall.2.2
    have hempty := htouches.failed _ _ hrun
    dsimp only at hempty
    rw [regular?_put hne hup] at hempty
    obtain rfl := Option.some.inj hempty
    -- the empty file holds no old text
    have hnil : text = "" := hutf.text_of_nil h.valid
    rw [hnil] at hsplit
    have hlength := congrArg List.length hsplit
    rw [List.length_append, List.length_append] at hlength
    have hpos := List.length_pos_iff.mpr hattempted.1
    have hzero : (textAsRead "").length = 0 := rfl
    omega

/-- **`patch_file` touches only the matched text** exactly if a call that comes to writing finds no
carriage return in the file and no two overlapping occurrences of the old text, and its new text can
be encoded. -/
theorem patch_touches_only_match_iff (hutf : Utf8 env) (h : Patches env t args path bytes text) :
    TouchesOnlyMatch env t args path bytes text ↔
      ∀ new, Attempted env args text new →
        '\r' ∉ text.toList ∧ ¬PyChars.Overlap (oldText env args) text.toList ∧
          env.txt.encodable (new.text env.txt) = true := by
  constructor
  · exact fun htouches new hattempted => (touches_iff_of_attempted hutf h hattempted).mp htouches
  · intro hall
    by_cases hsome : ∃ new, Attempted env args text new
    · obtain ⟨new, hattempted⟩ := hsome
      exact (touches_iff_of_attempted hutf h hattempted).mpr (hall new hattempted)
    · rcases toolPatchFile_cases h with ⟨-, exc, u, hrun, htree⟩ | ⟨new, -, -, hattempted, -⟩
      · refine ⟨fun message v hok => ?_, fun exc' v herror => ?_,
          fun exc' v herror => h.validate_tree herror⟩
        · rw [hrun] at hok
          cases hok
        · rw [hrun] at herror
          obtain ⟨-, rfl⟩ := Prod.mk.inj herror
          rw [htree]
          unfold regular?
          rw [h.located.2.1]
      · exact absurd ⟨new, hattempted⟩ hsome

end Call

/-! ## A file of a workspace -/

/-- UTF-8 files, with no surrogates. -/
def FileEnv.utf8 (root : Parts) : FileEnv where
  __ := FileEnv.ascii root
  decode content := String.fromUTF8? ⟨content.toArray⟩
  encode text := text.toByteArray.data.toList

theorem utf8_utf8 (root : Parts) : Utf8 (FileEnv.utf8 root) where
  decoded bytes text h := by
    change String.fromUTF8? ⟨bytes.toArray⟩ = some text at h
    unfold String.fromUTF8? at h
    split at h
    · refine ⟨?_, ?_⟩
      · rw [← Option.some.inj h]
        rfl
      · exact encodable_iff.mpr fun _ _ => rfl
    · cases h
  encoded text _ := by
    show String.fromUTF8? ⟨text.toByteArray.data.toList.toArray⟩ = some text
    rw [Array.toArray_toList]
    unfold String.fromUTF8?
    rw [dif_pos text.isValidUTF8]
    rfl
  append a b := by
    show (a ++ b).toByteArray.data.toList = _
    rw [String.toByteArray_append, ByteArray.data_append, Array.toList_append]
    rfl
  newline := rfl

/-- A workspace with one file. -/
def patchTree (text : String) : FileTree where
  nodes := [(["w"], .dir), (["w", "a"], .file ((FileEnv.utf8 ["w"]).encode text))]
  noUp := by
    intro entry h
    simp only [List.mem_cons, List.not_mem_nil, or_false] at h
    rcases h with rfl | rfl <;> simp

/-- A call that replaces `old` by `x` in that file. -/
def patchArgs (old : String) : PyDict :=
  [("path", .str "a"), ("old_text", .str old), ("new_text", .str "x")]

theorem patches_patchTree (text old : String) :
    Patches (FileEnv.utf8 ["w"]) (patchTree text) (patchArgs old) ["w", "a"]
      ((FileEnv.utf8 ["w"]).encode text) text where
  named := ⟨.str "a", rfl, rfl⟩
  file := rfl
  valid := (utf8_utf8 ["w"]).encoded text (encodable_iff.mpr fun _ _ => rfl)

theorem patch_touches_only_match_word :
    TouchesOnlyMatch (FileEnv.utf8 ["w"]) (patchTree "abc") (patchArgs "b") ["w", "a"]
      ((FileEnv.utf8 ["w"]).encode "abc") "abc" := by
  refine (patch_touches_only_match_iff (utf8_utf8 ["w"]) (patches_patchTree "abc" "b")).mpr ?_
  intro new _
  refine ⟨by decide, ?_, encodable_iff.mpr fun _ _ => rfl⟩
  rintro ⟨m, n, -, -, hlt, hnear⟩
  have hlength : (oldText (FileEnv.utf8 ["w"]) (patchArgs "b")).length = 1 := rfl
  omega

/-- In a file with two kinds of line ends the others change too, and of two overlapping occurrences
the first is replaced. -/
theorem patch_changes_line_ends :
    ¬TouchesOnlyMatch (FileEnv.utf8 ["w"]) (patchTree "a\r\nb") (patchArgs "b") ["w", "a"]
        ((FileEnv.utf8 ["w"]).encode "a\r\nb") "a\r\nb" ∧
      ¬TouchesOnlyMatch (FileEnv.utf8 ["w"]) (patchTree "aaa") (patchArgs "aa") ["w", "a"]
        ((FileEnv.utf8 ["w"]).encode "aaa") "aaa" := by
  constructor
  · intro htouches
    have hattempted : Attempted (FileEnv.utf8 ["w"]) (patchArgs "b") "a\r\nb" (.str "x") :=
      ⟨by decide, rfl, by decide⟩
    have hclean := ((touches_iff_of_attempted (utf8_utf8 ["w"]) (patches_patchTree "a\r\nb" "b")
      hattempted).mp htouches).1
    exact hclean (by decide)
  · intro htouches
    have hattempted : Attempted (FileEnv.utf8 ["w"]) (patchArgs "aa") "aaa" (.str "x") :=
      ⟨by decide, rfl, by decide⟩
    have hapart := ((touches_iff_of_attempted (utf8_utf8 ["w"]) (patches_patchTree "aaa" "aa")
      hattempted).mp htouches).2.1
    exact hapart ⟨0, 1, ⟨[], ['a'], rfl, rfl⟩, ⟨['a'], [], rfl, rfl⟩, by decide, by decide⟩

end ThreadForge

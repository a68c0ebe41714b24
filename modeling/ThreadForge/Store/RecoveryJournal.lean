import ThreadForge.Gate.State
import ThreadForge.Lib.JsonText
import ThreadForge.Lib.Transition
import Mathlib.Data.List.Induction

/-!
# The recovery journal

An append-only file of JSON lines. `begin` and `commit` append a record each, and an append can fail
after any part of its line is in the file; `incomplete` reads the file, cuts off a last line that
was not ended, and lists the transitions that have begun and not been committed.

## Main results

* `RecoveryJournal.readsBack_iff` — the journal can be read back exactly as long as no line is
  completed behind one that was cut short.
* `RecoveryJournal.not_readsBack` — two appends, of which the first fails, make it unreadable.
-/

namespace ThreadForge

open Transition PyJson

namespace RecoveryJournal

/-! ## The file -/

/-- A call that appends to the journal, with the id and the time it reads. -/
inductive Entry
  | begin (transitionId kind taskId approvalId createdAt : String)
  | commit (transitionId createdAt : String)
  deriving DecidableEq, Repr

namespace Entry

def transitionId : Entry → String
  | .begin transitionId .. => transitionId
  | .commit transitionId _ => transitionId

def isBegin : Entry → Bool
  | .begin .. => true
  | .commit .. => false

/-- The record that is appended. -/
def record : Entry → PyDict
  | .begin transitionId kind taskId approvalId createdAt =>
    [("phase", .str "begin"), ("transition_id", .str transitionId), ("kind", .str kind),
      ("task_id", .str taskId), ("approval_id", .str approvalId), ("created_at", .str createdAt)]
  | .commit transitionId createdAt =>
    [("phase", .str "commit"), ("transition_id", .str transitionId),
      ("created_at", .str createdAt)]

/-- The record in the order of its keys, as it is read back. -/
def stored (e : Entry) : PyDict := e.record.insertionSort fun a b => a.1 ≤ b.1

end Entry

variable (txt : PyText) (t : Tables)

/-- The line of `_append`. -/
def line (e : Entry) : List Char := PyJson.dumps txt (.dict e.record) ++ ['\n']

/-- `data.splitlines(keepends=True)` of bytes, with the line being read, latest first. -/
def splitLines : List Char → List Char → List (List Char)
  | current, [] => if current = [] then [] else [current.reverse]
  | current, '\r' :: '\n' :: cs => (current.reverse ++ ['\r', '\n']) :: splitLines [] cs
  | current, c :: cs =>
    if c = '\n' ∨ c = '\r' then (current.reverse ++ [c]) :: splitLines [] cs
    else splitLines (c :: current) cs

/-- The bytes that `strip` takes. -/
def isSpaceByte (c : Char) : Bool := c = ' ' || (9 ≤ c.toNat && c.toNat ≤ 13)

/-- One ended line: what is pending after it. -/
def readLine (pending : PyDict) (text : List Char) : Except PyError PyDict :=
  if text.all isSpaceByte then .ok pending
  else match PyJson.loads t text with
    | none => .error .valueError
    | some (.dict record) =>
      match PyDict.get? record "transition_id" with
      | some (.str transitionId) =>
        if transitionId = "" then .error .valueError
        else if PyDict.get? record "phase" = some (.str "begin") then
          .ok (pending.set transitionId (.dict record))
        else if PyDict.get? record "phase" = some (.str "commit") then
          .ok (pending.filter fun entry => entry.1 ≠ transitionId)
        else .error .valueError
      | _ => .error .valueError
    | some _ => .error .typeError

/-- The loop of `incomplete`: what is pending, and the length of the lines that were ended. -/
def readLines : List (List Char) → PyDict → Nat → Except PyError (PyDict × Nat)
  | [], pending, size => .ok (pending, size)
  | text :: rest, pending, size =>
    if rest = [] ∧ text.getLast? ≠ some '\n' then .ok (pending, size)
    else do
      let pending ← readLine t pending text
      readLines rest pending (size + text.length)

/-- `incomplete`: what it returns, or raises, and the file it leaves. A file that is not there is
empty. -/
def incomplete (content : List Char) : Except PyError (List PyValue) × List Char :=
  match readLines t (splitLines [] content) [] 0 with
  | .ok (pending, size) => (.ok (pending.map Prod.snd), content.take size)
  | .error e => (.error e, content)

/-! ## Runs -/

/-- The file, the entries whose lines are in it whole, and the ids that have been used. -/
structure State where
  content : List Char
  written : List Entry
  used : List String

/-- An append that puts `n` bytes of its line in the file, or a call of `incomplete`. -/
inductive Action
  | append (e : Entry) (n : Nat)
  | incomplete

/-- `begin` takes an id that `uuid4` has not given before. -/
def Entry.Fresh (used : List String) : Entry → Prop
  | .begin transitionId .. => (∃ hex, transitionId = "txn_" ++ hex) ∧ transitionId ∉ used
  | .commit .. => True

inductive Step : State → Action → State → Prop
  | append {s : State} {e : Entry} (n : Nat) : e.Fresh s.used →
      Step s (.append e n)
        { content := s.content ++ (line txt e).take n
          written := if (line txt e).length ≤ n then s.written ++ [e] else s.written
          used := e.transitionId :: s.used }
  | incomplete {s : State} : Step s .incomplete { s with content := (incomplete t s.content).2 }

def initial : State := ⟨[], [], []⟩

/-- The transitions whose `begin` is in the file and whose `commit` is not, oldest first. -/
def openEntries (written : List Entry) : List Entry :=
  written.filter fun e => e.isBegin && !written.any fun other =>
    !other.isBegin && other.transitionId == e.transitionId

/-- `incomplete` would return the open transitions. -/
def ReadsBack (s : State) : Prop :=
  (incomplete t s.content).1 = .ok ((openEntries s.written).map fun e => .dict e.stored)

/-- A line is only completed at the start of a line, and names its transition. -/
def EndsLine (s : State) : Action → Prop
  | .append e n => (line txt e).length ≤ n →
    (s.content = [] ∨ s.content.getLast? = some '\n') ∧ e.transitionId ≠ ""
  | .incomplete => True

/-! ## Lines -/

namespace Entry

/-- The members of the record with their texts, in the order of the keys. -/
def fields : Entry → List (String × String)
  | .begin transitionId kind taskId approvalId createdAt =>
    [("approval_id", approvalId), ("created_at", createdAt), ("kind", kind), ("phase", "begin"),
      ("task_id", taskId), ("transition_id", transitionId)]
  | .commit transitionId createdAt =>
    [("created_at", createdAt), ("phase", "commit"), ("transition_id", transitionId)]

end Entry

variable {txt t} {e : Entry}

theorem dumps_record (e : Entry) : PyJson.dumps txt (.dict e.record) = objectText e.fields := by
  cases e <;> simp [Entry.record, dumps, dumpsEntries, objectText, stringMembers, Entry.fields]

theorem readInto_fields (e : Entry) : readInto [] e.fields = e.stored := by
  cases e <;> simp [Entry.stored, Entry.record, Entry.fields, readInto, PyDict.set]

theorem line_eq (e : Entry) : line txt e = objectText e.fields ++ ['\n'] := by
  rw [line, dumps_record]

theorem opens_fields (e : Entry) : Opens e.fields := by
  cases e with
  | begin transitionId kind taskId approvalId createdAt =>
    exact opens_cons rfl (by decide) ⟨rfl, by decide, by decide, by decide⟩
  | commit transitionId createdAt =>
    exact opens_cons rfl (by decide) ⟨rfl, by decide, by decide, by decide⟩

theorem stored_transitionId (e : Entry) :
    PyDict.get? e.stored "transition_id" = some (.str e.transitionId) := by
  rw [← readInto_fields]
  cases e <;> simp [Entry.fields, readInto, Entry.transitionId]

theorem stored_phase (e : Entry) :
    PyDict.get? e.stored "phase" = some (.str (if e.isBegin then "begin" else "commit")) := by
  rw [← readInto_fields]
  cases e <;> simp [Entry.fields, readInto, Entry.isBegin]

/-- What a whole line does to the pending transitions. -/
def applyEntry (pending : PyDict) (e : Entry) : PyDict :=
  if e.isBegin then pending.set e.transitionId (.dict e.stored)
  else pending.filter fun entry => entry.1 ≠ e.transitionId

/-- **A whole line is read back.** -/
theorem readLine_line (pending : PyDict) (e : Entry) :
    readLine t pending (line txt e)
      = if e.transitionId = "" then .error .valueError else .ok (applyEntry pending e) := by
  have hload : PyJson.loads t (line txt e) = some (.dict e.stored) := by
    rw [line_eq, loads_objectText t (opens_fields e).ne_nil rfl, readInto_fields]
  have hblank : (line txt e).all isSpaceByte = false := by
    rw [line_eq, objectText_eq]
    rfl
  unfold readLine applyEntry
  rw [hblank, hload]
  simp only [stored_transitionId, stored_phase]
  cases e.isBegin <;> simp

/-! ## The open transitions -/

/-- No `begin` has the id of an earlier entry. -/
def Distinct (written : List Entry) : Prop :=
  written.Pairwise fun earlier e => e.isBegin = true → earlier.transitionId ≠ e.transitionId

variable {written : List Entry}

theorem openEntries_begin (he : e.isBegin = true)
    (hfresh : ∀ other ∈ written, other.transitionId ≠ e.transitionId) :
    openEntries (written ++ [e]) = openEntries written ++ [e] := by
  have hnone : (written.any fun other =>
      !other.isBegin && other.transitionId == e.transitionId) = false := by
    rw [List.any_eq_false]
    intro other hother hcommit
    rw [Bool.and_eq_true, beq_iff_eq] at hcommit
    exact hfresh other hother hcommit.2
  simp [openEntries, List.filter_append, he, hnone]

theorem openEntries_commit (he : e.isBegin = false) : openEntries (written ++ [e])
    = (openEntries written).filter fun other => other.transitionId ≠ e.transitionId := by
  unfold openEntries
  rw [List.filter_append, List.filter_filter]
  have hlast : [e].filter (fun other => other.isBegin && !(written ++ [e]).any fun later =>
      !later.isBegin && later.transitionId == other.transitionId) = [] := by
    simp [he]
  rw [hlast, List.append_nil]
  refine List.filter_congr fun other _ => ?_
  rw [List.any_append, List.any_cons, List.any_nil, Bool.or_false, he, Bool.not_false,
    Bool.true_and, Bool.not_or]
  by_cases hsame : e.transitionId = other.transitionId
  · simp [hsame]
  · have hdiffer : (e.transitionId == other.transitionId) = false := beq_eq_false_iff_ne.mpr hsame
    simp [hdiffer, Ne.symm hsame]

/-- **Reading the whole lines leaves the open transitions pending.** -/
theorem foldl_applyEntry (h : Distinct written) : written.foldl applyEntry []
    = (openEntries written).map fun e => (e.transitionId, .dict e.stored) := by
  induction written using List.reverseRecOn with
  | nil => rfl
  | append_singleton written e ih =>
    obtain ⟨hwritten, -, hlast⟩ := List.pairwise_append.mp h
    rw [List.foldl_append, List.foldl_cons, List.foldl_nil, ih hwritten]
    cases he : e.isBegin with
    | true =>
      have hfresh : ∀ other ∈ written, other.transitionId ≠ e.transitionId :=
        fun other hother => hlast other hother e (List.mem_singleton_self e) he
      rw [openEntries_begin he hfresh, List.map_append, applyEntry, if_pos he, set_of_absent]
      · rfl
      · intro entry hentry
        obtain ⟨other, hother, rfl⟩ := List.mem_map.mp hentry
        exact hfresh other (List.mem_of_mem_filter hother)
    | false =>
      rw [openEntries_commit he, applyEntry, he, if_neg (by decide), List.filter_map]
      rfl

/-! ## Splitting the file -/

/-- A character that does not end a line. -/
def Inline (c : Char) : Prop := c ≠ '\n' ∧ c ≠ '\r'

theorem inline_of_visible {c : Char} (h : Visible c) : Inline c := by
  refine ⟨?_, ?_⟩
  · rintro rfl
    exact absurd h.1 (by decide)
  · rintro rfl
    exact absurd h.1 (by decide)

variable {current x rest : List Char}

theorem splitLines_inline {c : Char} (h : Inline c) (cs : List Char) :
    splitLines current (c :: cs) = splitLines (c :: current) cs := by
  rw [splitLines.eq_3]
  · exact if_neg (not_or.mpr h)
  · intro cs' hreturn
    exact absurd hreturn h.2

theorem splitLines_append (h : ∀ c ∈ x, Inline c) :
    splitLines current (x ++ rest) = splitLines (x.reverse ++ current) rest := by
  induction x generalizing current with
  | nil => rfl
  | cons c cs ih =>
    rw [List.cons_append, splitLines_inline (h c List.mem_cons_self),
      ih fun d hd => h d (List.mem_cons_of_mem _ hd), List.reverse_cons, List.append_assoc]
    rfl

theorem splitLines_ended (h : ∀ c ∈ x, Inline c) (rest : List Char) :
    splitLines [] (x ++ '\n' :: rest) = (x ++ ['\n']) :: splitLines [] rest := by
  rw [splitLines_append h, List.append_nil, splitLines.eq_3, if_pos (Or.inl rfl),
    List.reverse_reverse]
  intro cs' hreturn
  exact absurd hreturn (by decide)

theorem splitLines_open (h : ∀ c ∈ x, Inline c) :
    splitLines [] x = if x = [] then [] else [x] := by
  have hsplit : splitLines [] (x ++ []) = splitLines (x.reverse ++ []) [] := splitLines_append h
  rw [List.append_nil, List.append_nil] at hsplit
  rw [hsplit, splitLines, List.reverse_reverse]
  simp only [List.reverse_eq_nil_iff]

theorem inline_fields {c : Char} (h : c ∈ objectText e.fields) : Inline c :=
  inline_of_visible (visible_objectText h)

theorem splitLines_written (written : List Entry) (rest : List Char) :
    splitLines [] (written.flatMap (line txt) ++ rest)
      = written.map (line txt) ++ splitLines [] rest := by
  induction written with
  | nil => rfl
  | cons e written ih =>
    rw [List.flatMap_cons, List.append_assoc, line_eq, List.append_assoc, List.singleton_append,
      splitLines_ended fun c => inline_fields, ih, List.map_cons, line_eq]
    rfl

/-! ## Reading the file -/

theorem getLast?_line (e : Entry) : (line txt e).getLast? = some '\n' := by
  rw [line_eq, List.getLast?_append]
  rfl

/-- The whole lines are read one after the other. -/
theorem readLines_written (h : ∀ e ∈ written, e.transitionId ≠ "") (texts : List (List Char))
    (pending : PyDict) (size : Nat) :
    readLines t (written.map (line txt) ++ texts) pending size
      = readLines t texts (written.foldl applyEntry pending)
          (size + (written.flatMap (line txt)).length) := by
  induction written generalizing pending size with
  | nil => rfl
  | cons e written ih =>
    rw [List.map_cons, List.cons_append, readLines, if_neg fun hlast => hlast.2 (getLast?_line e),
      readLine_line, if_neg (h e List.mem_cons_self)]
    show readLines t (written.map (line txt) ++ texts) _ _ = _
    rw [ih fun e he => h e (List.mem_cons_of_mem _ he), List.foldl_cons, List.flatMap_cons,
      List.length_append, Nat.add_assoc]

/-- A line that was cut short, or at most not ended. -/
def Piece (p : List Char) : Prop := p ≠ [] ∧ ∃ e : Entry, p <+: objectText e.fields

variable {pieces : List (List Char)}

theorem inline_pieces (h : ∀ p ∈ pieces, Piece p) : ∀ c ∈ pieces.flatten, Inline c := by
  intro c hc
  obtain ⟨p, hp, hc⟩ := List.mem_flatten.mp hc
  obtain ⟨-, e, hle⟩ := h p hp
  exact inline_fields (hle.subset hc)

theorem flatten_eq_nil (h : ∀ p ∈ pieces, Piece p) : pieces.flatten = [] ↔ pieces = [] := by
  constructor
  · intro hnil
    cases pieces with
    | nil => rfl
    | cons p pieces =>
      rw [List.flatten_cons, List.append_eq_nil_iff] at hnil
      exact absurd hnil.1 (h p List.mem_cons_self).1
  · rintro rfl
    rfl

/-- A line completed behind pieces of others. -/
theorem joined_pieces (h : ∀ p ∈ pieces, Piece p) (e : Entry) :
    Joined (pieces.flatten ++ line txt e) := by
  induction pieces with
  | nil =>
    rw [List.flatten_nil, List.nil_append, line_eq]
    exact Joined.last (opens_fields e)
  | cons p pieces ih =>
    obtain ⟨hne, other, hp⟩ := h p List.mem_cons_self
    rw [List.flatten_cons, List.append_assoc]
    exact Joined.cons (opens_fields other) hp hne (ih fun q hq => h q (List.mem_cons_of_mem _ hq))

/-- **A line completed behind pieces of others cannot be read.** -/
theorem readLine_joined (h : ∀ p ∈ pieces, Piece p) (hne : pieces ≠ []) (pending : PyDict)
    (e : Entry) : readLine t pending (pieces.flatten ++ line txt e) = .error .valueError := by
  cases pieces with
  | nil => exact absurd rfl hne
  | cons p pieces =>
    obtain ⟨hp, other, hprefix⟩ := h p List.mem_cons_self
    have hrest : Joined (pieces.flatten ++ line txt e) :=
      joined_pieces (fun q hq => h q (List.mem_cons_of_mem _ hq)) e
    have hrefused := loads_joined t (opens_fields other) hprefix hp hrest
    obtain ⟨q, rfl, -⟩ := prefix_objectText hprefix hp
    rw [List.flatten_cons, List.append_assoc, readLine, hrefused]
    rfl

/-! ## What the file holds -/

/-- The file is the whole lines and the pieces of one that was not ended. -/
structure Holds (txt : PyText) (s : State) (pieces : List (List Char)) : Prop where
  content : s.content = s.written.flatMap (line txt) ++ pieces.flatten
  pieces : ∀ p ∈ pieces, Piece p
  named : ∀ e ∈ s.written, e.transitionId ≠ ""

/-- The ids are those of entries, and no `begin` has an old one. -/
structure Numbered (s : State) : Prop where
  used : ∀ e ∈ s.written, e.transitionId ∈ s.used
  distinct : Distinct s.written

variable {s s' : State}

theorem incomplete_of_holds (h : Holds txt s pieces) (hids : Distinct s.written) :
    incomplete t s.content = (.ok ((openEntries s.written).map fun e => .dict e.stored),
      s.written.flatMap (line txt)) := by
  have hinline := inline_pieces h.pieces
  have hread : readLines t (splitLines [] s.content) [] 0
      = .ok (s.written.foldl applyEntry [], (s.written.flatMap (line txt)).length) := by
    rw [h.content, splitLines_written, readLines_written h.named, splitLines_open hinline,
      Nat.zero_add]
    split
    · rfl
    · rw [readLines, if_pos]
      refine ⟨rfl, fun hlast => ?_⟩
      exact (hinline _ (List.mem_of_getLast? hlast)).1 rfl
  rw [incomplete, hread, h.content]
  show (Except.ok ((s.written.foldl applyEntry []).map Prod.snd), List.take _ _) = _
  rw [List.take_left, foldl_applyEntry hids, List.map_map]
  rfl

theorem readsBack_of_holds (h : Holds txt s pieces) (hids : Distinct s.written) :
    ReadsBack t s := by
  rw [ReadsBack, incomplete_of_holds h hids]

/-- A last line that cannot be read. -/
theorem incomplete_error (hnamed : ∀ e ∈ written, e.transitionId ≠ "") (hx : ∀ c ∈ x, Inline c)
    (hread : ∀ pending, readLine t pending (x ++ ['\n']) = .error .valueError) :
    (incomplete t (written.flatMap (line txt) ++ (x ++ ['\n']))).1 = .error .valueError := by
  have herror : readLines t (splitLines [] (written.flatMap (line txt) ++ (x ++ ['\n']))) [] 0
      = .error .valueError := by
    rw [splitLines_written, readLines_written hnamed, splitLines_ended hx, readLines, if_neg, hread]
    · rfl
    · rintro ⟨-, hlast⟩
      rw [List.getLast?_append] at hlast
      exact hlast rfl
  rw [incomplete, herror]

/-- Where the next append begins a line. -/
theorem atLineStart_iff (h : Holds txt s pieces) :
    (s.content = [] ∨ s.content.getLast? = some '\n') ↔ pieces = [] := by
  have hinline := inline_pieces h.pieces
  constructor
  · intro hstart
    by_contra hne
    have hflatten : pieces.flatten ≠ [] := fun hnil => hne ((flatten_eq_nil h.pieces).mp hnil)
    rcases hstart with hnil | hlast
    · rw [h.content, List.append_eq_nil_iff] at hnil
      exact hflatten hnil.2
    · rw [h.content, List.getLast?_append_of_ne_nil _ hflatten] at hlast
      exact (hinline _ (List.mem_of_getLast? hlast)).1 rfl
  · rintro rfl
    rw [h.content, List.flatten_nil, List.append_nil]
    rcases List.eq_nil_or_concat s.written with hnil | ⟨earlier, e, hlast⟩
    · rw [hnil]
      exact Or.inl rfl
    · rw [hlast, List.concat_eq_append, List.flatMap_append, List.flatMap_singleton,
        List.getLast?_append, getLast?_line]
      exact Or.inr rfl

/-! ## Which steps leave a readable journal -/

theorem Numbered.step {a : Action} (hs : Numbered s) (hstep : Step txt t s a s') :
    Numbered s' := by
  cases hstep with
  | incomplete => exact ⟨hs.used, hs.distinct⟩
  | @append e n hfresh =>
    have hused : ∀ other ∈ s.written, other.transitionId ∈ e.transitionId :: s.used :=
      fun other hother => List.mem_cons_of_mem _ (hs.used other hother)
    split
    · refine ⟨?_, ?_⟩
      · intro other hother
        rcases List.mem_append.mp hother with hother | hother
        · exact hused other hother
        · rw [List.mem_singleton.mp hother]
          exact List.mem_cons_self
      · refine List.pairwise_append.mpr ⟨hs.distinct, List.pairwise_singleton _ _, ?_⟩
        intro other hother e' he' hbegin hsame
        rw [List.mem_singleton.mp he'] at hbegin hsame
        cases e with
        | commit => cases hbegin
        | begin transitionId kind taskId approvalId createdAt =>
          have hold := hs.used other hother
          rw [hsame] at hold
          exact hfresh.2 hold
    · exact ⟨hused, hs.distinct⟩

/-- An append that fails within its line leaves a piece of it. -/
theorem holds_torn {n : Nat} (h : Holds txt s pieces) (hn : n < (line txt e).length)
    (used : List String) : ∃ pieces',
      Holds txt ⟨s.content ++ (line txt e).take n, s.written, used⟩ pieces' := by
  have htake : (line txt e).take n = (objectText e.fields).take n := by
    rw [line_eq, List.length_append, List.length_singleton] at hn
    rw [line_eq, List.take_append_of_le_length (by omega)]
  by_cases hnil : (line txt e).take n = []
  · refine ⟨pieces, ?_, h.pieces, h.named⟩
    show s.content ++ (line txt e).take n = _
    rw [hnil, List.append_nil, h.content]
  · refine ⟨pieces ++ [(line txt e).take n], ?_, ?_, h.named⟩
    · show s.content ++ (line txt e).take n = _
      rw [h.content, List.flatten_append, List.flatten_singleton, List.append_assoc]
    · intro p hp
      rcases List.mem_append.mp hp with hp | hp
      · exact h.pieces p hp
      · rw [List.mem_singleton.mp hp]
        refine ⟨hnil, e, ?_⟩
        rw [htake]
        exact List.take_prefix _ _

/-- An append that is completed. -/
theorem readsBack_completed_iff (h : Holds txt s pieces) (used : List String)
    (hids : Distinct (s.written ++ [e])) :
    ReadsBack t ⟨s.content ++ line txt e, s.written ++ [e], used⟩ ↔
      pieces = [] ∧ e.transitionId ≠ "" := by
  have herror : ∀ x, (∀ c ∈ x, Inline c) → s.content ++ line txt e
        = s.written.flatMap (line txt) ++ (x ++ ['\n']) →
      (∀ pending, readLine t pending (x ++ ['\n']) = .error .valueError) →
      ¬ReadsBack t ⟨s.content ++ line txt e, s.written ++ [e], used⟩ := by
    intro x hx hcontent hread hback
    have hfail : (incomplete t (s.written.flatMap (line txt) ++ (x ++ ['\n']))).1
        = .error .valueError := incomplete_error h.named hx hread
    rw [← hcontent] at hfail
    exact absurd (hfail.symm.trans hback) (fun heq => by cases heq)
  by_cases hpieces : pieces = []
  · have hcontent : s.content = s.written.flatMap (line txt) := by
      rw [h.content, hpieces, List.flatten_nil, List.append_nil]
    by_cases hname : e.transitionId = ""
    · refine iff_of_false (herror (objectText e.fields) (fun c => inline_fields) ?_ ?_)
        fun hboth => hboth.2 hname
      · rw [hcontent, line_eq]
      · intro pending
        have hline : line txt e = objectText e.fields ++ ['\n'] := line_eq e
        rw [← hline, readLine_line, if_pos hname]
    · refine iff_of_true (readsBack_of_holds (⟨?_, ?_, ?_⟩ : Holds txt _ []) hids)
        ⟨hpieces, hname⟩
      · show s.content ++ line txt e = (s.written ++ [e]).flatMap (line txt) ++ [].flatten
        rw [hcontent, List.flatMap_append, List.flatMap_singleton, List.flatten_nil,
          List.append_nil]
      · intro p hp
        cases hp
      · intro other hother
        rcases List.mem_append.mp hother with hother | hother
        · exact h.named other hother
        · rw [List.mem_singleton.mp hother]
          exact hname
  · refine iff_of_false (herror (pieces.flatten ++ objectText e.fields) ?_ ?_ ?_)
      fun hboth => hpieces hboth.1
    · intro c hc
      rcases List.mem_append.mp hc with hc | hc
      · exact inline_pieces h.pieces c hc
      · exact inline_fields hc
    · rw [h.content, line_eq, List.append_assoc, List.append_assoc]
    · intro pending
      have hjoined : readLine t pending (pieces.flatten ++ line txt e) = .error .valueError :=
        readLine_joined h.pieces hpieces pending e
      rw [line_eq, ← List.append_assoc] at hjoined
      exact hjoined

/-- **The steps that leave a readable journal.** -/
theorem readsBack_step_iff {a : Action} (hs : Numbered s) (h : Holds txt s pieces)
    (hstep : Step txt t s a s') : ReadsBack t s' ↔ EndsLine txt s a := by
  have hids := (hs.step hstep).distinct
  cases hstep with
  | incomplete =>
    refine iff_of_true ?_ trivial
    rw [incomplete_of_holds h hs.distinct]
    have hclean : Holds txt { s with content := s.written.flatMap (line txt) } [] := by
      refine ⟨?_, ?_, h.named⟩
      · rw [List.flatten_nil, List.append_nil]
      · intro p hp
        cases hp
    exact readsBack_of_holds hclean hs.distinct
  | @append e n hfresh =>
    by_cases hwhole : (line txt e).length ≤ n
    · simp only [if_pos hwhole, List.take_of_length_le hwhole] at hids ⊢
      rw [readsBack_completed_iff h _ hids, EndsLine, atLineStart_iff h]
      exact ⟨fun hboth _ => hboth, fun himp => himp hwhole⟩
    · obtain ⟨pieces', htorn⟩ := holds_torn h (Nat.lt_of_not_le hwhole) (e.transitionId :: s.used)
      simp only [if_neg hwhole]
      exact iff_of_true (readsBack_of_holds htorn hs.distinct) fun hlong => absurd hlong hwhole

/-- The steps of that kind keep the lines of the file whole. -/
theorem holds_step {a : Action} (hs : Numbered s) (h : Holds txt s pieces)
    (hstep : Step txt t s a s') (hends : EndsLine txt s a) : ∃ pieces', Holds txt s' pieces' := by
  cases hstep with
  | incomplete =>
    refine ⟨[], ?_, ?_, h.named⟩
    · show (incomplete t s.content).2 = _
      rw [incomplete_of_holds h hs.distinct, List.flatten_nil, List.append_nil]
    · intro p hp
      cases hp
  | @append e n hfresh =>
    by_cases hwhole : (line txt e).length ≤ n
    · obtain ⟨hstart, hname⟩ := hends hwhole
      have hpieces := (atLineStart_iff h).mp hstart
      simp only [if_pos hwhole, List.take_of_length_le hwhole]
      refine ⟨[], ?_, ?_, ?_⟩
      · show s.content ++ line txt e = (s.written ++ [e]).flatMap (line txt) ++ [].flatten
        rw [h.content, hpieces, List.flatMap_append, List.flatMap_singleton, List.flatten_nil,
          List.append_nil, List.append_nil]
      · intro p hp
        cases hp
      · intro other hother
        rcases List.mem_append.mp hother with hother | hother
        · exact h.named other hother
        · rw [List.mem_singleton.mp hother]
          exact hname
    · simp only [if_neg hwhole]
      exact holds_torn h (Nat.lt_of_not_le hwhole) _

/-! ## Whole runs -/

/-- **When the journal can be read back.** Along a run of appends, each of which may stop anywhere
in its line, and of calls of `incomplete`, a call of `incomplete` would return the open transitions
in the order they began after every step exactly when no line is completed behind a piece of
another, and every completed line names its transition. -/
theorem readsBack_iff (txt : PyText) (t : Tables) {ms : List (Move State Action)}
    (hrun : Run (Step txt t) initial ms s) :
    (∀ m ∈ ms, ReadsBack t m.post) ↔ ∀ m ∈ ms, EndsLine txt m.pre m.act := by
  refine hrun.forall_moves_iff Numbered (fun s => ∃ pieces, Holds txt s pieces) (EndsLine txt)
    (fun m => ReadsBack t m.post) (fun _ _ _ hs hstep => hs.step hstep) ?_ ?_ ?_ ?_
  · rintro s a s' hs ⟨pieces, h⟩ hstep
    exact readsBack_step_iff hs h hstep
  · rintro s a s' hs ⟨pieces, h⟩ hstep hends
    exact holds_step hs h hstep hends
  · exact ⟨fun e he => (by cases he), List.Pairwise.nil⟩
  · refine ⟨[], rfl, fun p hp => ?_, fun e he => ?_⟩
    · cases hp
    · cases he

/-- Tables for texts without numbers and lone surrogates. -/
def plainTables : Tables where
  float _ := .nan
  loneSurrogate _ := '?'

def firstEntry : Entry := .begin "txn_1" "approval_request" "task_a" "apr_a" "t"

def secondEntry : Entry := .begin "txn_2" "approval_request" "task_b" "apr_b" "t"

/-- The disk is full for the first transition, and not for the second one. -/
def afterFull : State where
  content := (line .ascii firstEntry).take 10
  written := []
  used := ["txn_1"]

def afterSecond : State where
  content := (line .ascii firstEntry).take 10 ++ line .ascii secondEntry
  written := [secondEntry]
  used := ["txn_2", "txn_1"]

def fullDiskMoves : List (Move State Action) :=
  [⟨initial, .append firstEntry 10, afterFull⟩, ⟨afterFull, .append secondEntry 400, afterSecond⟩]

theorem fullDisk_run : Run (Step .ascii plainTables) initial fullDiskMoves afterSecond := by
  have hlength : (line .ascii secondEntry).length ≤ 400 := by decide +kernel
  have hfirst : Step .ascii plainTables initial (.append firstEntry 10) afterFull := by
    have hshort : ¬(line .ascii firstEntry).length ≤ 10 := by decide +kernel
    have hfresh : firstEntry.Fresh initial.used := ⟨⟨"1", rfl⟩, by decide⟩
    have hstep : Step .ascii plainTables initial (.append firstEntry 10) _ := .append 10 hfresh
    rw [if_neg hshort] at hstep
    exact hstep
  have hsecond : Step .ascii plainTables afterFull (.append secondEntry 400) afterSecond := by
    have hfresh : secondEntry.Fresh afterFull.used := ⟨⟨"2", rfl⟩, by decide⟩
    have hstep : Step .ascii plainTables afterFull (.append secondEntry 400) _ := .append 400 hfresh
    rw [if_pos hlength, List.take_of_length_le hlength] at hstep
    exact hstep
  exact (Run.single hfirst).snoc hsecond

theorem fullDisk_ends : ¬∀ m ∈ fullDiskMoves, EndsLine .ascii m.pre m.act := by
  intro hall
  have hlength : (line .ascii secondEntry).length ≤ 400 := by decide +kernel
  have hends := hall _ (List.mem_cons_of_mem _ List.mem_cons_self) hlength
  have hstart : ¬(afterFull.content = [] ∨ afterFull.content.getLast? = some '\n') := by
    decide +kernel
  exact hstart hends.1

/-- The second transition is behind the piece of the first one. -/
theorem fullDisk_readsBack : ¬∀ m ∈ fullDiskMoves, ReadsBack plainTables m.post :=
  fun hall => fullDisk_ends ((readsBack_iff .ascii plainTables fullDisk_run).mp hall)

/-- **A failed append makes the journal unreadable.** -/
theorem not_readsBack : ¬∀ (txt : PyText) (t : Tables) (ms : List (Move State Action)) (s : State),
    Run (Step txt t) initial ms s → ∀ m ∈ ms, ReadsBack t m.post := by
  intro hclaim
  have hback := hclaim _ _ _ _ fullDisk_run _ (List.mem_cons_of_mem _ List.mem_cons_self)
  have hraised : (incomplete plainTables afterSecond.content).1.isOk = false := by decide +kernel
  rw [hback] at hraised
  exact absurd hraised (by decide)

end RecoveryJournal

end ThreadForge

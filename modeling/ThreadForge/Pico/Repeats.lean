import ThreadForge.Lib.PyString
import Mathlib.Data.List.Sort

/-!
# Which calls repeat an earlier one

The loop keeps a window of the last calls. `_tool_call_repeats` asks whether a call repeats one of
them: calls of `read_file` are compared by the overlap of their line ranges, the others by their
arguments.

## Where it raises

A range can be open at either end, and then it holds `None`. Sorting such ranges beside bounded ones
compares `None` with a number; `coverage` is the one place that sorts. `toolCallRepeats_ok` and
`readRepeats_ok` say that this, a name that cannot be hashed, and a line number that is an infinite
float are all that can go wrong.
-/

namespace ThreadForge

variable (txt : PyText)

/-! ## `sorted`

`list.sort` of fewer than 64 elements: the run at the start is found and made ascending, and the
rest is inserted into it by bisection. Which elements are compared decides whether it raises. -/

section Sorted

variable {α ε : Type} (lt : α → α → Except ε Bool)

/-- The ascending run that goes on after `last`, and the rest. -/
def ascendingRun (last : α) : List α → Except ε (List α × List α)
  | [] => .ok ([], [])
  | x :: xs => do
    if ← lt x last then pure ([], x :: xs)
    else
      let (run, rest) ← ascendingRun x xs
      pure (x :: run, rest)

/-- The strictly descending run that goes on after `last`, and the rest. -/
def descendingRun (last : α) : List α → Except ε (List α × List α)
  | [] => .ok ([], [])
  | x :: xs => do
    if ← lt x last then
      let (run, rest) ← descendingRun x xs
      pure (x :: run, rest)
    else pure ([], x :: xs)

/-- The place of `pivot` among the sorted elements, between `lo` and `hi`. -/
def bisect (pivot : α) (sorted : List α) : Nat → Nat → Nat → Except ε Nat
  | 0, lo, _ => .ok lo
  | fuel + 1, lo, hi =>
    if lo < hi then
      match sorted[(lo + hi) / 2]? with
      | none => .ok lo
      | some x => do
        if ← lt pivot x then bisect pivot sorted fuel lo ((lo + hi) / 2)
        else bisect pivot sorted fuel ((lo + hi) / 2 + 1) hi
    else .ok lo

/-- Insert the elements one by one. -/
def binaryInsert : List α → List α → Except ε (List α)
  | sorted, [] => .ok sorted
  | sorted, pivot :: rest => do
    let place ← bisect lt pivot sorted sorted.length 0 sorted.length
    binaryInsert (sorted.insertIdx place pivot) rest

/-- `sorted(xs)`. -/
def pySorted : List α → Except ε (List α)
  | first :: second :: rest => do
    if ← lt second first then
      let (run, rest) ← descendingRun lt second rest
      binaryInsert lt (first :: second :: run).reverse rest
    else
      let (run, rest) ← ascendingRun lt second rest
      binaryInsert lt (first :: second :: run) rest
  | xs => .ok xs

end Sorted

/-! ## Line ranges -/

/-- The line range of a `read_file` call; an open end is `none`. -/
abbrev Interval := Option Int × Option Int

/-- `int(value) if value is not None else None`. -/
def intOrNone (value : PyValue) : Except PyError (Option Int) :=
  match value with
  | .none => .ok none
  | value => (value.toInt txt).map some

/-- `_normalize_read_interval`. An `OverflowError` is not caught. -/
def normalizeReadInterval (start stop : PyValue) : Except PyError Interval :=
  match intOrNone txt start with
  | .error .overflowError => .error .overflowError
  | .error _ => .ok (none, none)
  | .ok s =>
    match intOrNone txt stop with
    | .error .overflowError => .error .overflowError
    | .error _ => .ok (none, none)
    | .ok e => .ok (s, e)

/-- The range in the arguments of a call. -/
def readInterval (args : PyDict) : Except PyError Interval :=
  normalizeReadInterval txt (args.getD "start" .none) (args.getD "end" .none)

/-- `_interval_overlap_ratio(a, b) >= READ_OVERLAP_RATIO`. The quotient is rounded to a float and
compared with the float nearest 0.6; it is that much when it lies above the middle between this
float and the one before it. -/
def overlapsEnough (a b : Interval) : Bool :=
  let aStart := a.1.getD (b.1.getD 1)
  let aEnd := a.2.getD (b.2.getD aStart)
  let bStart := b.1.getD aStart
  let bEnd := b.2.getD aEnd
  if aEnd ≤ aStart then
    if bEnd ≤ bStart then aStart = bStart && aEnd = bEnd
    else bStart ≤ aStart && aStart ≤ bEnd
  else if aEnd < bStart ∨ bEnd < aStart then false
  else
    let overlap := min aEnd bEnd - max aStart bStart
    if overlap ≤ 0 then false
    else decide (overlap * 2 ^ 54 > 10808639105689189 * max 1 (aEnd - aStart))

/-- `<` of two ends of ranges. -/
def endLt : Option Int → Option Int → Except PyError Bool
  | some x, some y => .ok (x < y)
  | _, _ => .error .typeError

/-- `<` of two ranges, as tuples. -/
def intervalLt (a b : Interval) : Except PyError Bool :=
  if a.1 ≠ b.1 then endLt a.1 b.1
  else if a.2 ≠ b.2 then endLt a.2 b.2
  else .ok false

/-- The two ends of a bounded range. -/
def bounded? : Interval → Option (Int × Int)
  | (some s, some e) => some (s, e)
  | _ => none

/-- The ranges joined where they overlap or touch, with the last one open for joining. -/
def joinIntervals : Int × Int → List (Int × Int) → List (Int × Int)
  | last, [] => [last]
  | last, next :: rest =>
    if next.1 ≤ last.2 + 1 then joinIntervals (last.1, max last.2 next.2) rest
    else last :: joinIntervals next rest

/-- `_merge_read_intervals`. -/
def mergeReadIntervals (intervals : List Interval) : List Interval :=
  let definite := intervals.filterMap bounded?
  match definite.insertionSort (fun a b => a.1 < b.1 ∨ (a.1 = b.1 ∧ a.2 ≤ b.2)) with
  | [] => intervals
  | first :: rest =>
    (joinIntervals first rest).map (fun iv => (some iv.1, some iv.2)) ++
      intervals.filter fun iv => (bounded? iv).isNone

/-- The lines of `[cursor, stop]` that no range of the sorted list covers, beside `uncovered`. -/
def countUncovered (stop : Int) : List Interval → Int → Int → Int
  | [], cursor, uncovered => if cursor ≤ stop then uncovered + (stop - cursor + 1) else uncovered
  | (some s, some e) :: rest, cursor, uncovered =>
    if e < cursor then countUncovered stop rest cursor uncovered
    else if stop < s then
      if cursor ≤ stop then uncovered + (stop - cursor + 1) else uncovered
    else
      let uncovered := if cursor < s then uncovered + (s - cursor) else uncovered
      let cursor := max cursor (e + 1)
      if stop < cursor then uncovered
      else countUncovered stop rest cursor uncovered
  | _ :: rest, cursor, uncovered => countUncovered stop rest cursor uncovered

/-- `_uncovered_read_lines`. -/
def uncoveredReadLines (interval : Interval) (merged : List Interval) : Except PyError Int :=
  match bounded? interval with
  | none => .ok 0
  | some (start, stop) => do
    let ordered ← pySorted intervalLt merged
    pure (countUncovered stop ordered start 0)

/-! ## Fingerprints -/

/-- `_READ_ONLY_TOOL_NAMES`. -/
def readOnlyToolNames : List String := ["list_files", "read_file", "search"]

/-- A value that a set can look up. -/
def hashable : PyValue → Bool
  | .list _ | .dict _ => false
  | _ => true

/-- `==` of two hashable values: numbers compare by value. -/
def scalarEq (a b : PyValue) : Bool :=
  match number? a, number? b with
  | some x, some y => x == y
  | none, none => a == b && a != .float .nan
  | _, _ => false
where
  /-- A finite number, as a fraction. -/
  number? : PyValue → Option Rat
    | .int n => some n
    | .bool b => some (if b then 1 else 0)
    | .float (.finite m e) => some (m * (2 : Rat) ^ e)
    | _ => none

/-- `_tool_fingerprint`. The arguments of the other tools are compared as sorted JSON. -/
inductive Fingerprint
  | readFile (path : String) (interval : Interval)
  | runShell (command : String)
  | search (path pattern : String)
  | other (name : PyValue) (args : String)
  deriving DecidableEq, Repr

/-- The name in a fingerprint. -/
def Fingerprint.name : Fingerprint → PyValue
  | .readFile _ _ => .str "read_file"
  | .runShell _ => .str "run_shell"
  | .search _ _ => .str "search"
  | .other name _ => name

/-- The name is one of `_READ_ONLY_TOOL_NAMES`. -/
def Fingerprint.readOnly (fp : Fingerprint) : Bool :=
  readOnlyToolNames.any fun name => fp.name = .str name

/-- `_normalize_tool_args`, for a name that is a string. -/
def normalizeToolArgs (name : PyValue) (args : PyDict) : PyDict :=
  let normalized :=
    if readOnlyToolNames.any (fun tool => name = .str tool) ∧ (args.get? "path").isSome then
      let path := pyReplace (pyStrip txt (args.textOf txt "path")) "\\" "/"
      let bare := pyRstripChar path '/'
      args.set "path" (.str (if bare = "" then "." else bare))
    else args
  if name = .str "read_file" then
    normalized.filter fun entry => entry.1 ≠ "start" ∧ entry.1 ≠ "end"
  else normalized

/-- `str(d.get(key, "") or default)`. -/
def textOr (d : PyDict) (key default : String) : String :=
  (((d.getD key (.str "")).or (.str default))).text txt

/-- `_tool_fingerprint`. -/
def toolFingerprint (name : PyValue) (args : PyDict) : Except PyError Fingerprint :=
  if name = .str "read_file" then
    (readInterval txt args).map fun interval =>
      .readFile (textOr txt (normalizeToolArgs txt name args) "path" ".") interval
  else if name = .str "run_shell" then .ok (.runShell (pyStrip txt (textOr txt args "command" "")))
  else if name = .str "search" then
    .ok (.search (textOr txt (normalizeToolArgs txt name args) "path" ".")
      (pyStrip txt (textOr txt args "pattern" "")))
  else if hashable name then
    .ok (.other name ((PyValue.dict (normalizeToolArgs txt name args)).dumpsSorted txt))
  else .error .typeError

/-- `_tool_fingerprints_match`. -/
def fingerprintsMatch : Fingerprint → Fingerprint → Bool
  | .readFile path interval, .readFile path' interval' =>
    path == path' && overlapsEnough interval interval'
  | .other name args, .other name' args' => scalarEq name name' && args == args'
  | a, b => a == b

/-- One entry of the window: the fingerprint of a call, and of its result. -/
abbrev WindowEntry := Fingerprint × Option String

/-- `_result_fingerprint`, of the content of a successful result of a read-only tool. -/
def resultFingerprint (sha256 : String → String) (name : PyValue) (succeeded : Bool)
    (content : String) : Except PyError (Option String) :=
  if !readOnlyToolNames.any (fun tool => name = .str tool) || !succeeded ||
      pyStrip txt content = "" then .ok none
  else if txt.encodable content then .ok (some (pyClip (sha256 content) 16))
  else .error .unicodeEncodeError

/-! ## Repetition -/

/-- The ranges of a path in the window. -/
def readRanges (path : String) (entries : List WindowEntry) : List Interval :=
  entries.filterMap fun entry =>
    match entry.1 with
    | .readFile path' interval => if path' = path then some interval else none
    | _ => none

/-- How many lines of a range the window has not covered. -/
def coverage (entries : List WindowEntry) (path : String) (interval : Interval) :
    Except PyError Int :=
  uncoveredReadLines interval (mergeReadIntervals (readRanges path entries))

/-- A call in between may have changed the workspace. -/
def writtenSince (tail : List WindowEntry) : Bool := tail.any fun entry => !entry.1.readOnly

/-- A range of the same path that is not the same range. -/
def partialOverlap : Fingerprint → Fingerprint → Bool
  | .readFile _ interval, .readFile _ interval' => interval ≠ interval'
  | _, _ => false

/-- The result is known to differ from the earlier one. -/
def resultChanged (result previous : Option String) : Bool :=
  result.isSome && previous.isSome && result ≠ previous

/-- `_tool_call_repeats`, with what `coverage` says of the call. -/
def repeatsIn (fp : Fingerprint) (result : Option String) (covered : Except PyError Int) :
    List WindowEntry → Except PyError Bool
  | [] => .ok false
  | (previous, previousResult) :: tail =>
    if !fingerprintsMatch fp previous then repeatsIn fp result covered tail
    else if partialOverlap fp previous then do
      let uncovered ← covered
      if 0 < uncovered then repeatsIn fp result covered tail else pure true
    else if resultChanged result previousResult || writtenSince tail then
      repeatsIn fp result covered tail
    else pure true

/-- What `coverage` says of a call. -/
def coverageOf (entries : List WindowEntry) : Fingerprint → Except PyError Int
  | .readFile path interval => coverage entries path interval
  | _ => .ok 0

/-- `_tool_call_repeats`. -/
def toolCallRepeats (name : PyValue) (args : PyDict) (result : Option String)
    (entries : List WindowEntry) : Except PyError Bool := do
  let fp ← toolFingerprint txt name args
  repeatsIn fp result (coverageOf entries fp) entries

/-- The check before a `read_file` call, with what `coverage` says of it. -/
def readRepeatsIn (fp : Fingerprint) (covered : Except PyError Int) :
    List WindowEntry → Except PyError Bool
  | [] => .ok false
  | (previous, _) :: tail =>
    if !fingerprintsMatch fp previous || writtenSince tail then readRepeatsIn fp covered tail
    else if partialOverlap fp previous then do
      let uncovered ← covered
      if uncovered = 0 then pure true else readRepeatsIn fp covered tail
    else pure true

/-- The check of `_execute_tool_action` before a `read_file` call. -/
def readRepeats (args : PyDict) (entries : List WindowEntry) : Except PyError Bool := do
  let fp ← toolFingerprint txt (.str "read_file") args
  readRepeatsIn fp (coverageOf entries fp) entries

/-- The check of `_execute_tool_action` before any call. -/
def preRepeats (name : PyValue) (args : PyDict) (entries : List WindowEntry) :
    Except PyError Bool :=
  if name = .str "read_file" then readRepeats txt args entries
  else toolCallRepeats txt name args none entries

/-! ## When these raise -/

variable {txt}

/-- The line numbers of a call are not infinite floats. -/
def FiniteRange (txt : PyText) (args : PyDict) : Prop :=
  readInterval txt args ≠ .error .overflowError

/-- Sorting these ranges compares no `None` with a number. -/
def Sortable (intervals : List Interval) : Prop :=
  ∃ ordered, pySorted intervalLt intervals = .ok ordered

/-- Where the window is asked how much of the call it covers, its ranges can be sorted. -/
def SortableWindow (fp : Fingerprint) (entries : List WindowEntry) : Prop :=
  match fp with
  | .readFile path interval =>
    (bounded? interval).isSome →
      (∃ entry ∈ entries, fingerprintsMatch fp entry.1 = true ∧
        partialOverlap fp entry.1 = true) →
      Sortable (mergeReadIntervals (readRanges path entries))
  | _ => True

/-- What the check of a call against the window takes for granted. -/
structure CheckableCall (txt : PyText) (name : PyValue) (args : PyDict)
    (entries : List WindowEntry) : Prop where
  hashable : hashable name = true
  finite : name = .str "read_file" → FiniteRange txt args
  sortable : ∀ fp, toolFingerprint txt name args = .ok fp → SortableWindow fp entries

theorem readInterval_ok {args : PyDict} (h : FiniteRange txt args) :
    ∃ interval, readInterval txt args = .ok interval := by
  unfold FiniteRange readInterval normalizeReadInterval at *
  split at h
  · exact absurd rfl h
  · exact ⟨_, rfl⟩
  · split at h
    · exact absurd rfl h
    · exact ⟨_, rfl⟩
    · exact ⟨_, rfl⟩

theorem toolFingerprint_ok {name : PyValue} {args : PyDict} (hhash : hashable name = true)
    (hfinite : name = .str "read_file" → FiniteRange txt args) :
    ∃ fp, toolFingerprint txt name args = .ok fp := by
  unfold toolFingerprint
  by_cases hread : name = .str "read_file"
  · obtain ⟨interval, hinterval⟩ := readInterval_ok (hfinite hread)
    rw [if_pos hread, hinterval]
    exact ⟨_, rfl⟩
  rw [if_neg hread]
  split
  · exact ⟨_, rfl⟩
  split
  · exact ⟨_, rfl⟩
  exact ⟨_, rfl⟩

theorem coverageOf_ok {fp : Fingerprint} {entries : List WindowEntry}
    (h : SortableWindow fp entries) {entry : WindowEntry} (hmem : entry ∈ entries)
    (hmatch : fingerprintsMatch fp entry.1 = true) (hoverlap : partialOverlap fp entry.1 = true) :
    ∃ n, coverageOf entries fp = .ok n := by
  cases fp with
  | readFile path interval =>
    show ∃ n, uncoveredReadLines interval (mergeReadIntervals (readRanges path entries)) = .ok n
    unfold uncoveredReadLines
    rcases hbounded : bounded? interval with _ | ⟨start, stop⟩
    · exact ⟨0, rfl⟩
    · obtain ⟨ordered, hordered⟩ :=
        h (by rw [hbounded]; rfl) ⟨entry, hmem, hmatch, hoverlap⟩
      rw [hordered]
      exact ⟨_, rfl⟩
  | _ => exact ⟨0, rfl⟩

theorem repeatsIn_ok {fp : Fingerprint} {result : Option String} {covered : Except PyError Int} :
    ∀ {entries : List WindowEntry},
      (∀ entry ∈ entries, fingerprintsMatch fp entry.1 = true →
        partialOverlap fp entry.1 = true → ∃ n, covered = .ok n) →
      ∃ b, repeatsIn fp result covered entries = .ok b
  | [], _ => ⟨false, rfl⟩
  | (previous, previousResult) :: tail, h => by
    have htail : ∃ b, repeatsIn fp result covered tail = .ok b :=
      repeatsIn_ok fun entry hmem => h entry (List.mem_cons_of_mem _ hmem)
    rw [repeatsIn]
    by_cases hmatch : fingerprintsMatch fp previous = true
    · simp only [hmatch, Bool.not_true, Bool.false_eq_true, if_false]
      by_cases hoverlap : partialOverlap fp previous = true
      · obtain ⟨n, rfl⟩ := h _ List.mem_cons_self hmatch hoverlap
        rw [if_pos hoverlap]
        show ∃ b, (if 0 < n then repeatsIn fp result (.ok n) tail else .ok true) = .ok b
        split
        · exact htail
        · exact ⟨true, rfl⟩
      · rw [if_neg hoverlap]
        split
        · exact htail
        · exact ⟨true, rfl⟩
    · simp only [hmatch, Bool.not_false, if_true]
      exact htail

theorem readRepeatsIn_ok {fp : Fingerprint} {covered : Except PyError Int} :
    ∀ {entries : List WindowEntry},
      (∀ entry ∈ entries, fingerprintsMatch fp entry.1 = true →
        partialOverlap fp entry.1 = true → ∃ n, covered = .ok n) →
      ∃ b, readRepeatsIn fp covered entries = .ok b
  | [], _ => ⟨false, rfl⟩
  | (previous, previousResult) :: tail, h => by
    have htail := readRepeatsIn_ok fun entry hmem => h entry (List.mem_cons_of_mem _ hmem)
    rw [readRepeatsIn]
    split
    · exact htail
    · next hmatch =>
      simp only [Bool.or_eq_true, Bool.not_eq_true', not_or, Bool.not_eq_false] at hmatch
      split
      · next hoverlap =>
        obtain ⟨n, rfl⟩ := h _ List.mem_cons_self hmatch.1 hoverlap
        show ∃ b, (if n = 0 then .ok true else readRepeatsIn fp (.ok n) tail) = .ok b
        split
        · exact ⟨true, rfl⟩
        · exact htail
      · exact ⟨true, rfl⟩

/-- The check of a call raises only where a name cannot be hashed, a line number is infinite, or the
ranges of the window cannot be sorted. -/
theorem toolCallRepeats_ok {name : PyValue} {args : PyDict} {entries : List WindowEntry}
    (h : CheckableCall txt name args entries) (result : Option String) :
    ∃ b, toolCallRepeats txt name args result entries = .ok b := by
  obtain ⟨fp, hfp⟩ := toolFingerprint_ok h.hashable h.finite
  have hwindow := h.sortable fp hfp
  unfold toolCallRepeats
  rw [hfp]
  exact repeatsIn_ok fun entry hmem hmatch hoverlap => coverageOf_ok hwindow hmem hmatch hoverlap

theorem preRepeats_ok {name : PyValue} {args : PyDict} {entries : List WindowEntry}
    (h : CheckableCall txt name args entries) : ∃ b, preRepeats txt name args entries = .ok b := by
  unfold preRepeats
  by_cases hread : name = .str "read_file"
  · rw [if_pos hread]
    subst hread
    obtain ⟨fp, hfp⟩ := toolFingerprint_ok h.hashable h.finite
    have hwindow := h.sortable fp hfp
    unfold readRepeats
    rw [hfp]
    exact readRepeatsIn_ok fun entry hmem hmatch hoverlap =>
      coverageOf_ok hwindow hmem hmatch hoverlap
  · rw [if_neg hread]
    exact toolCallRepeats_ok h none

theorem resultFingerprint_ok {sha256 : String → String} {name : PyValue} {succeeded : Bool}
    {content : String} (h : readOnlyToolNames.any (fun tool => name = .str tool) = true →
      succeeded = true → txt.encodable content = true) :
    ∃ fp, resultFingerprint txt sha256 name succeeded content = .ok fp := by
  unfold resultFingerprint
  split
  · exact ⟨none, rfl⟩
  · next hskip =>
    simp only [Bool.or_eq_true, Bool.not_eq_true', not_or, Bool.not_eq_false] at hskip
    rw [if_pos (h hskip.1.1 hskip.1.2)]
    exact ⟨_, rfl⟩

example : (pySorted intervalLt [(some 1, some 40), (none, none)]) = .error .typeError ∧
    (pySorted intervalLt [(some 3, some 9), (some 1, some 2), (some 2, none)]) =
      .ok [(some 1, some 2), (some 2, none), (some 3, some 9)] := by
  decide

end ThreadForge

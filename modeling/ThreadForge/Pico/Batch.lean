import ThreadForge.Pico.Repeats
import ThreadForge.Pico.Tools

/-!
# What becomes of a declared batch

`agent_loop.py`: a batch of calls is cut to eight, equal calls are dropped, the reads of one file are
merged and cut into pieces, and the calls that are left are divided into a group that runs at the
same time and a group that runs in order after it.
-/

namespace ThreadForge

variable (txt : PyText)

/-- One call of a batch. -/
structure BatchCall where
  name : PyValue
  args : PyDict
  deriving DecidableEq, Repr

/-- `str(item.get("name", ""))`. -/
def BatchCall.nameText (call : BatchCall) : String := call.name.text txt

/-- `MAX_PARALLEL_TOOLS`. -/
def maxParallelTools : Nat := 8

/-! ## Equal calls -/

/-- What two equal calls of a batch share. -/
def batchKey (call : BatchCall) : String × String :=
  (call.nameText txt,
    (PyValue.dict (normalizeToolArgs txt (.str (call.nameText txt)) call.args)).dumpsSorted txt)

/-- The calls of a batch, the first one of each key. -/
def dedupBatch : List BatchCall → List (String × String) → List BatchCall
  | [], _ => []
  | call :: rest, seen =>
    if batchKey txt call ∈ seen then dedupBatch rest seen
    else call :: dedupBatch rest (batchKey txt call :: seen)

/-! ## Reads -/

/-- `MAX_READ_CHUNK_LINES`. -/
def maxReadChunkLines : Int := 200

/-- The pieces of the lines from `cursor` to `stop`, at most `fuel` of them. -/
def chunksFrom (stop : Int) : Nat → Int → List (Int × Int)
  | 0, _ => []
  | fuel + 1, cursor =>
    if cursor ≤ stop then
      let chunkEnd := min stop (cursor + maxReadChunkLines - 1)
      (cursor, chunkEnd) :: chunksFrom stop fuel (chunkEnd + 1)
    else []

/-- `_chunk_read_intervals` of one bounded range. -/
def chunkReadInterval (start stop : Int) : List (Int × Int) :=
  if stop - start + 1 ≤ maxReadChunkLines then [(start, stop)]
  else chunksFrom stop (stop - start + 1).toNat start

/-- The path that reads of one file share. -/
def readGroupPath (args : PyDict) : String :=
  pyReplace (pyStrip txt (textOr txt args "path" ".")) "\\" "/"

/-- The paths of a list, each once. -/
def distinctPaths : List String → List String → List String
  | [], _ => []
  | path :: rest, seen =>
    if path ∈ seen then distinctPaths rest seen else path :: distinctPaths rest (path :: seen)

/-- The call that reads one merged range: the whole file where the range is open. -/
def readCalls (path : String) (interval : Interval) : List BatchCall :=
  match bounded? interval with
  | none => [⟨.str "read_file", [("path", .str path)]⟩]
  | some (start, stop) =>
    (chunkReadInterval start stop).map fun chunk =>
      ⟨.str "read_file", [("path", .str path), ("start", .int chunk.1), ("end", .int chunk.2)]⟩

/-- The calls that stand for the reads of one file. -/
def mergedReads (path : String) (group : List BatchCall) : Except PyError (List BatchCall) := do
  let intervals ← group.mapM fun call => readInterval txt call.args
  pure ((mergeReadIntervals intervals).flatMap (readCalls path))

/-- The call is named `read_file`. -/
def isRead (call : BatchCall) : Bool := call.nameText txt = "read_file"

/-- `_normalize_batch_reads`: the other calls, and then the reads, file by file. -/
def normalizeBatchReads (calls : List BatchCall) : Except PyError (List BatchCall) := do
  let reads := calls.filter (isRead txt)
  let paths := distinctPaths (reads.map fun call => readGroupPath txt call.args) []
  let merged ← paths.mapM fun path =>
    mergedReads txt path (reads.filter fun call => readGroupPath txt call.args = path)
  pure (calls.filter (fun call => !isRead txt call) ++ merged.flatten)

/-! ## The two groups -/

/-- `_extract_tool_path`. -/
def extractToolPath (args : PyDict) : Option String :=
  match args.get? "path" with
  | some (.str path) =>
    let stripped := pyStrip txt path
    if stripped = "" then none else some (pyReplace stripped "\\" "/")
  | _ => none

/-- What `_partition_batch_tools` knows of the calls before. -/
structure BatchTrail where
  dirty : List String := []
  touched : List String := []
  sawWrite : Bool := false
  sawShell : Bool := false

/-- The call runs with the others at the same time. -/
def runsConcurrently (trail : BatchTrail) (call : BatchCall) : Bool :=
  let name := call.nameText txt
  let path := extractToolPath txt call.args
  if name ∈ ["list_files", "search"] then !trail.sawWrite && !trail.sawShell
  else if name = "read_file" then
    !trail.sawShell && path.all fun path => path ∉ trail.dirty
  else if name = "run_shell" then false
  else !trail.sawShell && path.any fun path => path ∉ trail.touched && "*" ∉ trail.touched

/-- What is known after a call. -/
def BatchTrail.after (trail : BatchTrail) (call : BatchCall) : BatchTrail :=
  let name := call.nameText txt
  let path := extractToolPath txt call.args
  if name ∈ ["list_files", "search"] then
    if runsConcurrently txt trail call then { trail with touched := "*" :: trail.touched } else trail
  else if name = "read_file" then
    if runsConcurrently txt trail call then { trail with touched := path.toList ++ trail.touched }
    else trail
  else
    let changed := if name = "run_shell" then "*" else path.getD "*"
    { dirty := changed :: trail.dirty
      touched := changed :: trail.touched
      sawWrite := true
      sawShell := trail.sawShell || name = "run_shell" }

/-- `_partition_batch_tools`: the calls with their index, in the two groups. -/
def partitionBatchFrom : Nat → BatchTrail → List BatchCall →
    List (Nat × BatchCall) × List (Nat × BatchCall)
  | _, _, [] => ([], [])
  | index, trail, call :: rest =>
    let groups := partitionBatchFrom (index + 1) (trail.after txt call) rest
    if runsConcurrently txt trail call then ((index, call) :: groups.1, groups.2)
    else (groups.1, (index, call) :: groups.2)

/-- `_partition_batch_tools`. -/
def partitionBatch (calls : List BatchCall) : List (Nat × BatchCall) × List (Nat × BatchCall) :=
  partitionBatchFrom txt 0 {} calls

/-! ## When it raises -/

variable {txt}

theorem mapM_ok {α β ε : Type} {f : α → Except ε β} :
    ∀ {xs : List α}, (∀ x ∈ xs, ∃ y, f x = .ok y) → ∃ ys, xs.mapM f = .ok ys
  | [], _ => ⟨[], rfl⟩
  | x :: xs, h => by
    obtain ⟨y, hy⟩ := h x List.mem_cons_self
    obtain ⟨ys, hys⟩ := mapM_ok fun x' hx' => h x' (List.mem_cons_of_mem _ hx')
    refine ⟨y :: ys, ?_⟩
    rw [List.mapM_cons, hy, hys]
    rfl

/-- Normalising a batch raises only where a line number is infinite. -/
theorem normalizeBatchReads_ok {calls : List BatchCall}
    (h : ∀ call ∈ calls, isRead txt call = true → FiniteRange txt call.args) :
    ∃ normalized, normalizeBatchReads txt calls = .ok normalized := by
  have hgroup : ∀ path, ∃ merged, mergedReads txt path
      ((calls.filter (isRead txt)).filter fun call => readGroupPath txt call.args = path) =
        .ok merged := by
    intro path
    obtain ⟨intervals, hintervals⟩ : ∃ intervals,
        (((calls.filter (isRead txt)).filter fun call => readGroupPath txt call.args = path).mapM
          fun call => readInterval txt call.args) = .ok intervals :=
      mapM_ok fun call hcall => by
        obtain ⟨hmem, hread⟩ := List.mem_filter.mp (List.mem_filter.mp hcall).1
        exact readInterval_ok (h call hmem hread)
    unfold mergedReads
    rw [hintervals]
    exact ⟨_, rfl⟩
  unfold normalizeBatchReads
  dsimp only
  obtain ⟨merged, hmerged⟩ := mapM_ok fun path (_ : path ∈
    distinctPaths ((calls.filter (isRead txt)).map fun call => readGroupPath txt call.args) []) =>
      hgroup path
  rw [hmerged]
  exact ⟨_, rfl⟩

end ThreadForge

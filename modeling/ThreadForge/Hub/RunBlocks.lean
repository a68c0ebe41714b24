import ThreadForge.Hub.ThinkingReplay

/-!
# What a replayed run shows

`_attach_run_detail` goes once over the audit list of a task, with a block of the turn that is still
open, a table of the tool calls by their ids, and the entries of the review. Here is what a reader
of the history may expect of the result, entry by entry, and when it is so.

## Main results

* `RunReplay.tracks_replay` — the variables of the loop after any part of the list.
* `replaysRun_iff` — when a run is replayed faithfully.
* `not_replaysRun` — the reason of a skipped review is read from another entry.
-/

namespace ThreadForge

variable (txt : PyText)

/-! ## The entries of an audit list -/

/-- What an entry is to the replay. -/
inductive RunEntry
  | started
  | commentary (text : String)
  | thinking (stage text : String)
  | requested
  | ended (failed : Bool)
  | review (entry : PyDict)
  | skipped
  | other

def runEntry (item : PyDict) : RunEntry :=
  let eventType := item.textOf txt "type"
  if eventType = "model.started" then .started
  else if eventType = "assistant.commentary" then
    let text := pyStrip txt (item.textOf txt "text")
    if text = "" then .other else .commentary text
  else if eventType = "assistant.thinking" then
    let text := pyStrip txt (item.textOf txt "text")
    if text = "" then .other
    else .thinking ((PyValue.or (item.getD "stage" (.str "")) (.str "execute")).text txt) text
  else if eventType = "tool.requested" then .requested
  else if eventType = "tool.completed" then .ended false
  else if eventType = "tool.failed" then .ended true
  else if eventType = "review.started" then
    .review [("side", .str "review"), ("action", .str (item.textOf txt "trigger"))]
  else if eventType = "review.completed" then
    .review [("side", .str "review"),
      ("verdict", PyValue.or (.str (item.textOf txt "verdict")) .none),
      ("feedback", item.getD "feedback" .none), ("reason", item.getD "reason" .none),
      ("obstacles", PyValue.or (item.getD "obstacles" .none) .none)]
  else if eventType = "main_loop_rebuttal" then
    .review [("side", .str "main_loop"),
      ("against_verdict", item.getD "against_verdict" .none),
      ("action", item.getD "action" .none), ("feedback", item.getD "feedback" .none)]
  else if eventType = "review.skipped" then .skipped
  else .other

def isStarted (item : PyDict) : Bool :=
  match runEntry txt item with
  | .started => true
  | _ => false

def isRequest (item : PyDict) : Bool :=
  match runEntry txt item with
  | .requested => true
  | _ => false

def isSkipped (item : PyDict) : Bool :=
  match runEntry txt item with
  | .skipped => true
  | _ => false

/-- The entry of the review an entry of the list stands for. -/
def listedEntry (item : PyDict) : Option PyDict :=
  match runEntry txt item with
  | .review entry => some entry
  | _ => none

/-- The rounds of the model that have begun. -/
def roundsOf (run : List PyDict) : Nat := run.countP (isStarted txt)

/-! ## What the blocks show, in order -/

inductive BlockMark
  /-- A call, by its place, in a block of a turn. -/
  | call (place : Nat) (turn : Option Nat)
  | commentary (text : String) (turn : Option Nat)
  deriving DecidableEq, Repr

def blockMarks : ReplayBlock → List BlockMark
  | .behavior block => block.toolCalls.map fun place => .call place block.turn
  | .commentary text turn => [.commentary text turn]
  | .review .. => []

def reviewsOf : ReplayBlock → List PyDict
  | .review entries _ => entries
  | .behavior _ | .commentary .. => []

/-- What an entry is to show, after the entries before it. -/
def entryMarks (before : List PyDict) (item : PyDict) : List BlockMark :=
  match runEntry txt item with
  | .requested =>
    [.call (before.countP (isRequest txt)) (RunReplay.turnOf (roundsOf txt before))]
  | .commentary text => [.commentary text (RunReplay.turnOf (roundsOf txt before))]
  | _ => []

/-- What the rest of a list is to show. -/
def marksAfter (before : List PyDict) : List PyDict → List BlockMark
  | [] => []
  | item :: rest => entryMarks txt before item ++ marksAfter (before ++ [item]) rest

/-! ## The ends of the calls -/

/-- What an entry about the end of a call says. -/
structure CallEnd where
  status : String
  result : Option String
  deriving DecidableEq, Repr

/-- The result as it is shown. -/
def shownResult (item : PyDict) : Option String :=
  match item.getD "result_preview" .none with
  | .str result =>
    if result = "" then none
    else some (result ++
      if (item.getD "result_truncated" .none).truthy = true then "\n\n[预览已截断]" else "")
  | _ => none

def endStatus (failed : Bool) : String := if failed = true then "error" else "completed"

/-- The end of the call with the id. -/
def callEnd (id : String) (item : PyDict) : Option CallEnd :=
  match runEntry txt item with
  | .ended failed =>
    if item.textOf txt "tool_call_id" = id then some ⟨endStatus failed, shownResult item⟩
    else none
  | _ => none

/-- The entries up to the next request with the id. -/
def window (id : String) (after : List PyDict) : List PyDict :=
  after.takeWhile fun item => !(isRequest txt item && item.textOf txt "tool_call_id" == id)

/-- The ends of a call, up to the next request with its id. -/
def windowEnds (id : String) (after : List PyDict) : List CallEnd :=
  (window txt id after).filterMap (callEnd txt id)

/-- A call with the ends it has seen. -/
def closedCall (request : PyDict) (ends : List CallEnd) : ReplayCall where
  id := request.textOf txt "tool_call_id"
  toolName := request.textOf txt "tool_name"
  args := request.getD "args_preview" .none
  status := (ends.getLast?.map CallEnd.status).getD "completed"
  result := (ends.filterMap CallEnd.result).getLast?

/-- The calls of a list, each with its ends. -/
def expectedCalls : List PyDict → List ReplayCall
  | [] => []
  | item :: rest =>
    if isRequest txt item = true then
      closedCall txt item (windowEnds txt (item.textOf txt "tool_call_id") rest) ::
        expectedCalls rest
    else expectedCalls rest

/-! ## A faithful replay -/

/-- The reason an entry records, with the default. -/
def recordedReason (item : PyDict) : String :=
  let reason := item.getD "reason" .none
  if reason.truthy = true then reason.text txt else "read_only_task"

/-- The one entry of a review that was skipped. -/
def skippedEntryOf (reason : String) : PyDict :=
  [("side", .str "review"), ("verdict", .str "skipped"),
   ("feedback", .str "只读任务,审查已跳过(重复动作/停滞窗口仍负责收敛)"),
   ("reason", .str reason)]

/-- What a message is to show of an audit list. -/
structure Faithful (run : List PyDict) (detail : RunDetail) : Prop where
  /-- The calls are the requests, in their order. -/
  requested : detail.toolCalls.map (fun call => (call.id, call.toolName, call.args)) =
    (run.filter (isRequest txt)).map fun item => (item.textOf txt "tool_call_id",
      item.textOf txt "tool_name", item.getD "args_preview" .none)
  /-- Each call stands once in a block of its turn, and each commentary is one block. -/
  placed : detail.blocks.flatMap blockMarks = marksAfter txt [] run
  /-- A call shows what the last entry about its end says. -/
  ended : ∀ before request after, run = before ++ request :: after →
    isRequest txt request = true →
    ∀ last, (run.filterMap (callEnd txt (request.textOf txt "tool_call_id"))).getLast? = some last →
      ∃ call, detail.toolCalls[before.countP (isRequest txt)]? = some call ∧
        call.status = last.status ∧ call.result = last.result
  /-- The entries of the review stand once, in their order. -/
  reviewed : run.filterMap (listedEntry txt) ≠ [] ∨ run.any (isSkipped txt) = false →
    detail.reviewEntries = run.filterMap (listedEntry txt)
  reviewBlock : detail.blocks.flatMap reviewsOf = detail.reviewEntries
  /-- A review that was skipped shows the reason of its own entry. -/
  skipped : run.filterMap (listedEntry txt) = [] → ∀ item ∈ run, isSkipped txt item = true →
    detail.reviewEntries = [skippedEntryOf (recordedReason txt item)]

/-- The run is replayed faithfully, at whatever message the task is attached to. -/
def ReplaysRun (isWord : Char → Bool) (run : List PyDict) : Prop :=
  ∀ messages tasks place task, (place, task) ∈ pairedTasks messages tasks → task.runIndex = run →
    ∃ message detail, (attachRunDetail txt isWord messages tasks)[place]? =
      some (message, some detail) ∧ Faithful txt run detail

/-- What is said last of a call is said between its request and the next one with its id. -/
def EndsInTime (run : List PyDict) : Prop :=
  ∀ before request after, run = before ++ request :: after → isRequest txt request = true →
    let id := request.textOf txt "tool_call_id"
    ∀ last, (run.filterMap (callEnd txt id)).getLast? = some last →
      ((windowEnds txt id after).getLast?.map CallEnd.status).getD "completed" = last.status ∧
        ((windowEnds txt id after).filterMap CallEnd.result).getLast? = last.result

/-- Where the review was only skipped, the last entry of all has the reason that was recorded. -/
def ReasonLast (run : List PyDict) : Prop :=
  run.filterMap (listedEntry txt) = [] → ∀ item ∈ run, isSkipped txt item = true →
    recordedReason txt item = recordedReason txt (run.getLast?.getD [])

/-! ## The calls, entry by entry -/

section Calls

variable {txt} {item request : PyDict} {run after : List PyDict} {id : String} {e : CallEnd}

/-- A call after one more end. -/
def ReplayCall.close (call : ReplayCall) (e : CallEnd) : ReplayCall :=
  { call with result := e.result.or call.result, status := e.status }

/-- The last place of an id. -/
def lastPlace (id : String) : List String → Option Nat
  | [] => none
  | first :: rest => ((lastPlace id rest).map (· + 1)).or (if first = id then some 0 else none)

theorem lastPlace_append_singleton (ids : List String) (added : String) :
    lastPlace id (ids ++ [added]) = if added = id then some ids.length else lastPlace id ids := by
  induction ids with
  | nil => rfl
  | cons first rest ih =>
    rw [List.cons_append, lastPlace, ih, lastPlace]
    by_cases hadded : added = id
    · rw [if_pos hadded, if_pos hadded]
      rfl
    · rw [if_neg hadded, if_neg hadded]

theorem lastPlace_eq_none {ids : List String} : lastPlace id ids = none ↔ id ∉ ids := by
  induction ids with
  | nil => exact ⟨fun _ => List.not_mem_nil, fun _ => rfl⟩
  | cons first rest ih =>
    rw [lastPlace, Option.or_eq_none_iff, Option.map_eq_none_iff, ih, List.mem_cons, not_or]
    by_cases hfirst : first = id
    · rw [if_pos hfirst]
      exact ⟨fun h => (by cases h.2), fun h => absurd hfirst.symm h.1⟩
    · rw [if_neg hfirst]
      exact ⟨fun h => ⟨Ne.symm hfirst, h.1⟩, fun h => ⟨h.2, rfl⟩⟩

theorem closedCall_append (ends : List CallEnd) :
    closedCall txt request (ends ++ [e]) = (closedCall txt request ends).close e := by
  unfold closedCall ReplayCall.close
  rw [List.getLast?_concat, List.filterMap_append, List.getLast?_append]
  cases hresult : e.result with
  | none => rw [List.filterMap_cons_none hresult]; rfl
  | some result => rw [List.filterMap_cons_some hresult]; rfl

theorem callEnd_of_request (h : isRequest txt item = true) : callEnd txt id item = none := by
  unfold isRequest at h
  unfold callEnd
  split at h
  · next hentry => rw [hentry]
  · cases h

theorem windowEnds_cons : windowEnds txt id (item :: after) =
    if isRequest txt item = true ∧ item.textOf txt "tool_call_id" = id then []
    else (callEnd txt id item).toList ++ windowEnds txt id after := by
  unfold windowEnds window
  by_cases hnext : isRequest txt item = true ∧ item.textOf txt "tool_call_id" = id
  · rw [if_pos hnext, List.takeWhile_cons_of_neg]
    · rfl
    · rw [hnext.1, hnext.2, beq_self_eq_true]
      decide
  · rw [if_neg hnext, List.takeWhile_cons_of_pos]
    · cases hend : callEnd txt id item with
      | none => rw [List.filterMap_cons_none hend]; rfl
      | some e => rw [List.filterMap_cons_some hend]; rfl
    · rw [Bool.not_eq_true', Bool.and_eq_false_imp]
      exact fun hrequest => beq_eq_false_iff_ne.mpr fun hid => hnext ⟨hrequest, hid⟩

/-- An entry that says nothing of a call does not count for it. -/
theorem windowEnds_append_none (h : callEnd txt id item = none) :
    windowEnds txt id (after ++ [item]) = windowEnds txt id after := by
  induction after with
  | nil =>
    rw [List.nil_append, windowEnds_cons, h]
    split <;> rfl
  | cons first rest ih => rw [List.cons_append, windowEnds_cons, windowEnds_cons, ih]

/-- An end counts for a call up to the next request with its id. -/
theorem windowEnds_append_some (h : callEnd txt id item = some e) :
    windowEnds txt id (after ++ [item]) =
      if id ∈ (after.filter (isRequest txt)).map fun request => request.textOf txt "tool_call_id"
      then windowEnds txt id after else windowEnds txt id after ++ [e] := by
  induction after with
  | nil =>
    have hrequest : ¬isRequest txt item = true := fun hrequest => by
      rw [callEnd_of_request hrequest] at h
      cases h
    rw [List.nil_append, windowEnds_cons, h, if_neg fun hnext => hrequest hnext.1]
    rfl
  | cons first rest ih =>
    rw [List.cons_append, windowEnds_cons, windowEnds_cons, ih]
    by_cases hnext : isRequest txt first = true ∧ first.textOf txt "tool_call_id" = id
    · rw [if_pos hnext, if_pos hnext, List.filter_cons_of_pos hnext.1, List.map_cons, hnext.2,
        if_pos List.mem_cons_self]
    · have hmem : id ∈ ((first :: rest).filter (isRequest txt)).map
          (fun request => request.textOf txt "tool_call_id") ↔
          id ∈ (rest.filter (isRequest txt)).map
            fun request => request.textOf txt "tool_call_id" := by
        by_cases hrequest : isRequest txt first = true
        · rw [List.filter_cons_of_pos hrequest, List.map_cons, List.mem_cons]
          exact or_iff_right fun hid => hnext ⟨hrequest, hid.symm⟩
        · rw [List.filter_cons_of_neg hrequest]
      rw [if_neg hnext, if_neg hnext]
      simp only [hmem]
      split
      · rfl
      · rw [List.append_assoc]

theorem map_id_expectedCalls (run : List PyDict) :
    (expectedCalls txt run).map ReplayCall.id =
      (run.filter (isRequest txt)).map fun request => request.textOf txt "tool_call_id" := by
  induction run with
  | nil => rfl
  | cons first rest ih =>
    rw [expectedCalls]
    by_cases hrequest : isRequest txt first = true
    · rw [if_pos hrequest, List.filter_cons_of_pos hrequest, List.map_cons, List.map_cons, ih]
      rfl
    · rw [if_neg hrequest, List.filter_cons_of_neg hrequest, ih]

theorem expectedCalls_cons : expectedCalls txt (item :: run) =
    if isRequest txt item = true then
      closedCall txt item (windowEnds txt (item.textOf txt "tool_call_id") run) ::
        expectedCalls txt run
    else expectedCalls txt run := rfl

/-- An entry about no call changes no call. -/
theorem expectedCalls_append_other (hrequest : isRequest txt item = false)
    (hend : ∀ id, callEnd txt id item = none) :
    expectedCalls txt (run ++ [item]) = expectedCalls txt run := by
  induction run with
  | nil =>
    rw [List.nil_append, expectedCalls_cons, hrequest]
    rfl
  | cons first rest ih =>
    rw [List.cons_append, expectedCalls, expectedCalls, ih, windowEnds_append_none (hend _)]

/-- A request is one more call. -/
theorem expectedCalls_append_request (hrequest : isRequest txt item = true) :
    expectedCalls txt (run ++ [item]) = expectedCalls txt run ++ [closedCall txt item []] := by
  induction run with
  | nil =>
    rw [List.nil_append, expectedCalls_cons, if_pos hrequest]
    rfl
  | cons first rest ih =>
    rw [List.cons_append, expectedCalls, expectedCalls, ih,
      windowEnds_append_none (callEnd_of_request hrequest)]
    split <;> rfl

/-- An end changes the last call with its id. -/
theorem expectedCalls_append_end (h : callEnd txt id item = some e)
    (hother : ∀ other, other ≠ id → callEnd txt other item = none) :
    expectedCalls txt (run ++ [item]) =
      match lastPlace id ((expectedCalls txt run).map ReplayCall.id) with
      | none => expectedCalls txt run
      | some place => (expectedCalls txt run).modify place fun call => call.close e := by
  have hrequest : ¬isRequest txt item = true := fun hrequest => by
    rw [callEnd_of_request hrequest] at h
    cases h
  induction run with
  | nil =>
    rw [List.nil_append, expectedCalls_cons, if_neg hrequest]
    rfl
  | cons first rest ih =>
    rw [List.cons_append, expectedCalls, expectedCalls, ih]
    by_cases hfirst : isRequest txt first = true
    swap
    · rw [if_neg hfirst, if_neg hfirst]
    rw [if_pos hfirst, if_pos hfirst, List.map_cons, lastPlace]
    by_cases hid : first.textOf txt "tool_call_id" = id
    · rw [hid, windowEnds_append_some h, ← map_id_expectedCalls]
      cases hlast : lastPlace id ((expectedCalls txt rest).map ReplayCall.id) with
      | none =>
        -- the call itself is the last one with the id
        rw [if_neg (lastPlace_eq_none.mp hlast), closedCall_append,
          if_pos (show (closedCall txt first _).id = id from hid)]
        rfl
      | some place =>
        have hmem : id ∈ (expectedCalls txt rest).map ReplayCall.id := by
          refine Decidable.not_not.mp fun hnot => ?_
          rw [lastPlace_eq_none.mpr hnot] at hlast
          cases hlast
        rw [if_pos hmem]
        rfl
    · rw [windowEnds_append_none (hother _ hid)]
      cases hlast : lastPlace id ((expectedCalls txt rest).map ReplayCall.id) with
      | none =>
        rw [if_neg (show ¬(closedCall txt first _).id = id from hid)]
        rfl
      | some place => rfl

/-- The call of a request. -/
theorem expectedCalls_get (hrequest : isRequest txt request = true) (before : List PyDict) :
    (expectedCalls txt (before ++ request :: after))[before.countP (isRequest txt)]? =
      some (closedCall txt request
        (windowEnds txt (request.textOf txt "tool_call_id") after)) := by
  induction before with
  | nil => rw [List.nil_append, expectedCalls, if_pos hrequest]; rfl
  | cons first rest ih =>
    rw [List.cons_append, expectedCalls]
    by_cases hfirst : isRequest txt first = true
    · rw [if_pos hfirst, List.countP_cons_of_pos hfirst, List.getElem?_cons_succ, ih]
    · rw [if_neg hfirst, List.countP_cons_of_neg hfirst, ih]

end Calls

/-! ## The entries about no call -/

/-- The rounds an entry begins. -/
def RunEntry.rounds : RunEntry → Nat
  | .started => 1
  | _ => 0

/-- What an entry about no call shows, in a turn. -/
def RunEntry.marks (turn : Option Nat) : RunEntry → List BlockMark
  | .commentary text => [.commentary text turn]
  | _ => []

def RunEntry.listed : RunEntry → List PyDict
  | .review entry => [entry]
  | _ => []

def RunEntry.skips : RunEntry → Bool
  | .skipped => true
  | _ => false

/-! ## The variables of the loop -/

namespace RunReplay

/-- What the blocks show so far, the pending one included. -/
def marks (r : RunReplay) : List BlockMark :=
  r.blocks.flatMap blockMarks ++ r.pendingBehavior.elim [] fun block => blockMarks (.behavior block)

/-- One entry of the audit list, by what it is. -/
def enter (r : RunReplay) (item : PyDict) : RunEntry → RunReplay
  | .started => r.startTurn
  | .commentary text => r.comment text
  | .thinking stage text => r.think stage text
  | .requested => r.request txt item
  | .ended failed => r.resolve txt item failed
  | .review entry => r.review (some entry)
  | .skipped => r.review none
  | .other => r

theorem step_eq (r : RunReplay) (item : PyDict) :
    r.step txt item = r.enter txt item (runEntry txt item) := by
  unfold runEntry
  dsimp only
  simp only [apply_ite (r.enter txt item)]
  rfl

/-- The variables of the loop after a part of the list. -/
structure Tracks (run : List PyDict) (r : RunReplay) : Prop where
  calls : r.toolCalls = expectedCalls txt run
  places : ∀ id, r.toolById.lookup id = lastPlace id (r.toolCalls.map ReplayCall.id)
  turn : r.currentTurn = roundsOf txt run
  pendingTurn : ∀ block, r.pendingBehavior = some block → block.turn = turnOf r.currentTurn
  marks : r.marks = marksAfter txt [] run
  listed : r.reviewEntries = run.filterMap (listedEntry txt)
  skipped : r.reviewSkipped = run.any (isSkipped txt)
  unreviewed : r.blocks.flatMap reviewsOf = []

variable {txt} {r r' : RunReplay} {run : List PyDict} {item : PyDict}

theorem marksAfter_append (before : List PyDict) :
    marksAfter txt before (run ++ [item]) =
      marksAfter txt before run ++ entryMarks txt (before ++ run) item := by
  induction run generalizing before with
  | nil =>
    rw [List.nil_append, List.append_nil]
    exact List.append_nil _
  | cons first rest ih =>
    rw [List.cons_append, marksAfter, ih, marksAfter, List.append_assoc, List.append_assoc,
      List.singleton_append]

/-- What is to be shown for one more entry. -/
theorem Tracks.append (h : Tracks txt run r)
    (hcalls : r'.toolCalls = expectedCalls txt (run ++ [item]))
    (hplaces : ∀ id, r'.toolById.lookup id = lastPlace id (r'.toolCalls.map ReplayCall.id))
    (hturn : r'.currentTurn = r.currentTurn + (isStarted txt item).toNat)
    (hpending : ∀ block, r'.pendingBehavior = some block → block.turn = turnOf r'.currentTurn)
    (hmarks : r'.marks = r.marks ++ entryMarks txt run item)
    (hlisted : r'.reviewEntries = r.reviewEntries ++ (listedEntry txt item).toList)
    (hskipped : r'.reviewSkipped = (r.reviewSkipped || isSkipped txt item))
    (hunreviewed : r'.blocks.flatMap reviewsOf = r.blocks.flatMap reviewsOf) :
    Tracks txt (run ++ [item]) r' where
  calls := hcalls
  places := hplaces
  turn := by
    rw [hturn, h.turn, roundsOf, roundsOf, List.countP_append, List.countP_singleton]
    cases isStarted txt item <;> rfl
  pendingTurn := hpending
  marks := by rw [hmarks, h.marks, marksAfter_append, List.nil_append]
  listed := by
    rw [hlisted, h.listed, List.filterMap_append]
    cases hentry : listedEntry txt item with
    | none => rw [List.filterMap_cons_none hentry]; rfl
    | some entry => rw [List.filterMap_cons_some hentry]; rfl
  skipped := by
    rw [hskipped, h.skipped, List.any_append, List.any_cons, List.any_nil, Bool.or_false]
  unreviewed := by rw [hunreviewed, h.unreviewed]

/-- An entry about no call leaves the calls. -/
theorem Tracks.append_other (h : Tracks txt run r) {entry : RunEntry}
    (hentry : runEntry txt item = entry) (hrequested : entry ≠ .requested)
    (hended : ∀ failed, entry ≠ .ended failed) (hcalls : r'.toolCalls = r.toolCalls)
    (hplaces : r'.toolById = r.toolById)
    (hturn : r'.currentTurn = r.currentTurn + entry.rounds)
    (hpending : ∀ block, r'.pendingBehavior = some block → block.turn = turnOf r'.currentTurn)
    (hmarks : r'.marks = r.marks ++ entry.marks (turnOf r.currentTurn))
    (hlisted : r'.reviewEntries = r.reviewEntries ++ entry.listed)
    (hskipped : r'.reviewSkipped = (r.reviewSkipped || entry.skips))
    (hunreviewed : r'.blocks.flatMap reviewsOf = r.blocks.flatMap reviewsOf) :
    Tracks txt (run ++ [item]) r' := by
  have hrequest : isRequest txt item = false := by
    rw [isRequest, hentry]
    cases entry <;> first | rfl | exact absurd rfl hrequested
  have hend : ∀ id, callEnd txt id item = none := by
    intro id
    rw [callEnd, hentry]
    cases entry <;> first | rfl | exact absurd rfl (hended _)
  refine h.append ?_ (fun id => ?_) ?_ hpending ?_ ?_ ?_ hunreviewed
  · rw [hcalls, h.calls, expectedCalls_append_other hrequest hend]
  · rw [hplaces, hcalls, h.places]
  · rw [hturn, isStarted, hentry]
    cases entry <;> rfl
  · rw [hmarks, entryMarks, hentry, h.turn]
    cases entry <;> first | rfl | exact absurd rfl hrequested
  · rw [hlisted, listedEntry, hentry]
    cases entry <;> rfl
  · rw [hskipped, isSkipped, hentry]
    cases entry <;> rfl

/-- Closing the pending block changes nothing that is shown. -/
theorem Tracks.flush (h : Tracks txt run r) : Tracks txt run r.flush := by
  unfold RunReplay.flush
  cases hpending : r.pendingBehavior with
  | none => exact h
  | some block =>
    refine { h with pendingTurn := fun block h => (by cases h), marks := ?_, unreviewed := ?_ }
    · rw [← h.marks, RunReplay.marks, RunReplay.marks, hpending, List.flatMap_append,
        List.flatMap_singleton]
      exact List.append_nil _
    · rw [List.flatMap_append, h.unreviewed]
      rfl

theorem startTurn_eq (r : RunReplay) :
    r.startTurn = { r.flush with currentTurn := r.flush.currentTurn + 1 } := by
  obtain ⟨_, _, _, _, _, _, _, _, _, _, pending⟩ := r
  cases pending <;> rfl

theorem comment_eq (r : RunReplay) (text : String) :
    r.comment text = { r.flush with
      commentaryParts := r.flush.commentaryParts ++ [text]
      blocks := r.flush.blocks ++ [.commentary text (turnOf r.flush.currentTurn)] } := by
  obtain ⟨_, _, _, _, _, _, _, _, _, _, pending⟩ := r
  cases pending <;> rfl

/-- The pending block, or the one that is opened, is of the turn. -/
theorem Tracks.behavior_turn (h : Tracks txt run r) : r.behavior.turn = turnOf r.currentTurn := by
  unfold behavior
  cases hpending : r.pendingBehavior with
  | none => rfl
  | some block => exact h.pendingTurn block hpending

theorem marks_behavior (r : RunReplay) :
    r.blocks.flatMap blockMarks ++ blockMarks (.behavior r.behavior) = r.marks := by
  unfold RunReplay.marks behavior
  cases r.pendingBehavior <;> rfl

theorem Tracks.startTurn (h : Tracks txt run r) (hentry : runEntry txt item = .started) :
    Tracks txt (run ++ [item]) r.startTurn := by
  have hnone := pending_flush r
  rw [startTurn_eq]
  refine h.flush.append_other hentry nofun nofun rfl rfl rfl (fun block hblock => ?_) ?_ ?_ ?_ rfl
  · rw [hnone] at hblock
    cases hblock
  · exact (List.append_nil _).symm
  · exact (List.append_nil _).symm
  · exact (Bool.or_false _).symm

theorem Tracks.comment (h : Tracks txt run r) {text : String}
    (hentry : runEntry txt item = .commentary text) :
    Tracks txt (run ++ [item]) (r.comment text) := by
  have hnone := pending_flush r
  rw [comment_eq]
  refine h.flush.append_other hentry nofun nofun rfl rfl rfl (fun block hblock => ?_) ?_ ?_ ?_ ?_
  · rw [hnone] at hblock
    cases hblock
  · rw [RunReplay.marks, RunReplay.marks, hnone, List.flatMap_append, List.flatMap_singleton]
    simp only [Option.elim_none, List.append_nil, blockMarks]
    rfl
  · exact (List.append_nil _).symm
  · exact (Bool.or_false _).symm
  · rw [List.flatMap_append]
    exact List.append_nil _

theorem Tracks.think (h : Tracks txt run r) {stage text : String}
    (hentry : runEntry txt item = .thinking stage text) :
    Tracks txt (run ++ [item]) (r.think stage text) := by
  unfold RunReplay.think
  split
  · refine h.append_other hentry nofun nofun rfl rfl rfl h.pendingTurn ?_ ?_ ?_ rfl
    · exact (List.append_nil _).symm
    · exact (List.append_nil _).symm
    · exact (Bool.or_false _).symm
  · refine h.append_other hentry nofun nofun rfl rfl rfl (fun block hblock => ?_) ?_ ?_ ?_ rfl
    · rw [← Option.some.inj hblock]
      exact h.behavior_turn
    · exact (marks_behavior r).trans (List.append_nil _).symm
    · exact (List.append_nil _).symm
    · exact (Bool.or_false _).symm

/-- An entry of the review, listed or skipped. -/
theorem Tracks.review (h : Tracks txt run r) (entry : Option PyDict)
    (hentry : runEntry txt item = entry.elim .skipped .review) :
    Tracks txt (run ++ [item]) (r.review entry) := by
  have hnone := pending_flush r
  unfold RunReplay.review
  cases entry with
  | none =>
    refine h.flush.append_other hentry nofun nofun rfl rfl rfl (fun block hblock => ?_) ?_
      rfl rfl rfl
    · rw [hnone] at hblock
      cases hblock
    · exact (List.append_nil _).symm
  | some listed =>
    refine h.flush.append_other hentry nofun nofun rfl rfl rfl (fun block hblock => ?_) ?_
      rfl rfl rfl
    · rw [hnone] at hblock
      cases hblock
    · exact (List.append_nil _).symm

theorem Tracks.other (h : Tracks txt run r) (hentry : runEntry txt item = .other) :
    Tracks txt (run ++ [item]) r :=
  h.append_other hentry nofun nofun rfl rfl rfl h.pendingTurn (List.append_nil _).symm
    (List.append_nil _).symm (Bool.or_false _).symm rfl

theorem Tracks.length_toolCalls (h : Tracks txt run r) :
    r.toolCalls.length = run.countP (isRequest txt) := by
  rw [h.calls, ← List.length_map ReplayCall.id, map_id_expectedCalls, List.length_map,
    ← List.countP_eq_length_filter]

/-- A request is the last place of its id. -/
theorem Tracks.request (h : Tracks txt run r) (hentry : runEntry txt item = .requested) :
    Tracks txt (run ++ [item]) (r.request txt item) := by
  have hrequest : isRequest txt item = true := by rw [isRequest, hentry]
  unfold RunReplay.request
  refine h.append ?_ (fun id => ?_) ?_ (fun block hblock => ?_) ?_ ?_ ?_ rfl
  · rw [expectedCalls_append_request hrequest, ← h.calls]
    rfl
  · rw [List.map_append, List.map_singleton, lastPlace_append_singleton, List.length_map,
      List.lookup_cons]
    by_cases hid : item.textOf txt "tool_call_id" = id
    · rw [if_pos hid, hid, beq_self_eq_true]
    · rw [if_neg hid, beq_eq_false_iff_ne.mpr (Ne.symm hid)]
      exact h.places id
  · rw [isStarted, hentry]
    rfl
  · rw [← Option.some.inj hblock]
    exact h.behavior_turn
  · -- the call is the last one of the pending block
    have hturn : r.behavior.turn = turnOf (roundsOf txt run) := by rw [h.behavior_turn, h.turn]
    rw [entryMarks, hentry, ← marks_behavior r, List.append_assoc, RunReplay.marks]
    simp only [Option.elim_some, blockMarks, List.map_append, List.map_singleton, hturn,
      h.length_toolCalls]
  · rw [listedEntry, hentry]
    exact (List.append_nil _).symm
  · rw [isSkipped, hentry, Bool.or_false]

/-- The end of a call, by the place of the call. -/
theorem resolve_eq (r : RunReplay) (item : PyDict) (failed : Bool) :
    r.resolve txt item failed =
      match r.toolById.lookup (item.textOf txt "tool_call_id") with
      | none => r
      | some place => { r with
        toolCalls := r.toolCalls.modify place fun call =>
          call.close ⟨endStatus failed, shownResult item⟩ } := rfl

theorem map_id_modify (calls : List ReplayCall) (place : Nat) (e : CallEnd) :
    (calls.modify place fun call => call.close e).map ReplayCall.id =
      calls.map ReplayCall.id := by
  induction calls generalizing place with
  | nil => rw [List.modify_nil]
  | cons call rest ih =>
    cases place with
    | zero => rfl
    | succ place => rw [List.modify_succ_cons, List.map_cons, List.map_cons, ih]

theorem Tracks.resolve (h : Tracks txt run r) {failed : Bool}
    (hentry : runEntry txt item = .ended failed) :
    Tracks txt (run ++ [item]) (r.resolve txt item failed) := by
  have hend : callEnd txt (item.textOf txt "tool_call_id") item =
      some ⟨endStatus failed, shownResult item⟩ := by
    rw [callEnd, hentry]
    exact if_pos rfl
  have hother : ∀ other, other ≠ item.textOf txt "tool_call_id" →
      callEnd txt other item = none := by
    intro other hne
    rw [callEnd, hentry]
    exact if_neg (Ne.symm hne)
  have hcalls : expectedCalls txt (run ++ [item]) = _ := expectedCalls_append_end hend hother
  rw [← h.calls, ← h.places] at hcalls
  have hstarted : isStarted txt item = false := by rw [isStarted, hentry]
  have hlisted : listedEntry txt item = none := by rw [listedEntry, hentry]
  have hskipped : isSkipped txt item = false := by rw [isSkipped, hentry]
  have hmarks : entryMarks txt run item = [] := by rw [entryMarks, hentry]
  rw [resolve_eq]
  cases hplace : r.toolById.lookup (item.textOf txt "tool_call_id") with
  | none =>
    rw [hplace] at hcalls
    refine h.append hcalls.symm h.places ?_ h.pendingTurn ?_ ?_ ?_ rfl
    · rw [hstarted]
      rfl
    · rw [hmarks, List.append_nil]
    · rw [hlisted]
      exact (List.append_nil _).symm
    · rw [hskipped, Bool.or_false]
  | some place =>
    rw [hplace] at hcalls
    refine h.append hcalls.symm (fun id => ?_) ?_ h.pendingTurn ?_ ?_ ?_ rfl
    · rw [map_id_modify]
      exact h.places id
    · rw [hstarted]
      rfl
    · rw [hmarks, List.append_nil]
      rfl
    · rw [hlisted]
      exact (List.append_nil _).symm
    · rw [hskipped, Bool.or_false]

/-- **One entry**, whatever it is. -/
theorem Tracks.step (h : Tracks txt run r) : Tracks txt (run ++ [item]) (r.step txt item) := by
  rw [step_eq]
  cases hentry : runEntry txt item with
  | started => exact h.startTurn hentry
  | commentary text => exact h.comment hentry
  | thinking stage text => exact h.think hentry
  | requested => exact h.request hentry
  | ended failed => exact h.resolve hentry
  | review entry => exact h.review (some entry) hentry
  | skipped => exact h.review none hentry
  | other => exact h.other hentry

variable (txt run) in
/-- **The variables after the whole list.** -/
theorem tracks_replay : Tracks txt run (replay txt run) := by
  have hfold : ∀ (rest before : List PyDict) (r : RunReplay), Tracks txt before r →
      Tracks txt (before ++ rest) (rest.foldl (RunReplay.step txt) r) := by
    intro rest
    induction rest with
    | nil =>
      intro before r h
      rw [List.append_nil]
      exact h
    | cons item rest ih =>
      intro before r h
      have hnext := ih (before ++ [item]) _ h.step
      rw [List.append_assoc, List.singleton_append] at hnext
      exact hnext
  have hstart : Tracks txt [] {} :=
    ⟨rfl, fun _ => rfl, rfl, fun _ h => (by cases h), rfl, rfl, rfl, rfl⟩
  exact hfold run [] {} hstart

end RunReplay

/-! ## What a message shows -/

section Detail

variable {txt} {task : TaskItem} {before after run : List PyDict} {request : PyDict}

/-- The calls are the requests. -/
theorem map_head_expectedCalls (run : List PyDict) :
    (expectedCalls txt run).map (fun call => (call.id, call.toolName, call.args)) =
      (run.filter (isRequest txt)).map fun item => (item.textOf txt "tool_call_id",
        item.textOf txt "tool_name", item.getD "args_preview" .none) := by
  induction run with
  | nil => rfl
  | cons first rest ih =>
    rw [expectedCalls]
    by_cases hrequest : isRequest txt first = true
    · rw [if_pos hrequest, List.filter_cons_of_pos hrequest, List.map_cons, List.map_cons, ih]
      rfl
    · rw [if_neg hrequest, List.filter_cons_of_neg hrequest, ih]

variable (isWord : Char → Bool)

theorem runDetail_toolCalls :
    (runDetail txt isWord task).toolCalls = expectedCalls txt task.runIndex :=
  (RunReplay.tracks_replay txt task.runIndex).flush.calls

theorem runDetail_reviewEntries : (runDetail txt isWord task).reviewEntries =
    if task.runIndex.any (isSkipped txt) = true ∧ task.runIndex.filterMap (listedEntry txt) = []
    then [skippedEntryOf (recordedReason txt (task.runIndex.getLast?.getD []))]
    else task.runIndex.filterMap (listedEntry txt) := by
  have htracks := (RunReplay.tracks_replay txt task.runIndex).flush
  unfold runDetail
  dsimp only
  rw [htracks.listed, htracks.skipped]
  rfl

theorem runDetail_marks : (runDetail txt isWord task).blocks.flatMap blockMarks =
    marksAfter txt [] task.runIndex := by
  have htracks := (RunReplay.tracks_replay txt task.runIndex).flush
  have hmarks : (RunReplay.replay txt task.runIndex).flush.blocks.flatMap blockMarks =
      marksAfter txt [] task.runIndex := by
    rw [← htracks.marks, RunReplay.marks, RunReplay.pending_flush]
    exact (List.append_nil _).symm
  unfold runDetail
  dsimp only
  generalize (if (RunReplay.replay txt task.runIndex).flush.reviewSkipped = true ∧
    (RunReplay.replay txt task.runIndex).flush.reviewEntries = [] then
    [RunReplay.skippedEntry txt task.runIndex]
    else (RunReplay.replay txt task.runIndex).flush.reviewEntries) = reviewEntries
  split
  · exact hmarks
  · rw [List.flatMap_append, hmarks, List.flatMap_singleton]
    exact List.append_nil _

theorem runDetail_reviewBlock : (runDetail txt isWord task).blocks.flatMap reviewsOf =
    (runDetail txt isWord task).reviewEntries := by
  have htracks := (RunReplay.tracks_replay txt task.runIndex).flush
  unfold runDetail
  dsimp only
  generalize (if (RunReplay.replay txt task.runIndex).flush.reviewSkipped = true ∧
    (RunReplay.replay txt task.runIndex).flush.reviewEntries = [] then
    [RunReplay.skippedEntry txt task.runIndex]
    else (RunReplay.replay txt task.runIndex).flush.reviewEntries) = reviewEntries
  split
  · next hnil => rw [hnil, htracks.unreviewed]
  · rw [List.flatMap_append, htracks.unreviewed, List.flatMap_singleton]
    rfl

/-- A message shows the list faithfully exactly when the two conditions hold of it. -/
theorem faithful_runDetail_iff (task : TaskItem) :
    Faithful txt task.runIndex (runDetail txt isWord task) ↔
      EndsInTime txt task.runIndex ∧ ReasonLast txt task.runIndex := by
  constructor
  · intro h
    refine ⟨fun before request after hsplit hrequest last hlast => ?_,
      fun hnone item hin hskipped => ?_⟩
    · obtain ⟨call, hcall, hstatus, hresult⟩ :=
        h.ended before request after hsplit hrequest last hlast
      rw [runDetail_toolCalls, hsplit, expectedCalls_get hrequest before] at hcall
      obtain rfl := Option.some.inj hcall
      exact ⟨hstatus, hresult⟩
    · have hentries := h.skipped hnone item hin hskipped
      have hany : task.runIndex.any (isSkipped txt) = true :=
        List.any_eq_true.mpr ⟨item, hin, hskipped⟩
      rw [runDetail_reviewEntries, if_pos ⟨hany, hnone⟩] at hentries
      have hreason := congrArg (fun entries : List PyDict =>
        (entries.headD []).get? "reason") hentries
      simp only [skippedEntryOf, List.headD_cons, PyDict.get?_cons, String.reduceEq, if_false,
        if_true, Option.some.injEq, PyValue.str.injEq] at hreason
      exact hreason.symm
  · rintro ⟨hends, hreason⟩
    refine ⟨?_, runDetail_marks isWord, ?_, ?_, runDetail_reviewBlock isWord, ?_⟩
    · rw [runDetail_toolCalls, map_head_expectedCalls]
    · intro before request after hsplit hrequest last hlast
      obtain ⟨hstatus, hresult⟩ := hends before request after hsplit hrequest last hlast
      refine ⟨closedCall txt request _, ?_, hstatus, hresult⟩
      rw [runDetail_toolCalls, hsplit]
      exact expectedCalls_get hrequest before
    · intro hlisted
      rw [runDetail_reviewEntries, if_neg]
      rintro ⟨hany, hnone⟩
      rcases hlisted with hsome | hno
      · exact hsome hnone
      · rw [hany] at hno
        cases hno
    · intro hnone item hin hskipped
      have hany : task.runIndex.any (isSkipped txt) = true :=
        List.any_eq_true.mpr ⟨item, hin, hskipped⟩
      rw [runDetail_reviewEntries, if_pos ⟨hany, hnone⟩, hreason hnone item hin hskipped]

end Detail

/-- Where a run is replayed faithfully, the two conditions hold of it. -/
theorem conditions_of_replaysRun {isWord : Char → Bool} {run : List PyDict}
    (h : ReplaysRun txt isWord run) : EndsInTime txt run ∧ ReasonLast txt run := by
  have hpaired := exists_paired (replayedTask run)
  obtain ⟨message, detail, hget, hfaithful⟩ := h _ _ _ _ hpaired rfl
  obtain ⟨message', hget'⟩ := attachRunDetail_get isWord txt hpaired
  rw [hget'] at hget
  obtain ⟨-, hdetail⟩ := Prod.mk.inj (Option.some.inj hget)
  rw [← Option.some.inj hdetail] at hfaithful
  exact (faithful_runDetail_iff isWord (replayedTask run)).mp hfaithful

/-- **A run is replayed faithfully** exactly when what is said last of a call comes before the next
request with its id, and, where the review was only skipped, the last entry of all has the reason
that was recorded. -/
theorem replaysRun_iff (txt : PyText) (isWord : Char → Bool) (run : List PyDict) :
    ReplaysRun txt isWord run ↔ EndsInTime txt run ∧ ReasonLast txt run := by
  refine ⟨conditions_of_replaysRun txt, fun h messages tasks place task hpaired hrun => ?_⟩
  obtain ⟨message, hget⟩ := attachRunDetail_get isWord txt hpaired
  refine ⟨message, _, hget, ?_⟩
  rw [← hrun] at h ⊢
  exact (faithful_runDetail_iff isWord task).mpr h

/-- A review that was skipped for a reason of its own, before the run came to its end. -/
def skippedRun : List PyDict :=
  [[("type", .str "review.skipped"), ("reason", .str "review_disabled")],
   [("type", .str "message.completed"), ("text", .str "Done.")]]

/-- **The reason of a skipped review is lost** where an entry follows it. -/
theorem not_replaysRun :
    ¬ ∀ (txt : PyText) (isWord : Char → Bool) (run : List PyDict), ReplaysRun txt isWord run := by
  intro hclaim
  have hreason := (conditions_of_replaysRun .ascii (hclaim .ascii (fun _ => false) skippedRun)).2
  have hlast := hreason (by decide +kernel) _ List.mem_cons_self (by decide +kernel)
  exact absurd hlast (by decide +kernel)

end ThreadForge

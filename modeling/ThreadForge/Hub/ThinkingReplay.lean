import ThreadForge.Hub.Sanitizer
import ThreadForge.Hub.StreamPersistence
import ThreadForge.Lib.PyString

/-!
# The thinking of a run, replayed

A Worker sends the thinking of the model as events with a text and a stage. The hub sanitizes them,
merges neighbouring ones in the audit list of the task, and `_attach_run_detail` rebuilds from that
list what a message of the history shows: the thinking of the planning stage on its own, the other
thinking in the blocks of the turns.

## What is left out

The request text that `_attach_run_detail` puts back into the items of tasks that have none.

## Main results

* `RunReplay.adds_replay` — which texts of an audit list end up where.
* `auditOf_eq` — the audit list is the end of the list of all entries.
* `keepsStage_iff` — when the thinking of a run is replayed by stages.
-/

namespace ThreadForge

/-! ## `_attach_run_detail` -/

/-- An entry of `tool_calls`. -/
structure ReplayCall where
  id : String
  toolName : String
  args : PyValue
  status : String := "completed"
  result : Option String := none
  deriving DecidableEq, Repr

/-- A block of a turn. A tool call is its place in `tool_calls`, where its result comes later. -/
structure BehaviorBlock where
  turn : Option Nat
  thinking : Option String := none
  toolCalls : List Nat := []
  deriving DecidableEq, Repr

inductive ReplayBlock
  | behavior (block : BehaviorBlock)
  | commentary (text : String) (turn : Option Nat)
  | review (entries : List PyDict) (turn : Option Nat)
  deriving DecidableEq, Repr

/-- The variables of the loop over an audit list. -/
structure RunReplay where
  toolById : List (String × Nat) := []
  toolCalls : List ReplayCall := []
  thinkingParts : List String := []
  planningParts : List String := []
  reviewEntries : List PyDict := []
  commentaryParts : List String := []
  reviewSkipped : Bool := false
  blocks : List ReplayBlock := []
  currentTurn : Nat := 0
  lastReviewTurn : Nat := 0
  pendingBehavior : Option BehaviorBlock := none
  deriving DecidableEq, Repr

/-- What is attached to a message. -/
structure RunDetail where
  planningThinking : Option String
  content : Option String
  toolCalls : List ReplayCall
  thinking : Option String
  commentary : Option String
  reviewEntries : List PyDict
  blocks : List ReplayBlock
  deriving DecidableEq, Repr

/-- The fields of a task item that are read. -/
structure TaskItem where
  status : String
  stopReason : Option String
  finalAnswer : String
  createdAt : String
  runIndex : List PyDict

namespace RunReplay

variable (txt : PyText)

/-- `turn or None`. -/
def turnOf (turn : Nat) : Option Nat := if turn = 0 then none else some turn

/-- The pending block is closed. -/
def flush (r : RunReplay) : RunReplay :=
  match r.pendingBehavior with
  | none => r
  | some block => { r with blocks := r.blocks ++ [.behavior block], pendingBehavior := none }

/-- The pending block, or a new one. -/
def behavior (r : RunReplay) : BehaviorBlock :=
  r.pendingBehavior.getD { turn := turnOf r.currentTurn }

/-- A thinking text of a stage. -/
def think (r : RunReplay) (stage text : String) : RunReplay :=
  if stage = "planning" then { r with planningParts := r.planningParts ++ [text] }
  else
    let previous := r.behavior.thinking.getD ""
    { r with
      thinkingParts := r.thinkingParts ++ [text]
      pendingBehavior := some { r.behavior with
        thinking := some (previous ++ (if previous = "" then "" else "\n") ++ text) } }

/-- A round of the model begins. -/
def startTurn (r : RunReplay) : RunReplay := flush { r with currentTurn := r.currentTurn + 1 }

/-- A text on the way. -/
def comment (r : RunReplay) (text : String) : RunReplay :=
  let r := flush { r with commentaryParts := r.commentaryParts ++ [text] }
  { r with blocks := r.blocks ++ [.commentary text (turnOf r.currentTurn)] }

/-- A tool is called. -/
def request (r : RunReplay) (item : PyDict) : RunReplay :=
  let call : ReplayCall := {
    id := item.textOf txt "tool_call_id"
    toolName := item.textOf txt "tool_name"
    args := item.getD "args_preview" .none }
  { r with
    toolById := (call.id, r.toolCalls.length) :: r.toolById
    toolCalls := r.toolCalls ++ [call]
    pendingBehavior := some { r.behavior with
      toolCalls := r.behavior.toolCalls ++ [r.toolCalls.length] } }

/-- A tool has come to its end. -/
def resolve (r : RunReplay) (item : PyDict) (failed : Bool) : RunReplay :=
  match r.toolById.lookup (item.textOf txt "tool_call_id") with
  | none => r
  | some place =>
    let shown := match item.getD "result_preview" .none with
      | .str result =>
        if result = "" then none
        else some (result ++
          if (item.getD "result_truncated" .none).truthy = true then "\n\n[预览已截断]" else "")
      | _ => none
    { r with toolCalls := r.toolCalls.modify place fun call => { call with
        result := shown.or call.result
        status := if failed = true then "error" else "completed" } }

/-- An entry of the review. -/
def review (r : RunReplay) (entry : Option PyDict) : RunReplay :=
  let r := r.flush
  { r with
    lastReviewTurn := r.currentTurn
    reviewEntries := r.reviewEntries ++ entry.toList
    reviewSkipped := r.reviewSkipped || entry.isNone }

/-- One entry of the audit list. -/
def step (r : RunReplay) (item : PyDict) : RunReplay :=
  let eventType := item.textOf txt "type"
  if eventType = "model.started" then
    r.startTurn
  else if eventType = "assistant.commentary" then
    let text := pyStrip txt (item.textOf txt "text")
    if text = "" then r else r.comment text
  else if eventType = "assistant.thinking" then
    let text := pyStrip txt (item.textOf txt "text")
    if text = "" then r
    else
      let stage := (PyValue.or (item.getD "stage" (.str "")) (.str "execute")).text txt
      r.think stage text
  else if eventType = "tool.requested" then r.request txt item
  else if eventType = "tool.completed" then r.resolve txt item false
  else if eventType = "tool.failed" then r.resolve txt item true
  else if eventType = "review.started" then
    r.review (some [("side", .str "review"), ("action", .str (item.textOf txt "trigger"))])
  else if eventType = "review.completed" then
    r.review (some [("side", .str "review"),
      ("verdict", PyValue.or (.str (item.textOf txt "verdict")) .none),
      ("feedback", item.getD "feedback" .none), ("reason", item.getD "reason" .none),
      ("obstacles", PyValue.or (item.getD "obstacles" .none) .none)])
  else if eventType = "main_loop_rebuttal" then
    r.review (some [("side", .str "main_loop"),
      ("against_verdict", item.getD "against_verdict" .none),
      ("action", item.getD "action" .none), ("feedback", item.getD "feedback" .none)])
  else if eventType = "review.skipped" then r.review none
  else r

/-- The loop. -/
def replay (runIndex : List PyDict) : RunReplay := runIndex.foldl (step txt) {}

/-- The entry of a review that was skipped. Its reason is read from the last entry of all. -/
def skippedEntry (runIndex : List PyDict) : PyDict :=
  let reason := (runIndex.getLast?.getD []).getD "reason" .none
  [("side", .str "review"), ("verdict", .str "skipped"),
   ("feedback", .str "只读任务,审查已跳过(重复动作/停滞窗口仍负责收敛)"),
   ("reason", .str (if reason.truthy = true then reason.text txt else "read_only_task"))]

end RunReplay

/-- `_HISTORY_TERMINAL_MESSAGES`. -/
def historyTerminalMessages : List (String × String) :=
  [("approval_denied", "所需工具操作未获批准，运行已停止。"),
   ("budget_exhausted", "本次运行已达到时间或令牌预算，请缩小任务范围后重试。"),
   ("convergence_guard_triggered", "模型未能通过审查或持续产生有效进展，本次运行已停止空转。"),
   ("retry_limit_reached", "模型输出未通过执行协议校验，达到重试上限后停止。"),
   ("review_retry_limit_reached", "审查阶段未能确认任务已经完成，达到重试上限后停止。"),
   ("step_limit_reached", "本次运行触发了旧版步骤保护，请缩小任务范围后重试。"),
   ("user_cancelled", "已停止当前任务。")]

section Attach

open PyPattern

variable (txt : PyText) (isWord : Char → Bool)

/-- A literal, whatever the case. -/
def litFolded (text : String) : PyPattern := fun cs =>
  if (cs.take text.length).map foldCase = text.toList then [cs.drop text.length] else []

/-- `status`, a colon and a verdict, with what may stand around `status`. -/
def statusPattern (quote : PyPattern) : PyPattern :=
  andThen quote <| andThen (litFolded "status") <| andThen quote <| andThen (many txt.isSpace) <|
    andThen (lit ":") <| andThen (many txt.isSpace) <| andThen quote <|
    andThen (oneOf [litFolded "pass", litFolded "needs_fix"]) fun cs =>
      if (cs.head?.map isWord).getD false = true then [] else [cs]

/-- `_is_internal_failure_diagnostic`. -/
def isInternalFailureDiagnostic (text : String) : Bool :=
  let value := pyStrip txt text
  value = "" || pyStartsWith value "agent run failed:" ||
    pyStartsWith value "agent run finalization failed:" ||
    matchesStart (oneOf [statusPattern txt isWord fun cs => [cs],
      andThen (lit "\x7b") (andThen (many txt.isSpace)
        (statusPattern txt isWord (opt (oneOf [lit "\"", lit "'"]))))]) value

/-- The text shown for the answer of a run that did not complete. -/
def terminalContent (task : TaskItem) : String :=
  let candidate := pyStrip txt task.finalAnswer
  if candidate ≠ "" ∧ isInternalFailureDiagnostic txt isWord candidate = false then candidate
  else (historyTerminalMessages.lookup (task.stopReason.getD "None")).getD
    "运行未能正常完成，请在审计中查看具体原因后重试。"

/-- The body of the loop over the messages. -/
def runDetail (task : TaskItem) : RunDetail :=
  let r := (RunReplay.replay txt task.runIndex).flush
  let reviewEntries := if r.reviewSkipped = true ∧ r.reviewEntries = [] then
    [RunReplay.skippedEntry txt task.runIndex] else r.reviewEntries
  { planningThinking := if r.planningParts = [] then none else some (joinLines r.planningParts)
    content := if task.status = "completed" then none else some (terminalContent txt isWord task)
    toolCalls := r.toolCalls
    thinking := if r.thinkingParts = [] then none else some (joinLines r.thinkingParts)
    commentary := if r.commentaryParts = [] then none else some (joinLines r.commentaryParts)
    reviewEntries
    blocks := if reviewEntries = [] then r.blocks
      else r.blocks ++ [.review reviewEntries (RunReplay.turnOf r.lastReviewTurn)] }

/-- The places of the assistant's messages, with the tasks: both from the end. -/
def pairedTasks (messages : List PyDict) (tasks : List TaskItem) : List (Nat × TaskItem) :=
  let places := (List.range messages.length).filter fun i =>
    PyDict.getD (messages[i]?.getD []) "role" .none = .str "assistant"
  places.reverse.zip (tasks.insertionSort fun a b => a.createdAt ≤ b.createdAt).reverse

/-- `_attach_run_detail`: the messages with what is attached to them. -/
def attachRunDetail (messages : List PyDict) (tasks : List TaskItem) :
    List (PyDict × Option RunDetail) :=
  (pairedTasks messages tasks).foldl
    (fun out (place, task) =>
      out.modify place fun message => (message.1, some (runDetail txt isWord task)))
    (messages.map fun message => (message, none))

end Attach

/-! ## The texts, but for white space -/

section Texts

variable (txt : PyText)

/-- The characters of a text that are not white space. -/
def solid (text : String) : List Char :=
  text.toList.filter fun c => !txt.isSpace c && decide (c ≠ '\n')

variable {txt}

theorem solid_append (a b : String) : solid txt (a ++ b) = solid txt a ++ solid txt b := by
  unfold solid
  rw [String.toList_append, List.filter_append]

theorem solid_empty : solid txt "" = [] := rfl

theorem filter_dropWhile_space (cs : List Char) :
    (cs.dropWhile txt.isSpace).filter (fun c => !txt.isSpace c && decide (c ≠ '\n')) =
      cs.filter fun c => !txt.isSpace c && decide (c ≠ '\n') := by
  induction cs with
  | nil => rfl
  | cons c cs ih =>
    by_cases hspace : txt.isSpace c = true
    · rw [List.dropWhile_cons_of_pos hspace, ih, List.filter_cons_of_neg (by rw [hspace]; simp)]
    · rw [List.dropWhile_cons_of_neg hspace]

/-- `strip` takes only white space away. -/
theorem solid_strip (text : String) : solid txt (pyStrip txt text) = solid txt text := by
  unfold solid pyStrip PyValue.stripChars
  rw [String.toList_ofList, List.filter_reverse, filter_dropWhile_space, List.filter_reverse,
    List.reverse_reverse, filter_dropWhile_space]

theorem solid_of_strip_empty {text : String} (h : pyStrip txt text = "") : solid txt text = [] := by
  rw [← solid_strip, h, solid_empty]

theorem solid_newline : solid txt "\n" = [] := by
  unfold solid
  rw [show ("\n" : String).toList = ['\n'] from rfl, List.filter_cons_of_neg (by simp)]
  rfl

theorem solid_joinLines (parts : List String) :
    solid txt (joinLines parts) = parts.flatMap (solid txt) := by
  unfold joinLines
  induction parts with
  | nil => rfl
  | cons part rest ih =>
    by_cases hrest : rest = []
    · rw [hrest, String.intercalate_singleton, List.flatMap_cons, List.flatMap_nil, List.append_nil]
    · rw [String.intercalate_cons_of_ne_nil hrest, solid_append, solid_append, solid_newline,
        List.append_nil, ih, List.flatMap_cons]

variable (txt)

/-- An audit entry of a thinking event. -/
def IsThinking (item : PyDict) : Prop := item.textOf txt "type" = "assistant.thinking"

instance (item : PyDict) : Decidable (IsThinking txt item) := inferInstanceAs (Decidable (_ = _))

/-- The stage an audit entry is replayed under. -/
def replayStage (item : PyDict) : String :=
  (PyValue.or (item.getD "stage" (.str "")) (.str "execute")).text txt

/-- The text of an entry that is replayed as planning. -/
def planningOf (item : PyDict) : List Char :=
  if IsThinking txt item ∧ replayStage txt item = "planning" then solid txt (item.textOf txt "text")
  else []

/-- The text of an entry that is replayed as other thinking. -/
def otherOf (item : PyDict) : List Char :=
  if IsThinking txt item ∧ replayStage txt item ≠ "planning" then solid txt (item.textOf txt "text")
  else []

/-- The thinking in a block of a turn. -/
def blockText : ReplayBlock → List Char
  | .behavior block => solid txt (block.thinking.getD "")
  | .commentary .. | .review .. => []

namespace RunReplay

/-- The thinking in the blocks so far, the pending one included. -/
def behaviorText (r : RunReplay) : List Char :=
  r.blocks.flatMap (blockText txt) ++
    solid txt ((r.pendingBehavior.bind BehaviorBlock.thinking).getD "")

/-- The texts a part of the loop adds. -/
structure Adds (r r' : RunReplay) (planning other : List Char) : Prop where
  planning : r'.planningParts.flatMap (solid txt) = r.planningParts.flatMap (solid txt) ++ planning
  thinking : r'.thinkingParts.flatMap (solid txt) = r.thinkingParts.flatMap (solid txt) ++ other
  behavior : r'.behaviorText txt = r.behaviorText txt ++ other

variable {txt} {r r' r'' : RunReplay} {p q u v : List Char}

/-- A part that adds no text. -/
theorem Adds.of_eq (hplanning : r'.planningParts = r.planningParts)
    (hthinking : r'.thinkingParts = r.thinkingParts)
    (hbehavior : r'.behaviorText txt = r.behaviorText txt) : Adds txt r r' [] [] := by
  refine ⟨?_, ?_, ?_⟩
  · rw [hplanning, List.append_nil]
  · rw [hthinking, List.append_nil]
  · rw [hbehavior, List.append_nil]

theorem Adds.trans (h : Adds txt r r' p u) (h' : Adds txt r' r'' q v) :
    Adds txt r r'' (p ++ q) (u ++ v) where
  planning := by rw [h'.planning, h.planning, List.append_assoc]
  thinking := by rw [h'.thinking, h.thinking, List.append_assoc]
  behavior := by rw [h'.behavior, h.behavior, List.append_assoc]

theorem pending_flush (r : RunReplay) : r.flush.pendingBehavior = none := by
  unfold flush
  split
  · next h => exact h
  · rfl

theorem adds_flush (r : RunReplay) : Adds txt r r.flush [] [] := by
  unfold flush
  split
  · exact Adds.of_eq rfl rfl rfl
  · next block hpending =>
    refine Adds.of_eq rfl rfl ?_
    unfold behaviorText
    rw [hpending, List.flatMap_append, List.flatMap_singleton]
    show _ ++ blockText txt (.behavior block) ++ [] = _
    rw [List.append_nil]
    rfl

/-- A closed block is all there is of the thinking in blocks. -/
theorem behaviorText_flush (r : RunReplay) :
    r.flush.blocks.flatMap (blockText txt) = r.behaviorText txt := by
  have hflush := (adds_flush r : Adds txt r r.flush [] []).behavior
  rw [List.append_nil] at hflush
  rw [← hflush, behaviorText, pending_flush]
  exact (List.append_nil _).symm

theorem adds_startTurn (r : RunReplay) : Adds txt r r.startTurn [] [] := by
  have hturn : Adds txt r { r with currentTurn := r.currentTurn + 1 } [] [] :=
    Adds.of_eq rfl rfl rfl
  exact hturn.trans (adds_flush _)

theorem adds_comment (r : RunReplay) (text : String) : Adds txt r (r.comment text) [] [] := by
  have hparts : Adds txt r { r with commentaryParts := r.commentaryParts ++ [text] } [] [] :=
    Adds.of_eq rfl rfl rfl
  refine (hparts.trans (adds_flush _)).trans (q := []) (v := []) (Adds.of_eq rfl rfl ?_)
  unfold behaviorText comment
  simp only [List.flatMap_append, List.flatMap_singleton, blockText, List.append_nil]

theorem adds_review (r : RunReplay) (entry : Option PyDict) :
    Adds txt r (r.review entry) [] [] :=
  (adds_flush r).trans (Adds.of_eq rfl rfl rfl)

theorem adds_request (r : RunReplay) (item : PyDict) : Adds txt r (r.request txt item) [] [] := by
  refine Adds.of_eq rfl rfl ?_
  unfold request behaviorText behavior
  cases r.pendingBehavior with
  | none => rfl
  | some block => rfl

theorem adds_resolve (r : RunReplay) (item : PyDict) (failed : Bool) :
    Adds txt r (r.resolve txt item failed) [] [] := by
  unfold resolve
  split
  · exact Adds.of_eq rfl rfl rfl
  · exact Adds.of_eq rfl rfl rfl

variable (txt) in
theorem adds_think_planning (r : RunReplay) (text : String) :
    Adds txt r (r.think "planning" text) (solid txt text) [] := by
  unfold think
  rw [if_pos rfl]
  refine ⟨?_, (List.append_nil _).symm, (List.append_nil _).symm⟩
  rw [List.flatMap_append, List.flatMap_singleton]

theorem adds_think_other (r : RunReplay) {stage : String} (hstage : stage ≠ "planning")
    (text : String) : Adds txt r (r.think stage text) [] (solid txt text) := by
  unfold think
  rw [if_neg hstage]
  refine ⟨(List.append_nil _).symm, ?_, ?_⟩
  · rw [List.flatMap_append, List.flatMap_singleton]
  · -- the text is added to the pending block, or begins a new one
    have hprevious : solid txt (r.behavior.thinking.getD "") =
        solid txt ((r.pendingBehavior.bind BehaviorBlock.thinking).getD "") := by
      unfold behavior
      cases r.pendingBehavior with
      | none => rfl
      | some block => rfl
    have hline : ∀ previous : String,
        solid txt (if previous = "" then "" else "\n") = [] := by
      intro previous
      split
      · rfl
      · exact solid_newline
    unfold behaviorText
    simp only [Option.bind_some, Option.getD_some]
    rw [solid_append, solid_append, hline, List.append_nil, hprevious, List.append_assoc]

/-- **One entry of the audit list** adds its text to the planning or to the other thinking. -/
theorem adds_step (r : RunReplay) (item : PyDict) :
    Adds txt r (r.step txt item) (planningOf txt item) (otherOf txt item) := by
  unfold step
  by_cases hthinking : IsThinking txt item
  swap
  · have hplanning : planningOf txt item = [] := if_neg fun h => hthinking h.1
    have hother : otherOf txt item = [] := if_neg fun h => hthinking h.1
    rw [hplanning, hother]
    simp only [if_neg (show ¬ item.textOf txt "type" = "assistant.thinking" from hthinking)]
    split
    · exact adds_startTurn r
    split
    · split
      · exact Adds.of_eq rfl rfl rfl
      · exact adds_comment r _
    split
    · exact adds_request r item
    split
    · exact adds_resolve r item false
    split
    · exact adds_resolve r item true
    split
    · exact adds_review r _
    split
    · exact adds_review r _
    split
    · exact adds_review r _
    split
    · exact adds_review r none
    · exact Adds.of_eq rfl rfl rfl
  · have htype : item.textOf txt "type" = "assistant.thinking" := hthinking
    simp only [htype, String.reduceEq, if_false, if_true]
    split
    · next hempty =>
      have hsolid := solid_of_strip_empty hempty
      have hplanning : planningOf txt item = [] := by
        unfold planningOf
        rw [hsolid, ite_self]
      have hother : otherOf txt item = [] := by
        unfold otherOf
        rw [hsolid, ite_self]
      rw [hplanning, hother]
      exact Adds.of_eq rfl rfl rfl
    · by_cases hstage : replayStage txt item = "planning"
      · have hplanning : planningOf txt item = solid txt (item.textOf txt "text") :=
          if_pos ⟨hthinking, hstage⟩
        have hother : otherOf txt item = [] := if_neg fun h => h.2 hstage
        rw [hplanning, hother, ← solid_strip]
        have hadds := adds_think_planning txt r (pyStrip txt (item.textOf txt "text"))
        rw [← hstage] at hadds
        exact hadds
      · have hplanning : planningOf txt item = [] := if_neg fun h => hstage h.2
        have hother : otherOf txt item = solid txt (item.textOf txt "text") :=
          if_pos ⟨hthinking, hstage⟩
        rw [hplanning, hother, ← solid_strip]
        exact adds_think_other r hstage _

variable (txt) in
/-- What the loop over an audit list adds. -/
theorem adds_replay (runIndex : List PyDict) (r : RunReplay) :
    Adds txt r (runIndex.foldl (step txt) r) (runIndex.flatMap (planningOf txt))
      (runIndex.flatMap (otherOf txt)) := by
  induction runIndex generalizing r with
  | nil => exact Adds.of_eq rfl rfl rfl
  | cons item rest ih => exact (adds_step r item).trans (ih _)

end RunReplay

end Texts

/-! ## The fields of an audit entry -/

section Entries

variable {txt : PyText}

theorem get?_setNonempty (key text : String) (item : PyDict) (k : String) :
    (setNonempty key text item).get? k =
      if k = key ∧ text ≠ "" then some (.str text) else item.get? k := by
  unfold setNonempty
  by_cases htext : text = ""
  · rw [if_pos htext, if_neg fun h => h.2 htext]
  · rw [if_neg htext, PyDict.get?_set]
    by_cases hk : k = key
    · rw [if_pos hk, if_pos ⟨hk, htext⟩]
    · rw [if_neg hk, if_neg fun h => hk h.1]

theorem get?_setNonempty_of_ne {key text k : String} {item : PyDict} (h : k ≠ key) :
    (setNonempty key text item).get? k = item.get? k := by
  rw [get?_setNonempty, if_neg fun hk => h hk.1]

/-- A key that the base of an entry does not set. -/
theorem get?_runIndexBase {event data : PyDict} {key : String}
    (hkey : key ∉ ["event_id", "run_id", "type", "timestamp", "label", "phase", "parent_event_id",
      "started_at", "ended_at", "summary", "attempt"]) :
    (runIndexBase txt event data).get? key = none := by
  simp only [List.mem_cons, List.not_mem_nil, or_false, not_or] at hkey
  obtain ⟨h1, h2, h3, h4, h5, h6, h7, h8, h9, h10, h11⟩ := hkey
  unfold runIndexBase
  split
  · split
    · simp only [PyDict.get?_set, get?_setNonempty, PyDict.get?_cons, PyDict.get?_nil, h1, h2, h3,
        h4, h5, h6, h7, h8, h9, h10, h11, false_and, if_false]
    · simp only [get?_setNonempty, PyDict.get?_cons, PyDict.get?_nil, h1, h2, h3, h4,
        h5, h6, h7, h8, h9, h10, false_and, if_false]
  · simp only [get?_setNonempty, PyDict.get?_cons, PyDict.get?_nil, h1, h2, h3, h4,
      h5, h6, h7, h8, h9, h10, false_and, if_false]

theorem type_runIndexBase (event data : PyDict) :
    (runIndexBase txt event data).get? "type" =
      some (.str (pyClip (event.textOf txt "type") 64)) := by
  unfold runIndexBase
  split
  · split
    · simp only [PyDict.get?_set, get?_setNonempty, PyDict.get?_cons, String.reduceEq, false_and,
        if_false, if_true]
    · simp only [get?_setNonempty, PyDict.get?_cons, String.reduceEq, false_and,
        if_false, if_true]
  · simp only [get?_setNonempty, PyDict.get?_cons, String.reduceEq, false_and,
      if_false, if_true]

/-- The events whose text is stored, with the length it is cut to. -/
def textLimits : List (String × Nat) :=
  [("model.completed", 4000), ("message.completed", 4000), ("assistant.thinking", 4000),
    ("assistant.commentary", 1000)]

/-- The fields that an event which is not about a tool adds beside its text. -/
def plainFields : List String :=
  ["usage", "intent", "step_count", "stage", "trigger", "verdict", "feedback", "reason",
    "obstacles", "tool_rounds", "against_verdict", "action", "status"]

theorem get?_setText {eventType key : String} {data : PyDict} (limit : Nat) (item : PyDict)
    (hlimit : textLimits.lookup eventType = some limit) :
    (setNonempty "text" (clippedText txt data "text" limit) item).get? key = item.get? key ∨
      key = "text" ∧ ∃ n, textLimits.lookup eventType = some n ∧
        (setNonempty "text" (clippedText txt data "text" limit) item).get? key
          = some (.str (clippedText txt data "text" n)) := by
  rw [get?_setNonempty]
  split
  · next hset => exact Or.inr ⟨hset.1, limit, hlimit, rfl⟩
  · exact Or.inl rfl

theorem get?_setUsage {key : String} (hkey : ¬key = "usage") (data item : PyDict) :
    (match data.getD "usage" (.dict []) with
      | .dict usage => item.set "usage" (.dict (usageCounters usage))
      | _ => item).get? key = item.get? key := by
  split
  · rw [PyDict.get?_set, if_neg hkey]
  · rfl

/-- What such an event leaves of an entry, and adds to it. -/
theorem get?_runIndexFields {eventType key : String} {data item item' : PyDict}
    (htool : ¬pyStartsWith eventType "tool." = true)
    (hkey : key ∉ plainFields) (h : runIndexFields txt eventType data item = .ok item') :
    item'.get? key = item.get? key ∨
      key = "text" ∧ ∃ limit, textLimits.lookup eventType = some limit ∧
        item'.get? key = some (.str (clippedText txt data "text" limit)) := by
  simp only [plainFields, List.mem_cons, List.not_mem_nil, or_false, not_or] at hkey
  obtain ⟨h1, h2, h3, h4, h5, h6, h7, h8, h9, h10, h11, h12, h13⟩ := hkey
  unfold runIndexFields at h
  rw [if_neg htool] at h
  by_cases hcase : eventType = "model.completed"
  · rw [if_pos hcase] at h
    rw [← Except.ok.inj h]
    have hlimit : textLimits.lookup eventType = some 4000 := by
      rw [hcase]
      rfl
    rw [← get?_setUsage h1 data item]
    exact get?_setText 4000 _ hlimit
  rw [if_neg hcase] at h
  clear hcase
  by_cases hcase : eventType = "plan.created"
  · rw [if_pos hcase] at h
    obtain ⟨stepCount, -, hitem⟩ := Except.bind_eq_ok h
    rw [← Except.ok.inj hitem, PyDict.get?_set, PyDict.get?_set, if_neg h3, if_neg h2]
    exact Or.inl rfl
  rw [if_neg hcase] at h
  clear hcase
  by_cases hcase : eventType = "message.completed"
  · rw [if_pos hcase] at h
    rw [← Except.ok.inj h]
    have hlimit : textLimits.lookup eventType = some 4000 := by
      rw [hcase]
      rfl
    exact get?_setText 4000 item hlimit
  rw [if_neg hcase] at h
  clear hcase
  by_cases hcase : eventType = "assistant.thinking"
  · rw [if_pos hcase] at h
    rw [← Except.ok.inj h, get?_setNonempty_of_ne h4]
    have hlimit : textLimits.lookup eventType = some 4000 := by
      rw [hcase]
      rfl
    exact get?_setText 4000 item hlimit
  rw [if_neg hcase] at h
  clear hcase
  by_cases hcase : eventType = "assistant.commentary"
  · rw [if_pos hcase] at h
    rw [← Except.ok.inj h]
    have hlimit : textLimits.lookup eventType = some 1000 := by
      rw [hcase]
      rfl
    exact get?_setText 1000 item hlimit
  rw [if_neg hcase] at h
  clear hcase
  refine Or.inl ?_
  by_cases hcase : eventType = "review.started"
  · rw [if_pos hcase] at h
    rw [← Except.ok.inj h, PyDict.get?_set, if_neg h5]
  rw [if_neg hcase] at h
  clear hcase
  by_cases hcase : eventType = "review.completed"
  · rw [if_pos hcase] at h
    obtain ⟨toolRounds, -, hitem⟩ := Except.bind_eq_ok h
    rw [← Except.ok.inj hitem, PyDict.get?_set, if_neg h10]
    split
    all_goals simp only [PyDict.get?_set, get?_setNonempty, h6, h7, h8, h9, false_and, if_false]
  rw [if_neg hcase] at h
  clear hcase
  by_cases hcase : eventType = "review.skipped"
  · rw [if_pos hcase] at h
    rw [← Except.ok.inj h, PyDict.get?_set, if_neg h8]
  rw [if_neg hcase] at h
  clear hcase
  by_cases hcase : eventType = "main_loop_rebuttal"
  · rw [if_pos hcase] at h
    rw [← Except.ok.inj h, get?_setNonempty_of_ne h7]
    simp only [PyDict.get?_set, h11, h12, if_false]
  rw [if_neg hcase] at h
  clear hcase
  by_cases hcase : pyStartsWith eventType "task." = true
  · rw [if_pos hcase] at h
    rw [← Except.ok.inj h, PyDict.get?_set, if_neg h13]
  rw [if_neg hcase] at h
  clear hcase
  rw [← Except.ok.inj h]

/-- What an event about a tool leaves of an entry, and adds to it beside the name, the id and the
note that a result was cut. -/
theorem get?_runIndexTool {eventType key : String} {data item item' : PyDict}
    (hkey : key ∉ ["tool_name", "tool_call_id", "result_truncated"])
    (h : runIndexTool txt eventType data item = item') :
    item'.get? key = item.get? key ∨
      (key = "args_preview" ∧ eventType = "tool.requested" ∧ ∃ args,
        data.get? "args_preview" = some (.dict args) ∧
          item'.get? key = some (.dict args)) ∨
      (key = "result_preview" ∧ (eventType = "tool.completed" ∨ eventType = "tool.failed") ∧
        ∃ preview, data.get? "result_preview" = some (.str preview) ∧
          item'.get? key = some (.str (pyClip preview 8000))) := by
  simp only [List.mem_cons, List.not_mem_nil, or_false, not_or] at hkey
  obtain ⟨h1, h2, h3⟩ := hkey
  rw [← h]
  unfold runIndexTool
  dsimp only
  split
  · next hrequested =>
    split
    · next entry rest hargs =>
      rw [PyDict.get?_set]
      by_cases hargsKey : key = "args_preview"
      · exact Or.inr (Or.inl ⟨hargsKey, hrequested, _, hargs, if_pos hargsKey⟩)
      · rw [if_neg hargsKey, PyDict.get?_set, PyDict.get?_set, if_neg h2, if_neg h1]
        exact Or.inl rfl
    · rw [PyDict.get?_set, PyDict.get?_set, if_neg h2, if_neg h1]
      exact Or.inl rfl
  · split
    · next hend =>
      split
      · next preview hresult =>
        by_cases hresultKey : key = "result_preview"
        · split
          · rw [PyDict.get?_set, PyDict.get?_set, if_neg h2, if_neg h1]
            exact Or.inl rfl
          · refine Or.inr (Or.inr ⟨hresultKey, hend, preview, hresult, ?_⟩)
            split
            · rw [PyDict.get?_set, if_neg h3, PyDict.get?_set, if_pos hresultKey]
            · rw [PyDict.get?_set, if_pos hresultKey]
        · refine Or.inl ?_
          repeat' split
          all_goals simp only [PyDict.get?_set, h1, h2, h3, hresultKey, if_false]
      · rw [PyDict.get?_set, PyDict.get?_set, if_neg h2, if_neg h1]
        exact Or.inl rfl
    · rw [PyDict.get?_set, PyDict.get?_set, if_neg h2, if_neg h1]
      exact Or.inl rfl

/-- The fields of an event type leave the type of the entry. -/
theorem type_runIndexFields {eventType : String} {data item item' : PyDict}
    (h : runIndexFields txt eventType data item = .ok item') :
    item'.get? "type" = item.get? "type" := by
  by_cases htool : pyStartsWith eventType "tool." = true
  · unfold runIndexFields at h
    rw [if_pos htool] at h
    have hkey : "type" ∉ ["tool_name", "tool_call_id", "result_truncated"] := by decide
    rcases get?_runIndexTool hkey (Except.ok.inj h) with hsame | ⟨hargs, -⟩ | ⟨hresult, -⟩
    · exact hsame
    · exact absurd hargs (by decide)
    · exact absurd hresult (by decide)
  · have hkey : "type" ∉ plainFields := by decide
    rcases get?_runIndexFields htool hkey h with hsame | ⟨htext, -⟩
    · exact hsame
    · exact absurd htext (by decide)

end Entries

/-! ## The thinking of a run -/

/-- An event of a Worker as the hub publishes it: its envelope, and the data the Worker sent. -/
structure WorkerEvent where
  envelope : PyDict
  data : PyDict
  deriving DecidableEq, Repr

section Thinking

variable (env : SanitizerEnv) (isWord : Char → Bool)

namespace WorkerEvent

/-- An `assistant.thinking` event. -/
def IsThinking (e : WorkerEvent) : Prop := e.envelope.textOf env.txt "type" = "assistant.thinking"

instance (e : WorkerEvent) : Decidable (e.IsThinking env) := inferInstanceAs (Decidable (_ = _))

/-- The Worker sent it in the planning stage. -/
def Planning (e : WorkerEvent) : Prop := e.data.textOf env.txt "stage" = "planning"

instance (e : WorkerEvent) : Decidable (e.Planning env) := inferInstanceAs (Decidable (_ = _))

/-- The text of the event, redacted, and cut as the audit list cuts it. -/
def shownText (e : WorkerEvent) : String :=
  pyClip (Sanitizer.redactText env (clippedText env.txt e.data "text" 4000)) 4000

/-- The event with what the sanitizer leaves of its data. -/
def sanitized (e : WorkerEvent) : PyDict × PyDict :=
  (e.envelope, Sanitizer.sanitizeEventData env (e.envelope.textOf env.txt "type") e.data)

end WorkerEvent

/-- The audit list of a run with these events. -/
def auditOf (events : List WorkerEvent) : List PyDict :=
  (events.map (WorkerEvent.sanitized env)).foldl (auditStep env.txt) []

/-- The planning texts of the events, in their order. -/
def planningTexts (events : List WorkerEvent) : List Char :=
  events.flatMap fun e =>
    if e.IsThinking env ∧ e.Planning env then solid env.txt (e.shownText env) else []

/-- The other thinking texts. -/
def otherTexts (events : List WorkerEvent) : List Char :=
  events.flatMap fun e =>
    if e.IsThinking env ∧ ¬ e.Planning env then solid env.txt (e.shownText env) else []

/-- The message shows the planning texts as planning, and the others in its thinking and in the
blocks of its turns. -/
structure ShowsStages (events : List WorkerEvent) (detail : RunDetail) : Prop where
  planning : solid env.txt (detail.planningThinking.getD "") = planningTexts env events
  thinking : solid env.txt (detail.thinking.getD "") = otherTexts env events
  behavior : detail.blocks.flatMap (blockText env.txt) = otherTexts env events

/-- Wherever the task of the run is replayed, its message shows the stages. -/
def KeepsStage (events : List WorkerEvent) : Prop :=
  ∀ messages tasks place task, (place, task) ∈ pairedTasks messages tasks →
    task.runIndex = auditOf env events →
    ∃ message detail, (attachRunDetail env.txt isWord messages tasks)[place]? =
      some (message, some detail) ∧ ShowsStages env events detail

/-! ## The audit list without its bound -/

/-- One more entry, without the bound on the length of the list. -/
def pushUnbounded (txt : PyText) (eventType : String) (runIndex : List PyDict) (item : PyDict) :
    List PyDict :=
  match runIndex.getLast? with
  | none => runIndex ++ [item]
  | some previous =>
    if eventType = "assistant.thinking" then
      match mergeThinking txt previous item with
      | some merged => runIndex.dropLast ++ [merged]
      | none => runIndex ++ [item]
    else runIndex ++ [item]

/-- `auditStep` without the bound. -/
def unboundedStep (txt : PyText) (runIndex : List PyDict) (entry : PyDict × PyDict) :
    List PyDict :=
  let eventType := entry.1.textOf txt "type"
  if eventType = "model.heartbeat" then runIndex
  else match runIndexItem txt entry.1 entry.2 with
    | .ok item => pushUnbounded txt eventType runIndex item
    | .error _ => runIndex

/-- All entries of a run. -/
def unboundedAudit (events : List WorkerEvent) : List PyDict :=
  (events.map (WorkerEvent.sanitized env)).foldl (unboundedStep env.txt) []

/-- The entries that the bound of 500 pushed out. -/
def droppedEntries (events : List WorkerEvent) : List PyDict :=
  (unboundedAudit env events).take ((unboundedAudit env events).length - 500)

variable {env isWord} {txt : PyText}

/-- The last elements of a list. -/
def keptLast {α : Type} (n : Nat) (l : List α) : List α := l.drop (l.length - n)

theorem getLast?_keptLast {α : Type} (n : Nat) (l : List α) :
    (keptLast (n + 1) l).getLast? = l.getLast? := by
  unfold keptLast
  rw [List.getLast?_drop]
  split
  · next hle =>
    rw [List.eq_nil_of_length_eq_zero (by omega : l.length = 0)]
    rfl
  · rfl

/-- One more element at the end: the first of the last ones may go. -/
theorem keptLast_append {α : Type} (n : Nat) (l : List α) (a : α) :
    (keptLast (n + 1) l).drop ((keptLast (n + 1) l).length - n) ++ [a]
      = keptLast (n + 1) (l ++ [a]) := by
  unfold keptLast
  rw [List.length_append, List.length_singleton, List.drop_append_of_le_length (by omega),
    List.drop_drop, List.length_drop]
  congr 2
  omega

/-- Another last element. -/
theorem keptLast_change {α : Type} (n : Nat) {l : List α} (hne : l ≠ []) (a : α) :
    (keptLast (n + 1) l).dropLast ++ [a] = keptLast (n + 1) (l.dropLast ++ [a]) := by
  have hpos := List.length_pos_of_ne_nil hne
  have hlength : l.dropLast.length + 1 = l.length := by
    rw [List.length_dropLast]
    omega
  unfold keptLast
  rw [List.length_append, List.length_singleton, hlength,
    List.drop_append_of_le_length (by omega), List.dropLast_drop_eq_drop_dropLast]

/-- The bound keeps the last entries. -/
theorem pushRunIndex_keptLast (eventType : String) (runIndex : List PyDict) (item : PyDict) :
    pushRunIndex txt eventType (keptLast 500 runIndex) item =
      keptLast 500 (pushUnbounded txt eventType runIndex item) := by
  have happended := keptLast_append 499 runIndex item
  unfold pushRunIndex pushUnbounded
  rw [getLast?_keptLast 499]
  cases hlast : runIndex.getLast? with
  | none => exact happended
  | some previous =>
    have hne : runIndex ≠ [] := by
      rintro rfl
      cases hlast
    by_cases htype : eventType = "assistant.thinking"
    · simp only [if_pos htype]
      cases mergeThinking txt previous item with
      | none => exact happended
      | some merged => exact keptLast_change 499 hne merged
    · simp only [if_neg htype]
      exact happended

theorem auditStep_keptLast (runIndex : List PyDict) (entry : PyDict × PyDict) :
    auditStep txt (keptLast 500 runIndex) entry
      = keptLast 500 (unboundedStep txt runIndex entry) := by
  unfold auditStep unboundedStep
  by_cases htype : entry.1.textOf txt "type" = "model.heartbeat"
  · simp only [if_pos htype]
  · simp only [if_neg htype]
    cases runIndexItem txt entry.1 entry.2 with
    | ok item =>
      dsimp only
      rw [pushRunIndex_keptLast]
    | error e => rfl

/-- The bound commutes with a sequence of appends. -/
theorem foldl_keptLast (entries : List (PyDict × PyDict)) (runIndex : List PyDict) :
    entries.foldl (auditStep txt) (keptLast 500 runIndex) =
      keptLast 500 (entries.foldl (unboundedStep txt) runIndex) := by
  induction entries generalizing runIndex with
  | nil => rw [List.foldl_nil, List.foldl_nil]
  | cons entry rest ih => rw [List.foldl_cons, List.foldl_cons, auditStep_keptLast, ih]

theorem auditOf_eq (events : List WorkerEvent) :
    auditOf env events = keptLast 500 (unboundedAudit env events) := by
  have hempty : keptLast 500 ([] : List PyDict) = [] := List.drop_nil
  unfold auditOf unboundedAudit
  rw [← foldl_keptLast, hempty]

/-! ## What an entry holds -/

/-- The text of a thinking entry. -/
def thinkText (txt : PyText) (item : PyDict) : List Char :=
  if IsThinking txt item then solid txt (item.textOf txt "text") else []

theorem runIndexItem_thinking {event : PyDict} (h : event.textOf txt "type" = "assistant.thinking")
    (text : String) : runIndexItem txt event [("text", .str text)] =
      .ok (setNonempty "text" (pyClip text 4000)
        (runIndexBase txt event [("text", .str text)])) := by
  unfold runIndexItem runIndexFields
  rw [h, if_neg (by decide), if_neg (by decide), if_neg (by decide), if_neg (by decide), if_pos rfl]
  rfl

/-- The entry of a thinking event: its text, and no stage. -/
theorem thinking_entry {event : PyDict} (h : event.textOf txt "type" = "assistant.thinking")
    {text : String} {item : PyDict}
    (hitem : runIndexItem txt event [("text", .str text)] = .ok item) :
    IsThinking txt item ∧ item.get? "stage" = none ∧ item.textOf txt "text" = pyClip text 4000 := by
  rw [runIndexItem_thinking h] at hitem
  obtain rfl := Except.ok.inj hitem
  refine ⟨?_, ?_, ?_⟩
  · unfold IsThinking PyDict.textOf PyDict.getD
    rw [get?_setNonempty_of_ne (by decide), type_runIndexBase, h]
    rfl
  · rw [get?_setNonempty_of_ne (by decide), get?_runIndexBase (by decide)]
  · unfold PyDict.textOf PyDict.getD
    rw [get?_setNonempty, get?_runIndexBase (by decide)]
    by_cases hempty : pyClip text 4000 = ""
    · rw [if_neg fun h => h.2 hempty, hempty]
      rfl
    · rw [if_pos ⟨rfl, hempty⟩]
      rfl

/-- The entry of another event is no thinking entry. -/
theorem other_entry {event data item : PyDict} (h : event.textOf txt "type" ≠ "assistant.thinking")
    (hitem : runIndexItem txt event data = .ok item) : ¬ IsThinking txt item := by
  unfold IsThinking PyDict.textOf PyDict.getD
  rw [type_runIndexFields hitem, type_runIndexBase]
  intro hclip
  have hclip : pyClip (event.textOf txt "type") 64 = "assistant.thinking" := hclip
  have hshort : (event.textOf txt "type").length ≤ 64 := by
    have hlength := congrArg String.length hclip
    rw [pyClip, String.length_ofList, List.length_take, String.length_toList] at hlength
    have hthinking : ("assistant.thinking" : String).length = 18 := by decide
    omega
  rw [pyClip_of_length_le hshort] at hclip
  exact h hclip

/-- Every thinking entry is without a stage. -/
def NoStages (txt : PyText) (runIndex : List PyDict) : Prop :=
  ∀ item ∈ runIndex, IsThinking txt item → item.get? "stage" = none

theorem thinkText_merged {previous item merged : PyDict} (hthinking : IsThinking txt item)
    (h : mergeThinking txt previous item = some merged) :
    thinkText txt merged = thinkText txt previous ++ thinkText txt item ∧
      IsThinking txt previous ∧ (merged.get? "stage" = previous.get? "stage") := by
  unfold mergeThinking at h
  dsimp only at h
  split at h
  · next hmerge =>
    obtain rfl := Option.some.inj h
    have hprevious : IsThinking txt previous := by
      unfold IsThinking PyDict.textOf PyDict.getD
      rw [hmerge.1]
      rfl
    have hmerged : IsThinking txt (((previous.set "timestamp" (item.getD "timestamp" .none)).set
        "text" (.str (previous.textOf txt "text" ++ item.textOf txt "text")))) := by
      unfold IsThinking PyDict.textOf PyDict.getD
      rw [PyDict.get?_set, PyDict.get?_set, if_neg (by decide), if_neg (by decide)]
      exact hprevious
    refine ⟨?_, hprevious, ?_⟩
    · unfold thinkText
      rw [if_pos hmerged, if_pos hprevious, if_pos hthinking, ← solid_append]
      congr 1
      unfold PyDict.textOf PyDict.getD
      rw [PyDict.get?_set, if_pos rfl]
      rfl
    · rw [PyDict.get?_set, PyDict.get?_set, if_neg (by decide), if_neg (by decide)]
  · cases h

/-- One more entry, without the bound: its text comes last. -/
theorem thinkText_push {eventType : String} {runIndex : List PyDict} {item : PyDict}
    (htype : IsThinking txt item ↔ eventType = "assistant.thinking")
    (hstage : IsThinking txt item → item.get? "stage" = none) (h : NoStages txt runIndex) :
    (pushUnbounded txt eventType runIndex item).flatMap (thinkText txt) =
        runIndex.flatMap (thinkText txt) ++ thinkText txt item ∧
      NoStages txt (pushUnbounded txt eventType runIndex item) := by
  have happended : (runIndex ++ [item]).flatMap (thinkText txt) =
        runIndex.flatMap (thinkText txt) ++ thinkText txt item ∧
      NoStages txt (runIndex ++ [item]) := by
    rw [List.flatMap_append, List.flatMap_singleton]
    refine ⟨rfl, fun other hin => ?_⟩
    rcases List.mem_append.mp hin with hold | hnew
    · exact h other hold
    · rw [List.mem_singleton.mp hnew]
      exact hstage
  unfold pushUnbounded
  cases hlast : runIndex.getLast? with
  | none => exact happended
  | some previous =>
    by_cases hthinking : eventType = "assistant.thinking"
    · simp only [if_pos hthinking]
      cases hmerge : mergeThinking txt previous item with
      | none => exact happended
      | some merged =>
        obtain ⟨htext, hprevious, hkept⟩ := thinkText_merged (htype.mpr hthinking) hmerge
        have hsplit : runIndex = runIndex.dropLast ++ [previous] :=
          (List.dropLast_append_getLast? previous hlast).symm
        have hin : previous ∈ runIndex := by
          rw [hsplit]
          exact List.mem_append_right _ (List.mem_singleton_self _)
        constructor
        · dsimp only
          rw [List.flatMap_append, List.flatMap_singleton, htext, ← List.append_assoc]
          conv_rhs => rw [hsplit, List.flatMap_append, List.flatMap_singleton]
        · intro other hother hthinks
          rcases List.mem_append.mp hother with hold | hnew
          · exact h other (List.dropLast_subset _ hold) hthinks
          · rw [List.mem_singleton.mp hnew, hkept]
            exact h previous hin hprevious
    · simp only [if_neg hthinking]
      exact happended

/-- The text of an event, where it is a thinking event. -/
def eventText (env : SanitizerEnv) (e : WorkerEvent) : List Char :=
  if e.IsThinking env then solid env.txt (e.shownText env) else []

/-- One event, without the bound: its text comes last. -/
theorem thinkText_step {runIndex : List PyDict} (e : WorkerEvent) (h : NoStages env.txt runIndex) :
    (unboundedStep env.txt runIndex (e.sanitized env)).flatMap (thinkText env.txt) =
        runIndex.flatMap (thinkText env.txt) ++ eventText env e ∧
      NoStages env.txt (unboundedStep env.txt runIndex (e.sanitized env)) := by
  unfold unboundedStep
  by_cases hthinking : e.IsThinking env
  · have htype : e.envelope.textOf env.txt "type" = "assistant.thinking" := hthinking
    have hnot : ¬ (e.sanitized env).1.textOf env.txt "type" = "model.heartbeat" := by
      show ¬ e.envelope.textOf env.txt "type" = _
      rw [htype]
      decide
    have hdata : e.sanitized env = (e.envelope, [("text",
        .str (Sanitizer.redactText env (clippedText env.txt e.data "text" 4000)))]) := by
      unfold WorkerEvent.sanitized
      rw [htype]
      rfl
    simp only [if_neg hnot]
    rw [hdata]
    dsimp only
    cases hitem : runIndexItem env.txt e.envelope [("text",
        .str (Sanitizer.redactText env (clippedText env.txt e.data "text" 4000)))] with
    | error e =>
      rw [runIndexItem_thinking htype] at hitem
      cases hitem
    | ok item =>
      obtain ⟨hthinks, hstage, htext⟩ := thinking_entry htype hitem
      have heventText : eventText env e = thinkText env.txt item := by
        unfold eventText thinkText
        rw [if_pos hthinking, if_pos hthinks, htext]
        rfl
      rw [heventText]
      exact thinkText_push (iff_of_true hthinks htype) (fun _ => hstage) h
  · have hnone : eventText env e = [] := if_neg hthinking
    rw [hnone, List.append_nil]
    by_cases hheartbeat : (e.sanitized env).1.textOf env.txt "type" = "model.heartbeat"
    · simp only [if_pos hheartbeat]
      exact ⟨trivial, h⟩
    · simp only [if_neg hheartbeat]
      cases hitem : runIndexItem env.txt (e.sanitized env).1 (e.sanitized env).2 with
      | error e => exact ⟨rfl, h⟩
      | ok item =>
        have hother : ¬ IsThinking env.txt item := other_entry hthinking hitem
        have hpush := thinkText_push (iff_of_false hother hthinking) (fun h => absurd h hother) h
        have hempty : thinkText env.txt item = [] := if_neg hother
        rw [hempty, List.append_nil] at hpush
        exact hpush

variable (env) in
/-- **All texts are in the list without the bound**, in their order, and none has a stage. -/
theorem thinkText_unboundedAudit (events : List WorkerEvent) :
    (unboundedAudit env events).flatMap (thinkText env.txt) = events.flatMap (eventText env) ∧
      NoStages env.txt (unboundedAudit env events) := by
  have hall : ∀ runIndex : List PyDict, NoStages env.txt runIndex →
      ((events.map (WorkerEvent.sanitized env)).foldl (unboundedStep env.txt) runIndex).flatMap
          (thinkText env.txt) =
        runIndex.flatMap (thinkText env.txt) ++ events.flatMap (eventText env) ∧
      NoStages env.txt
        ((events.map (WorkerEvent.sanitized env)).foldl (unboundedStep env.txt) runIndex) := by
    induction events with
    | nil => exact fun runIndex h => ⟨(List.append_nil _).symm, h⟩
    | cons e rest ih =>
      intro runIndex h
      obtain ⟨htext, hstages⟩ := thinkText_step e h
      rw [List.map_cons, List.foldl_cons, List.flatMap_cons, ← List.append_assoc, ← htext]
      exact ih _ hstages
  exact hall [] fun _ hin => absurd hin List.not_mem_nil

/-- Without a stage, every text is replayed as other thinking. -/
theorem replayed_of_noStages {runIndex : List PyDict} (h : NoStages txt runIndex) :
    runIndex.flatMap (planningOf txt) = [] ∧
      runIndex.flatMap (otherOf txt) = runIndex.flatMap (thinkText txt) := by
  have hstage : ∀ item ∈ runIndex, IsThinking txt item → replayStage txt item ≠ "planning" := by
    intro item hin hthinking
    unfold replayStage PyDict.getD
    rw [h item hin hthinking]
    show ("execute" : String) ≠ "planning"
    decide
  constructor
  · rw [List.flatMap_eq_nil_iff]
    exact fun item hin => if_neg fun hplanning => hstage item hin hplanning.1 hplanning.2
  · refine List.flatMap_congr fun item hin => ?_
    unfold otherOf thinkText
    by_cases hthinking : IsThinking txt item
    · rw [if_pos ⟨hthinking, hstage item hin hthinking⟩, if_pos hthinking]
    · rw [if_neg fun hother => hthinking hother.1, if_neg hthinking]

variable (isWord) in
/-- What a message shows of an audit list without stages. -/
theorem runDetail_texts (task : TaskItem) (h : NoStages txt task.runIndex) :
    solid txt ((runDetail txt isWord task).planningThinking.getD "") = [] ∧
      solid txt ((runDetail txt isWord task).thinking.getD "") =
        task.runIndex.flatMap (thinkText txt) ∧
      (runDetail txt isWord task).blocks.flatMap (blockText txt) =
        task.runIndex.flatMap (thinkText txt) := by
  obtain ⟨hplanning, hother⟩ := replayed_of_noStages h
  have hadds := RunReplay.adds_replay txt task.runIndex {}
  have hend := hadds.trans (RunReplay.adds_flush _)
  have hjoin : ∀ parts : List String, solid txt ((if parts = [] then none
      else some (joinLines parts)).getD "") = parts.flatMap (solid txt) := by
    intro parts
    by_cases hparts : parts = []
    · rw [if_pos hparts, hparts]
      rfl
    · rw [if_neg hparts, Option.getD_some, solid_joinLines]
  refine ⟨?_, ?_, ?_⟩
  · refine (hjoin _).trans (hend.planning.trans ?_)
    rw [hplanning]
    rfl
  · refine (hjoin _).trans (hend.thinking.trans ?_)
    rw [hother, List.append_nil]
    rfl
  · have hblocks : (RunReplay.replay txt task.runIndex).flush.blocks.flatMap (blockText txt) =
        task.runIndex.flatMap (thinkText txt) := by
      refine (RunReplay.behaviorText_flush _).trans (hadds.behavior.trans ?_)
      rw [hother]
      rfl
    unfold runDetail
    dsimp only
    generalize (if (RunReplay.replay txt task.runIndex).flush.reviewSkipped = true ∧
      (RunReplay.replay txt task.runIndex).flush.reviewEntries = [] then
      [RunReplay.skippedEntry txt task.runIndex]
      else (RunReplay.replay txt task.runIndex).flush.reviewEntries) = reviewEntries
    split
    · exact hblocks
    · rw [List.flatMap_append, hblocks, List.flatMap_singleton]
      exact List.append_nil _

/-! ## Attaching -/

theorem foldl_modify_of_not_mem {β γ : Type} (f : β → γ → γ) (pairs : List (Nat × β)) (out : List γ)
    {place : Nat} (h : place ∉ pairs.map Prod.fst) :
    (pairs.foldl (fun out pair => out.modify pair.1 (f pair.2)) out)[place]? = out[place]? := by
  induction pairs generalizing out with
  | nil => rfl
  | cons pair rest ih =>
    rw [List.map_cons, List.mem_cons, not_or] at h
    rw [List.foldl_cons, ih _ h.2, List.getElem?_modify_ne _ _ (Ne.symm h.1)]

/-- Each place of a list is changed by the one pair that names it. -/
theorem foldl_modify_of_mem {β γ : Type} (f : β → γ → γ) (pairs : List (Nat × β)) (out : List γ)
    (hnodup : (pairs.map Prod.fst).Nodup) {place : Nat} {b : β} (h : (place, b) ∈ pairs) :
    (pairs.foldl (fun out pair => out.modify pair.1 (f pair.2)) out)[place]? =
      out[place]?.map (f b) := by
  induction pairs generalizing out with
  | nil => cases h
  | cons pair rest ih =>
    rw [List.map_cons, List.nodup_cons] at hnodup
    rw [List.foldl_cons]
    rcases List.mem_cons.mp h with rfl | hrest
    · rw [foldl_modify_of_not_mem f rest _ hnodup.1]
      exact List.getElem?_modify_eq _ _ _
    · have hne : pair.1 ≠ place := fun he => hnodup.1 (he ▸ List.mem_map_of_mem hrest)
      rw [ih _ hnodup.2 hrest, List.getElem?_modify_ne _ _ hne]

theorem map_fst_zip_sublist {β γ : Type} : ∀ (l : List β) (r : List γ),
    ((l.zip r).map Prod.fst).Sublist l
  | [], _ => by rw [List.zip_nil_left]; exact List.Sublist.refl _
  | _ :: _, [] => List.nil_sublist _
  | b :: l, _ :: r => (map_fst_zip_sublist l r).cons_cons b

variable (txt isWord) in
/-- What is attached to the message of a task. -/
theorem attachRunDetail_get {messages : List PyDict} {tasks : List TaskItem} {place : Nat}
    {task : TaskItem} (h : (place, task) ∈ pairedTasks messages tasks) :
    ∃ message, (attachRunDetail txt isWord messages tasks)[place]? =
      some (message, some (runDetail txt isWord task)) := by
  have hnodup : ((pairedTasks messages tasks).map Prod.fst).Nodup := by
    unfold pairedTasks
    refine List.Nodup.sublist (map_fst_zip_sublist _ _) ?_
    exact List.nodup_reverse.mpr (List.Nodup.filter _ List.nodup_range)
  have hbound : place < messages.length := by
    have hplace := (List.of_mem_zip h).1
    rw [List.mem_reverse] at hplace
    exact List.mem_range.mp (List.mem_of_mem_filter hplace)
  refine ⟨messages[place], ?_⟩
  have hget := foldl_modify_of_mem (fun (task : TaskItem) (message : PyDict × Option RunDetail) =>
    (message.1, some (runDetail txt isWord task))) _ (messages.map fun message => (message, none))
    hnodup h
  refine hget.trans ?_
  rw [List.getElem?_map, List.getElem?_eq_getElem hbound]
  rfl

/-- A completed task with an audit list. -/
def replayedTask (runIndex : List PyDict) : TaskItem where
  status := "completed"
  stopReason := none
  finalAnswer := ""
  createdAt := ""
  runIndex := runIndex

/-- The last message of the assistant shows the task, where there is one task. -/
theorem exists_paired (task : TaskItem) :
    (0, task) ∈ pairedTasks [[("role", .str "assistant")]] [task] := by
  unfold pairedTasks
  rw [show ((List.range [[("role", PyValue.str "assistant")]].length).filter fun i =>
    PyDict.getD (([[("role", PyValue.str "assistant")]] : List PyDict)[i]?.getD []) "role" .none =
      .str "assistant") = [0] by decide]
  exact List.mem_cons_self

/-- **The thinking of a run is replayed by stages** exactly when no planning event has a text, and
the audit entries that the bound pushed out had no thinking text. -/
theorem keepsStage_iff (env : SanitizerEnv) (isWord : Char → Bool) (events : List WorkerEvent) :
    KeepsStage env isWord events ↔
      (∀ e ∈ events, e.IsThinking env → e.Planning env → solid env.txt (e.shownText env) = []) ∧
        ∀ item ∈ droppedEntries env events, IsThinking env.txt item →
          solid env.txt (item.textOf env.txt "text") = [] := by
  obtain ⟨hall, hstages⟩ := thinkText_unboundedAudit env events
  have hkept : NoStages env.txt (auditOf env events) := by
    rw [auditOf_eq]
    exact fun item hin => hstages item (List.mem_of_mem_drop hin)
  have hsplit : (droppedEntries env events).flatMap (thinkText env.txt) ++
      (auditOf env events).flatMap (thinkText env.txt) = events.flatMap (eventText env) := by
    rw [← hall, ← List.flatMap_append, auditOf_eq]
    exact congrArg (List.flatMap (thinkText env.txt)) (List.take_append_drop _ _)
  have hplanning : (∀ e ∈ events, e.IsThinking env → e.Planning env →
      solid env.txt (e.shownText env) = []) ↔ planningTexts env events = [] := by
    unfold planningTexts
    rw [List.flatMap_eq_nil_iff]
    refine forall_congr' fun e => forall_congr' fun _ => ?_
    rw [← and_imp, ite_eq_right_iff]
  have hdropped : (∀ item ∈ droppedEntries env events, IsThinking env.txt item →
      solid env.txt (item.textOf env.txt "text") = []) ↔
      (droppedEntries env events).flatMap (thinkText env.txt) = [] := by
    rw [List.flatMap_eq_nil_iff]
    refine forall_congr' fun item => forall_congr' fun _ => ?_
    rw [thinkText, ite_eq_right_iff]
  have hothers : planningTexts env events = [] →
      otherTexts env events = events.flatMap (eventText env) := by
    intro hnone
    have hblank := hplanning.mpr hnone
    refine List.flatMap_congr fun e hin => ?_
    unfold eventText
    by_cases hthinking : e.IsThinking env
    · by_cases hstage : e.Planning env
      · rw [if_neg fun h => h.2 hstage, if_pos hthinking, hblank e hin hthinking hstage]
      · rw [if_pos ⟨hthinking, hstage⟩, if_pos hthinking]
    · rw [if_neg fun h => hthinking h.1, if_neg hthinking]
  rw [hplanning, hdropped]
  constructor
  · intro h
    -- a message with the one task
    have hpaired := exists_paired (replayedTask (auditOf env events))
    obtain ⟨message, detail, hget, hshows⟩ := h _ _ 0 _ hpaired rfl
    obtain ⟨message', hattached⟩ := attachRunDetail_get isWord env.txt hpaired
    rw [hattached] at hget
    obtain ⟨-, hdetail⟩ := Prod.mk.inj (Option.some.inj hget)
    obtain rfl := Option.some.inj hdetail
    obtain ⟨htexts, hthinking, -⟩ :=
      runDetail_texts isWord (replayedTask (auditOf env events)) hkept
    have hnone : planningTexts env events = [] := hshows.planning.symm.trans htexts
    refine ⟨hnone, ?_⟩
    have hsame : (auditOf env events).flatMap (thinkText env.txt)
        = events.flatMap (eventText env) :=
      hthinking.symm.trans (hshows.thinking.trans (hothers hnone))
    rw [← hsame] at hsplit
    exact List.append_left_eq_self.mp hsplit
  · rintro ⟨hnone, hlost⟩ messages tasks place task hpaired hindex
    obtain ⟨message, hget⟩ := attachRunDetail_get isWord env.txt hpaired
    rw [← hindex] at hkept hsplit
    obtain ⟨htexts, hthinking, hblocks⟩ := runDetail_texts isWord task hkept
    rw [hlost, List.nil_append] at hsplit
    refine ⟨message, _, hget, htexts.trans hnone.symm, ?_, ?_⟩
    · rw [hthinking, hsplit, hothers hnone]
    · rw [hblocks, hsplit, hothers hnone]

end Thinking

/-! ## A plan that is shown as other thinking -/

namespace LostStage

def env : SanitizerEnv where
  txt := .ascii
  upper := String.toUpper
  secrets := []
  others _ data := data

/-- The model plans. -/
def events : List WorkerEvent :=
  [{ envelope := [("type", .str "assistant.thinking"), ("event_id", .str "evt_1"),
      ("run_id", .str "run_1"), ("timestamp", .str "2026-01-01T00:00:00Z"), ("phase", .str "talk")]
     data := [("text", .str "Read the code."), ("stage", .str "planning")] }]

def isWord (c : Char) : Bool := c.isAlphanum || c = '_'

end LostStage

/-- The sanitizer drops the stage, so a plan is no planning any more. -/
theorem not_keepsStage : ¬ ∀ (env : SanitizerEnv) (isWord : Char → Bool)
    (events : List WorkerEvent), KeepsStage env isWord events := by
  intro hclaim
  obtain ⟨message, detail, hget, hshows⟩ := hclaim LostStage.env LostStage.isWord LostStage.events
    _ _ 0 _ (exists_paired (replayedTask (auditOf LostStage.env LostStage.events))) rfl
  have hdetail : detail.planningThinking = none := by
    have hattached := congrArg (fun found : Option (PyDict × Option RunDetail) =>
      (found.bind Prod.snd).bind RunDetail.planningThinking) hget
    refine hattached.symm.trans ?_
    decide +kernel
  have hplanning := hshows.planning
  rw [hdetail] at hplanning
  revert hplanning
  decide +kernel

end ThreadForge

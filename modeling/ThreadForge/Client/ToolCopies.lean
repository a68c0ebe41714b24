import ThreadForge.Lib.PyValue
import ThreadForge.Lib.Transition

/-!
# The copies of a tool call in the chat

`useSessions.ts`: an assistant message keeps the tool calls of its run in a list, and once more in
the behavior blocks they are shown in. The events of the run change one of the two or both.

The approval card of an event is looked up in the messages as they were last rendered, which can be
older than the message that the event changes.

## Main results

* `coherent_moves_iff` — the runs in which the two copies agree after every event.
-/

namespace ThreadForge

open Transition

namespace LiveTools

/-! ## Tool calls -/

inductive ToolStatus
  | pending
  | running
  | completed
  | rejected
  | error
  deriving DecidableEq, Repr

structure ToolCall where
  id : String
  toolName : String
  args : Option PyDict := none
  status : ToolStatus
  result : Option String := none
  requiresApproval : Bool := false
  approvalId : Option String := none
  taskId : Option String := none

structure ToolEventUpdate where
  id : String
  toolName : String
  status : ToolStatus
  args : Option PyDict := none
  result : Option String := none

/-- The tool call that is appended for an update. -/
def ToolEventUpdate.fresh (update : ToolEventUpdate) : ToolCall where
  id := update.id
  toolName := update.toolName
  status := update.status
  args := update.args
  result := update.result

/-- The tool call with the update. -/
def ToolEventUpdate.patch (update : ToolEventUpdate) (tool : ToolCall) : ToolCall :=
  { tool with
    toolName := if update.toolName = "" then tool.toolName else update.toolName
    status := update.status
    args := update.args.or tool.args
    result := update.result.or tool.result }

/-- The position of the latest tool call with a name. -/
def latestOf (tools : List ToolCall) (toolName : String) : Option Nat :=
  (List.range tools.length).reverse.find? fun position =>
    (tools[position]?).any fun tool => tool.toolName = toolName

/-- The position an update is for. -/
def positionOf (tools : List ToolCall) (update : ToolEventUpdate) : Option Nat :=
  if update.id ≠ "" then tools.findIdx? fun tool => tool.id = update.id
  else if update.toolName ≠ "" then latestOf tools update.toolName
  else none

/-- `applyToolEvent`. -/
def applyToolEvent (toolCalls : Option (List ToolCall)) (update : ToolEventUpdate) :
    Option (List ToolCall) :=
  match positionOf (toolCalls.getD []) update with
  | none => if update.id = "" then toolCalls else some (toolCalls.getD [] ++ [update.fresh])
  | some position => some ((toolCalls.getD []).modify position update.patch)

/-- The status and the result of a tool call of a run that has ended. -/
def settled (terminalStatus : String) (tool : ToolCall) : ToolCall :=
  match tool.status with
  | .running =>
    if terminalStatus = "completed" then
      { tool with status := .completed, result := some (tool.result.getD "工具已执行完成") }
    else if terminalStatus = "cancelled" ∨ terminalStatus = "interrupted" then
      { tool with status := .rejected, result := some (tool.result.getD "任务已取消，工具未完成") }
    else { tool with status := .error, result := some (tool.result.getD "任务已停止，工具未完成") }
  | .pending =>
    { tool with status := .rejected, result := some (tool.result.getD "任务已结束，工具未执行") }
  | _ => tool

/-- `reconcileToolCalls`. -/
def reconcileToolCalls (toolCalls : Option (List ToolCall)) (terminalStatus : String) :
    Option (List ToolCall) := toolCalls.map fun tools => tools.map (settled terminalStatus)

/-! ## Blocks -/

inductive MessageBlock
  | commentary (text : String) (turn : Option Nat)
  | behavior (thinking : Option String) (toolCalls : Option (List ToolCall)) (turn : Option Nat)
  | review (entries : List PyDict) (thinking : Option String) (turn : Option Nat)

/-- The blocks with another last one, or with one more. -/
def changeLast (blocks : Option (List MessageBlock)) (change : MessageBlock → Option MessageBlock)
    (added : MessageBlock) : List MessageBlock :=
  let list := blocks.getD []
  match list.getLast?.bind change with
  | some last => list.dropLast ++ [last]
  | none => list ++ [added]

/-- `appendDeltaCommentary`. -/
def appendDeltaCommentary (blocks : Option (List MessageBlock)) (text : String) (turn : Nat) :
    List MessageBlock :=
  changeLast blocks
    (fun
      | .commentary before lastTurn =>
        if lastTurn = some turn then some (.commentary (before ++ text) lastTurn) else none
      | _ => none)
    (.commentary text (some turn))

/-- `appendToolCallBlock`. -/
def appendToolCallBlock (blocks : Option (List MessageBlock)) (update : ToolEventUpdate)
    (turn : Nat) : List MessageBlock :=
  changeLast blocks
    (fun
      | .behavior thinking toolCalls _ =>
        some (.behavior thinking (applyToolEvent toolCalls update) (some turn))
      | _ => none)
    (.behavior none (some [update.fresh]) (some turn))

/-- `updateToolCallInBlocks`. -/
def updateToolCallInBlocks (blocks : Option (List MessageBlock)) (toolCallId : String)
    (updater : ToolCall → ToolCall) : List MessageBlock :=
  (blocks.getD []).map fun
    | .behavior thinking (some tools) turn => .behavior thinking
        (some (tools.map fun tool => if tool.id = toolCallId then updater tool else tool)) turn
    | block => block

/-- `appendReviewEntry`. -/
def appendReviewEntry (blocks : Option (List MessageBlock)) (entry : PyDict) (turn : Nat) :
    List MessageBlock :=
  changeLast blocks
    (fun
      | .review entries thinking _ => some (.review (entries ++ [entry]) thinking (some turn))
      | _ => none)
    (.review [entry] none (some turn))

/-- `appendReviewBlock`. -/
def appendReviewBlock (blocks : Option (List MessageBlock)) (entry : PyDict) (turn : Nat) :
    List MessageBlock := blocks.getD [] ++ [.review [entry] none (some turn)]

/-- `hasPendingReviewBlock`. -/
def hasPendingReviewBlock (blocks : Option (List MessageBlock)) : Bool :=
  match (blocks.getD []).getLast? with
  | some (.review entries _ _) => entries.isEmpty
  | _ => false

/-- `appendReviewThinking`. -/
def appendReviewThinking (blocks : Option (List MessageBlock)) (text : String) (turn : Nat) :
    List MessageBlock :=
  changeLast blocks
    (fun
      | .review [] thinking _ => some (.review [] (some (thinking.getD "" ++ text)) (some turn))
      | _ => none)
    (.review [] (some text) (some turn))

/-- `appendTurnThinking`. -/
def appendTurnThinking (blocks : Option (List MessageBlock)) (text : String) (turn : Nat) :
    List MessageBlock :=
  changeLast blocks
    (fun
      | .behavior thinking toolCalls lastTurn =>
        if lastTurn = some turn then
          some (.behavior (some (thinking.getD "" ++ text)) toolCalls lastTurn)
        else none
      | _ => none)
    (.behavior (some text) none (some turn))

/-! ## The run -/

structure PendingApproval where
  approvalId : String
  toolCallId : String := ""
  toolName : String
  args : Option PyDict := none

/-- The events, with what the handler takes from them. -/
inductive Envelope
  | snapshot (status : String) (pending : Option PendingApproval)
  | modelStarted
  | delta (text : String) (final : Bool)
  | commentary (text : String)
  | thinking (text stage : String)
  | reviewCompleted (entry : PyDict)
  | rebuttal (entry : PyDict)
  | toolRequested (toolCallId toolName : String) (args : Option PyDict)
  | toolStarted (toolCallId toolName : String)
  | toolEnded (failed : Bool) (toolCallId toolName : String) (result : Option String)
  | approvalRequired (approval : PendingApproval)
  | approvalResolved (approvalId decision : String)
  | taskEnded (status : String)
  | other

/-- A run and its assistant message. `rendered` are the tool calls in `sessionsRef`. -/
structure LiveRun where
  taskId : String
  toolCalls : Option (List ToolCall) := none
  blocks : Option (List MessageBlock) := none
  rendered : List ToolCall := []
  approvals : List (String × String) := []
  liveTurn : Nat := 0
  active : Bool := true

/-- An event of the stream, an end that another call has found, or a rendering. -/
inductive Action
  | frame (envelope : Envelope)
  | finish (terminalStatus : String)
  | render

def terminalStatuses : List String :=
  ["completed", "cancelled", "failed", "interrupted", "blocked"]

namespace LiveRun

/-- `finishRun`. -/
def finishRun (s : LiveRun) (terminalStatus : String) : LiveRun :=
  if s.active then
    -- the blocks keep their tool calls as they are
    { s with active := false, toolCalls := reconcileToolCalls s.toolCalls terminalStatus }
  else s

/-- The card that `ensureApprovalCard` makes, unless there is one. -/
def approvalCard (s : LiveRun) (approval : PendingApproval) : Option ToolCall :=
  -- looked up in the messages that were rendered last
  let existing := if approval.toolCallId ≠ "" then
      s.rendered.find? fun tool => tool.id = approval.toolCallId
    else (latestOf s.rendered approval.toolName).bind fun position => s.rendered[position]?
  if existing.bind ToolCall.approvalId = some approval.approvalId then none
  else
    let existingId := (existing.map ToolCall.id).getD ""
    some {
      id := if approval.toolCallId ≠ "" then approval.toolCallId
        else if existingId ≠ "" then existingId else "tc-" ++ approval.approvalId
      toolName := approval.toolName
      args := approval.args
      status := .pending
      requiresApproval := true
      approvalId := some approval.approvalId
      taskId := some s.taskId }

/-- The tool calls with a card in the place of the one with its id. -/
def placeCard (toolCalls : Option (List ToolCall)) (card : ToolCall) : List ToolCall :=
  match (toolCalls.getD []).findIdx? fun tool => tool.id = card.id with
  | some position => (toolCalls.getD []).modify position fun _ => card
  | none => toolCalls.getD [] ++ [card]

/-- `ensureApprovalCard`. -/
def ensureApprovalCard (s : LiveRun) (approval : PendingApproval) : LiveRun :=
  match s.approvalCard approval with
  | none => s
  | some card => { s with
      approvals := (approval.approvalId, card.id) :: s.approvals
      toolCalls := some (placeCard s.toolCalls card) }

/-- `updateTool`. -/
def updateTool (s : LiveRun) (toolCallId : String) (updater : ToolCall → ToolCall) : LiveRun :=
  { s with toolCalls := s.toolCalls.map fun tools =>
      tools.map fun tool => if tool.id = toolCallId then updater tool else tool }

/-- `ensureToolCard`. -/
def ensureToolCard (s : LiveRun) (update : ToolEventUpdate) : LiveRun :=
  { s with
    toolCalls := applyToolEvent s.toolCalls update
    blocks := some (appendToolCallBlock s.blocks update s.liveTurn) }

/-- `markToolByEvent`. -/
def markToolByEvent (s : LiveRun) (update : ToolEventUpdate) : LiveRun :=
  { s with
    toolCalls := applyToolEvent s.toolCalls update
    -- an update without an id is for a name in the list, and for no tool call of a block
    blocks := some (updateToolCallInBlocks s.blocks update.id fun tool =>
      ((applyToolEvent (some [tool]) update).bind List.head?).getD tool) }

/-- What a decision makes of a tool call. -/
def decided (decision : String) (tool : ToolCall) : ToolCall :=
  if decision = "approved" then { tool with status := .running }
  else { tool with
    status := .rejected
    result := some (if decision = "cancelled" then "已取消，未执行" else "已拒绝该操作") }

/-- The tool call of an approval. -/
def approvedTool (s : LiveRun) (approvalId : String) : String :=
  (s.approvals.lookup approvalId).getD ""

/-- `handleEnvelope`. -/
def handleEnvelope (s : LiveRun) : Envelope → LiveRun
  | .snapshot status pending =>
    if status ∈ terminalStatuses then s.finishRun status
    else match pending with
      | some approval => s.ensureApprovalCard approval
      | none => s
  | .modelStarted => { s with
      liveTurn := s.liveTurn + 1
      blocks := some (s.blocks.getD [] ++ [.behavior none none (some (s.liveTurn + 1))]) }
  | .delta text final =>
    if text = "" ∨ final = true then s
    else { s with blocks := some (appendDeltaCommentary s.blocks text s.liveTurn) }
  | .commentary text =>
    if text = "" then s
    else { s with blocks := some (s.blocks.getD [] ++ [.commentary text (some s.liveTurn)]) }
  | .thinking text stage =>
    if text = "" ∨ stage = "planning" then s
    else if stage = "review" then
      { s with blocks := some (appendReviewThinking s.blocks text s.liveTurn) }
    else { s with blocks := some (appendTurnThinking s.blocks text s.liveTurn) }
  | .reviewCompleted entry => { s with
      blocks := some (if hasPendingReviewBlock s.blocks then
        appendReviewEntry s.blocks entry s.liveTurn
        else appendReviewBlock s.blocks entry s.liveTurn) }
  | .rebuttal entry => { s with blocks := some (appendReviewEntry s.blocks entry s.liveTurn) }
  | .toolRequested toolCallId toolName args =>
    if toolCallId = "" then s
    else s.ensureToolCard ⟨toolCallId, toolName, .running, args, none⟩
  | .toolStarted toolCallId toolName =>
    s.markToolByEvent ⟨toolCallId, toolName, .running, none, none⟩
  | .toolEnded failed toolCallId toolName result =>
    s.markToolByEvent ⟨toolCallId, toolName, if failed then .error else .completed, none, result⟩
  | .approvalRequired approval => s.ensureApprovalCard approval
  | .approvalResolved approvalId decision =>
    if s.approvedTool approvalId = "" then s
    else s.updateTool (s.approvedTool approvalId) (decided decision)
  | .taskEnded _ | .other => s

/-- `onFrame`, `finishRun` and a rendering. The stream of a run that has ended is closed. -/
def next (s : LiveRun) : Action → LiveRun
  | .frame envelope =>
    if s.active then
      match envelope with
      | .taskEnded status => (s.handleEnvelope envelope).finishRun status
      | _ => s.handleEnvelope envelope
    else s
  | .finish terminalStatus => s.finishRun terminalStatus
  | .render => { s with rendered := s.toolCalls.getD [] }

/-- The steps of a run. -/
def Step (s : LiveRun) (action : Action) (s' : LiveRun) : Prop := s' = s.next action

end LiveRun

/-! ## The copies -/

/-- The tool calls of a block. -/
def MessageBlock.tools : MessageBlock → List ToolCall
  | .behavior _ toolCalls _ => toolCalls.getD []
  | _ => []

/-- A tool call that has not ended. -/
def ToolCall.Open (tool : ToolCall) : Prop := tool.status = .running ∨ tool.status = .pending

instance (tool : ToolCall) : Decidable tool.Open :=
  inferInstanceAs (Decidable (tool.status = .running ∨ tool.status = .pending))

/-- Two copies agree. -/
def Alike (entry tool : ToolCall) : Prop :=
  entry.id = tool.id ∧ entry.status = tool.status ∧ entry.result = tool.result

instance (entry tool : ToolCall) : Decidable (Alike entry tool) :=
  inferInstanceAs (Decidable (entry.id = tool.id ∧ entry.status = tool.status ∧
    entry.result = tool.result))

namespace LiveRun

/-- The tool calls of the message. -/
def entries (s : LiveRun) : List ToolCall := s.toolCalls.getD []

/-- The tool calls of each block. -/
def toolLists (s : LiveRun) : List (List ToolCall) := (s.blocks.getD []).map MessageBlock.tools

/-- The tool calls shown in blocks. -/
def shown (s : LiveRun) : List ToolCall := s.toolLists.flatten

/-- Every tool call shown in a block is as in the list of the message. -/
def Coherent (s : LiveRun) : Prop := ∀ tool ∈ s.shown, ∃ entry ∈ s.entries, Alike entry tool

instance (s : LiveRun) : Decidable s.Coherent :=
  inferInstanceAs (Decidable (∀ tool ∈ s.shown, ∃ entry ∈ s.entries, Alike entry tool))

/-- No tool call shown in a block is running or pending. -/
def Quiet (s : LiveRun) : Prop := ∀ tool ∈ s.shown, ¬ tool.Open

instance (s : LiveRun) : Decidable s.Quiet :=
  inferInstanceAs (Decidable (∀ tool ∈ s.shown, ¬ tool.Open))

/-- What holds of the tool calls along every run: an id stands once in the list and once in a block,
a shown id is not empty, and a run that has ended has no open entry. -/
structure Sound (s : LiveRun) : Prop where
  entries : (s.entries.map ToolCall.id).Nodup
  lists : ∀ tools ∈ s.toolLists, (tools.map ToolCall.id).Nodup
  named : ∀ tool ∈ s.shown, tool.id ≠ ""
  ended : s.active = false → ∀ entry ∈ s.entries, ¬ entry.Open

/-! ## Which events keep the copies alike -/

/-- The tool calls of the last block, if it is a behavior block. -/
def lastTools (s : LiveRun) : List ToolCall :=
  ((s.blocks.getD []).getLast?.map MessageBlock.tools).getD []

/-- The tool calls of the blocks before the last. -/
def earlierTools (s : LiveRun) : List ToolCall := s.toolLists.dropLast.flatten

/-- A card, if one is made, is for a tool call that is not shown, or shown as pending. -/
def CardMirrors (s : LiveRun) (approval : PendingApproval) : Prop :=
  ∀ card ∈ s.approvalCard approval, ∀ tool ∈ s.shown, tool.id = card.id →
    tool.status = .pending ∧ tool.result = none

/-- A request is for a new tool call, or for one whose copies a further request leaves alike. -/
def RequestMirrors (s : LiveRun) (toolCallId : String) : Prop :=
  (∀ tool ∈ s.earlierTools, tool.id = toolCallId → tool.status = .running) ∧
    ((∀ tool ∈ s.lastTools, tool.id ≠ toolCallId) →
      ∀ entry ∈ s.entries, entry.id = toolCallId → entry.result = none)

/-- A tool event without an id is for a tool call that is not shown, or shown so already. -/
def NameMirrors (s : LiveRun) (toolName : String) (status : ToolStatus) (result : Option String) :
    Prop :=
  toolName ≠ "" → ∀ position ∈ latestOf s.entries toolName, ∀ entry ∈ s.entries[position]?,
    ∀ tool ∈ s.shown, tool.id = entry.id →
      tool.status = status ∧ (result = none ∨ tool.result = result)

/-- A decision is on a tool call that is not shown, or shown so already. -/
def DecisionMirrors (s : LiveRun) (approvalId decision : String) : Prop :=
  ∀ tool ∈ s.shown, tool.id = s.approvedTool approvalId →
    if decision = "approved" then tool.status = .running
    else tool.status = .rejected ∧
      tool.result = some (if decision = "cancelled" then "已取消，未执行" else "已拒绝该操作")

/-- The guard of an event. -/
def EnvelopeMirrors (s : LiveRun) : Envelope → Prop
  | .snapshot status pending =>
    if status ∈ terminalStatuses then s.Quiet else ∀ approval ∈ pending, s.CardMirrors approval
  | .taskEnded _ => s.Quiet
  | .approvalRequired approval => s.CardMirrors approval
  | .approvalResolved approvalId decision => s.DecisionMirrors approvalId decision
  | .toolRequested toolCallId _ _ => toolCallId ≠ "" → s.RequestMirrors toolCallId
  | .toolStarted toolCallId toolName => toolCallId = "" → s.NameMirrors toolName .running none
  | .toolEnded failed toolCallId toolName result =>
    toolCallId = "" → s.NameMirrors toolName (if failed then .error else .completed) result
  | _ => True

/-- The guard of a step. -/
def Mirrors (s : LiveRun) : Action → Prop
  | .finish _ => s.active → s.Quiet
  | .render => True
  | .frame envelope => s.active → s.EnvelopeMirrors envelope

end LiveRun

/-! ## Changing the tool call with an id -/

/-- The list with another tool call in the place of the one with an id, or with one more. -/
def placed (tools : List ToolCall) (id : String) (change : ToolCall → ToolCall) (added : ToolCall) :
    List ToolCall :=
  if ∃ tool ∈ tools, tool.id = id then
    tools.map fun tool => if tool.id = id then change tool else tool
  else tools ++ [added]

section Placed

variable {tools : List ToolCall} {id : String} {change : ToolCall → ToolCall} {added : ToolCall}

theorem mem_changed {tool : ToolCall} :
    tool ∈ tools.map (fun tool => if tool.id = id then change tool else tool) ↔
      (tool ∈ tools ∧ tool.id ≠ id) ∨ ∃ before ∈ tools, before.id = id ∧ tool = change before := by
  rw [List.mem_map]
  constructor
  · rintro ⟨before, hbefore, rfl⟩
    by_cases hid : before.id = id
    · exact .inr ⟨before, hbefore, hid, if_pos hid⟩
    · rw [if_neg hid]
      exact .inl ⟨hbefore, hid⟩
  · rintro (⟨htool, hid⟩ | ⟨before, hbefore, hid, rfl⟩)
    · exact ⟨tool, htool, if_neg hid⟩
    · exact ⟨before, hbefore, if_pos hid⟩

theorem mem_placed {tool : ToolCall} :
    tool ∈ placed tools id change added ↔
      (tool ∈ tools ∧ tool.id ≠ id) ∨ (∃ before ∈ tools, before.id = id ∧ tool = change before) ∨
        ((∀ before ∈ tools, before.id ≠ id) ∧ tool = added) := by
  unfold placed
  split
  next hmem =>
    obtain ⟨before, hbefore, hid⟩ := hmem
    rw [mem_changed]
    refine or_congr_right ⟨.inl, ?_⟩
    rintro (h | ⟨habsent, -⟩)
    · exact h
    · exact absurd hid (habsent before hbefore)
  next hmem =>
    have habsent : ∀ before ∈ tools, before.id ≠ id := fun before hbefore hid =>
      hmem ⟨before, hbefore, hid⟩
    rw [List.mem_append, List.mem_singleton]
    constructor
    · rintro (htool | rfl)
      · exact .inl ⟨htool, habsent tool htool⟩
      · exact .inr (.inr ⟨habsent, rfl⟩)
    · rintro (⟨htool, -⟩ | ⟨before, hbefore, hid, -⟩ | ⟨-, rfl⟩)
      · exact .inl htool
      · exact absurd hid (habsent before hbefore)
      · exact .inr rfl

/-- A change that keeps the id keeps the ids. -/
theorem changed_ids (hchange : ∀ tool, tool.id = id → (change tool).id = id) :
    (tools.map fun tool => if tool.id = id then change tool else tool).map ToolCall.id
      = tools.map ToolCall.id := by
  rw [List.map_map]
  refine List.map_congr_left fun tool _ => ?_
  simp only [Function.comp_apply]
  split
  next hid => rw [hchange tool hid, hid]
  · rfl

theorem placed_nodup (hnodup : (tools.map ToolCall.id).Nodup)
    (hchange : ∀ tool, tool.id = id → (change tool).id = id) (hadded : added.id = id) :
    ((placed tools id change added).map ToolCall.id).Nodup := by
  unfold placed
  split
  · rw [changed_ids hchange]
    exact hnodup
  next hmem =>
    rw [List.map_append, List.map_singleton, List.nodup_append]
    refine ⟨hnodup, List.nodup_singleton _, ?_⟩
    intro a ha b hb
    rw [List.mem_singleton.mp hb, hadded]
    rintro rfl
    obtain ⟨tool, htool, hid⟩ := List.mem_map.mp ha
    exact hmem ⟨tool, htool, hid⟩

/-- Where ids are unique, the change at a position is the change at an id. -/
theorem modify_eq_map (hnodup : (tools.map ToolCall.id).Nodup) {position : Nat} {entry : ToolCall}
    (hentry : tools[position]? = some entry) :
    tools.modify position change
      = tools.map fun tool => if tool.id = entry.id then change tool else tool := by
  refine List.ext_getElem? fun other => ?_
  rw [List.getElem?_modify, List.getElem?_map]
  cases hother : tools[other]? with
  | none => rfl
  | some tool =>
    have hat : position = other ↔ tool.id = entry.id := by
      constructor
      · rintro rfl
        rw [hentry] at hother
        rw [Option.some.inj hother]
      · intro hid
        refine (List.getElem?_inj (l := tools.map ToolCall.id) ?_ hnodup).mp ?_
        · rw [List.length_map]
          exact (List.getElem?_eq_some_iff.mp hentry).1
        · rw [List.getElem?_map, List.getElem?_map, hentry, hother, Option.map_some,
            Option.map_some, hid]
    simp only [Option.map_some, hat]
    rfl

/-- The first position of an id, changed or extended. -/
theorem modify_findIdx (hnodup : (tools.map ToolCall.id).Nodup) :
    (match tools.findIdx? fun tool => tool.id = id with
      | some position => tools.modify position change
      | none => tools ++ [added]) = placed tools id change added := by
  unfold placed
  cases hposition : tools.findIdx? fun tool => tool.id = id with
  | none =>
    rw [List.findIdx?_eq_none_iff] at hposition
    rw [if_neg]
    rintro ⟨tool, htool, hid⟩
    exact absurd (hposition tool htool) (by simp [hid])
  | some position =>
    obtain ⟨hlt, hid, -⟩ := List.findIdx?_eq_some_iff_getElem.mp hposition
    have hid : tools[position].id = id := of_decide_eq_true hid
    rw [if_pos ⟨_, List.getElem_mem hlt, hid⟩]
    simp only
    rw [modify_eq_map hnodup (List.getElem?_eq_getElem hlt), hid]

end Placed

section Updates

variable {toolCalls : Option (List ToolCall)} {update : ToolEventUpdate}

/-- An update with an id. -/
theorem applyToolEvent_named (hnodup : ((toolCalls.getD []).map ToolCall.id).Nodup)
    (hid : update.id ≠ "") :
    (applyToolEvent toolCalls update).getD []
      = placed (toolCalls.getD []) update.id update.patch update.fresh := by
  rw [← modify_findIdx hnodup]
  unfold applyToolEvent positionOf
  rw [if_pos hid]
  cases (toolCalls.getD []).findIdx? fun tool => tool.id = update.id with
  | none => simp only [if_neg hid, Option.getD_some]
  | some position => rfl

/-- An update without an id changes the latest tool call of its name, if there is one. -/
theorem applyToolEvent_unnamed (hnodup : ((toolCalls.getD []).map ToolCall.id).Nodup)
    (hid : update.id = "") :
    (∃ entry ∈ toolCalls.getD [], (update.toolName ≠ "" ∧
        ∃ position ∈ latestOf (toolCalls.getD []) update.toolName,
          (toolCalls.getD [])[position]? = some entry) ∧
        (applyToolEvent toolCalls update).getD [] = (toolCalls.getD []).map fun tool =>
          if tool.id = entry.id then update.patch tool else tool) ∨
      (applyToolEvent toolCalls update).getD [] = toolCalls.getD [] ∧
        ¬ (update.toolName ≠ "" ∧ ∃ position ∈ latestOf (toolCalls.getD []) update.toolName,
          ∃ entry, (toolCalls.getD [])[position]? = some entry) := by
  have hposition : positionOf (toolCalls.getD []) update
      = if update.toolName ≠ "" then latestOf (toolCalls.getD []) update.toolName else none := by
    unfold positionOf
    rw [if_neg (not_not.mpr hid)]
  unfold applyToolEvent
  rw [hposition]
  by_cases hname : update.toolName ≠ ""
  · rw [if_pos hname]
    cases hlatest : latestOf (toolCalls.getD []) update.toolName with
    | none =>
      refine .inr ⟨by simp only [if_pos hid], ?_⟩
      rintro ⟨-, position, hposition, -⟩
      cases hposition
    | some position =>
      cases hentry : (toolCalls.getD [])[position]? with
      | none =>
        refine .inr ⟨?_, ?_⟩
        · simp only [Option.getD_some]
          exact List.modify_eq_self (by rwa [List.getElem?_eq_none_iff] at hentry)
        · rintro ⟨-, other, hother, entry, hsome⟩
          rw [← Option.some.inj hother, hentry] at hsome
          cases hsome
      | some entry =>
        refine .inl ⟨entry, List.mem_of_getElem? hentry, ⟨hname, position, rfl, hentry⟩, ?_⟩
        simp only [Option.getD_some]
        exact modify_eq_map hnodup hentry
  · rw [if_neg hname]
    refine .inr ⟨by simp only [if_pos hid], ?_⟩
    exact fun h => hname h.1

@[simp] theorem patch_id (tool : ToolCall) : (update.patch tool).id = tool.id := rfl

/-- The update of a single tool call with the id. -/
theorem applyToolEvent_single {tool : ToolCall} (hid : update.id ≠ "") (h : tool.id = update.id) :
    ((applyToolEvent (some [tool]) update).bind List.head?).getD tool = update.patch tool := by
  simp only [applyToolEvent, positionOf, if_pos hid, Option.getD_some, List.findIdx?_cons, h,
    decide_true, if_true, List.modify_zero_cons, Option.bind_some, List.head?_cons]

/-- Alike tool calls are alike after the same update. -/
theorem Alike.patch {entry tool : ToolCall} (h : Alike entry tool) :
    Alike (update.patch entry) (update.patch tool) := by
  obtain ⟨hid, -, hresult⟩ := h
  refine ⟨hid, rfl, ?_⟩
  simp only [ToolEventUpdate.patch, hresult]

end Updates

/-- No tool call is open once it has been settled. -/
theorem settled_not_open (status : String) (tool : ToolCall) : ¬ (settled status tool).Open := by
  unfold settled ToolCall.Open
  split
  · split_ifs <;> simp
  · simp
  next hrunning hpending =>
    rintro (h | h)
    · exact hrunning h
    · exact hpending h

theorem settled_id (status : String) (tool : ToolCall) : (settled status tool).id = tool.id := by
  unfold settled
  split
  · split_ifs <;> rfl
  · rfl
  · rfl

theorem settled_of_not_open {status : String} {tool : ToolCall} (h : ¬ tool.Open) :
    settled status tool = tool := by
  unfold settled
  split
  next hrunning => exact absurd (Or.inl hrunning) h
  next hpending => exact absurd (Or.inr hpending) h
  · rfl

/-! ## Changing the blocks -/

section Blocks

variable {blocks : Option (List MessageBlock)} {update : ToolEventUpdate}

/-- A change of the last block that keeps its tool calls, or one more block without any. -/
theorem tools_changeLast {change : MessageBlock → Option MessageBlock} {added : MessageBlock}
    (hchange : ∀ last last', change last = some last' → last'.tools = last.tools)
    (hadded : added.tools = []) :
    (changeLast blocks change added).map MessageBlock.tools
        = (blocks.getD []).map MessageBlock.tools ∨
      (changeLast blocks change added).map MessageBlock.tools
        = (blocks.getD []).map MessageBlock.tools ++ [[]] := by
  unfold changeLast
  simp only
  split
  next last hlast =>
    obtain ⟨before, hbefore, hchanged⟩ := Option.bind_eq_some_iff.mp hlast
    obtain ⟨init, hinit⟩ := List.getLast?_eq_some_iff.mp hbefore
    left
    rw [hinit, List.dropLast_concat, List.map_append, List.map_append, List.map_singleton,
      List.map_singleton, hchange _ _ hchanged]
  · right
    rw [List.map_append, List.map_singleton, hadded]

/-- The blocks after a request: the tool call is placed in the last one, or in a new one. -/
theorem tools_appendToolCallBlock (turn : Nat)
    (hnodup : ∀ block ∈ blocks.getD [], (block.tools.map ToolCall.id).Nodup)
    (hid : update.id ≠ "") :
    ∃ lists, (appendToolCallBlock blocks update turn).map MessageBlock.tools
        = lists ++ [placed (((blocks.getD []).getLast?.map MessageBlock.tools).getD []) update.id
            update.patch update.fresh] ∧
      lists.flatten = ((blocks.getD []).map MessageBlock.tools).dropLast.flatten ∧
      ∀ tools ∈ lists, tools ∈ (blocks.getD []).map MessageBlock.tools := by
  have hnew : (MessageBlock.behavior none (some [update.fresh]) (some turn)).tools
      = placed [] update.id update.patch update.fresh := by
    unfold placed
    rw [if_neg fun h => by obtain ⟨tool, htool, -⟩ := h; cases htool]
    rfl
  unfold appendToolCallBlock changeLast
  rcases List.eq_nil_or_concat (blocks.getD []) with hnil | ⟨init, last, hlast⟩
  · refine ⟨[], ?_, by rw [hnil]; rfl, fun _ h => nomatch h⟩
    simp only [hnil, List.getLast?_nil, Option.bind_none, Option.map_none, Option.getD_none,
      List.nil_append, List.map_singleton, hnew]
  · rw [List.concat_eq_append] at hlast
    rw [hlast] at hnodup
    have hlists : ((init ++ [last]).map MessageBlock.tools).dropLast
        = init.map MessageBlock.tools := by
      rw [List.map_append, List.map_singleton, List.dropLast_concat]
    simp only [hlast, List.getLast?_concat, Option.bind_some, Option.map_some, Option.getD_some,
      hlists]
    have hplaced := hnodup last (List.mem_append_right _ (List.mem_singleton_self _))
    cases last with
    | behavior thinking toolCalls lastTurn =>
      refine ⟨init.map MessageBlock.tools, ?_, rfl, ?_⟩
      · simp only [List.dropLast_concat, List.map_append, List.map_singleton]
        rw [MessageBlock.tools, applyToolEvent_named hplaced hid]
        rfl
      · intro tools htools
        rw [List.map_append]
        exact List.mem_append_left _ htools
    | commentary text lastTurn | review entries thinking lastTurn =>
      refine ⟨(init.map MessageBlock.tools) ++ [[]], ?_, ?_, ?_⟩
      · simp only [List.map_append, List.map_singleton, hnew]
        rfl
      · rw [List.flatten_append, List.flatten_singleton, List.append_nil]
      · intro tools htools
        rw [List.map_append]
        exact htools

/-- An update of the tool calls with an id, in every block. -/
theorem tools_updateToolCallInBlocks (toolCallId : String) (updater : ToolCall → ToolCall) :
    (updateToolCallInBlocks blocks toolCallId updater).map MessageBlock.tools
      = ((blocks.getD []).map MessageBlock.tools).map fun tools =>
          tools.map fun tool => if tool.id = toolCallId then updater tool else tool := by
  unfold updateToolCallInBlocks
  rw [List.map_map, List.map_map]
  refine List.map_congr_left fun block _ => ?_
  rcases block with _ | ⟨thinking, _ | tools, turn⟩ | _ <;> rfl

end Blocks

namespace LiveRun

variable {s s' : LiveRun}

theorem lastTools_mem (hne : s.lastTools ≠ []) : s.lastTools ∈ s.toolLists := by
  unfold lastTools at hne ⊢
  cases hlast : (s.blocks.getD []).getLast? with
  | none => rw [hlast] at hne; exact absurd rfl hne
  | some last => exact List.mem_map_of_mem (List.mem_of_getLast? hlast)

/-- What is shown is in the last block or before it. -/
theorem shown_eq (s : LiveRun) : s.shown = s.earlierTools ++ s.lastTools := by
  unfold shown earlierTools lastTools toolLists
  rcases List.eq_nil_or_concat (s.blocks.getD []) with hnil | ⟨init, last, hlast⟩
  · rw [hnil]; rfl
  · rw [hlast, List.concat_eq_append, List.map_append, List.map_singleton, List.dropLast_concat,
      List.flatten_append, List.flatten_singleton, List.getLast?_concat, Option.map_some,
      Option.getD_some]

theorem Sound.lastTools (h : s.Sound) : (s.lastTools.map ToolCall.id).Nodup := by
  by_cases hne : s.lastTools = []
  · rw [hne]; exact List.nodup_nil
  · exact h.lists _ (lastTools_mem hne)

/-- An event that changes no tool call. -/
theorem Sound.of_lists (h : s.Sound) (hentries : s'.entries = s.entries)
    (hactive : s'.active = s.active)
    (hlists : s'.toolLists = s.toolLists ∨ s'.toolLists = s.toolLists ++ [[]]) :
    s'.Sound ∧ s'.shown = s.shown := by
  have hshown : s'.shown = s.shown := by
    unfold shown
    rcases hlists with hlists | hlists <;> rw [hlists]
    rw [List.flatten_append, List.flatten_singleton, List.append_nil]
  refine ⟨⟨hentries ▸ h.entries, ?_, hshown ▸ h.named, ?_⟩, hshown⟩
  · intro tools htools
    rcases hlists with hlists | hlists <;> rw [hlists] at htools
    · exact h.lists tools htools
    · rcases List.mem_append.mp htools with htools | htools
      · exact h.lists tools htools
      · rw [List.mem_singleton.mp htools]; exact List.nodup_nil
  · rw [hactive, hentries]; exact h.ended

/-- An event that changes the list alone, during the run. -/
theorem Sound.of_entries (h : s.Sound) (hactive : s'.active = true)
    (hlists : s'.toolLists = s.toolLists) (hnodup : (s'.entries.map ToolCall.id).Nodup) :
    s'.Sound := by
  refine ⟨hnodup, hlists ▸ h.lists, ?_, fun hended => ?_⟩
  · rw [shown, hlists]; exact h.named
  · rw [hactive] at hended; cases hended

theorem coherent_congr (hentries : s'.entries = s.entries) (hshown : s'.shown = s.shown) :
    s'.Coherent ↔ s.Coherent := by
  unfold Coherent
  rw [hentries, hshown]

/-- Entries with one id are one entry. -/
theorem Sound.entry_eq (h : s.Sound) {entry other : ToolCall} (hentry : entry ∈ s.entries)
    (hother : other ∈ s.entries) (hid : entry.id = other.id) : entry = other :=
  List.inj_on_of_nodup_map h.entries hentry hother hid

/-- A change of one entry, in the list alone, keeps the copies alike where it leaves the entry
like the tool call that is shown. -/
theorem coherent_change_iff (hsound : s'.Sound) (hcoherent : s.Coherent)
    (hshown : s'.shown = s.shown) {entry : ToolCall} (hentry : entry ∈ s'.entries)
    (hkeep : ∀ other ∈ s.entries, other.id ≠ entry.id → other ∈ s'.entries) :
    s'.Coherent ↔ ∀ tool ∈ s.shown, tool.id = entry.id → Alike entry tool := by
  unfold Coherent
  rw [hshown]
  constructor
  · intro h tool htool hid
    obtain ⟨other, hother, halike⟩ := h tool htool
    rw [hsound.entry_eq hentry hother (hid.symm.trans halike.1.symm)]
    exact halike
  · intro h tool htool
    by_cases hid : tool.id = entry.id
    · exact ⟨entry, hentry, h tool htool hid⟩
    · obtain ⟨other, hother, halike⟩ := hcoherent tool htool
      exact ⟨other, hkeep other hother fun heq => hid (halike.1.symm.trans heq), halike⟩

/-! ## The end of the run -/

theorem entries_finishRun {status : String} (hactive : s.active = true) :
    (s.finishRun status).entries = s.entries.map (settled status) := by
  unfold finishRun entries reconcileToolCalls
  rw [if_pos hactive]
  cases s.toolCalls <;> rfl

theorem blocks_finishRun (status : String) : (s.finishRun status).blocks = s.blocks := by
  unfold finishRun
  split <;> rfl

theorem active_finishRun (status : String) : (s.finishRun status).active = false := by
  unfold finishRun
  split
  · rfl
  next hactive => exact Bool.not_eq_true _ ▸ hactive

theorem Sound.finishRun (h : s.Sound) (status : String) : (s.finishRun status).Sound := by
  by_cases hactive : s.active = true
  · have hids : (s.finishRun status).entries.map ToolCall.id = s.entries.map ToolCall.id := by
      rw [entries_finishRun hactive, List.map_map]
      exact List.map_congr_left fun tool _ => settled_id status tool
    refine ⟨hids ▸ h.entries, ?_, ?_, fun _ entry hentry => ?_⟩
    · rw [toolLists, blocks_finishRun]; exact h.lists
    · rw [shown, toolLists, blocks_finishRun]; exact h.named
    · rw [entries_finishRun hactive] at hentry
      obtain ⟨before, -, rfl⟩ := List.mem_map.mp hentry
      exact settled_not_open status before
  · rw [LiveRun.finishRun, if_neg hactive]
    exact h

/-- A run that has ended shows no open tool call, if the copies agree. -/
theorem Sound.quiet (h : s.Sound) (hcoherent : s.Coherent) (hended : s.active = false) :
    s.Quiet := by
  intro tool htool hopen
  obtain ⟨entry, hentry, -, hstatus, -⟩ := hcoherent tool htool
  refine h.ended hended entry hentry ?_
  unfold ToolCall.Open
  rw [hstatus]
  exact hopen

/-- The end of a run keeps the copies alike where no open tool call is shown. -/
theorem coherent_finishRun_iff (h : s.Sound) (hcoherent : s.Coherent) (status : String) :
    (s.finishRun status).Coherent ↔ (s.active → s.Quiet) := by
  have hshown : (s.finishRun status).shown = s.shown := by
    rw [shown, shown, toolLists, toolLists, blocks_finishRun]
  constructor
  · intro hend _ tool htool
    exact (h.finishRun status).quiet hend (active_finishRun status) tool (hshown ▸ htool)
  · intro hquiet
    by_cases hactive : s.active = true
    · intro tool htool
      rw [hshown] at htool
      obtain ⟨entry, hentry, halike⟩ := hcoherent tool htool
      refine ⟨entry, ?_, halike⟩
      have hclosed : ¬ entry.Open := by
        unfold ToolCall.Open
        rw [halike.2.1]
        exact hquiet hactive tool htool
      rw [entries_finishRun hactive, ← settled_of_not_open hclosed]
      exact List.mem_map_of_mem hentry
    · rw [LiveRun.finishRun, if_neg hactive]
      exact hcoherent

/-! ## Approvals -/

/-- The list with a card. -/
theorem placeCard_eq {toolCalls : Option (List ToolCall)} {card : ToolCall}
    (hnodup : ((toolCalls.getD []).map ToolCall.id).Nodup) :
    placeCard toolCalls card = placed (toolCalls.getD []) card.id (fun _ => card) card := by
  rw [← modify_findIdx hnodup]
  unfold placeCard
  cases (toolCalls.getD []).findIdx? fun tool => tool.id = card.id <;> rfl

/-- A card is a pending tool call. -/
theorem approvalCard_pending {approval : PendingApproval} {card : ToolCall}
    (hcard : s.approvalCard approval = some card) :
    card.status = .pending ∧ card.result = none := by
  unfold approvalCard at hcard
  simp only [Option.ite_none_left_eq_some] at hcard
  rw [← Option.some.inj hcard.2]
  exact ⟨rfl, rfl⟩

theorem ensureApprovalCard_spec (h : s.Sound) (hactive : s.active = true)
    (approval : PendingApproval) :
    (s.ensureApprovalCard approval).Sound ∧
      (s.Coherent → ((s.ensureApprovalCard approval).Coherent ↔ s.CardMirrors approval)) := by
  cases hcard : s.approvalCard approval with
  | none =>
    have hensure : s.ensureApprovalCard approval = s := by unfold ensureApprovalCard; rw [hcard]
    rw [hensure]
    refine ⟨h, fun hcoherent => ⟨fun _ card hsome => ?_, fun _ => hcoherent⟩⟩
    rw [hcard] at hsome
    cases hsome
  | some card =>
    obtain ⟨hstatus, hresult⟩ := approvalCard_pending hcard
    have hensure : s.ensureApprovalCard approval = { s with
        approvals := (approval.approvalId, card.id) :: s.approvals
        toolCalls := some (placeCard s.toolCalls card) } := by
      unfold ensureApprovalCard; rw [hcard]
    have hentries : (s.ensureApprovalCard approval).entries
        = placed s.entries card.id (fun _ => card) card := by
      rw [hensure]; exact placeCard_eq h.entries
    have hlists : (s.ensureApprovalCard approval).toolLists = s.toolLists := by rw [hensure]; rfl
    have hshown : (s.ensureApprovalCard approval).shown = s.shown := by
      rw [shown, shown, hlists]
    have hsound : (s.ensureApprovalCard approval).Sound :=
      h.of_entries (by rw [hensure]; exact hactive) hlists
        (hentries ▸ placed_nodup h.entries (fun _ _ => rfl) rfl)
    refine ⟨hsound, fun hcoherent => ?_⟩
    have hmem : card ∈ placed s.entries card.id (fun _ => card) card := by
      rw [mem_placed]
      by_cases hexists : ∃ before ∈ s.entries, before.id = card.id
      · obtain ⟨before, hbefore, hid⟩ := hexists
        exact .inr (.inl ⟨before, hbefore, hid, rfl⟩)
      · exact .inr (.inr ⟨fun before hbefore hid => hexists ⟨before, hbefore, hid⟩, rfl⟩)
    rw [coherent_change_iff hsound hcoherent hshown (hentries ▸ hmem)
      fun other hother hid => hentries ▸ mem_placed.mpr (.inl ⟨hother, hid⟩)]
    constructor
    · intro hall other hother tool htool hid
      rw [hcard] at hother
      rw [← Option.some.inj hother] at hid
      obtain ⟨-, hstatus', hresult'⟩ := hall tool htool hid
      exact ⟨hstatus'.symm.trans hstatus, hresult'.symm.trans hresult⟩
    · intro hmirrors tool htool hid
      obtain ⟨hstatus', hresult'⟩ := hmirrors card hcard tool htool hid
      exact ⟨hid.symm, hstatus.trans hstatus'.symm, hresult.trans hresult'.symm⟩

theorem decided_id (decision : String) (tool : ToolCall) :
    (decided decision tool).id = tool.id := by
  unfold decided
  split <;> rfl

/-- When an entry is still like its copy after a decision. -/
theorem alike_decided_iff {decision : String} {entry tool : ToolCall} (h : Alike entry tool) :
    Alike (decided decision entry) tool ↔
      if decision = "approved" then tool.status = .running
      else tool.status = .rejected ∧
        tool.result = some (if decision = "cancelled" then "已取消，未执行" else "已拒绝该操作") := by
  obtain ⟨hid, -, hresult⟩ := h
  unfold decided Alike
  split
  · exact ⟨fun h => h.2.1.symm, fun h => ⟨hid, h.symm, hresult⟩⟩
  · exact ⟨fun h => ⟨h.2.1.symm, h.2.2.symm⟩, fun h => ⟨hid, h.1.symm, h.2.symm⟩⟩

/-- An update of one entry, in the list alone. -/
theorem change_spec (h : s.Sound) {id : String} {change : ToolCall → ToolCall}
    (hentries : s'.entries = s.entries.map fun tool => if tool.id = id then change tool else tool)
    (hactive : s'.active = true) (hlists : s'.toolLists = s.toolLists)
    (hchange : ∀ tool, (change tool).id = tool.id) :
    s'.Sound ∧ (s.Coherent → (s'.Coherent ↔
      ∀ entry ∈ s.entries, entry.id = id → ∀ tool ∈ s.shown, Alike entry tool →
        Alike (change entry) tool)) := by
  have hids := fun tool (hid : tool.id = id) => (hchange tool).trans hid
  have hsound : s'.Sound := h.of_entries hactive hlists
    (by rw [hentries, changed_ids hids]; exact h.entries)
  have hshown : s'.shown = s.shown := by rw [shown, shown, hlists]
  refine ⟨hsound, fun hcoherent => ?_⟩
  by_cases hexists : ∃ entry ∈ s.entries, entry.id = id
  · obtain ⟨entry, hentry, hid⟩ := hexists
    have hmem : change entry ∈ s'.entries := by
      rw [hentries, mem_changed]
      exact .inr ⟨entry, hentry, hid, rfl⟩
    rw [coherent_change_iff hsound hcoherent hshown hmem fun other hother hne => by
      rw [hentries, mem_changed]
      exact .inl ⟨hother, fun heq => hne (heq.trans (hids entry hid).symm)⟩]
    constructor
    · intro hall other hother hid' tool htool halike
      rw [h.entry_eq hother hentry (hid'.trans hid.symm)]
      refine hall tool htool ?_
      rw [hids entry hid, ← halike.1, hid']
    · intro hall tool htool hid'
      obtain ⟨other, hother, halike⟩ := hcoherent tool htool
      have heq := h.entry_eq hother hentry
        (halike.1.trans (hid'.trans (hchange entry)))
      exact hall entry hentry hid tool htool (heq ▸ halike)
  · have hsame : s'.entries = s.entries := by
      rw [hentries]
      refine (List.map_congr_left fun tool htool => ?_).trans (List.map_id _)
      exact if_neg fun hid => hexists ⟨tool, htool, hid⟩
    rw [coherent_congr hsame hshown]
    refine ⟨fun _ entry hentry hid => ?_, fun _ => hcoherent⟩
    exact absurd ⟨entry, hentry, hid⟩ hexists

theorem updateTool_decided_spec (h : s.Sound) (hactive : s.active = true)
    (approvalId decision : String) :
    (s.updateTool (s.approvedTool approvalId) (decided decision)).Sound ∧
      (s.Coherent → ((s.updateTool (s.approvedTool approvalId) (decided decision)).Coherent ↔
        s.DecisionMirrors approvalId decision)) := by
  have hentries : (s.updateTool (s.approvedTool approvalId) (decided decision)).entries
      = s.entries.map fun tool =>
          if tool.id = s.approvedTool approvalId then decided decision tool else tool := by
    unfold updateTool entries
    cases s.toolCalls <;> rfl
  obtain ⟨hsound, hiff⟩ := change_spec h hentries hactive rfl (decided_id decision)
  refine ⟨hsound, fun hcoherent => (hiff hcoherent).trans ?_⟩
  constructor
  · intro hall tool htool hid
    obtain ⟨entry, hentry, halike⟩ := hcoherent tool htool
    exact (alike_decided_iff halike).mp
      (hall entry hentry (halike.1.trans hid) tool htool halike)
  · intro hmirrors entry _ hid tool htool halike
    exact (alike_decided_iff halike).mpr (hmirrors tool htool (halike.1.symm.trans hid))

/-! ## Tool events -/

section Request

variable {update : ToolEventUpdate}

/-- A request places the tool call in the list and in the last block. -/
theorem ensureToolCard_effect (h : s.Sound) (hid : update.id ≠ "") :
    (s.ensureToolCard update).entries = placed s.entries update.id update.patch update.fresh ∧
      ∃ lists, (s.ensureToolCard update).toolLists
          = lists ++ [placed s.lastTools update.id update.patch update.fresh] ∧
        lists.flatten = s.earlierTools ∧ ∀ tools ∈ lists, tools ∈ s.toolLists :=
  ⟨applyToolEvent_named h.entries hid, tools_appendToolCallBlock s.liveTurn
    (fun _ hblock => h.lists _ (List.mem_map_of_mem hblock)) hid⟩

theorem ensureToolCard_shown (h : s.Sound) (hid : update.id ≠ "") :
    (s.ensureToolCard update).shown
      = s.earlierTools ++ placed s.lastTools update.id update.patch update.fresh := by
  obtain ⟨-, lists, hlists, hflatten, -⟩ := ensureToolCard_effect h hid
  rw [shown, hlists, List.flatten_append, List.flatten_singleton, hflatten]

theorem earlierTools_shown {tool : ToolCall} (h : tool ∈ s.earlierTools) : tool ∈ s.shown :=
  s.shown_eq ▸ List.mem_append_left _ h

theorem lastTools_shown {tool : ToolCall} (h : tool ∈ s.lastTools) : tool ∈ s.shown :=
  s.shown_eq ▸ List.mem_append_right _ h

theorem ensureToolCard_sound (h : s.Sound) (hactive : s.active = true) (hid : update.id ≠ "") :
    (s.ensureToolCard update).Sound := by
  obtain ⟨hentries, lists, hlists, -, hmem⟩ := ensureToolCard_effect h hid
  have hkeepsId : ∀ tool, tool.id = update.id → (update.patch tool).id = update.id :=
    fun tool htool => htool
  refine ⟨?_, ?_, ?_, fun hended => ?_⟩
  · rw [hentries]
    exact placed_nodup h.entries hkeepsId rfl
  · intro tools htools
    rw [hlists] at htools
    rcases List.mem_append.mp htools with htools | htools
    · exact h.lists tools (hmem tools htools)
    · rw [List.mem_singleton.mp htools]
      exact placed_nodup h.lastTools hkeepsId rfl
  · intro tool htool
    rw [ensureToolCard_shown h hid] at htool
    rcases List.mem_append.mp htool with htool | htool
    · exact h.named tool (earlierTools_shown htool)
    · rcases mem_placed.mp htool with ⟨htool, -⟩ | ⟨before, hbefore, -, rfl⟩ | ⟨-, rfl⟩
      · exact h.named tool (lastTools_shown htool)
      · exact h.named before (lastTools_shown hbefore)
      · exact hid
  · have hsame : (s.ensureToolCard update).active = s.active := rfl
    rw [hsame, hactive] at hended
    cases hended

/-- What the list has, after a request, for an id that it had before. -/
theorem ensureToolCard_entry (h : s.Sound) (hid : update.id ≠ "") {entry other : ToolCall}
    (hentry : entry ∈ s.entries) (heid : entry.id = update.id)
    (hother : other ∈ (s.ensureToolCard update).entries) (hoid : other.id = update.id) :
    other = update.patch entry := by
  rw [(ensureToolCard_effect h hid).1] at hother
  rcases mem_placed.mp hother with ⟨-, hne⟩ | ⟨before, hbefore, hbid, rfl⟩ | ⟨habsent, -⟩
  · exact absurd hoid hne
  · rw [h.entry_eq hbefore hentry (hbid.trans heid.symm)]
  · exact absurd heid (habsent entry hentry)

/-- A request whose copies agree met its guard. -/
theorem requestMirrors_of_coherent (h : s.Sound) (hid : update.id ≠ "")
    (hstatus : update.status = .running) (hresult : update.result = none)
    (hcoherent : s.Coherent) (hcoherent' : (s.ensureToolCard update).Coherent) :
    s.RequestMirrors update.id := by
  unfold Coherent at hcoherent'
  rw [ensureToolCard_shown h hid] at hcoherent'
  refine ⟨fun tool htool htid => ?_, fun habsent entry hmem heid => ?_⟩
  · obtain ⟨entry, hmem, halike⟩ := hcoherent tool (earlierTools_shown htool)
    obtain ⟨other, hother, halike'⟩ := hcoherent' tool (List.mem_append_left _ htool)
    have heq := ensureToolCard_entry h hid hmem (halike.1.trans htid) hother (halike'.1.trans htid)
    rw [← halike'.2.1, heq]
    exact hstatus
  · have hnew : update.fresh ∈ placed s.lastTools update.id update.patch update.fresh :=
      mem_placed.mpr (.inr (.inr ⟨habsent, rfl⟩))
    obtain ⟨other, hother, halike⟩ := hcoherent' update.fresh (List.mem_append_right _ hnew)
    have heq := ensureToolCard_entry h hid hmem heid hother halike.1
    have hpatched : other.result = entry.result := by
      rw [heq]
      simp only [ToolEventUpdate.patch, hresult, Option.none_or]
    rw [← hpatched, halike.2.2]
    exact hresult

/-- The copies agree after a request that meets its guard. -/
theorem coherent_of_requestMirrors (h : s.Sound) (hid : update.id ≠ "")
    (hstatus : update.status = .running) (hresult : update.result = none)
    (hcoherent : s.Coherent) (hmirrors : s.RequestMirrors update.id) :
    (s.ensureToolCard update).Coherent := by
  obtain ⟨hrunning, hnone⟩ := hmirrors
  have hpatched : ∀ tool, (update.patch tool).result = tool.result := fun tool => by
    simp only [ToolEventUpdate.patch, hresult, Option.none_or]
  unfold Coherent
  rw [ensureToolCard_shown h hid, (ensureToolCard_effect h hid).1]
  have hkept : ∀ tool ∈ s.shown, tool.id ≠ update.id →
      ∃ entry ∈ placed s.entries update.id update.patch update.fresh, Alike entry tool := by
    intro tool htool htid
    obtain ⟨entry, hmem, halike⟩ := hcoherent tool htool
    exact ⟨entry, mem_placed.mpr (.inl ⟨hmem, fun heid => htid (halike.1.symm.trans heid)⟩), halike⟩
  intro tool htool
  rcases List.mem_append.mp htool with htool | htool
  · by_cases htid : tool.id = update.id
    · obtain ⟨entry, hmem, halike⟩ := hcoherent tool (earlierTools_shown htool)
      refine ⟨update.patch entry,
        mem_placed.mpr (.inr (.inl ⟨entry, hmem, halike.1.trans htid, rfl⟩)), halike.1, ?_, ?_⟩
      · exact hstatus.trans (hrunning tool htool htid).symm
      · rw [hpatched, halike.2.2]
    · exact hkept tool (earlierTools_shown htool) htid
  · rcases mem_placed.mp htool with ⟨htool, htid⟩ | ⟨before, hbefore, hbid, rfl⟩ | ⟨habsent, rfl⟩
    · exact hkept tool (lastTools_shown htool) htid
    · obtain ⟨entry, hmem, halike⟩ := hcoherent before (lastTools_shown hbefore)
      exact ⟨update.patch entry,
        mem_placed.mpr (.inr (.inl ⟨entry, hmem, halike.1.trans hbid, rfl⟩)), halike.patch⟩
    · by_cases hexists : ∃ entry ∈ s.entries, entry.id = update.id
      · obtain ⟨entry, hmem, heid⟩ := hexists
        refine ⟨update.patch entry, mem_placed.mpr (.inr (.inl ⟨entry, hmem, heid, rfl⟩)), heid,
          rfl, ?_⟩
        rw [hpatched, hnone habsent entry hmem heid]
        exact hresult.symm
      · exact ⟨update.fresh, mem_placed.mpr (.inr (.inr
          ⟨fun entry hmem heid => hexists ⟨entry, hmem, heid⟩, rfl⟩)), rfl, rfl, rfl⟩

end Request

/-- An event with an id updates both copies. -/
theorem markToolByEvent_named (h : s.Sound) (hactive : s.active = true) {update : ToolEventUpdate}
    (hid : update.id ≠ "") :
    (s.markToolByEvent update).Sound ∧ (s.Coherent → (s.markToolByEvent update).Coherent) := by
  have hentries : (s.markToolByEvent update).entries
      = placed s.entries update.id update.patch update.fresh := applyToolEvent_named h.entries hid
  have hupdater : ∀ tools : List ToolCall, (tools.map fun tool =>
      if tool.id = update.id then
        ((applyToolEvent (some [tool]) update).bind List.head?).getD tool
      else tool) = tools.map fun tool =>
        if tool.id = update.id then update.patch tool else tool := by
    intro tools
    refine List.map_congr_left fun tool _ => ?_
    split
    next htid => exact applyToolEvent_single hid htid
    · rfl
  have hlists : (s.markToolByEvent update).toolLists
      = s.toolLists.map fun tools => tools.map fun tool =>
          if tool.id = update.id then update.patch tool else tool := by
    simp only [← hupdater]
    exact tools_updateToolCallInBlocks ..
  have hshown : (s.markToolByEvent update).shown
      = s.shown.map fun tool => if tool.id = update.id then update.patch tool else tool := by
    rw [shown, shown, hlists, List.map_flatten]
  have hkeepsId : ∀ tool, tool.id = update.id → (update.patch tool).id = update.id :=
    fun tool htool => htool
  refine ⟨⟨?_, ?_, ?_, fun hended => ?_⟩, fun hcoherent => ?_⟩
  · rw [hentries]
    exact placed_nodup h.entries hkeepsId rfl
  · intro tools htools
    rw [hlists] at htools
    obtain ⟨before, hbefore, rfl⟩ := List.mem_map.mp htools
    rw [changed_ids hkeepsId]
    exact h.lists before hbefore
  · intro tool htool
    rw [hshown, mem_changed] at htool
    rcases htool with ⟨htool, -⟩ | ⟨before, hbefore, -, rfl⟩
    · exact h.named tool htool
    · exact h.named before hbefore
  · have hsame : (s.markToolByEvent update).active = s.active := rfl
    rw [hsame, hactive] at hended
    cases hended
  · intro tool htool
    rw [hshown, mem_changed] at htool
    rw [hentries]
    rcases htool with ⟨htool, htid⟩ | ⟨before, hbefore, hbid, rfl⟩
    · obtain ⟨entry, hmem, halike⟩ := hcoherent tool htool
      exact ⟨entry, mem_placed.mpr (.inl ⟨hmem, fun heid => htid (halike.1.symm.trans heid)⟩),
        halike⟩
    · obtain ⟨entry, hmem, halike⟩ := hcoherent before hbefore
      exact ⟨update.patch entry,
        mem_placed.mpr (.inr (.inl ⟨entry, hmem, halike.1.trans hbid, rfl⟩)), halike.patch⟩

/-- When an entry is still like its copy after an update. -/
theorem alike_patch_iff {update : ToolEventUpdate} {entry tool : ToolCall} (h : Alike entry tool) :
    Alike (update.patch entry) tool ↔ tool.status = update.status ∧
      (update.result = none ∨ tool.result = update.result) := by
  obtain ⟨hid, -, hresult⟩ := h
  unfold Alike ToolEventUpdate.patch
  cases update.result with
  | none => exact ⟨fun h => ⟨h.2.1.symm, .inl rfl⟩, fun h => ⟨hid, h.1.symm, hresult⟩⟩
  | some text =>
    refine ⟨fun h => ⟨h.2.1.symm, .inr h.2.2.symm⟩, fun h => ⟨hid, h.1.symm, ?_⟩⟩
    rcases h.2 with hnone | hsome
    · cases hnone
    · exact hsome.symm

/-- An event without an id updates the list alone. -/
theorem markToolByEvent_unnamed (h : s.Sound) (hactive : s.active = true) (toolName : String)
    (status : ToolStatus) (result : Option String) :
    (s.markToolByEvent ⟨"", toolName, status, none, result⟩).Sound ∧
      (s.Coherent → ((s.markToolByEvent ⟨"", toolName, status, none, result⟩).Coherent ↔
        s.NameMirrors toolName status result)) := by
  have hlists : (s.markToolByEvent ⟨"", toolName, status, none, result⟩).toolLists
      = s.toolLists := by
    refine (tools_updateToolCallInBlocks ..).trans ?_
    refine (List.map_congr_left fun tools htools => ?_).trans (List.map_id _)
    refine (List.map_congr_left fun tool htool => ?_).trans (List.map_id _)
    exact if_neg (h.named tool (List.mem_flatten_of_mem htools htool))
  have hshown : (s.markToolByEvent ⟨"", toolName, status, none, result⟩).shown = s.shown := by
    rw [shown, shown, hlists]
  have hid : (⟨"", toolName, status, none, result⟩ : ToolEventUpdate).id = "" := rfl
  rcases applyToolEvent_unnamed h.entries hid with
    ⟨entry, hentry, ⟨hname, position, hlatest, hat⟩, hentries⟩ | ⟨hentries, habsent⟩
  · -- The latest tool call of the name is changed.
    obtain ⟨hsound, hiff⟩ := change_spec h
      (show (s.markToolByEvent ⟨"", toolName, status, none, result⟩).entries = _ from hentries)
      hactive hlists fun tool => rfl
    refine ⟨hsound, fun hcoherent => (hiff hcoherent).trans ?_⟩
    constructor
    · intro hall hname' position' hlatest' entry' hat' tool htool htid
      obtain rfl : position = position' := Option.some.inj (hlatest.symm.trans hlatest')
      obtain rfl : entry = entry' := Option.some.inj (hat.symm.trans hat')
      obtain ⟨other, hother, halike⟩ := hcoherent tool htool
      obtain rfl := h.entry_eq hother hentry (halike.1.trans htid)
      exact (alike_patch_iff halike).mp (hall other hother rfl tool htool halike)
    · intro hmirrors other hother hoid tool htool halike
      exact (alike_patch_iff halike).mpr
        (hmirrors hname position hlatest entry hat tool htool (halike.1.symm.trans hoid))
  · -- There is none, and nothing changes.
    have hsame : (s.markToolByEvent ⟨"", toolName, status, none, result⟩).entries = s.entries :=
      hentries
    refine ⟨(h.of_lists hsame rfl (.inl hlists)).1, fun hcoherent => ?_⟩
    rw [coherent_congr hsame hshown]
    refine ⟨fun _ hname position hlatest entry hat => ?_, fun _ => hcoherent⟩
    exact absurd ⟨hname, position, hlatest, entry, hat⟩ habsent

/-! ## Every event -/

/-- An event that changes no tool call. -/
theorem spec_of_lists {guard : Prop} (h : s.Sound) (hguard : guard)
    (hentries : s'.entries = s.entries) (hactive : s'.active = s.active)
    (hlists : s'.toolLists = s.toolLists ∨ s'.toolLists = s.toolLists ++ [[]]) :
    s'.Sound ∧ (s.Coherent → (s'.Coherent ↔ guard)) := by
  obtain ⟨hsound, hshown⟩ := h.of_lists hentries hactive hlists
  refine ⟨hsound, fun hcoherent => ?_⟩
  rw [coherent_congr hentries hshown]
  exact iff_of_true hcoherent hguard

/-- An event that changes the last block, and no tool call. -/
theorem spec_of_changeLast {change : MessageBlock → Option MessageBlock} {added : MessageBlock}
    (h : s.Sound) (hchange : ∀ last last', change last = some last' → last'.tools = last.tools)
    (hadded : added.tools = []) :
    ({ s with blocks := some (changeLast s.blocks change added) } : LiveRun).Sound ∧
      (s.Coherent →
        (({ s with blocks := some (changeLast s.blocks change added) } : LiveRun).Coherent ↔
          True)) :=
  spec_of_lists h trivial rfl rfl (tools_changeLast hchange hadded)

/-- An entry of a review, in the last block or in a new one. -/
theorem entry_spec (h : s.Sound) (entry : PyDict) :
    ({ s with blocks := some (appendReviewEntry s.blocks entry s.liveTurn) } : LiveRun).Sound ∧
      (s.Coherent →
        (({ s with blocks := some (appendReviewEntry s.blocks entry s.liveTurn) } :
          LiveRun).Coherent ↔ True)) := by
  refine spec_of_changeLast h ?_ rfl
  rintro (_ | _ | ⟨entries, thinking, turn⟩) last' hlast
  · cases hlast
  · cases hlast
  · rw [← Option.some.inj hlast]
    rfl

/-- An event that adds a block without tool calls. -/
theorem spec_of_added {added : MessageBlock} (h : s.Sound) (hadded : added.tools = []) :
    ({ s with blocks := some (s.blocks.getD [] ++ [added]) } : LiveRun).Sound ∧
      (s.Coherent →
        (({ s with blocks := some (s.blocks.getD [] ++ [added]) } : LiveRun).Coherent ↔ True)) := by
  refine spec_of_lists h trivial rfl rfl (.inr ?_)
  simp only [toolLists, Option.getD_some, List.map_append, List.map_singleton, hadded]

/-- The end of an active run. -/
theorem finishRun_spec (h : s.Sound) (hactive : s.active = true) (status : String) :
    (s.finishRun status).Sound ∧
      (s.Coherent → ((s.finishRun status).Coherent ↔ s.Quiet)) := by
  refine ⟨h.finishRun status, fun hcoherent => ?_⟩
  rw [coherent_finishRun_iff h hcoherent]
  exact ⟨fun hquiet => hquiet hactive, fun hquiet _ => hquiet⟩

/-- A tool event, with an id or without. -/
theorem mark_spec (h : s.Sound) (hactive : s.active = true) (toolCallId toolName : String)
    (status : ToolStatus) (result : Option String) :
    (s.markToolByEvent ⟨toolCallId, toolName, status, none, result⟩).Sound ∧
      (s.Coherent → ((s.markToolByEvent ⟨toolCallId, toolName, status, none, result⟩).Coherent ↔
        (toolCallId = "" → s.NameMirrors toolName status result))) := by
  by_cases hid : toolCallId = ""
  · subst hid
    obtain ⟨hsound, hiff⟩ := markToolByEvent_unnamed h hactive toolName status result
    refine ⟨hsound, fun hcoherent => (hiff hcoherent).trans ?_⟩
    exact ⟨fun hmirrors _ => hmirrors, fun hmirrors => hmirrors rfl⟩
  · have hnamed : (⟨toolCallId, toolName, status, none, result⟩ : ToolEventUpdate).id ≠ "" := hid
    obtain ⟨hsound, hkeep⟩ := markToolByEvent_named h hactive hnamed
    exact ⟨hsound, fun hcoherent =>
      iff_of_true (hkeep hcoherent) fun hempty => absurd hempty hid⟩

/-- The event keeps the copies alike where it meets its guard. -/
theorem envelope_spec (h : s.Sound) (hactive : s.active = true) (envelope : Envelope) :
    (s.next (.frame envelope)).Sound ∧
      (s.Coherent → ((s.next (.frame envelope)).Coherent ↔ s.EnvelopeMirrors envelope)) := by
  have hsame : s.Sound ∧ (s.Coherent → (s.Coherent ↔ True)) :=
    ⟨h, fun hcoherent => iff_of_true hcoherent trivial⟩
  simp only [next, if_pos hactive]
  cases envelope with
  | snapshot status pending =>
    simp only [handleEnvelope, EnvelopeMirrors]
    split
    · exact finishRun_spec h hactive status
    cases pending with
    | none =>
      exact ⟨h, fun hcoherent => iff_of_true hcoherent fun approval happroval => nomatch happroval⟩
    | some approval =>
      obtain ⟨hsound, hiff⟩ := ensureApprovalCard_spec h hactive approval
      refine ⟨hsound, fun hcoherent => (hiff hcoherent).trans ?_⟩
      constructor
      · intro hmirrors other hother
        rwa [← Option.some.inj hother]
      · exact fun hmirrors => hmirrors approval rfl
  | taskEnded status => exact finishRun_spec h hactive status
  | modelStarted => exact spec_of_lists h trivial rfl rfl (.inr List.map_append)
  | delta text final =>
    simp only [handleEnvelope]
    split
    · exact hsame
    · refine spec_of_changeLast h ?_ rfl
      rintro (⟨before, turn⟩ | _ | _) last' hlast
      · rw [Option.ite_none_right_eq_some] at hlast
        rw [← Option.some.inj hlast.2]
        rfl
      · cases hlast
      · cases hlast
  | commentary text =>
    simp only [handleEnvelope]
    split
    · exact hsame
    · exact spec_of_added h rfl
  | thinking text stage =>
    simp only [handleEnvelope]
    split_ifs
    · exact hsame
    · refine spec_of_changeLast h ?_ rfl
      rintro (_ | _ | ⟨_ | _, thinking, turn⟩) last' hlast
      · cases hlast
      · cases hlast
      · rw [← Option.some.inj hlast]
        rfl
      · cases hlast
    · refine spec_of_changeLast h ?_ rfl
      rintro (_ | ⟨thinking, toolCalls, turn⟩ | _) last' hlast
      · cases hlast
      · rw [Option.ite_none_right_eq_some] at hlast
        rw [← Option.some.inj hlast.2]
        rfl
      · cases hlast
  | reviewCompleted entry =>
    simp only [handleEnvelope]
    split
    · exact entry_spec h entry
    · exact spec_of_added h rfl
  | rebuttal entry => exact entry_spec h entry
  | toolRequested toolCallId toolName args =>
    simp only [handleEnvelope]
    split
    next hid =>
      exact ⟨h, fun hcoherent => iff_of_true hcoherent fun hne => absurd hid hne⟩
    next hid =>
      refine ⟨ensureToolCard_sound h hactive hid, fun hcoherent => ⟨fun hagree _ => ?_, ?_⟩⟩
      · exact requestMirrors_of_coherent h hid rfl rfl hcoherent hagree
      · exact fun hmirrors => coherent_of_requestMirrors h hid rfl rfl hcoherent (hmirrors hid)
  | toolStarted toolCallId toolName => exact mark_spec h hactive toolCallId toolName .running none
  | toolEnded failed toolCallId toolName result =>
    exact mark_spec h hactive toolCallId toolName (if failed then .error else .completed) result
  | approvalRequired approval => exact ensureApprovalCard_spec h hactive approval
  | approvalResolved approvalId decision =>
    simp only [handleEnvelope]
    split
    next hid =>
      refine ⟨h, fun hcoherent => iff_of_true hcoherent fun tool htool htid => ?_⟩
      exact absurd (htid.trans hid) (h.named tool htool)
    · exact updateTool_decided_spec h hactive approvalId decision
  | other => exact hsame

/-- A step keeps the copies alike where it meets its guard. -/
theorem next_spec (h : s.Sound) (action : Action) :
    (s.next action).Sound ∧ (s.Coherent → ((s.next action).Coherent ↔ s.Mirrors action)) := by
  cases action with
  | finish status =>
    exact ⟨h.finishRun status, fun hcoherent => coherent_finishRun_iff h hcoherent status⟩
  | render => exact spec_of_lists h trivial rfl rfl (.inl rfl)
  | frame envelope =>
    by_cases hactive : s.active = true
    · obtain ⟨hsound, hiff⟩ := envelope_spec h hactive envelope
      refine ⟨hsound, fun hcoherent => (hiff hcoherent).trans ?_⟩
      exact ⟨fun hmirrors _ => hmirrors, fun hmirrors => hmirrors hactive⟩
    · have hnext : s.next (.frame envelope) = s := if_neg hactive
      rw [hnext]
      exact ⟨h, fun hcoherent => iff_of_true hcoherent fun hrunning => absurd hrunning hactive⟩

/-! ## Whole runs -/

/-- **The copies agree after every event, and a run that has ended shows no open tool call, exactly
when every event that changes the list alone leaves a shown tool call as it is shown.** -/
theorem coherent_moves_iff {moves : List (Move LiveRun Action)} (h : s.Sound)
    (hcoherent : s.Coherent) (hrun : Run Step s moves s') :
    (∀ m ∈ moves, m.post.Coherent ∧ (m.post.active = false → m.post.Quiet)) ↔
      ∀ m ∈ moves, m.pre.Mirrors m.act := by
  refine hrun.forall_moves_iff Sound Coherent Mirrors
    (fun m => m.post.Coherent ∧ (m.post.active = false → m.post.Quiet)) ?_ ?_ ?_ h hcoherent
  · rintro s action _ hsound rfl
    exact (next_spec hsound action).1
  · rintro s action _ hsound hagree rfl
    obtain ⟨hsound', hiff⟩ := next_spec hsound action
    rw [← hiff hagree]
    exact ⟨fun hlaw => hlaw.1, fun hagree' => ⟨hagree', hsound'.quiet hagree'⟩⟩
  · rintro s action _ hsound hagree rfl hguard
    exact ((next_spec hsound action).2 hagree).mpr hguard

/-- The message of a run that starts. -/
def start (taskId : String) : LiveRun where
  taskId := taskId

theorem Sound.start (taskId : String) : (start taskId).Sound :=
  ⟨List.nodup_nil, fun _ h => (nomatch h), fun _ h => (nomatch h), fun h => nomatch h⟩

/-- A tool call that completes before its task does. -/
theorem completed_call_coherent : ∃ moves s', Run Step (start "task") moves s' ∧
    moves.map Move.act = [.frame (.toolRequested "call" "run_command" none),
      .frame (.toolEnded false "call" "run_command" (some "ok")),
      .frame (.taskEnded "completed")] ∧
    ∀ m ∈ moves, m.post.Coherent ∧ (m.post.active = false → m.post.Quiet) := by
  refine ⟨_, _, ((Run.single rfl).snoc rfl).snoc rfl, rfl, ?_⟩
  refine (coherent_moves_iff (Sound.start "task") (by decide)
    (((Run.single rfl).snoc rfl).snoc rfl)).mpr ?_
  intro m hm
  simp only [List.nil_append, List.cons_append, List.mem_cons, List.not_mem_nil, or_false] at hm
  rcases hm with rfl | rfl | rfl
  · exact fun _ _ => ⟨fun _ h => (nomatch h), fun _ _ h => nomatch h⟩
  · exact fun _ hempty => absurd hempty (by decide)
  · exact fun _ => (by decide : Quiet _)

/-- The task is cancelled while a tool call runs: its block shows it running for good. -/
theorem cancelled_call_left_running : ∃ moves s', Run Step (start "task") moves s' ∧
    moves.map Move.act = [.frame (.toolRequested "call" "run_command" none),
      .frame (.taskEnded "cancelled")] ∧
    ¬ s'.Coherent ∧ ∃ tool ∈ s'.shown, tool.Open :=
  ⟨_, _, (Run.single rfl).snoc rfl, rfl, by decide, by decide⟩

end LiveRun

end LiveTools

end ThreadForge

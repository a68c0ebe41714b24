import ThreadForge.Domain.Entities

/-!
# The callbacks the hub hands to the task repository

Every change the worker hub makes to a stored task is a function from the task read to the task to
store. `now` is the reading of the clock the callback takes; the repository overwrites it with its
own (`updated_at` is set again after the callback).

## Which of them touch the status

`appendRunIndex` and the batch built on it rewrite the audit list and leave the status alone
(`appendRunIndex_status`); all the others set it.
-/

namespace ThreadForge

variable (txt : PyText)

/-! ## Status edits -/

/-- `_set_status`. -/
def setStatus (now : String) (status : TaskStatus) (task : Task) : Task :=
  { task with status := status, updatedAt := now }

/-- `_set_cancel_requested`. -/
def setCancelRequested (now : String) (task : Task) : Task :=
  { task with status := .cancelRequested, pendingApproval := none, updatedAt := now }

/-- `_set_pending_approval`. -/
def setPendingApproval (now : String) (approval : Approval) (task : Task) : Task :=
  { task with
    status := .waitingForApproval
    pendingApproval := some
      [("approval_id", .str approval.approvalId),
       ("tool_call_id", .str approval.toolCallId),
       ("tool_name", .str approval.toolName),
       ("args_preview", .dict approval.argsPreview),
       ("created_at", .str approval.createdAt),
       ("expires_at", .str approval.expiresAt)]
    updatedAt := now }

/-- `_clear_approval`. -/
def clearApproval (now : String) (task : Task) : Task :=
  { task with status := .running, pendingApproval := none, updatedAt := now }

/-- `_nonnegative_int`: an infinite float is not among the exceptions it catches. -/
def nonnegativeInt (value : PyValue) : Except PyError Int :=
  match value.toInt txt with
  | .ok n => .ok (max 0 n)
  | .error .typeError | .error .valueError => .ok 0
  | .error e => .error e

/-- `_set_terminal`. -/
def setTerminal (now : String) (status : TaskStatus) (stopReason finalAnswer : String)
    (error : PyDict) (task : Task) : Except PyError Task := do
  let attempts ← nonnegativeInt txt (error.getD "error_attempts" (.int 0))
  pure { task with
    status := status
    stopReason := some stopReason
    finalAnswer := if finalAnswer = "" then none else some finalAnswer
    pendingApproval := none
    errorStage := error.textOf txt "error_stage"
    errorCode := error.textOf txt "error_code"
    errorRetryable := (error.getD "error_retryable" (.bool false)).truthy
    errorAttempts := attempts
    updatedAt := now }

/-- `_terminal_persisted_final_answer`. -/
def terminalPersistedFinalAnswer (status : TaskStatus) (finalAnswer : String) : String :=
  if status = .completed then "" else finalAnswer

/-! ## The audit list -/

/-- The display labels of `_append_run_index`. -/
def runIndexLabels : List (String × String) :=
  [("plan.created", "计划已创建"), ("plan.skipped", "直接回答"), ("assistant.commentary", "过程更新"),
   ("assistant.thinking", "思考"), ("model.started", "模型请求"), ("model.completed", "模型完成"),
   ("model.retrying", "模型重试"), ("model.protocol_retrying", "协议重试"),
   ("model.heartbeat", "模型心跳"), ("review.started", "开始审查"), ("review.completed", "审查完成"),
   ("review.skipped", "审查跳过"), ("main_loop_rebuttal", "主循环反驳"), ("tool.requested", "工具请求"),
   ("tool.started", "工具开始"), ("tool.completed", "工具完成"), ("tool.failed", "工具失败"),
   ("approval.required", "等待审批"), ("approval.resolved", "审批完成"),
   ("message.completed", "最终回答"), ("task.completed", "运行完成"), ("task.cancelled", "运行已取消"),
   ("task.failed", "运行失败"), ("task.interrupted", "运行已中断"), ("task.blocked", "运行受阻")]

/-- `str(event.get(key) or data.get(key, ""))`. -/
def envelopeText (event data : PyDict) (key : String) : String :=
  (PyValue.or (event.getD key .none) (data.getD key (.str ""))).text txt

/-- `str(data.get(key, ""))[:n]`. -/
def clippedText (data : PyDict) (key : String) (n : Nat) : String :=
  pyClip (data.textOf txt key) n

/-- `if text: item[key] = text`. -/
def setNonempty (key text : String) (item : PyDict) : PyDict :=
  if text = "" then item else item.set key (.str text)

/-- The part of an audit entry every event type has. -/
def runIndexBase (event data : PyDict) : PyDict :=
  let eventType := event.textOf txt "type"
  let parentEventId := envelopeText txt event data "parent_event_id"
  let startedAt := envelopeText txt event data "started_at"
  let endedAt := envelopeText txt event data "ended_at"
  let phase := (PyValue.or (event.getD "phase" .none) (.str (eventPhase eventType))).text txt
  let item : PyDict :=
    [("event_id", .str (clippedText txt event "event_id" 64)),
     ("run_id", .str (clippedText txt event "run_id" 128)),
     ("type", .str (pyClip eventType 64)),
     ("timestamp", .str (clippedText txt event "timestamp" 40)),
     ("label", .str (pyClip ((runIndexLabels.lookup eventType).getD eventType) 64)),
     ("phase", .str (pyClip phase 32))]
  let item := setNonempty "parent_event_id" (pyClip parentEventId 64) item
  let item := setNonempty "started_at" (pyClip startedAt 40) item
  let item := setNonempty "ended_at" (pyClip endedAt 40) item
  let item := setNonempty "summary" (pyClip (envelopeText txt event data "summary") 1000) item
  match (event.getD "attempt" (data.getD "attempt" .none)).asInt? with
  | some attempt => if 0 ≤ attempt then item.set "attempt" (.int attempt) else item
  | none => item

/-- The counters kept of `usage`: the four known ones, where they are nonnegative integers. -/
def usageCounters (usage : PyDict) : PyDict :=
  usage.filter fun (key, value) =>
    ["input_tokens", "output_tokens", "total_tokens", "cached_tokens"].contains key &&
      match value.asInt? with
      | some n => decide (0 ≤ n)
      | none => false

/-- The fields an audit entry of a `tool.` event adds. -/
def runIndexTool (eventType : String) (data item : PyDict) : PyDict :=
  let item := item.set "tool_name" (.str (clippedText txt data "tool_name" 100))
  let item := item.set "tool_call_id" (.str (clippedText txt data "tool_call_id" 200))
  if eventType = "tool.requested" then
    match data.get? "args_preview" with
    | some (.dict (entry :: rest)) => item.set "args_preview" (.dict (entry :: rest))
    | _ => item
  else if eventType = "tool.completed" ∨ eventType = "tool.failed" then
    match data.get? "result_preview" with
    | some (.str preview) =>
      if preview = "" then item
      else
        let item := item.set "result_preview" (.str (pyClip preview 8000))
        if (data.getD "result_truncated" .none).truthy then
          item.set "result_truncated" (.bool true)
        else item
    | _ => item
  else item

/-- The fields an audit entry adds for its event type. -/
def runIndexFields (eventType : String) (data item : PyDict) : Except PyError PyDict :=
  if pyStartsWith eventType "tool." then
    pure (runIndexTool txt eventType data item)
  else if eventType = "model.completed" then
    let item := match data.getD "usage" (.dict []) with
      | .dict usage => item.set "usage" (.dict (usageCounters usage))
      | _ => item
    pure (setNonempty "text" (clippedText txt data "text" 4000) item)
  else if eventType = "plan.created" then do
    let stepCount ← nonnegativeInt txt (data.getD "step_count" (.int 0))
    pure ((item.set "intent" (.str (clippedText txt data "intent" 32))).set
      "step_count" (.int stepCount))
  else if eventType = "message.completed" then
    pure (setNonempty "text" (clippedText txt data "text" 4000) item)
  else if eventType = "assistant.thinking" then
    let stage := pyClip ((PyValue.or (data.getD "stage" (.str "")) (.str "")).text txt) 32
    pure (setNonempty "stage" stage (setNonempty "text" (clippedText txt data "text" 4000) item))
  else if eventType = "assistant.commentary" then
    pure (setNonempty "text" (clippedText txt data "text" 1000) item)
  else if eventType = "review.started" then
    pure (item.set "trigger" (.str (clippedText txt data "trigger" 32)))
  else if eventType = "review.completed" then do
    let item := item.set "verdict" (.str (clippedText txt data "verdict" 32))
    let item := setNonempty "feedback" (clippedText txt data "feedback" 500) item
    let item := item.set "reason" (.str (clippedText txt data "reason" 100))
    let item := match data.getD "obstacles" (.list []) with
      | .list obstacles =>
        item.set "obstacles"
          (.list ((obstacles.take 10).map fun o => .str (pyClip (PyValue.text txt o) 100)))
      | _ => item
    let toolRounds ← nonnegativeInt txt (data.getD "tool_rounds" (.int 0))
    pure (item.set "tool_rounds" (.int toolRounds))
  else if eventType = "review.skipped" then
    pure (item.set "reason" (.str (clippedText txt data "reason" 100)))
  else if eventType = "main_loop_rebuttal" then
    let item := item.set "against_verdict" (.str (clippedText txt data "against_verdict" 32))
    let item := item.set "action" (.str (clippedText txt data "action" 100))
    pure (setNonempty "feedback" (clippedText txt data "feedback" 500) item)
  else if pyStartsWith eventType "task." then
    pure (item.set "status" (.str (pyClip (String.ofList (eventType.toList.drop 5)) 32)))
  else pure item

/-- The audit entry of one event. -/
def runIndexItem (event data : PyDict) : Except PyError PyDict :=
  runIndexFields txt (event.textOf txt "type") data (runIndexBase txt event data)

/-- The entry that `item`, a thinking event, continues: `previous` with the two texts joined. -/
def mergeThinking (previous item : PyDict) : Option PyDict :=
  let previousText := previous.textOf txt "text"
  let nextText := item.textOf txt "text"
  if previous.get? "type" = some (.str "assistant.thinking") ∧
      previous.get? "run_id" = item.get? "run_id" ∧
      previous.get? "phase" = item.get? "phase" ∧
      previousText ≠ "" ∧ nextText ≠ "" ∧
      previousText.length + nextText.length ≤ 4000 then
    some ((previous.set "timestamp" (item.getD "timestamp" .none)).set
      "text" (.str (previousText ++ nextText)))
  else none

/-- The audit list with one more entry: a thinking event may continue the last one, and only the
last 499 are kept before a new one. -/
def pushRunIndex (eventType : String) (runIndex : List PyDict) (item : PyDict) : List PyDict :=
  let appended := runIndex.drop (runIndex.length - 499) ++ [item]
  match runIndex.getLast? with
  | none => appended
  | some previous =>
    if eventType = "assistant.thinking" then
      match mergeThinking txt previous item with
      | some merged => runIndex.dropLast ++ [merged]
      | none => appended
    else appended

/-- `_append_run_index`. -/
def appendRunIndex (now : String) (event data : PyDict) (task : Task) : Except PyError Task :=
  let eventType := event.textOf txt "type"
  if eventType = "model.heartbeat" then pure task
  else do
    let item ← runIndexItem txt event data
    pure { task with
      runIndex := pushRunIndex txt eventType task.runIndex item
      updatedAt := now }

/-- `_append_pending_stream_events`: an event whose entry cannot be built is skipped. -/
def appendPendingStreamEvents (now : String) (pending : List (PyDict × PyDict)) (task : Task) :
    Task :=
  pending.foldl
    (fun task (event, data) => match appendRunIndex txt now event data task with
      | .ok updated => updated
      | .error _ => task)
    task

/-! ## What the audit edits leave alone -/

variable {txt}

/-- `task'` is `task` with another audit list and another time of the update. -/
def AuditFrame (task task' : Task) : Prop :=
  task' = { task with runIndex := task'.runIndex, updatedAt := task'.updatedAt }

theorem AuditFrame.refl (task : Task) : AuditFrame task task := rfl

theorem AuditFrame.trans {a b c : Task} (hab : AuditFrame a b) (hbc : AuditFrame b c) :
    AuditFrame a c := by
  rw [AuditFrame] at hbc ⊢
  rw [hab] at hbc
  exact hbc

theorem AuditFrame.status {task task' : Task} (h : AuditFrame task task') :
    task'.status = task.status := by rw [h]

theorem AuditFrame.taskId {task task' : Task} (h : AuditFrame task task') :
    task'.taskId = task.taskId := by rw [h]

theorem AuditFrame.ownerId {task task' : Task} (h : AuditFrame task task') :
    task'.ownerId = task.ownerId := by rw [h]

/-- An audit append changes the audit list and the time of the update, nothing else. -/
theorem appendRunIndex_frame {now : String} {event data : PyDict} {task task' : Task}
    (h : appendRunIndex txt now event data task = .ok task') : AuditFrame task task' := by
  rw [appendRunIndex] at h
  split at h
  · rw [← Except.ok.inj h]
    exact AuditFrame.refl task
  · cases hitem : runIndexItem txt event data with
    | error e => rw [hitem] at h; cases h
    | ok item =>
      rw [hitem] at h
      rw [← Except.ok.inj h]
      rfl

/-- The batched append leaves the same fields alone, whichever of its events were skipped. -/
theorem appendPendingStreamEvents_frame (now : String) :
    ∀ (pending : List (PyDict × PyDict)) (task : Task),
      AuditFrame task (appendPendingStreamEvents txt now pending task)
  | [], task => AuditFrame.refl task
  | (event, data) :: rest, task => by
    cases h : appendRunIndex txt now event data task with
    | error e =>
      have hskip : appendPendingStreamEvents txt now ((event, data) :: rest) task
          = appendPendingStreamEvents txt now rest task := by
        simp only [appendPendingStreamEvents, List.foldl_cons, h]
      rw [hskip]
      exact appendPendingStreamEvents_frame now rest task
    | ok updated =>
      have hcons : appendPendingStreamEvents txt now ((event, data) :: rest) task
          = appendPendingStreamEvents txt now rest updated := by
        simp only [appendPendingStreamEvents, List.foldl_cons, h]
      rw [hcons]
      exact (appendRunIndex_frame h).trans (appendPendingStreamEvents_frame now rest updated)

end ThreadForge

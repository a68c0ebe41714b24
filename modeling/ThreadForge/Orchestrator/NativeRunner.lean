import ThreadForge.Pico.ReviewGate
import ThreadForge.Pico.Steady

/-!
# `run_native`

`native_runner.py` and `run_lifecycle.py`: the agent loop, the completion gate after it, the handlers
around both, and the end that is written whatever happened. The arguments are taken as
`normalize_task_mode` and the checks of `focus_paths` leave them.

## One end

A run leaves its status and its stop reason in four places: the `run_finished` event, the stored
task state, the report, and the result. `consistentEnd_iff` says when they agree.
-/

namespace ThreadForge

open Eff AgentM

/-! ## The request -/

/-- What `run_native` is called with. -/
structure NativeRequest where
  taskInput : String
  mode : Intent := .codeChange
  recordSession : Bool := true
  runId : String
  taskId : String
  sessionId : String := ""
  workspaceId : String := ""

open PyPattern in
/-- `PLAIN_CONVERSATION_PATTERN` of the orchestrator, on a text with its case folded. -/
def shortConversation (txt : PyText) : PyPattern :=
  andThen
    (oneOf (["hi", "hello", "hey", "thanks"].map lit ++
      [andThen (lit "thank") (andThen (many1 txt.isSpace) (lit "you"))] ++
      ["ok", "okay", "你好", "您好", "嗨", "哈喽", "在吗", "谢谢", "谢了", "好的", "好", "收到"].map lit))
    (many fun c => c ∈ "!！。.?？".toList || txt.isSpace c)

/-- `is_plain_conversation_request`. -/
def isPlainConversationRequest (txt : PyText) (task : String) : Bool :=
  PyPattern.matchesAll (shortConversation txt)
    (String.ofList ((pyStrip txt task).toList.map PyPattern.foldCase))

variable {X : Type} (env : AgentEnv X) (request : NativeRequest)

/-- The run is a short social turn. -/
def NativeRequest.plain : Bool := isPlainConversationRequest env.txt request.taskInput

/-- The intent that the run resolves to. -/
def NativeRequest.intent : Intent := if request.plain env then .conversation else request.mode

/-- The request becomes the task summary of the memory. -/
def NativeRequest.summarized : Bool := request.recordSession && !request.plain env

/-! ## The run -/

/-- The task state before the loop makes its own. -/
def NativeRequest.firstTask : TaskState where
  runId := request.runId
  taskId := request.taskId
  userRequest := request.taskInput
  sessionId := request.sessionId
  workspaceId := request.workspaceId

/-- The run up to the end of the loop. -/
def nativeLoop : AgentM X String := do
  Eff.when (request.summarized env) (layer env (.taskSummary request.taskInput))
  Eff.modify fun s => { s with task := request.firstTask, hasTask := true }
  emitTrace env "native_loop_started"
  AgentLoop.run env request.taskInput request.taskId request.runId

/-- The loop made a new task state: it is given its session and its workspace. -/
def NativeRequest.attribute (t : TaskState) : TaskState :=
  { t with
    intent := (request.intent env).text
    sessionId := request.sessionId
    workspaceId := request.workspaceId }

/-- The gate looks at completed runs with an answer. -/
def gateApplies (t : TaskState) : Bool :=
  request.intent env ≠ .conversation && t.status = .completed && t.finalAnswer ≠ ""

/-- A run that the gate does not let pass. -/
def TaskState.blockByGate (t : TaskState) : TaskState :=
  ({ t with reviewStatus := "needs_fix" }.recordError "completion_gate" "completion_gate_failed"
      false 1).stop
    (if hasWriteEvidence t then .reviewRetryLimitReached else .noChangesToReview) .stopped
    t.finalAnswer

/-- The verdict of the gate. -/
def gateVerdictOf (t : TaskState) : Except PyError GateStatus :=
  runReviewGate env.txt (fun text => env.digest (env.files.encode text)) (request.intent env) t

/-- What becomes of the run after the verdict. -/
def followGate : Except PyError GateStatus → AgentM X Unit
  | .error kind => Eff.raise (.raised ⟨kind, none⟩)
  | .ok .pass => pure ()
  | .ok .needsFix => onTask TaskState.blockByGate

/-- What the gate makes of the run. -/
def gateRun : AgentM X Unit := do
  let t ← task
  Eff.when (gateApplies env request t = true) (followGate (gateVerdictOf env request t))

/-! ## The handlers -/

/-- `MODEL_ERROR_MESSAGES`. -/
def modelErrorMessages : List (String × String) :=
  [("model_rate_limited", "模型服务当前请求过多，已自动重试，请稍后再试。"),
    ("model_timeout", "模型服务响应超时，已自动重试，请稍后再试。"),
    ("model_connection_error", "无法稳定连接模型服务，已自动重试，请检查网络后再试。"),
    ("model_server_error", "模型服务暂时不可用，已自动重试，请稍后再试。"),
    ("model_auth_error", "模型服务认证失败，请在 Worker 中重新配置 API 密钥。"),
    ("model_request_rejected", "模型服务拒绝了请求，请检查模型与推理强度配置。"),
    ("model_response_invalid", "模型服务返回了无法解析的响应，请稍后再试。"),
    ("model_provider_error", "模型服务返回错误，请检查供应商配置后再试。"),
    ("model_call_failed", "模型调用失败，请稍后再试。")]

/-- `MODEL_ERROR_MESSAGES.get(code, MODEL_ERROR_MESSAGES["model_call_failed"])`. -/
def modelErrorMessage (code : String) : String :=
  (modelErrorMessages.lookup code).getD "模型调用失败，请稍后再试。"

/-- What the handler reads off an exception. -/
structure FailureInfo where
  code : String := "runtime_error"
  reason : StopReason := .runtimeError
  stage : String := "runtime"
  retryable : Bool := false
  attempts : Nat := 1

def Failure.info : Failure → FailureInfo
  | .outside err => {
      code := if err.code = "" then "runtime_error" else err.code
      reason := if err.modelError then .modelError else .runtimeError
      stage := err.stage
      retryable := err.retryable
      attempts := err.attempts }
  | _ => {}

/-- The text a failed run ends with. The answer of the loop is there where the gate raised. -/
def failedAnswer (info : FailureInfo) (final : String) : AgentM X String := do
  let t ← task
  if info.reason = .modelError then pure (modelErrorMessage info.code)
  else if final ≠ "" then pure final
  else if t.evidence.isEmpty ∧ t.rejectedFinals.isEmpty then pure "Agent 运行失败，请稍后重试。"
  else convergenceSummary env "运行时出现未预期错误（runtime_error）"

/-- `except Exception`, where there is a task state. -/
def failRun (failure : Failure) (final : String) : AgentM X Unit := do
  service env .discardAnswer
  let info := failure.info
  onTask fun t => t.recordError info.stage info.code info.retryable info.attempts
  let answer ← failedAnswer env info final
  onTask fun t => t.stop info.reason .failed answer
  let t ← task
  Eff.when (t.finalAnswer ≠ "") (record env (.message "assistant" t.finalAnswer))

/-- The handlers of `run_native`. -/
def nativeHandler (final : String) : Failure → AgentM X Unit
  | .cancelled => do
    let s ← Eff.get
    Eff.when s.hasTask (onTask TaskState.stopUserCancelled)
  | failure => do
    let s ← Eff.get
    Eff.when s.hasTask (failRun env failure final)

/-! ## The end that is written -/

/-- `try: m; except Exception: persistence_error = True`. -/
def persisted (m : AgentM X Unit) : AgentM X Bool :=
  Eff.tryExcept
    (do
      m
      pure true)
    (fun _ => true) fun _ => pure false

/-- The end of a run whose artifacts could not be written. -/
def TaskState.stopPersistence (t : TaskState) : TaskState :=
  t.stop .persistenceError .failed "agent run finalization failed: persistence error"

/-- `run_finished`, where it did not go out yet. -/
def backfillFinished : AgentM X Unit := do
  let t ← task
  Eff.when (t.runFinishedEmitted = false) do
    emitRunFinished env
    onTask TaskState.announced

/-- `finalize_run`. -/
def finalizeRun : AgentM X Unit := do
  let stored ← persisted (writeTaskState env)
  let announced ← persisted (backfillFinished env)
  Eff.when ((stored && announced) = false) (onTask TaskState.stopPersistence)
  let reported ← persisted (writeReport env)
  Eff.when (reported = false) do
    onTask TaskState.stopPersistence
    let _ ← persisted (writeTaskState env)

/-- The `finally` of `run_native`. A run that is still running there has failed. -/
def nativeFinally (final : String) : AgentM X Unit := do
  let s ← Eff.get
  Eff.when s.hasTask do
    Eff.when (s.task.status = .running) (onTask fun t => t.stop .runtimeError .failed final)
    finalizeRun env

/-- The gate, and the handlers of what the loop or the gate raised. -/
def settleNative : Except Failure String → AgentM X Unit
  | .error failure => nativeHandler env "" failure
  | .ok final =>
    Eff.tryExcept
      (do
        onTask (request.attribute env)
        gateRun env request)
      (fun _ => true) (nativeHandler env final)

/-- `final_answer`, as the loop left it. -/
def finalOf : Except Failure String → String
  | .ok final => final
  | .error _ => ""

/-- `run_native`: the task state that it returns. -/
def runNative : AgentM X (Option TaskState) := do
  let ran ← Eff.capture (nativeLoop env request)
  let settled ← Eff.capture (settleNative env request ran)
  nativeFinally env (finalOf ran)
  Eff.ofExcept settled
  let s ← Eff.get
  pure (if s.hasTask then some s.task else none)

end ThreadForge

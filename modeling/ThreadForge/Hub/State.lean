import ThreadForge.Hub.TaskEdits
import Mathlib.Logic.Function.Basic

/-!
# The worker hub: its state and its lock regions

`WorkerHub` keeps three maps under one lock: the connection of each device, the tasks each device
runs, and the device of each task. The tasks and approvals themselves are in the repositories. Each
definition below is one lock region of the source, or one repository write it makes outside the
lock; a region that raises before it changed anything returns the error.

## What is a parameter

`HubEnv` holds the settings and the functions of other modules the hub calls (redaction, digests).
The result of `publish` and the readings of the clock are arguments of the region that uses them.
-/

namespace ThreadForge

/-! ## Records -/

/-- `WorkerConnection`. Python compares connections by identity, here `connectionId`. -/
structure WorkerConnection where
  connectionId : Nat
  deviceId : String
  ownerId : String
  ready : Bool := false
  workspaces : List String := []
  deriving DecidableEq, Repr

/-- What the hub puts in a connection's outbox, by message type. -/
inductive HubMessage
  | taskStart (taskId : String)
  | taskCancel (taskId : String)
  | approvalRegistered (taskId toolCallId approvalId : String)
  | approvalDecision (taskId approvalId toolCallId decision argsDigest : String)
  deriving DecidableEq, Repr

/-- What a hub operation raises. -/
inductive HubError
  | workerOffline
  | protocol (message : String)
  | concurrencyLimit
  | approvalAlreadyResolved
  | approvalExpired
  | approvalStale
  | recordCorrupted (id : String)
  | notFound (id : String)
  | python (e : PyError)
  deriving DecidableEq, Repr

/-- A change the message handler makes to a task's audit list. -/
inductive AuditEdit
  | append (event data : PyDict)
  | batch (pending : List (PyDict × PyDict))
  deriving DecidableEq, Repr

/-- What the handler of a connection still has to do for the message it is handling. -/
inductive HandlerStep
  | audit (taskId : String) (edit : AuditEdit)
  | persistApproval (taskId : String) (approval : Approval)
  deriving DecidableEq, Repr

/-- Where `create_task` and the `dispatch` it calls stand for a task. -/
inductive DispatchPhase
  | absent
  | created
  | claimed
  | started
  | sendFailed
  | failing
  | done
  deriving DecidableEq, Repr

/-- The settings and the functions of other modules that the hub uses. -/
structure HubEnv where
  txt : PyText
  maxConcurrentTasks : Nat
  sanitizeEventData : String → PyDict → PyDict
  redactText : String → String
  /-- `hashlib.sha256(text.encode()).hexdigest()`. -/
  sha256 : String → String
  /-- The same digest keyed with the server's approval key. -/
  keyedSha256 : String → String
  /-- The redacted arguments, bounded for display. -/
  argsPreview : PyDict → PyDict

/-- The digest a Worker must have sent for these arguments. -/
def HubEnv.requestDigest (env : HubEnv) (args : PyDict) : String :=
  env.sha256 (canonicalJson env.txt (.dict args))

def HubEnv.argsDigest (env : HubEnv) (args : PyDict) : String :=
  env.keyedSha256 (canonicalJson env.txt (.dict args))

/-- The hub, the repositories behind it, and the operations in progress. -/
structure HubState where
  tasks : String → Option Task
  approvals : List Approval
  connections : String → Option WorkerConnection
  activeByDevice : String → Option (List String)
  deviceByTask : String → Option String
  pendingStreamEvents : String → List (PyDict × PyDict)
  /-- The rest of the message each connection's handler is on. -/
  handler : Nat → List HandlerStep
  dispatching : String → DispatchPhase
  /-- Tasks `connect`, `disconnect` and `revoke` unmapped and still have to fail. -/
  failing : List (String × String × TaskStatus)
  /-- Everything put in an outbox so far. -/
  sent : List (WorkerConnection × HubMessage)

namespace HubState

/-! ## Repository access -/

/-- `_task_repo.update(task_id, fn)`, in one step. -/
def updateTask (s : HubState) (taskId now : String) (fn : Task → Task) : HubState :=
  { s with
    tasks := Function.update s.tasks taskId
      ((s.tasks taskId).map fun task => { fn task with updatedAt := now }) }

/-- `_task_repo.get`. -/
def getTask (s : HubState) (taskId : String) : Except HubError Task :=
  match s.tasks taskId with
  | some task => .ok task
  | none => .error (.notFound taskId)

/-- `_approval_repo.get`. -/
def getApproval (s : HubState) (approvalId : String) : Except HubError Approval :=
  match s.approvals.find? fun approval => approval.approvalId = approvalId with
  | some approval => .ok approval
  | none => .error (.notFound approvalId)

/-- `_set_approval_decision`. -/
def setApprovalDecision (now : String) (status : ApprovalStatus) (decision : String)
    (approval : Approval) : Approval :=
  { approval with status := status, decision := some decision, decidedAt := some now }

/-- `_approval_repo.update`. -/
def updateApproval (s : HubState) (approvalId : String) (fn : Approval → Approval) : HubState :=
  { s with approvals := s.approvals.map fun approval =>
      if approval.approvalId = approvalId then fn approval else approval }

/-- `_cancel_pending_approvals`. -/
def cancelPendingApprovals (s : HubState) (taskId now decision : String) : HubState :=
  { s with approvals := s.approvals.map fun approval =>
      if approval.taskId = taskId ∧ approval.status = .pending then
        setApprovalDecision now .cancelled decision approval
      else approval }

/-! ## The maps -/

/-- `_send`: an outbox takes the message when the device is connected. -/
def send (s : HubState) (deviceId : String) (message : HubMessage) : Except HubError HubState :=
  match s.connections deviceId with
  | some connection => .ok { s with sent := s.sent ++ [(connection, message)] }
  | none => .error .workerOffline

/-- A `_send` at the end of an operation: when it raises, what was written stays. -/
def sendAfterWrites (s : HubState) (deviceId : String) (message : HubMessage) : HubState :=
  match s.send deviceId message with
  | .ok s' => s'
  | .error _ => s

/-- `active.add(task_id)`. -/
def addActive (active : List String) (taskId : String) : List String :=
  if taskId ∈ active then active else active ++ [taskId]

/-- `_release`. -/
def release (s : HubState) (taskId deviceId : String) : HubState :=
  { s with
    deviceByTask := Function.update s.deviceByTask taskId none
    activeByDevice := match s.activeByDevice deviceId with
      | none => s.activeByDevice
      | some active =>
        let rest := active.filter (· ≠ taskId)
        Function.update s.activeByDevice deviceId (if rest = [] then none else some rest) }

/-- Forget the tasks of a device, and leave each of them to be failed. -/
def dropDevice (s : HubState) (deviceId reason : String) (status : TaskStatus) : HubState :=
  let taskIds := (s.activeByDevice deviceId).getD []
  { s with
    activeByDevice := Function.update s.activeByDevice deviceId none
    deviceByTask := fun taskId => if taskId ∈ taskIds then none else s.deviceByTask taskId
    failing := s.failing ++ taskIds.map fun taskId => (taskId, reason, status) }

/-- `_assigned_task`. -/
def assignedTask (s : HubState) (connection : WorkerConnection) (taskId : String) :
    Except HubError Task :=
  if s.deviceByTask taskId ≠ some connection.deviceId then
    .error (.protocol "task is not assigned to this Worker")
  else match s.getTask taskId with
    | .error e => .error e
    | .ok task =>
      if task.ownerId ≠ connection.ownerId then
        .error (.protocol "task owner does not match Worker owner")
      else .ok task

/-! ## Connections -/

/-- The lock region of `connect`. A new connection replaces the device's old one. -/
def connect (s : HubState) (connection : WorkerConnection) : HubState :=
  let next := { s with
    connections := Function.update s.connections connection.deviceId (some connection) }
  match s.connections connection.deviceId with
  | none => next
  | some _ => next.dropDevice connection.deviceId "worker_reconnected" .failed

/-- `_handle_hello`, for the fields `dispatch` reads. -/
def hello (s : HubState) (connectionId : Nat) (workspaces : List String) : HubState :=
  { s with connections := fun deviceId => (s.connections deviceId).map fun connection =>
      if connection.connectionId = connectionId then
        { connection with ready := true, workspaces := workspaces }
      else connection }

/-- The lock region of `disconnect`: nothing when another connection has taken the device. -/
def disconnect (s : HubState) (connection : WorkerConnection) : HubState :=
  match s.connections connection.deviceId with
  | none => s
  | some current =>
    if current.connectionId = connection.connectionId then
      { s with connections := Function.update s.connections connection.deviceId none }.dropDevice
        connection.deviceId "worker_disconnected" .interrupted
    else s

/-- The lock region of `revoke`. -/
def revoke (s : HubState) (deviceId : String) : HubState :=
  { s with connections := Function.update s.connections deviceId none }.dropDevice
    deviceId "worker_revoked" .failed

variable (env : HubEnv)

/-- `_fail_task`: nothing for a missing or terminal task. -/
def failTask (s : HubState) (taskId reason : String) (status : TaskStatus) (now : String) :
    HubState :=
  match s.tasks taskId with
  | none => s
  | some task =>
    if task.status.terminal then s
    else
      let s := s.cancelPendingApprovals taskId now reason
      match setTerminal env.txt now status reason "" [] task with
      | .ok task' => s.updateTask taskId now fun _ => task'
      | .error _ => s

/-! ## `create_task` and `dispatch` -/

/-- `_task_repo.create(replace(task, input=""))`. -/
def createTask (s : HubState) (task : Task) : Except HubError HubState :=
  match s.tasks task.taskId with
  | some _ => .error (.recordCorrupted task.taskId)
  | none => .ok { s with
      tasks := Function.update s.tasks task.taskId (some { task with input := "" })
      dispatching := Function.update s.dispatching task.taskId .created }

/-- The lock region of `dispatch`: check the device and the owners, and take a slot. -/
def dispatchClaim (s : HubState) (task : Task) (session : PyDict) : Except HubError HubState :=
  match s.connections task.deviceId with
  | none => .error .workerOffline
  | some connection =>
    if !connection.ready then .error .workerOffline
    else if connection.ownerId ≠ task.ownerId ∨
        session.get? "owner_id" ≠ some (.str task.ownerId) ∨
        session.get? "workspace_id" ≠ some (.str task.workspaceId) ∨
        session.get? "device_id" ≠ some (.str task.deviceId) ∨
        task.workspaceId ∉ connection.workspaces then
      .error (.protocol "task, device and workspace ownership do not match")
    else
      let active := (s.activeByDevice task.deviceId).getD []
      if env.maxConcurrentTasks ≤ active.length then .error .concurrencyLimit
      else .ok { s with
        activeByDevice := Function.update s.activeByDevice task.deviceId
          (some (addActive active task.taskId))
        deviceByTask := Function.update s.deviceByTask task.taskId (some task.deviceId) }

/-! ## `cancel` and `resolve_approval` -/

/-- `cancel`: nothing for a task no device runs, and no write for a terminal one. -/
def cancel (s : HubState) (taskId now : String) : Except HubError HubState :=
  match s.deviceByTask taskId with
  | none => .ok s
  | some deviceId =>
    match s.getTask taskId with
    | .error e => .error e
    | .ok task =>
      if task.status.terminal then .ok (s.sendAfterWrites deviceId (.taskCancel taskId))
      else
        let s := s.cancelPendingApprovals taskId now "cancelled"
        let s := s.updateTask taskId now (setCancelRequested now)
        .ok (s.sendAfterWrites deviceId (.taskCancel taskId))

/-- `resolve_approval`: the decision is stored and the task is running again before the Worker is
told. `expired` is whether the clock has passed `expires_at`. -/
def resolveApproval (s : HubState) (approvalId decision : String) (expired : Bool) (now : String) :
    Except HubError HubState :=
  match s.getApproval approvalId with
  | .error e => .error e
  | .ok approval =>
    if approval.status ≠ .pending then
      if approval.decision = some decision then .ok s else .error .approvalAlreadyResolved
    else if expired then .error .approvalExpired
    else match s.deviceByTask approval.taskId with
      | none => .error .approvalStale
      | some deviceId =>
        match s.connections deviceId with
        | none => .error .approvalStale
        | some connection =>
          if !connection.ready then .error .approvalStale
          else match s.getTask approval.taskId with
            | .error e => .error e
            | .ok task =>
              if task.status ≠ .waitingForApproval then .error .approvalStale
              else
                let status := if decision = "approved" then .approved else .rejected
                let s := s.updateApproval approvalId (setApprovalDecision now status decision)
                let s := s.updateTask approval.taskId now (clearApproval now)
                .ok (s.sendAfterWrites deviceId (.approvalDecision approval.taskId approvalId
                  approval.toolCallId decision approval.requestDigest))

/-! ## Worker messages -/

/-- `_PUBLIC_EVENT_TYPE`. -/
def isPublicEventType (eventType : String) : Bool :=
  match eventType.toList with
  | [] => false
  | first :: rest =>
    ('a' ≤ first && first ≤ 'z') && rest.length ≤ 63 && rest.all fun c =>
      ('a' ≤ c && c ≤ 'z') || ('0' ≤ c && c ≤ '9') || c = '_' || c = '.' || c = '-'

/-- `_PUBLIC_WORKER_EVENTS`. -/
def publicWorkerEvents : List String :=
  ["model.started", "model.completed", "model.retrying", "model.protocol_retrying",
   "model.heartbeat", "assistant.delta", "assistant.thinking", "tool.requested", "tool.started",
   "tool.completed", "tool.failed", "policy.violation", "sandbox.started", "sandbox.completed",
   "sandbox.failed", "sandbox.cleaned", "agent.state", "plan.created", "plan.skipped",
   "assistant.commentary", "review.started", "review.completed", "review.skipped",
   "main_loop_rebuttal"]

/-- `_STREAM_PERSIST_EVENTS`. -/
def streamPersistEvents : List String := ["assistant.thinking", "assistant.commentary"]

/-- The events written to the audit list as they arrive. -/
def auditedEvents : List String :=
  ["plan.created", "plan.skipped", "model.started", "model.completed", "review.started",
   "review.completed", "review.skipped", "main_loop_rebuttal", "tool.requested", "tool.started",
   "tool.completed", "tool.failed", "message.completed"]

/-- `_flush_stream_events`: take the buffered events, and leave their write to the handler. -/
def flushStreamEvents (s : HubState) (connectionId : Nat) (taskId : String) : HubState :=
  match s.pendingStreamEvents taskId with
  | [] => s
  | pending => { s with
      pendingStreamEvents := Function.update s.pendingStreamEvents taskId []
      handler := Function.update s.handler connectionId
        (s.handler connectionId ++ [.audit taskId (.batch pending)]) }

/-- `_handle_event`, up to its repository writes. `event` is the envelope `publish` returned. -/
def handleEvent (s : HubState) (connection : WorkerConnection) (message event : PyDict) :
    Except HubError HubState :=
  let taskId := message.textOf env.txt "task_id"
  let eventType := message.textOf env.txt "event_type"
  match s.assignedTask connection taskId with
  | .error e => .error e
  | .ok task =>
    if !isPublicEventType eventType then .error (.protocol "Worker event type is invalid")
    else if eventType ∉ publicWorkerEvents then .ok s
    else match message.getD "data" (.dict []) with
      | .dict data =>
        if task.status = .cancelRequested then .ok s
        else
          let safeData := env.sanitizeEventData eventType data
          if eventType ∈ streamPersistEvents then
            .ok { s with
              pendingStreamEvents := Function.update s.pendingStreamEvents taskId
                (s.pendingStreamEvents taskId ++ [(event, safeData)]) }
          else if eventType ∈ auditedEvents then
            let s := s.flushStreamEvents connection.connectionId taskId
            .ok { s with
              handler := Function.update s.handler connection.connectionId
                (s.handler connection.connectionId ++ [.audit taskId (.append event safeData)]) }
          else .ok s
      | _ => .error (.protocol "Worker event data must be an object")

/-- The write of one audit edit: an entry that cannot be built writes nothing. -/
def writeAudit (s : HubState) (taskId : String) (edit : AuditEdit) (now : String) : HubState :=
  match edit with
  | .batch pending =>
    s.updateTask taskId now (appendPendingStreamEvents env.txt now pending)
  | .append event data =>
    match s.tasks taskId with
    | none => s
    | some task =>
      match appendRunIndex env.txt now event data task with
      | .ok task' => s.updateTask taskId now fun _ => task'
      | .error _ => s

/-- `_handle_approval`, up to its lock region: the request as an `Approval` to persist. The
identity, the creation time and the expiry are the readings of the generator and the clock. -/
def approvalOfMessage (s : HubState) (connection : WorkerConnection) (message : PyDict)
    (approvalId createdAt expiresAt : String) : Except HubError Approval :=
  let taskId := message.textOf env.txt "task_id"
  match s.assignedTask connection taskId with
  | .error e => .error e
  | .ok task =>
    let toolCallId := message.textOf env.txt "tool_call_id"
    let toolName := message.textOf env.txt "tool_name"
    if toolCallId = "" ∨ 200 < toolCallId.length ∨ toolName = "" ∨ 100 < toolName.length then
      .error (.protocol "invalid approval identity")
    else match message.getD "args" (.dict []) with
      | .dict args =>
        let requestDigest := env.requestDigest args
        if message.textOf env.txt "args_digest" ≠ requestDigest then
          .error (.protocol "approval args digest does not match")
        else .ok {
          approvalId := approvalId
          taskId := taskId
          runId := task.runId
          ownerId := task.ownerId
          toolCallId := toolCallId
          toolName := toolName
          argsDigest := env.argsDigest args
          argsPreview := env.argsPreview args
          requestDigest := requestDigest
          createdAt := createdAt
          expiresAt := expiresAt }
      | _ => .error (.protocol "approval args must be an object")

/-- The lock region of `_handle_approval` and the message that follows it. A request for a task
that is being cancelled is dropped; where the approval cannot be created the operation raises, and
the task is put back to running. -/
def persistApproval (s : HubState) (connection : WorkerConnection) (taskId : String)
    (approval : Approval) (now : String) : Except HubError HubState :=
  match s.getTask taskId with
  | .error e => .error e
  | .ok current =>
    if current.status = .cancelRequested then .ok s
    else if current.status ≠ .running ∨ current.pendingApproval ≠ none then
      .error (.protocol "task cannot accept an approval request")
    else if s.approvals.any fun other => other.approvalId = approval.approvalId then
      .ok (s.updateTask taskId now fun task => clearApproval now (setPendingApproval now approval task))
    else
      let s := s.updateTask taskId now (setPendingApproval now approval)
      let s := { s with approvals := s.approvals ++ [approval] }
      .ok (s.sendAfterWrites connection.deviceId
        (.approvalRegistered taskId approval.toolCallId approval.approvalId))

/-- The status a terminal message names. -/
def terminalStatusOfText (text : String) : Except HubError TaskStatus :=
  match [("completed", TaskStatus.completed), ("cancelled", .cancelled), ("failed", .failed),
    ("interrupted", .interrupted), ("blocked", .blocked)].lookup text with
  | some status => .ok status
  | none => .error (.protocol "invalid terminal status")

/-- `_sanitize_terminal_error`. -/
def sanitizeTerminalError (value : PyValue) : Except PyError PyDict :=
  match value with
  | .dict entries => do
    let error : PyDict := entries
    let code := clippedText env.txt error "code" 100
    if code = "" then pure []
    else
      let attempts ← nonnegativeInt env.txt (error.getD "attempts" (.int 0))
      pure [("error_stage", .str (clippedText env.txt error "stage" 64)),
        ("error_code", .str code),
        ("error_retryable", .bool (error.getD "retryable" (.bool false)).truthy),
        ("error_attempts", .int (min 10 attempts)),
        ("error_detail", .str (clippedText env.txt error "detail" 500))]
  | _ => pure []

/-- `_clear_local_task_content`. -/
def clearLocalTaskContent (now : String) (task : Task) : Task :=
  { task with input := "", finalAnswer := none, updatedAt := now }

/-- `_scrub_local_task_content`: the local tasks of a session lose their texts. The listing behind it
ends after 100 tasks; `Scrubbing` is about sessions that have more. -/
def scrubLocalTaskContent (s : HubState) (sessionId ownerId now : String) : HubState :=
  { s with tasks := fun taskId => (s.tasks taskId).map fun task =>
      if task.sessionId = sessionId ∧ task.ownerId = ownerId ∧
          task.executionEnvironment = "local_worker" ∧
          (task.input ≠ "" ∨ task.finalAnswer.getD "" ≠ "") then
        { clearLocalTaskContent now task with updatedAt := now }
      else task }

/-- What a terminal message asks for, once it is checked. -/
structure TerminalRequest where
  status : TaskStatus
  stopReason : String
  finalAnswer : String
  sessionPersisted : Bool
  error : PyDict

/-- `message_total` must be a nonnegative integer; a boolean is one in Python. -/
def checkMessageTotal : PyValue → Except HubError Unit
  | .int n =>
    if n < 0 then .error (.protocol "invalid local session message count") else .ok ()
  | .bool _ => .ok ()
  | _ => .error (.protocol "invalid local session message count")

def checkSessionPersisted : PyValue → Except HubError Bool
  | .bool persisted => .ok persisted
  | _ => .error (.protocol "invalid local session persistence flag")

/-- The checks of `_handle_terminal_locked`, in order. A cancel that is still waiting turns a
`completed` into a `cancelled`. `sessionMatches` is the identity check on the stored session. -/
def terminalRequest (task : Task) (message : PyDict) (sessionMatches : Bool) :
    Except HubError TerminalRequest := do
  let status ← terminalStatusOfText ((message.getD "status" (.str "failed")).text env.txt)
  let reason := clippedText env.txt message "stop_reason" 200
  let cancelWon := task.status = .cancelRequested ∧ status = .completed
  checkMessageTotal (message.getD "message_total" (.int 0))
  let persisted ← checkSessionPersisted (message.getD "session_persisted" (.bool false))
  if !sessionMatches then
    .error (.protocol "Worker returned an invalid session identity")
  else match sanitizeTerminalError env (message.getD "error" (.dict [])) with
    | .error e => .error (.python e)
    | .ok error => .ok {
        status := if cancelWon then .cancelled else status
        stopReason := if cancelWon then "user_cancelled"
          else if reason = "" then "runtime_error" else reason
        finalAnswer := if cancelWon then ""
          else env.redactText (message.textOf env.txt "final_answer")
        sessionPersisted := persisted
        error := error }

/-- What a terminal message changes before the task itself: the texts of a session the Worker has
persisted, and the approvals still pending. -/
def beforeTerminal (s : HubState) (task : Task) (taskId : String) (request : TerminalRequest)
    (now : String) : HubState :=
  let s := if request.sessionPersisted then
      s.scrubLocalTaskContent task.sessionId task.ownerId now else s
  s.cancelPendingApprovals taskId now request.stopReason

/-- `_handle_terminal_locked`. `event` is the terminal envelope `publish` returned. -/
def handleTerminal (s : HubState) (connection : WorkerConnection) (message event : PyDict)
    (sessionMatches : Bool) (now : String) : Except HubError HubState :=
  let taskId := message.textOf env.txt "task_id"
  match s.assignedTask connection taskId with
  | .error e => .error e
  | .ok task =>
    match terminalRequest env task message sessionMatches with
    | .error e => .error e
    | .ok request =>
      let s := s.beforeTerminal task taskId request now
      match s.getTask taskId with
      | .error e => .error e
      | .ok current =>
        let answer := terminalPersistedFinalAnswer request.status request.finalAnswer
        match setTerminal env.txt now request.status request.stopReason answer request.error
            current with
        | .error e => .error (.python e)
        | .ok task' =>
          let s := s.updateTask taskId now fun _ => task'
          let terminalData : PyDict :=
            [("final_answer", .str request.finalAnswer), ("stop_reason", .str request.stopReason)]
              ++ request.error
          let s := s.writeAudit env taskId (.append event terminalData) now
          .ok (s.release taskId connection.deviceId)

end HubState

end ThreadForge

import ThreadForge.Lib.PyValue

/-!
# Task and Approval records

The control-plane records and their two state machines' states. The runtime's own artifacts are
kept elsewhere; these records are what the API reads and the repositories store.
-/

namespace ThreadForge

/-! ## Status enumerations -/

/-- `TaskStatus`. -/
inductive TaskStatus
  | queued
  | running
  | waitingForApproval
  | cancelRequested
  | cancelled
  | completed
  | failed
  | interrupted
  | blocked
  deriving DecidableEq, Repr

namespace TaskStatus

/-- `TaskStatus.terminal`. -/
def terminal : TaskStatus → Bool
  | .cancelled | .completed | .failed | .interrupted | .blocked => true
  | .queued | .running | .waitingForApproval | .cancelRequested => false

/-- The stored spelling. -/
def value : TaskStatus → String
  | .queued => "queued"
  | .running => "running"
  | .waitingForApproval => "waiting_for_approval"
  | .cancelRequested => "cancel_requested"
  | .cancelled => "cancelled"
  | .completed => "completed"
  | .failed => "failed"
  | .interrupted => "interrupted"
  | .blocked => "blocked"

end TaskStatus

/-- `ApprovalStatus`. -/
inductive ApprovalStatus
  | pending
  | approved
  | rejected
  | expired
  | cancelled
  deriving DecidableEq, Repr

/-! ## Records -/

/-- `Task`. Times are the ISO texts `utc_now` renders. -/
structure Task where
  taskId : String
  sessionId : String
  workspaceId : String
  ownerId : String
  runId : String
  input : String
  executionEnvironment : String := "backend_process"
  deviceId : String := ""
  status : TaskStatus := .queued
  maxSteps : Int := 6
  permissionMode : String := "default"
  modelId : String := ""
  reasoningEffort : String := "none"
  providerId : String := ""
  reviewProviderId : String := ""
  reviewModelId : String := ""
  reviewReasoningEffort : String := "none"
  runIndex : List PyDict := []
  finalAnswer : Option String := none
  stopReason : Option String := none
  errorStage : String := ""
  errorCode : String := ""
  errorRetryable : Bool := false
  errorAttempts : Int := 0
  pendingApproval : Option PyDict := none
  createdAt : String
  updatedAt : String
  generation : Int := 0
  transitionId : Option String := none
  schemaVersion : Int := 5
  deriving DecidableEq, Repr

/-- `Approval`. -/
structure Approval where
  approvalId : String
  taskId : String
  runId : String
  ownerId : String
  toolCallId : String
  toolName : String
  argsDigest : String
  argsPreview : PyDict
  requestDigest : String := ""
  status : ApprovalStatus := .pending
  decision : Option String := none
  createdAt : String
  expiresAt : String := ""
  decidedAt : Option String := none
  transitionId : Option String := none
  schemaVersion : Int := 5
  deriving DecidableEq, Repr

/-- The approval is stored, belongs to the task and is open. -/
def PendingFor (approvals : List Approval) (taskId approvalId : String) : Prop :=
  ∃ approval ∈ approvals, approval.approvalId = approvalId ∧ approval.taskId = taskId ∧
    approval.status = .pending

/-- `canonical_json`, before it is encoded. -/
def canonicalJson (txt : PyText) (value : PyValue) : String := value.dumpsSorted txt

/-! ## Event phases -/

/-- `_PHASE_BY_TYPE_PREFIX`. -/
def phaseByTypePrefix : List (String × String) :=
  [("plan.", "plan"), ("model.", "model"), ("assistant.", "talk"), ("tool.", "execute"),
   ("approval.", "approval"), ("review.", "review"), ("policy.", "execute"),
   ("sandbox.", "execute"), ("workspace.", "execute"), ("message.completed", "final"),
   ("task.completed", "final"), ("task.cancelled", "final"), ("task.failed", "final"),
   ("task.interrupted", "final"), ("task.blocked", "final"),
   ("task.cancel_requested", "final"), ("task.queued", "system"), ("task.started", "system"),
   ("task.snapshot", "system")]

/-- `event_phase`: the type's own entry, else that of its part up to the first dot. -/
def eventPhase (eventType : String) : String :=
  match phaseByTypePrefix.lookup eventType with
  | some phase => phase
  | none =>
    let head := String.ofList (eventType.toList.takeWhile (· ≠ '.')) ++ "."
    (phaseByTypePrefix.lookup head).getD "system"

end ThreadForge

import ThreadForge.Lib.PyString

/-!
# The state of one run of the agent

`task_state.py`: what `task_state.json` holds, and the small methods the loop changes it with.

## The outcome

`TaskState.outcome` is the part that says how the run ends: status, stop reason, final answer and
whether `run_finished` went out. Of the methods below, only `stop` and `finishSuccess` change it.
-/

namespace ThreadForge

/-- `STATUS_*`. -/
inductive RunStatus
  | running
  | completed
  | stopped
  | failed
  deriving DecidableEq, Repr

def RunStatus.text : RunStatus → String
  | .running => "running"
  | .completed => "completed"
  | .stopped => "stopped"
  | .failed => "failed"

/-- The `STOP_REASON_*` that this model sets. -/
inductive StopReason
  | finalAnswerReturned
  | convergenceGuardTriggered
  | retryLimitReached
  | modelError
  | persistenceError
  | reviewRetryLimitReached
  | noChangesToReview
  | budgetExhausted
  | runtimeError
  | userCancelled
  | processCleanupFailed
  deriving DecidableEq, Repr

def StopReason.text : StopReason → String
  | .finalAnswerReturned => "final_answer_returned"
  | .convergenceGuardTriggered => "convergence_guard_triggered"
  | .retryLimitReached => "retry_limit_reached"
  | .modelError => "model_error"
  | .persistenceError => "persistence_error"
  | .reviewRetryLimitReached => "review_retry_limit_reached"
  | .noChangesToReview => "no_changes_to_review"
  | .budgetExhausted => "budget_exhausted"
  | .runtimeError => "runtime_error"
  | .userCancelled => "user_cancelled"
  | .processCleanupFailed => "process_cleanup_failed"

/-- The text of a stop reason that is not set yet. -/
def stopReasonText (reason : Option StopReason) : String := (reason.map StopReason.text).getD ""

/-- `TASK_PHASES`. -/
inductive TaskPhase
  | understandRequest
  | gatherContext
  | analyzeContext
  | actOrAnswer
  | verify
  | final
  deriving DecidableEq, Repr

/-- `tool_status` of a tool result. -/
inductive ToolStatus
  | ok
  | partialSuccess
  | error
  | rejected
  deriving DecidableEq, Repr

def ToolStatus.text : ToolStatus → String
  | .ok => "ok"
  | .partialSuccess => "partial_success"
  | .error => "error"
  | .rejected => "rejected"

/-- `tool_status in {"ok", "partial_success"}`. -/
def ToolStatus.succeeded : ToolStatus → Bool
  | .ok | .partialSuccess => true
  | _ => false

/-- One entry of `evidence`. -/
structure EvidenceItem where
  toolName : PyValue
  status : ToolStatus
  readOnly : Bool
  affectedPaths : List String
  relativePaths : List String
  summary : String
  deriving DecidableEq, Repr

/-- One entry of `rejected_finals`. -/
structure RejectedFinal where
  content : String
  feedback : String
  reason : String
  deriving DecidableEq, Repr

/-- Why a turn was bad. -/
inductive BadTurn
  | silentTurnNoOutput
  | toolRepeatedOrFailed
  deriving DecidableEq, Repr

/-- One entry of `stagnation_audit`: a turn is bad when there is a reason. -/
structure StagnationEntry where
  turn : Nat
  reasons : List BadTurn
  evidenceCount : Nat
  toolName : String
  actions : Nat
  deriving DecidableEq, Repr

def StagnationEntry.bad (entry : StagnationEntry) : Bool := !entry.reasons.isEmpty

/-- One entry of `review_audit`. -/
structure ReviewRecord where
  seq : Nat
  trigger : String
  verdict : String
  feedback : String
  reason : String
  obstacles : List String
  failed : Bool
  deriving DecidableEq, Repr

/-- `DEFAULT_CHECKLIST`. -/
def defaultChecklist : List String :=
  ["Understand the request and acceptance criteria",
    "Gather the minimum workspace context",
    "Analyze evidence and choose the next action",
    "Act or prepare a grounded answer",
    "Verify the result before finishing"]

/-- `TaskState`. -/
structure TaskState where
  runId : String
  taskId : String
  userRequest : String
  sessionId : String := ""
  workspaceId : String := ""
  status : RunStatus := .running
  toolSteps : Nat := 0
  attempts : Nat := 0
  lastTool : String := ""
  stopReason : Option StopReason := none
  finalAnswer : String := ""
  sandboxViolations : Nat := 0
  malformedOutputRecovered : Nat := 0
  affectedPaths : List String := []
  phase : TaskPhase := .understandRequest
  checklist : List String := defaultChecklist
  doneWhen : List String :=
    ["A final answer is grounded in the collected evidence",
      "The requested work is verified or its blocker is explicit"]
  completedItems : List String := []
  stepDoneWhen : List (String × List String) := []
  nextStep : String := "Understand the request and acceptance criteria"
  requiresPostToolReasoning : Bool := false
  readFiles : Nat := 0
  replanReasons : List String := []
  intent : String := ""
  reviewStatus : String := ""
  runFinishedEmitted : Bool := false
  talkSteps : Nat := 0
  evidence : List EvidenceItem := []
  rejectedFinals : List RejectedFinal := []
  inputTokens : Nat := 0
  outputTokens : Nat := 0
  errorStage : String := ""
  errorCode : String := ""
  errorRetryable : Bool := false
  errorAttempts : Nat := 0
  stagnationAudit : List StagnationEntry := []
  reviewAudit : List ReviewRecord := []
  reviewVerified : Bool := false
  deriving DecidableEq, Repr

namespace TaskState

/-! ## Methods -/

/-- `set_phase`. -/
def setPhase (t : TaskState) (phase : TaskPhase) (nextStep : String)
    (completedItem : String := "") : TaskState :=
  { t with
    phase := phase
    completedItems :=
      if completedItem = "" ∨ completedItem ∈ t.completedItems then t.completedItems
      else t.completedItems ++ [completedItem]
    nextStep := if nextStep = "" then t.nextStep else nextStep }

/-- `begin_post_tool_reasoning`. -/
def beginPostToolReasoning (t : TaskState) (toolName : String) : TaskState :=
  { t with requiresPostToolReasoning := true }.setPhase .analyzeContext
    ("Summarize the " ++ toolName ++ " result and decide whether more evidence is needed")

/-- The items that `finish_post_tool_reasoning` completes. -/
def completeReasoningItems (items : List String) : List String :=
  ["Gather the minimum workspace context", "Analyze evidence and choose the next action"].foldl
    (fun done item => if item ∈ done then done else done ++ [item]) items

/-- `finish_post_tool_reasoning`. -/
def finishPostToolReasoning (t : TaskState) (final : Bool) : TaskState :=
  let t := { t with
    requiresPostToolReasoning := false
    completedItems := completeReasoningItems t.completedItems }
  if final then t.setPhase .verify "Verify the evidence before returning the final answer"
  else t.setPhase .actOrAnswer "Choose the next tool or prepare the final answer"

/-- `record_read_file`. -/
def recordReadFile (t : TaskState) : TaskState := { t with readFiles := t.readFiles + 1 }

/-- `record_attempt`. -/
def recordAttempt (t : TaskState) : TaskState := { t with attempts := t.attempts + 1 }

/-- `record_tool`, with the text of the name. -/
def recordTool (t : TaskState) (name : String) : TaskState :=
  { t with toolSteps := t.toolSteps + 1, lastTool := name }

/-- `record_sandbox_violation`. -/
def recordSandboxViolation (t : TaskState) : TaskState :=
  { t with sandboxViolations := t.sandboxViolations + 1 }

/-- `record_malformed_output_recovered`. -/
def recordMalformedOutputRecovered (t : TaskState) : TaskState :=
  { t with malformedOutputRecovered := t.malformedOutputRecovered + 1 }

/-- `record_talk`. -/
def recordTalk (t : TaskState) : TaskState := { t with talkSteps := t.talkSteps + 1 }

/-- `record_model_usage`. -/
def recordModelUsage (t : TaskState) (input output : Nat) : TaskState :=
  { t with inputTokens := t.inputTokens + input, outputTokens := t.outputTokens + output }

/-- `record_error`. -/
def recordError (t : TaskState) (stage code : String) (retryable : Bool) (attempts : Nat) :
    TaskState :=
  { t with
    errorStage := pyClip stage 64
    errorCode := pyClip code 100
    errorRetryable := retryable
    errorAttempts := attempts }

/-- `record_evidence`. -/
def recordEvidence (t : TaskState) (item : EvidenceItem) : TaskState :=
  { t with evidence := t.evidence ++ [item] }

/-- `complete_item`. -/
def completeItem (txt : PyText) (t : TaskState) (item : String) : TaskState :=
  let item := pyStrip txt item
  if item ≠ "" ∧ item ∈ t.checklist ∧ item ∉ t.completedItems then
    { t with completedItems := t.completedItems ++ [item] }
  else t

/-- `record_affected_paths`. -/
def recordAffectedPaths (txt : PyText) (t : TaskState) (paths : List String) : TaskState :=
  let paths := (paths.map (pyStrip txt)).filter (· ≠ "")
  { t with affectedPaths := ((t.affectedPaths ++ paths).dedup).insertionSort (· ≤ ·) }

/-- `stop`. -/
def stop (t : TaskState) (reason : StopReason) (status : RunStatus) (finalAnswer : String) :
    TaskState :=
  { t with
    status := status
    stopReason := some reason
    finalAnswer := if finalAnswer = "" then t.finalAnswer else finalAnswer }

/-- `stop_user_cancelled`. -/
def stopUserCancelled (t : TaskState) : TaskState := t.stop .userCancelled .stopped ""

/-- `finish_success`. -/
def finishSuccess (t : TaskState) (finalAnswer : String) : TaskState :=
  { t with
    status := .completed
    stopReason := some .finalAnswerReturned
    finalAnswer := finalAnswer
    requiresPostToolReasoning := false }.setPhase .final "Task complete"

/-! ## The outcome -/

/-- How a run ends. -/
structure Outcome where
  status : RunStatus
  stopReason : Option StopReason
  finalAnswer : String
  emitted : Bool
  deriving DecidableEq, Repr

def outcome (t : TaskState) : Outcome :=
  ⟨t.status, t.stopReason, t.finalAnswer, t.runFinishedEmitted⟩

@[simp] theorem outcome_setPhase (t : TaskState) (phase : TaskPhase) (next item : String) :
    (t.setPhase phase next item).outcome = t.outcome := rfl

@[simp] theorem outcome_beginPostToolReasoning (t : TaskState) (name : String) :
    (t.beginPostToolReasoning name).outcome = t.outcome := rfl

@[simp] theorem outcome_finishPostToolReasoning (t : TaskState) (final : Bool) :
    (t.finishPostToolReasoning final).outcome = t.outcome := by
  cases final <;> rfl

@[simp] theorem outcome_completeItem (txt : PyText) (t : TaskState) (item : String) :
    (t.completeItem txt item).outcome = t.outcome := by
  unfold completeItem
  dsimp only
  split <;> rfl

end TaskState

end ThreadForge

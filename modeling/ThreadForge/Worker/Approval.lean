import ThreadForge.Hub.State
import ThreadForge.Pico.Approval

/-!
# The Worker's side of an approval

A Worker runs each task with a `RemoteApprovalStrategy` of its own. `decide` notes the digest of the
arguments under the id of the tool call, sends `approval.requested`, and waits until `resolve` has
put a decision under that id or the run is cancelled. `resolve` takes a decision only for the
digest that is noted.

## Steps

`decide` is the three steps between which other threads can run: `register`, `sendRequest`, and one
of `decideReturns` and `decideCancelled`. Everything the receiving thread does with one message is
one step.
-/

namespace ThreadForge

/-! ## Records -/

/-- `RemoteApprovalStrategy` with the token of its run. `wrapped` is whether `strategy_for_mode` made
another strategy of it, such as `AcceptEditsApprovalStrategy`: none of those has a `resolve`. -/
structure RemoteApproval where
  taskId : String
  wrapped : Bool := false
  cancelled : Bool := false
  decisions : String → Option String := fun _ => none
  pendingDigests : String → Option String := fun _ => none

/-- Where one `decide` stands. -/
inductive DecidePhase
  | registered
  | waiting
  | ended
  deriving DecidableEq, Repr

/-- One `decide` of the strategy `run`. -/
structure DecideCall where
  run : Nat
  request : ApprovalRequest
  phase : DecidePhase := .registered

/-- The Worker: its socket, the strategies it has made, the runs that are active, and the calls of
`decide`, each under the id of its tool call. -/
structure WorkerState where
  socket : Option Nat := none
  strategies : List RemoteApproval := []
  activeRuns : String → Option Nat := fun _ => none
  calls : String → Option DecideCall := fun _ => none

/-- `_args_digest` of the Worker. -/
def argsDigest (sha256 : String → String) (txt : PyText) (args : PyDict) : String :=
  sha256 ((PyValue.dict args).dumpsSorted txt)

namespace RemoteApproval

/-- The noted digest of a new call. -/
def register (a : RemoteApproval) (toolCallId digest : String) : RemoteApproval :=
  { a with pendingDigests := Function.update a.pendingDigests toolCallId (some digest) }

/-- `resolve`: `none` where it raises. -/
def resolve (a : RemoteApproval) (toolCallId decision digest : String) : Option RemoteApproval :=
  if a.wrapped ∨ a.pendingDigests toolCallId ≠ some digest then none
  else some { a with decisions := Function.update a.decisions toolCallId (some decision) }

/-- What the waiting loop of `decide` returns, with both entries taken out. -/
def take (a : RemoteApproval) (toolCallId : String) : Option (ApprovalOutcome × RemoteApproval) :=
  (a.decisions toolCallId).map fun decision =>
    (if decision = "approved" then .approved else .rejected,
      { a with
        decisions := Function.update a.decisions toolCallId none
        pendingDigests := Function.update a.pendingDigests toolCallId none })

def cancel (a : RemoteApproval) : RemoteApproval := { a with cancelled := true }

end RemoteApproval

namespace WorkerState

/-! ## `decide` -/

variable (digestOf : PyDict → String)

def setPhase (w : WorkerState) (toolCallId : String) (call : DecideCall) (phase : DecidePhase) :
    WorkerState :=
  { w with calls := Function.update w.calls toolCallId (some { call with phase := phase }) }

/-- `decide` up to its message. The id of a tool call is new. -/
def register (w : WorkerState) (run : Nat) (request : ApprovalRequest) : Option WorkerState :=
  match w.strategies[run]?, w.calls request.toolCallId with
  | some a, none => some { w with
      strategies := w.strategies.set run (a.register request.toolCallId (digestOf request.args))
      calls := Function.update w.calls request.toolCallId (some { run := run, request := request }) }
  | _, _ => none

/-- The `approval.requested` message. -/
def requestMessage (taskId : String) (request : ApprovalRequest) : PyDict :=
  [("type", .str "approval.requested"), ("task_id", .str taskId),
   ("tool_call_id", .str request.toolCallId), ("tool_name", .str request.name),
   ("args", .dict request.args), ("args_digest", .str (digestOf request.args))]

/-- The `_send` of `decide`: the message and the socket it goes to, where it does not raise. `fits`
is whether the payload is within its limit. -/
def sendRequest (w : WorkerState) (toolCallId : String) (fits : Bool) :
    Option (WorkerState × Option (Nat × PyDict)) :=
  match w.calls toolCallId with
  | some call =>
    if call.phase = .registered then
      match w.strategies[call.run]?, w.socket, fits with
      | some a, some socket, true =>
        some (w.setPhase toolCallId call .waiting,
          some (socket, requestMessage digestOf a.taskId call.request))
      | _, _, _ => some (w.setPhase toolCallId call .ended, none)
    else none
  | none => none

/-- The end of the waiting loop of `decide`: the call, what it returns, and the state after. -/
def decideReturns (w : WorkerState) (toolCallId : String) :
    Option (DecideCall × ApprovalOutcome × WorkerState) :=
  match w.calls toolCallId with
  | some call =>
    if call.phase = .waiting then
      match (w.strategies[call.run]?).bind (fun a => a.take toolCallId) with
      | some (outcome, a) =>
        some (call, outcome,
          { w with strategies := w.strategies.set call.run a }.setPhase toolCallId call .ended)
      | none => none
    else none
  | none => none

/-- The waiting loop sees a cancelled token before a decision. -/
def decideCancelled (w : WorkerState) (toolCallId : String) : Option WorkerState :=
  match w.calls toolCallId with
  | some call =>
    match w.strategies[call.run]? with
    | some a =>
      if call.phase = .waiting ∧ a.decisions toolCallId = none ∧ a.cancelled then
        some (w.setPhase toolCallId call .ended)
      else none
    | none => none
  | none => none

/-! ## The receiving thread -/

/-- `active.cancel` of the active runs that are picked. -/
def cancelRuns (w : WorkerState) (picked : String → Bool) : WorkerState :=
  { w with strategies := w.strategies.mapIdx fun run a =>
      if picked a.taskId ∧ w.activeRuns a.taskId = some run then a.cancel else a }

/-- The socket is closed: every active run is cancelled. -/
def cut (w : WorkerState) : WorkerState := { w.cancelRuns (fun _ => true) with socket := none }

/-- How `_start_task` answers: refused (unknown workspace, updating), or run with a strategy. -/
inductive StartAnswer
  | refused
  | run (wrapped : Bool)
  deriving DecidableEq, Repr

/-- `_start_task`: a new strategy, which becomes the active run of its task. -/
def startTask (w : WorkerState) (taskId : String) : StartAnswer → WorkerState
  | .refused => w
  | .run wrapped => { w with
      strategies := w.strategies ++ [{ taskId := taskId, wrapped := wrapped }]
      activeRuns := Function.update w.activeRuns taskId (some w.strategies.length) }

/-- `approval.decision`: nothing without an active run of the task, and the end of the connection
where `resolve` raises. -/
def resolve (w : WorkerState) (taskId toolCallId decision digest : String) : WorkerState :=
  match w.activeRuns taskId with
  | none => w
  | some run =>
    match w.strategies[run]? with
    | none => w
    | some a =>
      match a.resolve toolCallId decision digest with
      | some a' => { w with strategies := w.strategies.set run a' }
      | none => w.cut

/-- `_handle`. -/
def handle (w : WorkerState) (answer : StartAnswer) : HubMessage → WorkerState
  | .taskStart taskId => w.startTask taskId answer
  | .taskCancel taskId => w.cancelRuns (fun other => other = taskId)
  | .approvalRegistered .. => w
  | .approvalDecision taskId _ toolCallId decision digest =>
    w.resolve taskId toolCallId decision digest

/-- The thread of a run ends: the run is no longer active. -/
def endRun (w : WorkerState) (run : Nat) : WorkerState :=
  { w with activeRuns := fun taskId =>
      if w.activeRuns taskId = some run then none else w.activeRuns taskId }

end WorkerState

end ThreadForge

import ThreadForge.Domain.Entities
import ThreadForge.Lib.Faults

/-!
# The approval gate: its records and its critical sections

`ApprovalGate` keeps an approval and the task that waits for it in two repositories, and brackets
each change of the pair with a line in the recovery journal. A critical section holds the run's
gate; what it writes, one record at a time, is the list of the writes that take effect.

## What a section returns

Whether it raised, and whether it marked the service degraded: the writes that fail are arguments.
A write that names a generation the task does not have fails before it takes effect.
-/

namespace ThreadForge

open Faults

/-! ## The recovery journal -/

/-- The `begin` record of a transition. -/
structure OpenTransition where
  transitionId : String
  kind : String
  taskId : String
  approvalId : String
  deriving DecidableEq, Repr

/-- A line of the recovery journal. -/
inductive JournalRecord
  | begin (intent : OpenTransition)
  | commit (transitionId : String)
  deriving DecidableEq, Repr

/-- One line of `RecoveryJournal.incomplete`: `pending[transition_id] = record` and `pending.pop`. -/
def readRecord (pending : List OpenTransition) : JournalRecord → List OpenTransition
  | .begin intent =>
    if pending.any fun other => other.transitionId = intent.transitionId then
      pending.map fun other => if other.transitionId = intent.transitionId then intent else other
    else pending ++ [intent]
  | .commit transitionId => pending.filter fun other => other.transitionId ≠ transitionId

/-- `RecoveryJournal.incomplete`. -/
def incomplete (journal : List JournalRecord) : List OpenTransition := journal.foldl readRecord []

/-- The journal lists the transition as incomplete. -/
def ListsOpen (journal : List JournalRecord) (transitionId : String) : Prop :=
  ∃ intent ∈ incomplete journal, intent.transitionId = transitionId

/-! ## The records -/

/-- The stores one run's gate writes: its task, the approvals, and the journal. -/
structure GateStore where
  task : Task
  approvals : List Approval
  journal : List JournalRecord
  deriving DecidableEq, Repr

/-- What `_set_pending_approval` shows of an approval. -/
def pendingEntry (approval : Approval) : PyDict :=
  [("approval_id", .str approval.approvalId),
   ("tool_call_id", .str approval.toolCallId),
   ("tool_name", .str approval.toolName),
   ("args_preview", .dict approval.argsPreview),
   ("created_at", .str approval.createdAt),
   ("expires_at", .str approval.expiresAt)]

/-- One write of the gate, by the callback it stores. -/
inductive GateWrite
  | begin (intent : OpenTransition)
  | commit (transitionId : String)
  | create (approval : Approval)
  /-- `_set_pending_approval`. -/
  | setPending (pending : PyDict) (transitionId : Option String) (now : String)
  /-- `_clear_pending_approval`. -/
  | clearPending (status : TaskStatus) (transitionId : Option String) (now : String)
  /-- `_set_decided`. -/
  | decide (approvalId : String) (status : ApprovalStatus) (decision now : String)
      (transitionId : Option String)
  /-- `_restore_pending_approval`. -/
  | restoreApproval (approvalId : String)
  /-- `_restore_waiting_task`. -/
  | restoreTask (pending : Option PyDict) (now : String)
  /-- `_set_status` of the runner. -/
  | setStatus (status : TaskStatus) (now : String)
  /-- `_set_terminal` of the runner. -/
  | setTerminal (status : TaskStatus) (stopReason finalAnswer now : String)
  deriving DecidableEq, Repr

namespace GateStore

/-- `_task_repo.update`. -/
def updateTask (s : GateStore) (now : String) (fn : Task → Task) : GateStore :=
  { s with task := { fn s.task with updatedAt := now } }

/-- `_approval_repo.update`. -/
def updateApproval (s : GateStore) (approvalId : String) (fn : Approval → Approval) : GateStore :=
  { s with approvals := s.approvals.map fun approval =>
      if approval.approvalId = approvalId then fn approval else approval }

/-- The status of a stored approval. -/
def approvalStatus (s : GateStore) (approvalId : String) : Option ApprovalStatus :=
  (s.approvals.find? fun approval => approval.approvalId = approvalId).map Approval.status

/-- The stores after a write. -/
def write (s : GateStore) : GateWrite → GateStore
  | .begin intent => { s with journal := s.journal ++ [.begin intent] }
  | .commit transitionId => { s with journal := s.journal ++ [.commit transitionId] }
  | .create approval => { s with approvals := s.approvals ++ [approval] }
  | .setPending pending transitionId now => s.updateTask now fun task => { task with
      status := .waitingForApproval
      pendingApproval := some pending
      transitionId := transitionId }
  | .clearPending status transitionId now => s.updateTask now fun task => { task with
      status := status
      pendingApproval := none
      transitionId := transitionId }
  | .decide approvalId status decision now transitionId =>
    s.updateApproval approvalId fun approval => { approval with
      status := status
      decision := some decision
      decidedAt := some now
      transitionId := transitionId }
  | .restoreApproval approvalId => s.updateApproval approvalId fun approval => { approval with
      status := .pending
      decision := none
      decidedAt := none
      transitionId := none }
  | .restoreTask pending now => s.updateTask now fun task => { task with
      status := .waitingForApproval
      pendingApproval := pending
      transitionId := none }
  | .setStatus status now => s.updateTask now fun task => { task with status := status }
  | .setTerminal status stopReason finalAnswer now => s.updateTask now fun task => { task with
      status := status
      stopReason := if stopReason = "" then none else some stopReason
      finalAnswer := if finalAnswer = "" then none else some finalAnswer
      pendingApproval := none }

def writeAll (s : GateStore) (ws : List GateWrite) : GateStore := applyAll write s ws

end GateStore

/-! ## Critical sections -/

/-- How the writes of a section end. -/
structure GateFaults where
  opening : Fault := .none
  approval : Fault := .none
  task : Fault := .none
  closing : Fault := .none
  undoApproval : Fault := .none
  undoTask : Fault := .none
  reclosing : Fault := .none
  deriving DecidableEq, Repr

/-- What a section does: the writes that take effect, whether it raised
`PersistenceUnavailableError`, and whether it marked the service degraded. -/
structure Section where
  writes : List GateWrite
  raised : Bool := false
  degraded : Bool := false
  deriving DecidableEq, Repr

/-- The handler of a failed section: the compensations, and the commit when they went through and
`begin` had returned its transition id. -/
def compensate (transitionId : String) (faults : GateFaults) (undo : List (GateWrite × Fault)) :
    List GateWrite × Bool :=
  let undone := tryEach undo
  if undone.2 ∧ faults.opening = .none then
    let closed := attempt [(GateWrite.commit transitionId, faults.reclosing)]
    (undone.1 ++ closed.1, closed.2)
  else undone

/-- A `try` block with the handler that undoes it. -/
def compensated (transitionId : String) (faults : GateFaults) (main undo : List (GateWrite × Fault)) :
    Section :=
  let tried := attempt main
  if tried.2 then { writes := tried.1 }
  else
    let undone := compensate transitionId faults undo
    { writes := tried.1 ++ undone.1, raised := true, degraded := !undone.2 }

/-- The `try` block in which `request` registers its approval: the approval before the task that
shows it. -/
def registrationMain (approval : Approval) (transitionId now : String) (faults : GateFaults) :
    List (GateWrite × Fault) :=
  [(.begin ⟨transitionId, "approval_request", approval.taskId, approval.approvalId⟩,
      faults.opening),
    (.create { approval with transitionId := some transitionId }, faults.approval),
    (.setPending (pendingEntry approval) (some transitionId) now, faults.task),
    (.commit transitionId, faults.closing)]

/-- `_rollback_request`: the approval is cancelled where there is one. -/
def rollbackRequest (approvalId now : String) (faults : GateFaults) : List (GateWrite × Fault) :=
  (if faults.opening = .none ∧ faults.approval.takesEffect then
    [(.decide approvalId .cancelled "persistence_error" now none, faults.undoApproval)] else []) ++
    [(.clearPending .running none now, faults.undoTask)]

/-- The section of `request` that registers the approval. -/
def registration (approval : Approval) (transitionId now : String) (faults : GateFaults) : Section :=
  compensated transitionId faults (registrationMain approval transitionId now faults)
    (rollbackRequest approval.approvalId now faults)

/-- The `try` block of `_resolve_locked`: the task before the approval. -/
def resolutionMain (taskId approvalId : String) (status : ApprovalStatus) (decision : String)
    (transitionId now : String) (faults : GateFaults) : List (GateWrite × Fault) :=
  [(.begin ⟨transitionId, "approval_resolution", taskId, approvalId⟩, faults.opening),
    (.clearPending .running (some transitionId) now, faults.task),
    (.decide approvalId status decision now (some transitionId), faults.approval),
    (.commit transitionId, faults.closing)]

/-- `_rollback_resolution`. -/
def rollbackResolution (approvalId : String) (pending : Option PyDict) (now : String)
    (faults : GateFaults) : List (GateWrite × Fault) :=
  [(.restoreApproval approvalId, faults.undoApproval), (.restoreTask pending now, faults.undoTask)]

/-- `_resolve_locked`. `prior` is the `pending_approval` it read. -/
def resolution (taskId approvalId : String) (status : ApprovalStatus) (decision : String)
    (prior : Option PyDict) (transitionId now : String) (faults : GateFaults) : Section :=
  compensated transitionId faults
    (resolutionMain taskId approvalId status decision transitionId now faults)
    (rollbackResolution approvalId prior now faults)

end ThreadForge

import ThreadForge.Gate.Rollback
import ThreadForge.Lib.Transition
import ThreadForge.Pico.Approval

/-!
# The approval gate as a concurrent system

One run: its runner thread asks for approvals one after the other and ends, any number of API
threads decide, and any number of threads cancel. Whoever is in a critical section holds the run's
gate; its writes take effect one at a time, and the threads that do not hold the gate step in
between: the polling loop of `_wait` and the first look of `apply_decision` read the stores without
it.

When the terminal status is persisted the gate is closed: a section entered after that changes no
record, since its task write names a generation the task does not have.
-/

namespace ThreadForge

open Transition Faults

/-- The functions of other modules the gate uses. -/
structure GateEnv where
  /-- The keyed digest of the canonical arguments. -/
  digest : PyDict → String
  /-- The redacted arguments, bounded for display. -/
  preview : PyDict → PyDict

/-- Where the runner thread stands. -/
inductive GatePhase
  /-- In the runtime, with no request open. -/
  | idle
  /-- In a critical section of its own. -/
  | inside
  /-- In `_wait`. -/
  | waiting (approvalId : String)
  /-- `_wait` returned `APPROVED`. -/
  | confirming (approvalId : String)
  /-- `_wait` returned `EXPIRED`. -/
  | expiring (approvalId : String)
  /-- `_converge_terminal` found a pending approval. -/
  | clearing
  /-- The terminal status has to be persisted. -/
  | ending
  | ended
  deriving DecidableEq, Repr

/-- Whose critical section it is. -/
inductive Holder
  | register (approvalId : String)
  | mismatch (approvalId : String)
  | expire (approvalId : String)
  | decide
  | cancelTask
  | cancelPending
  | clear
  | persist
  deriving DecidableEq, Repr

/-- A critical section in progress: the writes still to take effect, and how it will end. -/
structure Busy where
  holder : Holder
  rest : List GateWrite
  raised : Bool
  degraded : Bool
  deriving DecidableEq, Repr

/-- A run with the threads around it. -/
structure GateState where
  store : GateStore
  busy : Option Busy := none
  phase : GatePhase := .idle
  /-- `CancellationToken.is_cancelled`. -/
  tokenCancelled : Bool := false
  /-- The gate is in `_task_gates`. -/
  gateKnown : Bool := false
  closed : Bool := false
  degraded : Bool := false
  /-- The argument object of the request in progress. -/
  args : PyDict := []
  /-- The calls of `apply_decision` past their first look, with approval and decision. -/
  deciders : List (String × String) := []
  /-- The calls of `cancel` that still have to cancel the pending approvals. -/
  cancelling : Nat := 0
  /-- What the requests returned, with their approvals. -/
  returned : List (String × ApprovalOutcome) := []

/-- One step of a thread. -/
inductive GateAction
  | request (toolCallId toolName : String) (args : PyDict)
      (approvalId createdAt expiresAt transitionId now : String) (faults : GateFaults)
  | write
  | leave
  | poll (expired : Bool)
  | confirm (transitionId now : String) (faults : GateFaults)
  | expire (transitionId now : String) (faults : GateFaults)
  | look (approvalId decision : String) (expired : Bool)
  | decide (index : Nat) (transitionId now : String) (faults : GateFaults)
  | cancel (now : String) (fault : Fault)
  | cancelPending (now : String) (faults : String → Fault)
  | mutate (args : PyDict)
  | converge
  | clear (now : String) (faults : String → Fault)
  | persist (status : TaskStatus) (stopReason finalAnswer now : String) (fault : Fault)

/-- `ApprovalOutcome(status.value)`, where there is one. -/
def outcomeOf : ApprovalStatus → Option ApprovalOutcome
  | .pending => none
  | .approved => some .approved
  | .rejected => some .rejected
  | .expired => some .expired
  | .cancelled => some .cancelled

namespace GateStore

/-- `_approval_repo.get`. -/
def getApproval (s : GateStore) (approvalId : String) : Option Approval :=
  s.approvals.find? fun approval => approval.approvalId = approvalId

/-- The writes of `cancel_pending`, each with its fault. -/
def cancelPendingWrites (s : GateStore) (now : String) (faults : String → Fault) :
    List (GateWrite × Fault) :=
  (s.approvals.filter fun approval =>
      approval.taskId = s.task.taskId ∧ approval.status = .pending).map fun approval =>
    (.decide approval.approvalId .cancelled "cancelled" now none, faults approval.approvalId)

/-- The statuses `apply_decision` refuses. -/
def refusedStatuses : List TaskStatus := [.cancelRequested, .cancelled, .failed, .completed]

end GateStore

namespace GateState

/-- Take the gate. -/
def enter (s : GateState) (holder : Holder) (region : Section) : GateState :=
  { s with busy := some ⟨holder, region.writes, region.raised, region.degraded⟩ }

/-- A section of the runner thread. -/
def enterRunner (s : GateState) (holder : Holder) (region : Section) : GateState :=
  { s.enter holder region with phase := .inside }

/-- `request` returns. -/
def finish (s : GateState) (approvalId : String) (outcome : ApprovalOutcome) : GateState :=
  { s with phase := .idle, returned := s.returned ++ [(approvalId, outcome)] }

/-- A section of writes that are not undone. -/
def plain (ws : List (GateWrite × Fault)) : Section :=
  { writes := (attempt ws).1, raised := !(attempt ws).2, degraded := !(attempt ws).2 }

/-- What a thread does when it leaves its section. A request that raises
`PersistenceUnavailableError` gives the thread back to the runtime. -/
def leave (s : GateState) (region : Busy) : GateState :=
  let s := { s with busy := none, degraded := s.degraded || region.degraded }
  match region.holder with
  | .register approvalId => { s with phase := if region.raised then .idle else .waiting approvalId }
  | .mismatch approvalId =>
    if region.raised then { s with phase := .idle } else s.finish approvalId .rejected
  | .expire approvalId =>
    if region.raised then { s with phase := .idle } else s.finish approvalId .expired
  | .decide => s
  | .cancelTask => { s with tokenCancelled := true, cancelling := s.cancelling + 1 }
  | .cancelPending => s
  | .clear => { s with phase := if region.raised then .ended else .ending }
  | .persist =>
    if region.raised then { s with phase := .ended }
    else { s with phase := .ended, closed := true, gateKnown := false }

/-- The approval `request` builds. -/
def newApproval (env : GateEnv) (task : Task) (toolCallId toolName : String) (args : PyDict)
    (approvalId createdAt expiresAt : String) : Approval where
  approvalId := approvalId
  taskId := task.taskId
  runId := task.runId
  ownerId := task.ownerId
  toolCallId := toolCallId
  toolName := toolName
  argsDigest := env.digest args
  argsPreview := env.preview args
  createdAt := createdAt
  expiresAt := expiresAt

/-- One round of the loop in `_wait`. -/
def pollOnce (s : GateState) (approvalId : String) (expired : Bool) : Option GateState :=
  match s.store.approvalStatus approvalId with
  | none => none
  | some .approved => some { s with phase := .confirming approvalId }
  | some .expired => some { s with phase := .expiring approvalId }
  | some .rejected => some (s.finish approvalId .rejected)
  | some .cancelled => some (s.finish approvalId .cancelled)
  | some .pending =>
    if s.tokenCancelled then some (s.finish approvalId .cancelled)
    else if expired then some { s with phase := .expiring approvalId }
    else some s

/-- The section of `request` after `_wait` returned `APPROVED`. -/
def confirm (env : GateEnv) (s : GateState) (approvalId transitionId now : String)
    (faults : GateFaults) : Option GateState :=
  if s.tokenCancelled then some (s.finish approvalId .cancelled)
  else match s.store.getApproval approvalId with
    | none => none
    | some current =>
      if env.digest s.args ≠ current.argsDigest then
        some (s.enterRunner (.mismatch approvalId) (resolution s.store.task.taskId approvalId
          .rejected "digest_mismatch" s.store.task.pendingApproval transitionId now faults))
      else some (s.finish approvalId .approved)

/-- The section of `request` after `_wait` returned `EXPIRED`. -/
def expire (s : GateState) (approvalId transitionId now : String) (faults : GateFaults) :
    Option GateState :=
  if s.tokenCancelled then some (s.finish approvalId .cancelled)
  else match s.store.getApproval approvalId with
    | none => none
    | some current =>
      match outcomeOf current.status with
      | some outcome => some (s.finish approvalId outcome)
      | none => some (s.enterRunner (.expire approvalId) (resolution s.store.task.taskId approvalId
          .expired "expired" s.store.task.pendingApproval transitionId now faults))

/-- The section of `apply_decision`: the approval is read again under the gate. -/
def applyDecision (s : GateState) (approvalId decision transitionId now : String)
    (faults : GateFaults) : GateState :=
  if s.store.approvalStatus approvalId ≠ some .pending then s
  else if s.store.task.status ∈ GateStore.refusedStatuses then s
  else s.enter .decide (resolution s.store.task.taskId approvalId (decidedStatus decision) decision
    s.store.task.pendingApproval transitionId now faults)

/-- The state after a step, where the step can be taken. -/
def next (env : GateEnv) (s : GateState) : GateAction → Option GateState
  | .request toolCallId toolName args approvalId createdAt expiresAt transitionId now faults =>
    if s.phase = .idle ∧ s.busy = none ∧ s.store.approvalStatus approvalId = none then
      let s := { s with gateKnown := true }
      if s.tokenCancelled then some s
      else some ({ s with args := args }.enterRunner (.register approvalId) (registration
        (newApproval env s.store.task toolCallId toolName args approvalId createdAt expiresAt)
        transitionId now faults))
    else none
  | .write =>
    match s.busy with
    | some ⟨holder, w :: rest, raised, degraded⟩ =>
      some { s with store := s.store.write w, busy := some ⟨holder, rest, raised, degraded⟩ }
    | _ => none
  | .leave =>
    match s.busy with
    | some ⟨holder, [], raised, degraded⟩ => some (s.leave ⟨holder, [], raised, degraded⟩)
    | _ => none
  | .poll expired =>
    match s.phase with
    | .waiting approvalId => s.pollOnce approvalId expired
    | _ => none
  | .confirm transitionId now faults =>
    match s.phase, s.busy with
    | .confirming approvalId, none => s.confirm env approvalId transitionId now faults
    | _, _ => none
  | .expire transitionId now faults =>
    match s.phase, s.busy with
    | .expiring approvalId, none => s.expire approvalId transitionId now faults
    | _, _ => none
  | .look approvalId decision expired =>
    match s.store.getApproval approvalId with
    | none => none
    | some approval =>
      if s.gateKnown ∧ approval.taskId = s.store.task.taskId ∧ approval.status = .pending ∧
          !expired then
        some { s with deciders := s.deciders ++ [(approvalId, decision)] }
      else none
  | .decide index transitionId now faults =>
    match s.deciders[index]?, s.busy with
    | some (approvalId, decision), none =>
      if s.closed then none
      else some ({ s with deciders := s.deciders.eraseIdx index }.applyDecision approvalId decision
        transitionId now faults)
    | _, _ => none
  | .cancel now fault =>
    if s.closed ∨ s.busy ≠ none then none
    else if s.store.task.status.terminal ∨ s.store.task.status = .cancelRequested then
      some (s.enter .cancelTask { writes := [] })
    else some (s.enter .cancelTask (plain [(.setStatus .cancelRequested now, fault)]))
  | .cancelPending now faults =>
    if s.cancelling = 0 ∨ s.busy ≠ none then none
    else some ({ s with cancelling := s.cancelling - 1 }.enter .cancelPending
      (plain (s.store.cancelPendingWrites now faults)))
  | .mutate args => some { s with args := args }
  | .converge =>
    if s.phase = .idle then
      some { s with phase := if s.store.task.pendingApproval = none then .ending else .clearing }
    else none
  | .clear now faults =>
    if s.phase = .clearing ∧ s.busy = none then
      some (s.enterRunner .clear (plain (s.store.cancelPendingWrites now faults)))
    else none
  | .persist status stopReason finalAnswer now fault =>
    if s.phase = .ending ∧ s.busy = none ∧ status.terminal then
      some (s.enterRunner .persist (plain [(.setTerminal status stopReason finalAnswer now, fault)]))
    else none

/-- The gate as a transition system. -/
abbrev GateStep (env : GateEnv) (s : GateState) (action : GateAction) (s' : GateState) : Prop :=
  next env s action = some s'

end GateState

end ThreadForge

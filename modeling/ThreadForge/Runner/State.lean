import ThreadForge.Domain.Entities

/-!
# The backend runner of one task

`TaskRunner` runs a task on its own thread. The runner thread, every `cancel` and `shutdown` meet
at the run's gate: a reentrant lock with a generation that `close` moves on, so that a write which
names the generation it expects is refused afterwards. Each definition is one critical section of
the gate, or a step the source makes outside it.

## What the state remembers

`writes` lists every status persisted so far with the thread that wrote it, the latest last. The
run's artifacts, its events and the approval records are not part of this model.
-/

namespace ThreadForge

/-! ## The gate and the phases -/

/-- `RunGate`: the fencing part of the lock. -/
structure RunGate where
  generation : Int := 0
  closed : Bool := false
  deriving DecidableEq, Repr

/-- `RunGate.close`. -/
def RunGate.close (gate : RunGate) : RunGate :=
  { generation := gate.generation + 1, closed := true }

/-- Where the runner thread stands. -/
inductive RunnerPhase
  /-- The thread has started; `_worker` has not reached the gate. -/
  | registered
  /-- `RUNNING` is persisted and the adapter is being built. -/
  | initialising
  /-- Inside `adapter.run`. -/
  | running
  /-- The public outcome is decided and has to be persisted. -/
  | terminating (status : TaskStatus) (stopReason finalAnswer : String)
  /-- The outcome is persisted and the gate has to be closed. -/
  | persisted
  /-- The gate is closed and the active bit has to be released. -/
  | closed
  /-- The thread has ended. -/
  | ended
  deriving DecidableEq, Repr

/-- Where `shutdown` stands. -/
inductive ShutdownPhase
  | notStarted
  /-- The run was cancelled; the grace period runs. -/
  | cancelled
  /-- The second look found the run still active. -/
  | found
  /-- The gate is closed; `INTERRUPTED` has to be written. -/
  | closed
  /-- `INTERRUPTED` is persisted; the active bit has to be released. -/
  | written
  | ended
  deriving DecidableEq, Repr

/-- The threads that persist a status. -/
inductive Writer
  | worker
  | cancel
  | shutdown
  deriving DecidableEq, Repr

/-- One active run. -/
structure RunnerState where
  task : Task
  gate : RunGate := {}
  /-- `CancellationToken.is_cancelled`. -/
  tokenCancelled : Bool := false
  /-- The run is in `_contexts`. -/
  active : Bool := true
  runner : RunnerPhase := .registered
  shutdown : ShutdownPhase := .notStarted
  writes : List (Writer × TaskStatus) := []

namespace RunnerState

/-! ## Persisting a status -/

/-- `_set_terminal` of the runner. -/
def setTerminal (status : TaskStatus) (stopReason finalAnswer : String) (task : Task) : Task :=
  { task with
    status := status
    stopReason := if stopReason = "" then none else some stopReason
    finalAnswer := if finalAnswer = "" then none else some finalAnswer
    pendingApproval := none }

/-- The stored task replaced by what `fn` makes of it. -/
def write (s : RunnerState) (writer : Writer) (now : String) (fn : Task → Task) : RunnerState :=
  { s with
    task := { fn s.task with updatedAt := now }
    writes := s.writes ++ [(writer, (fn s.task).status)] }

/-- `_task_repo.update`: `none` is `StaleGenerationError`. -/
def update (s : RunnerState) (writer : Writer) (expectedGeneration : Option Int) (now : String)
    (fn : Task → Task) : Option RunnerState :=
  if expectedGeneration.any (fun expected => expected != s.task.generation) then none
  else some (s.write writer now fn)

/-- `_set_status` of the runner. -/
def setStatus (status : TaskStatus) (task : Task) : Task := { task with status := status }

/-- `_persist_terminal`: refused once the gate is closed. -/
def persistTerminal (s : RunnerState) (status : TaskStatus) (stopReason finalAnswer now : String) :
    Option RunnerState :=
  if s.gate.closed then none
  else s.update .worker (some s.gate.generation) now (setTerminal status stopReason finalAnswer)

/-! ## The runner thread -/

/-- The gate closed and the active bit released, in the critical section that persisted. -/
def finish (s : RunnerState) : RunnerState :=
  { s with gate := s.gate.close, active := false, runner := .ended }

/-- The first critical section of `_worker`. `stored` is whether the `RUNNING` write goes through,
`failedStored` whether the `FAILED` write after a failed one does. -/
def workerStart (s : RunnerState) (stored failedStored : Bool) (now : String) : RunnerState :=
  if s.tokenCancelled then
    match s.persistTerminal .cancelled "user_cancelled" "" now with
    | some s' => s'.finish
    | none => { s with active := false, runner := .ended }
  else if stored then
    match s.update .worker (some s.gate.generation) now (setStatus .running) with
    | some s' => { s' with runner := .initialising }
    | none => { s with active := false, runner := .ended }
  else
    match s.persistTerminal .failed "persistence_error" "" now with
    | some s' => if failedStored then s'.finish else { s with runner := .ended }
    | none => { s with runner := .ended }

/-- The adapter could not be built: a cancellation is not masked. -/
def initFailed (s : RunnerState) (sandboxError : Bool) : RunnerState :=
  { s with
    runner :=
      if s.tokenCancelled then .terminating .cancelled "user_cancelled" ""
      else .terminating .failed
        (if sandboxError then "sandbox_unavailable" else "task_runner_unavailable") "" }

/-- The stop reasons that block a run. -/
def blockedStopReasons : List String :=
  ["approval_denied", "budget_exhausted", "convergence_guard_triggered", "no_changes_to_review",
   "retry_limit_reached", "review_retry_limit_reached", "step_limit_reached"]

/-- The public outcome `_converge_terminal` derives from the runtime's task state. -/
def publicOutcome (cancelled cleanupSucceeded : Bool) (status stopReason finalAnswer : String) :
    TaskStatus × String × String :=
  let outcome : TaskStatus × String × String :=
    if cancelled then (.cancelled, "user_cancelled", "")
    else if status = "completed" ∧ stopReason = "final_answer_returned" then
      (.completed, stopReason, finalAnswer)
    else if status = "stopped" ∧ stopReason = "user_cancelled" then
      (.cancelled, stopReason, finalAnswer)
    else
      let stopReason := if stopReason = "" then "runtime_error" else stopReason
      if stopReason = "service_restarted" ∨ stopReason = "service_shutdown_timeout" then
        (.interrupted, stopReason, finalAnswer)
      else if stopReason ∈ blockedStopReasons then (.blocked, stopReason, finalAnswer)
      else (.failed, stopReason, finalAnswer)
  if outcome.2.1 = "process_cleanup_failed" ∨ !cleanupSucceeded then
    (.failed, "process_cleanup_failed", "")
  else outcome

/-- `_converge_terminal` up to its write: the token is read outside the gate. -/
def converge (s : RunnerState) (cleanupSucceeded : Bool) (status stopReason finalAnswer : String) :
    RunnerState :=
  let outcome := publicOutcome s.tokenCancelled cleanupSucceeded status stopReason finalAnswer
  { s with runner := .terminating outcome.1 outcome.2.1 outcome.2.2 }

/-- The critical section of `_persist_terminal`; when it raises the thread ends without releasing
the active bit. -/
def persist (s : RunnerState) (now : String) : Option RunnerState :=
  match s.runner with
  | .terminating status stopReason finalAnswer =>
    match s.persistTerminal status stopReason finalAnswer now with
    | some s' => some { s' with runner := .persisted }
    | none => some { s with runner := .ended }
  | _ => none

/-- `_set_pending_approval` of the approval gate. -/
def setPendingApproval (pending : PyDict) (task : Task) : Task :=
  { task with status := .waitingForApproval, pendingApproval := some pending }

/-- `_clear_pending_approval` of the approval gate. -/
def clearPendingApproval (task : Task) : Task :=
  { task with status := .running, pendingApproval := none }

/-- The critical section in which `ApprovalGate.request` makes the task wait. -/
def requestApproval (s : RunnerState) (pending : PyDict) (now : String) : RunnerState :=
  if s.tokenCancelled then s
  else
    match s.update .worker (some s.gate.generation) now (setPendingApproval pending) with
    | some s' => s'
    | none => s

/-- The critical section in which an expired or mismatched approval sets the task running. -/
def resolveApproval (s : RunnerState) (now : String) : RunnerState :=
  if s.tokenCancelled then s
  else
    match s.update .worker (some s.gate.generation) now clearPendingApproval with
    | some s' => s'
    | none => s

/-! ## `cancel` and `shutdown` -/

/-- The first critical section of `cancel`. `stored` is whether its write goes through. The token
is cancelled in any case. -/
def cancel (s : RunnerState) (stored : Bool) (now : String) : RunnerState :=
  let written :=
    if s.task.status.terminal ∨ s.task.status = .cancelRequested ∨ !stored then s
    else match s.update .cancel (some s.gate.generation) now (setStatus .cancelRequested) with
      | some s' => s'
      | none => s
  { written with tokenCancelled := true }

/-- The write of `shutdown` to a run that outlived the grace period: it names no generation. -/
def shutdownWrite (s : RunnerState) (now : String) : RunnerState :=
  match s.update .shutdown none now (setTerminal .interrupted "service_shutdown_timeout" "") with
  | some s' => { s' with shutdown := .written }
  | none => s

end RunnerState

/-- One step of the threads around a run. -/
inductive RunnerAction
  | workerStart (stored failedStored : Bool) (now : String)
  | initDone
  | initFailed (sandboxError : Bool)
  | requestApproval (pending : PyDict) (now : String)
  | resolveApproval (now : String)
  | converge (cleanupSucceeded : Bool) (status stopReason finalAnswer : String)
  | persist (now : String)
  | closeGate
  | release
  | cancel (stored : Bool) (now : String)
  | shutdownCancel (stored : Bool) (now : String)
  | shutdownFind
  | shutdownClose
  | shutdownWrite (now : String)
  | shutdownRelease

namespace RunnerState

/-- The state after a step, where the step can be taken. -/
def next (s : RunnerState) : RunnerAction → Option RunnerState
  | .workerStart stored failedStored now =>
    if s.runner = .registered then some (s.workerStart stored failedStored now) else none
  | .initDone => if s.runner = .initialising then some { s with runner := .running } else none
  | .initFailed sandboxError =>
    if s.runner = .initialising then some (s.initFailed sandboxError) else none
  | .requestApproval pending now =>
    if s.runner = .running then some (s.requestApproval pending now) else none
  | .resolveApproval now => if s.runner = .running then some (s.resolveApproval now) else none
  | .converge cleanupSucceeded status stopReason finalAnswer =>
    if s.runner = .running then some (s.converge cleanupSucceeded status stopReason finalAnswer)
    else none
  | .persist now => s.persist now
  | .closeGate =>
    if s.runner = .persisted then some { s with gate := s.gate.close, runner := .closed } else none
  | .release =>
    if s.runner = .closed then some { s with active := false, runner := .ended } else none
  | .cancel stored now => some (s.cancel stored now)
  | .shutdownCancel stored now =>
    if s.shutdown = .notStarted then
      if s.active then some { s.cancel stored now with shutdown := .cancelled }
      else some { s with shutdown := .ended }
    else none
  | .shutdownFind =>
    if s.shutdown = .cancelled then
      some { s with shutdown := if s.active then .found else .ended }
    else none
  | .shutdownClose =>
    if s.shutdown = .found then some { s with gate := s.gate.close, shutdown := .closed } else none
  | .shutdownWrite now => if s.shutdown = .closed then some (s.shutdownWrite now) else none
  | .shutdownRelease =>
    if s.shutdown = .written then some { s with active := false, shutdown := .ended } else none

end RunnerState

end ThreadForge

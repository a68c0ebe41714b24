import ThreadForge.Runner.State

/-!
# The artifacts of a run

What a run leaves under `runs/<run_id>`: its task state, a trace and a report. `run_reconciliation.py`
writes them for the control plane, compares them with a task, and reads a task's outcome back.

## What is left out

The fields of the task state that the control plane does not read: they are kept as they are. A state
or a report that cannot be read is `none`.
-/

namespace ThreadForge

/-! ## Records -/

/-- `TaskState`, for the fields that the control plane reads. -/
structure RunTaskState where
  runId : String
  taskId : String
  status : String := "running"
  stopReason : String := ""
  finalAnswer : String := ""
  budgetConverged : Bool := false
  errorStage : String := ""
  errorCode : String := ""
  errorRetryable : Bool := false
  errorAttempts : Int := 0
  deriving DecidableEq, Repr

/-- `report.json`, for the fields that are compared. -/
structure RunReport where
  status : String
  stopReason : String
  deriving DecidableEq, Repr

/-- `runs/<run_id>`. -/
structure RunDir where
  taskState : Option RunTaskState := none
  report : Option RunReport := none
  trace : Bool := false
  deriving DecidableEq, Repr

/-- `RunStore`: a task state lies in the directory of its own run. -/
structure RunStore where
  dir : String → RunDir
  keyed : ∀ {runId : String} {state : RunTaskState},
    (dir runId).taskState = some state → state.runId = runId

namespace RunStore

/-- The three files that are written for one state. -/
def written (state : RunTaskState) (report : RunReport) : RunDir :=
  { taskState := some state, report := some report, trace := true }

/-- `start_run`, `append_trace` and `write_report` of one state. -/
def write (store : RunStore) (state : RunTaskState) (report : RunReport) : RunStore where
  dir := fun runId => if runId = state.runId then written state report else store.dir runId
  keyed := by
    intro runId found hfound
    by_cases hid : runId = state.runId
    · rw [if_pos hid] at hfound
      rw [hid, ← Option.some.inj hfound]
    · rw [if_neg hid] at hfound
      exact store.keyed hfound

theorem write_dir_self (store : RunStore) (state : RunTaskState) (report : RunReport) :
    (store.write state report).dir state.runId = written state report := if_pos rfl

theorem write_dir_of_ne (store : RunStore) (state : RunTaskState) (report : RunReport)
    {runId : String} (h : runId ≠ state.runId) :
    (store.write state report).dir runId = store.dir runId := if_neg h

/-- The trace and the report of a run are written, its state stays. -/
def complete (store : RunStore) (runId : String) (report : RunReport) : RunStore where
  dir := fun other =>
    if other = runId then { store.dir runId with report := some report, trace := true }
    else store.dir other
  keyed := by
    intro other found hfound
    by_cases hid : other = runId
    · subst hid
      rw [if_pos rfl] at hfound
      exact store.keyed hfound
    · rw [if_neg hid] at hfound
      exact store.keyed hfound

theorem complete_dir_self (store : RunStore) (runId : String) (report : RunReport) :
    (store.complete runId report).dir runId =
      { store.dir runId with report := some report, trace := true } := if_pos rfl

theorem complete_dir_of_ne (store : RunStore) {runId other : String} (report : RunReport)
    (h : other ≠ runId) : (store.complete runId report).dir other = store.dir other := if_neg h

end RunStore

/-! ## Writing the outcome of a task -/

/-- The status of the artifacts of a task with this status, as `converge_run_artifacts` writes it. -/
def artifactStatus (status : TaskStatus) : String :=
  if status = .completed then "completed" else if status = .cancelled then "stopped" else "failed"

/-- The state of the artifacts that `converge_run_artifacts` starts from. -/
def loadedState (store : RunStore) (task : Task) : RunTaskState :=
  ((store.dir task.runId).taskState).getD { runId := task.runId, taskId := task.taskId }

theorem loadedState_runId (store : RunStore) (task : Task) :
    (loadedState store task).runId = task.runId := by
  unfold loadedState
  cases hstate : (store.dir task.runId).taskState with
  | none => rfl
  | some state => exact store.keyed hstate

/-- The state that `converge_run_artifacts` writes. -/
def convergedState (store : RunStore) (task : Task) (status : TaskStatus)
    (stopReason finalAnswer : String) : RunTaskState :=
  { loadedState store task with
    status := artifactStatus status
    stopReason := stopReason
    finalAnswer := finalAnswer }

/-- The report of a state; `redact` is what `redact_artifact` makes of a text. -/
def reportOf (redact : String → String) (state : RunTaskState) (stopReason : String) : RunReport :=
  { status := redact state.status, stopReason := redact stopReason }

/-- `converge_run_artifacts`. -/
def convergeRunArtifacts (redact : String → String) (store : RunStore) (task : Task)
    (status : TaskStatus) (stopReason finalAnswer : String) : RunStore :=
  if task.runId = "" then store
  else
    let state := convergedState store task status stopReason finalAnswer
    store.write state (reportOf redact state stopReason)

/-! ## Comparing them with a task -/

/-- `expected_status` of `run_artifacts_match`. -/
def expectedStatus : TaskStatus → Option String
  | .completed => some "completed"
  | .cancelled => some "stopped"
  | .failed | .interrupted | .blocked => some "failed"
  | .queued | .running | .waitingForApproval | .cancelRequested => none

theorem expectedStatus_of_terminal {status : TaskStatus} (h : status.terminal = true) :
    expectedStatus status = some (artifactStatus status) := by
  cases status <;> first | rfl | cases h

/-- `run_artifacts_match`. -/
def runArtifactsMatch (store : RunStore) (task : Task) : Bool :=
  if task.runId = "" then true
  else
    let dir := store.dir task.runId
    match dir.taskState, dir.report, expectedStatus task.status with
    | some state, some report, some expected =>
      state.runId == task.runId && state.taskId == task.taskId && state.status == expected &&
        state.stopReason == task.stopReason.getD "" && state.finalAnswer == task.finalAnswer.getD "" &&
        report.status == expected && report.stopReason == task.stopReason.getD "" && dir.trace
    | _, _, _ => false

/-! ## Reading the outcome back -/

/-- `terminal_task_from_run`. -/
def terminalTaskFromRun (store : RunStore) (task : Task) : Option (TaskStatus × String × String) :=
  if task.runId = "" then none
  else match (store.dir task.runId).taskState with
    | none => none
    | some state =>
      if state.runId ≠ task.runId ∨ state.taskId ≠ task.taskId ∨ state.status = "running" then none
      else if state.status = "completed" ∧ state.stopReason = "final_answer_returned" then
        some (.completed, state.stopReason, state.finalAnswer)
      else if state.status = "stopped" ∧ state.stopReason = "user_cancelled" then
        some (.cancelled, state.stopReason, state.finalAnswer)
      else if state.status = "stopped" ∨ state.status = "failed" then
        if state.stopReason = "service_restarted" ∨ state.stopReason = "service_shutdown_timeout" then
          some (.interrupted, state.stopReason, state.finalAnswer)
        else if state.stopReason ∈ RunnerState.blockedStopReasons then
          some (.blocked, state.stopReason, state.finalAnswer)
        else some (.failed, state.stopReason, state.finalAnswer)
      else none

/-- `repair_terminal_run_artifacts`. -/
def repairTerminalRunArtifacts (redact : String → String) (store : RunStore) (task : Task)
    (recovered : TaskStatus × String × String) : RunStore :=
  match (store.dir task.runId).taskState with
  | none => store
  | some state =>
    let report := reportOf redact state recovered.2.1
    match (store.dir task.runId).report with
    | some found =>
      if found.status = state.status ∧ found.stopReason = recovered.2.1 then
        store.complete task.runId found
      else store.complete task.runId report
    | none => store.complete task.runId report

/-- `_set_recovered_terminal`: the same edit as the runner's. -/
def setRecoveredTerminal (status : TaskStatus) (stopReason finalAnswer : String) (task : Task) :
    Task :=
  RunnerState.setTerminal status stopReason finalAnswer task

/-- `_set_failed_restarted`. -/
def setFailedRestarted (task : Task) : Task :=
  { task with
    status := .interrupted
    stopReason := some "service_restarted"
    pendingApproval := none }

end ThreadForge

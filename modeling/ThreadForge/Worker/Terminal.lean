import ThreadForge.Hub.State
import ThreadForge.Runner.Recovery

/-!
# How a run ends on the Worker

`run_task` classifies the final state of the agent and sends the `terminal` message; the hub decides
what is persisted. The backend decides both in `_converge_terminal`.

## Main result

`HubState.classified_iff` — the two environments persist the same outcome exactly where no cancel
request is recorded, or the state is one that they both take for an end of its own kind.
-/

namespace ThreadForge

/-! ## The Worker's side -/

/-- The stop reason of the message. -/
def workerStopReason (state : RunTaskState) : String :=
  if state.stopReason = "" then "runtime_error" else state.stopReason

/-- The status of the message. -/
def workerStatus (state : RunTaskState) : String :=
  let stopReason := workerStopReason state
  if state.status = "completed" ∧ stopReason = "final_answer_returned" then "completed"
  else if state.status = "stopped" ∧ stopReason = "user_cancelled" then "cancelled"
  else if stopReason = "service_restarted" ∨ stopReason = "service_shutdown_timeout" then
    "interrupted"
  else if stopReason ∈ RunnerState.blockedStopReasons then "blocked"
  else "failed"

/-- The error of the message. -/
def workerError (state : RunTaskState) : PyDict :=
  if state.errorCode = "" then []
  else
    [("stage", .str state.errorStage), ("code", .str state.errorCode),
     ("retryable", .bool state.errorRetryable), ("attempts", .int (max 0 state.errorAttempts))]

/-- The `terminal` message of `run_task`; `redact` is what `redact_artifact` makes of a text. -/
def terminalMessage (redact : String → String) (taskId : String) (state : RunTaskState)
    (messageTotal : Nat) (sessionUpdatedAt : String) : PyDict :=
  [("type", .str "terminal"),
   ("task_id", .str taskId),
   ("status", .str (workerStatus state)),
   ("stop_reason", .str (workerStopReason state)),
   ("budget_converged", .bool state.budgetConverged),
   ("final_answer", .str (redact state.finalAnswer)),
   ("message_total", .int messageTotal),
   ("session_updated_at", .str sessionUpdatedAt),
   ("session_persisted", .bool true),
   ("error", .dict (workerError state))]

/-! ## The hub's side -/

/-- The status that the hub reads in the message. -/
def workerTerminal (state : RunTaskState) : TaskStatus :=
  let stopReason := workerStopReason state
  if state.status = "completed" ∧ stopReason = "final_answer_returned" then .completed
  else if state.status = "stopped" ∧ stopReason = "user_cancelled" then .cancelled
  else if stopReason = "service_restarted" ∨ stopReason = "service_shutdown_timeout" then
    .interrupted
  else if stopReason ∈ RunnerState.blockedStopReasons then .blocked
  else .failed

theorem terminalStatusOfText_workerStatus (state : RunTaskState) :
    HubState.terminalStatusOfText (workerStatus state) = .ok (workerTerminal state) := by
  unfold workerStatus workerTerminal
  simp only
  split
  · rfl
  · split
    · rfl
    · split
      · rfl
      · split <;> rfl

/-- The status and the stop reason that the hub makes of the message. -/
def hubOutcome (cancelRequested : Bool) (state : RunTaskState) : TaskStatus × String :=
  if cancelRequested = true ∧ workerTerminal state = .completed then (.cancelled, "user_cancelled")
  else (workerTerminal state, pyClip (workerStopReason state) 200)

/-- The status and the stop reason that the backend persists for the same state. -/
def backendOutcome (cancelled : Bool) (state : RunTaskState) : TaskStatus × String :=
  let outcome := RunnerState.publicOutcome cancelled true state.status state.stopReason
    state.finalAnswer
  (outcome.1, outcome.2.1)

/-! ## The two tables -/

section Tables

variable {state : RunTaskState}

theorem pyClip_eq_self_iff {text : String} {n : Nat} : pyClip text n = text ↔ text.length ≤ n := by
  constructor
  · intro heq
    have hle := length_pyClip_le text n
    rwa [heq] at hle
  · exact pyClip_of_length_le

theorem workerStopReason_eq_iff {reason : String} (hne : reason ≠ "")
    (hreason : reason ≠ "runtime_error") :
    workerStopReason state = reason ↔ state.stopReason = reason := by
  unfold workerStopReason
  by_cases hempty : state.stopReason = ""
  · rw [if_pos hempty, hempty]
    exact ⟨fun h => absurd h.symm hreason, fun h => absurd h.symm hne⟩
  · rw [if_neg hempty]

theorem length_workerStopReason_le :
    (workerStopReason state).length ≤ 200 ↔ state.stopReason.length ≤ 200 := by
  unfold workerStopReason
  by_cases hempty : state.stopReason = ""
  · rw [if_pos hempty, hempty]
    decide
  · rw [if_neg hempty]

theorem workerStopReason_ne (state : RunTaskState) : workerStopReason state ≠ "" := by
  unfold workerStopReason
  by_cases hempty : state.stopReason = ""
  · rw [if_pos hempty]
    decide
  · rwa [if_neg hempty]

/-- Without a cancellation, the backend's table is the Worker's. -/
theorem backendOutcome_eq : backendOutcome false state =
    (workerTerminal state, workerStopReason state) := by
  have hfinal : workerStopReason state = "final_answer_returned" ↔
      state.stopReason = "final_answer_returned" := workerStopReason_eq_iff (by decide) (by decide)
  have huser : workerStopReason state = "user_cancelled" ↔ state.stopReason = "user_cancelled" :=
    workerStopReason_eq_iff (by decide) (by decide)
  unfold backendOutcome RunnerState.publicOutcome workerTerminal
  simp only [Bool.false_eq_true, if_false, Bool.not_true, or_false, hfinal, huser]
  by_cases hcompleted : state.status = "completed" ∧ state.stopReason = "final_answer_returned"
  · rw [if_pos hcompleted, if_pos hcompleted, hfinal.mpr hcompleted.2, hcompleted.2]
    rfl
  · rw [if_neg hcompleted, if_neg hcompleted]
    by_cases hcancelled : state.status = "stopped" ∧ state.stopReason = "user_cancelled"
    · rw [if_pos hcancelled, if_pos hcancelled, huser.mpr hcancelled.2, hcancelled.2]
      rfl
    · rw [if_neg hcancelled, if_neg hcancelled]
      show (_, _) = _
      rw [show (if state.stopReason = "" then "runtime_error" else state.stopReason) =
        workerStopReason state from rfl]
      generalize workerStopReason state = reason
      by_cases hservice : reason = "service_restarted" ∨ reason = "service_shutdown_timeout"
      · simp only [if_pos hservice]
        rcases hservice with hreason | hreason <;> simp [hreason]
      · simp only [if_neg hservice]
        by_cases hblocked : reason ∈ RunnerState.blockedStopReasons
        · have hclean : reason ≠ "process_cleanup_failed" := by
            rintro rfl
            revert hblocked
            decide
          simp [hblocked, hclean]
        · by_cases hclean : reason = "process_cleanup_failed"
          · simp [hclean, RunnerState.blockedStopReasons]
          · simp [hblocked, hclean]

theorem backendOutcome_cancelled : backendOutcome true state = (.cancelled, "user_cancelled") := by
  simp [backendOutcome, RunnerState.publicOutcome]

theorem workerTerminal_eq_completed_iff : workerTerminal state = .completed ↔
    state.status = "completed" ∧ state.stopReason = "final_answer_returned" := by
  have hfinal : workerStopReason state = "final_answer_returned" ↔
      state.stopReason = "final_answer_returned" := workerStopReason_eq_iff (by decide) (by decide)
  rw [← hfinal]
  unfold workerTerminal
  simp only
  by_cases hcompleted : state.status = "completed" ∧ workerStopReason state = "final_answer_returned"
  · rw [if_pos hcompleted]
    exact iff_of_true rfl hcompleted
  · rw [if_neg hcompleted]
    refine ⟨fun h => ?_, fun h => absurd h hcompleted⟩
    split at h
    · cases h
    · split at h
      · cases h
      · split at h <;> cases h

theorem workerTerminal_eq_cancelled_iff : workerTerminal state = .cancelled ↔
    state.status = "stopped" ∧ state.stopReason = "user_cancelled" := by
  have huser : workerStopReason state = "user_cancelled" ↔ state.stopReason = "user_cancelled" :=
    workerStopReason_eq_iff (by decide) (by decide)
  rw [← huser]
  unfold workerTerminal
  simp only
  by_cases hcompleted : state.status = "completed" ∧ workerStopReason state = "final_answer_returned"
  · rw [if_pos hcompleted]
    refine ⟨nofun, fun h => ?_⟩
    rw [hcompleted.1] at h
    exact absurd h.1 (by decide)
  · rw [if_neg hcompleted]
    by_cases hcancelled : state.status = "stopped" ∧ workerStopReason state = "user_cancelled"
    · rw [if_pos hcancelled]
      exact iff_of_true rfl hcancelled
    · rw [if_neg hcancelled]
      refine ⟨fun h => ?_, fun h => absurd h hcancelled⟩
      split at h
      · cases h
      · split at h <;> cases h

/-- Where the two sides agree. -/
def Alike (cancelRequested : Bool) (state : RunTaskState) : Prop :=
  if cancelRequested then
    (state.status = "completed" ∧ state.stopReason = "final_answer_returned") ∨
      (state.status = "stopped" ∧ state.stopReason = "user_cancelled")
  else state.stopReason.length ≤ 200

/-- **The two tables** agree exactly there. -/
theorem hubOutcome_eq_iff (cancelRequested : Bool) (state : RunTaskState) :
    hubOutcome cancelRequested state = backendOutcome cancelRequested state ↔
      Alike cancelRequested state := by
  unfold hubOutcome Alike
  cases cancelRequested with
  | false =>
    rw [backendOutcome_eq, if_neg (fun h => nomatch h.1), if_neg nofun, Prod.mk.injEq,
      pyClip_eq_self_iff, length_workerStopReason_le]
    exact and_iff_right rfl
  | true =>
    rw [backendOutcome_cancelled, if_pos rfl, ← workerTerminal_eq_completed_iff,
      ← workerTerminal_eq_cancelled_iff]
    by_cases hcompleted : workerTerminal state = .completed
    · rw [if_pos ⟨rfl, hcompleted⟩]
      simp [hcompleted]
    · rw [if_neg (fun h => hcompleted h.2), Prod.mk.injEq]
      constructor
      · exact fun h => Or.inr h.1
      · rintro (h | hcancelled)
        · exact absurd h hcompleted
        · refine ⟨hcancelled, ?_⟩
          have hreason : workerStopReason state = "user_cancelled" :=
            (workerStopReason_eq_iff (by decide) (by decide)).mpr
              (workerTerminal_eq_cancelled_iff.mp hcancelled).2
          rw [hreason]
          decide

end Tables

/-! ## What is persisted -/

namespace HubState

variable {env : HubEnv}

/-- The error of the message is read without an exception. -/
theorem sanitizeTerminalError_workerError (env : HubEnv) (state : RunTaskState) :
    ∃ error, sanitizeTerminalError env (.dict (workerError state)) = .ok error ∧
      ∃ attempts, error.getD "error_attempts" (.int 0) = .int attempts := by
  unfold sanitizeTerminalError
  by_cases hcode : clippedText env.txt (workerError state) "code" 100 = ""
  · refine ⟨[], ?_, 0, rfl⟩
    simp only [hcode, if_true]
    rfl
  · have hattempts : ∃ n, nonnegativeInt env.txt
        ((workerError state).getD "attempts" (.int 0)) = .ok n := by
      unfold workerError
      split
      · exact ⟨0, rfl⟩
      · exact ⟨max 0 (max 0 state.errorAttempts), rfl⟩
    obtain ⟨n, hn⟩ := hattempts
    simp only [if_neg hcode, hn]
    exact ⟨_, rfl, min 10 n, rfl⟩

/-- What the hub asks for when the message of `run_task` comes in. -/
theorem terminalRequest_terminalMessage (env : HubEnv) (redact : String → String) (task : Task)
    (taskId : String) (state : RunTaskState) (messageTotal : Nat) (sessionUpdatedAt : String) :
    ∃ request, terminalRequest env task
        (terminalMessage redact taskId state messageTotal sessionUpdatedAt) true = .ok request ∧
      (request.status, request.stopReason) =
        hubOutcome (decide (task.status = .cancelRequested)) state ∧
      ∃ attempts, request.error.getD "error_attempts" (.int 0) = .int attempts := by
  obtain ⟨error, herror, hattempts⟩ := sanitizeTerminalError_workerError env state
  have hstatus : (PyDict.getD (terminalMessage redact taskId state messageTotal sessionUpdatedAt)
      "status" (.str "failed")).text env.txt = workerStatus state := rfl
  have hreason : clippedText env.txt
      (terminalMessage redact taskId state messageTotal sessionUpdatedAt) "stop_reason" 200 =
        pyClip (workerStopReason state) 200 := rfl
  have htotal : PyDict.getD (terminalMessage redact taskId state messageTotal sessionUpdatedAt)
      "message_total" (.int 0) = .int messageTotal := rfl
  have hpersisted : PyDict.getD (terminalMessage redact taskId state messageTotal sessionUpdatedAt)
      "session_persisted" (.bool false) = .bool true := rfl
  have herrors : PyDict.getD (terminalMessage redact taskId state messageTotal sessionUpdatedAt)
      "error" (.dict []) = .dict (workerError state) := rfl
  have hcheck : checkMessageTotal (.int messageTotal) = .ok () := by
    have hnonneg : ¬(messageTotal : Int) < 0 := by omega
    simp only [checkMessageTotal, hnonneg, if_false]
  have hnonempty : pyClip (workerStopReason state) 200 ≠ "" := by
    intro hempty
    have hlist := congrArg String.toList hempty
    rw [pyClip, String.toList_ofList, String.toList_empty, List.take_eq_nil_iff] at hlist
    rcases hlist with hzero | hnil
    · cases hzero
    · exact workerStopReason_ne state (String.toList_eq_nil_iff.mp hnil)
  unfold terminalRequest
  rw [hstatus, terminalStatusOfText_workerStatus, hreason, htotal, hpersisted, herrors, hcheck,
    herror]
  refine ⟨_, rfl, ?_, hattempts⟩
  unfold hubOutcome
  by_cases hcancel : task.status = .cancelRequested ∧ workerTerminal state = .completed
  · simp [hcancel]
  · have hcancel' : ¬(decide (task.status = .cancelRequested) = true ∧
        workerTerminal state = .completed) := fun h => hcancel ⟨of_decide_eq_true h.1, h.2⟩
    rw [if_neg hcancel']
    simp only [if_neg hcancel, if_neg hnonempty]

/-- The task is still there after its session's texts are scrubbed. -/
theorem tasks_beforeTerminal {s : HubState} {taskId : String} {task : Task}
    (h : s.tasks taskId = some task) (request : TerminalRequest) (now : String) :
    ∃ current, (s.beforeTerminal task taskId request now).tasks taskId = some current := by
  unfold beforeTerminal
  simp only [cancelPendingApprovals]
  split
  · simp only [scrubLocalTaskContent, h, Option.map_some]
    exact ⟨_, rfl⟩
  · exact ⟨task, h⟩

/-- An audit entry leaves the outcome alone. -/
theorem tasks_writeAudit (env : HubEnv) {s : HubState} {taskId : String} {task : Task}
    (h : s.tasks taskId = some task) (event data : PyDict) (now : String) :
    ∃ task', (s.writeAudit env taskId (.append event data) now).tasks taskId = some task' ∧
      task'.status = task.status ∧ task'.stopReason = task.stopReason := by
  simp only [writeAudit, h]
  cases hentry : appendRunIndex env.txt now event data task with
  | error e => exact ⟨task, h, rfl, rfl⟩
  | ok updated =>
    have hframe := appendRunIndex_frame hentry
    rw [AuditFrame] at hframe
    refine ⟨{ updated with updatedAt := now }, ?_, ?_, ?_⟩
    · simp only [updateTask, h, Option.map_some, Function.update_self]
    · rw [hframe]
    · rw [hframe]

/-- What `_handle_terminal_locked` persists for that message. -/
theorem handleTerminal_terminalMessage (env : HubEnv) {s : HubState}
    {connection : WorkerConnection} {taskId : String} {task : Task} (hassigned : s.assignedTask connection taskId = .ok task)
    (redact : String → String) (state : RunTaskState) (messageTotal : Nat)
    (sessionUpdatedAt : String) (event : PyDict) (now : String) :
    ∃ s' task', s.handleTerminal env connection
        (terminalMessage redact taskId state messageTotal sessionUpdatedAt) event true now = .ok s' ∧
      s'.tasks taskId = some task' ∧
      (task'.status, task'.stopReason) =
        ((hubOutcome (decide (task.status = .cancelRequested)) state).1,
          some (hubOutcome (decide (task.status = .cancelRequested)) state).2) := by
  have hstored : s.tasks taskId = some task := by
    unfold assignedTask getTask at hassigned
    split at hassigned
    · cases hassigned
    · cases htask : s.tasks taskId with
      | none =>
        rw [htask] at hassigned
        cases hassigned
      | some found =>
        rw [htask] at hassigned
        simp only at hassigned
        split at hassigned
        · cases hassigned
        · rw [← Except.ok.inj hassigned]
  obtain ⟨request, hrequest, houtcome, attempts, hattempts⟩ :=
    terminalRequest_terminalMessage env redact task taskId state messageTotal sessionUpdatedAt
  obtain ⟨current, hcurrent⟩ := tasks_beforeTerminal hstored request now
  have hid : PyDict.textOf env.txt
      (terminalMessage redact taskId state messageTotal sessionUpdatedAt) "task_id" = taskId := rfl
  have hget : (s.beforeTerminal task taskId request now).getTask taskId = .ok current := by
    unfold getTask
    rw [hcurrent]
  -- the error of the message never makes the edit raise
  have hedit : ∃ ended, setTerminal env.txt now request.status request.stopReason
      (terminalPersistedFinalAnswer request.status request.finalAnswer) request.error current =
        .ok ended ∧ ended.status = request.status ∧ ended.stopReason = some request.stopReason := by
    unfold setTerminal
    rw [hattempts]
    exact ⟨_, rfl, rfl, rfl⟩
  obtain ⟨ended, hended, hstatus, hreason⟩ := hedit
  rw [← houtcome, ← hstatus, ← hreason]
  unfold handleTerminal
  simp only [hid, hassigned, hrequest, hget, hended]
  have hwritten : ((s.beforeTerminal task taskId request now).updateTask taskId now
      fun _ => ended).tasks taskId = some { ended with updatedAt := now } := by
    simp only [updateTask, hcurrent, Option.map_some, Function.update_self]
  obtain ⟨task', htask', hsame, hsame'⟩ := tasks_writeAudit env hwritten event
    ([("final_answer", .str request.finalAnswer), ("stop_reason", .str request.stopReason)] ++
      request.error) now
  exact ⟨_, task', rfl, htask', by rw [hsame, hsame']⟩

/-- **The Worker and the backend classify a run alike** exactly there: the task that the hub persists
and the task that the runner persists have the same status and the same stop reason. -/
theorem classified_iff (env : HubEnv) {s : HubState} {connection : WorkerConnection}
    {taskId : String} {task : Task} {r : RunnerState} (state : RunTaskState)
    (hassigned : s.assignedTask connection taskId = .ok task)
    (hcancel : r.tokenCancelled = decide (task.status = .cancelRequested))
    (hgate : r.gate.closed = false) (hgeneration : r.task.generation = r.gate.generation)
    (redact : String → String) (messageTotal : Nat) (sessionUpdatedAt : String) (event : PyDict)
    (now : String) :
    ∃ s' task' r', s.handleTerminal env connection
        (terminalMessage redact taskId state messageTotal sessionUpdatedAt) event true now = .ok s' ∧
      s'.tasks taskId = some task' ∧
      (r.converge true state.status state.stopReason state.finalAnswer).persist now = some r' ∧
      ((task'.status = r'.task.status ∧ task'.stopReason = r'.task.stopReason) ↔
        Alike r.tokenCancelled state) := by
  obtain ⟨s', task', hhub, hstored, houtcome⟩ := handleTerminal_terminalMessage env hassigned
    redact state messageTotal sessionUpdatedAt event now
  obtain ⟨r', hpersist, time, htask'⟩ := RunnerState.persist_converge hgate hgeneration state.status
    state.stopReason state.finalAnswer now
  refine ⟨s', task', r', hhub, hstored, hpersist, ?_⟩
  have hreason : (backendOutcome r.tokenCancelled state).2 ≠ "" := by
    cases r.tokenCancelled with
    | false =>
      rw [backendOutcome_eq]
      exact workerStopReason_ne state
    | true =>
      rw [backendOutcome_cancelled]
      decide
  have hbackend : (r'.task.status, r'.task.stopReason) =
      ((backendOutcome r.tokenCancelled state).1,
        some (backendOutcome r.tokenCancelled state).2) := by
    rw [htask']
    exact congrArg (Prod.mk _) (if_neg hreason)
  rw [← hubOutcome_eq_iff, ← Prod.mk.injEq, houtcome, hbackend, ← hcancel, Prod.mk.injEq,
    Option.some.injEq, Prod.ext_iff]

end HubState

/-! ## A cancelled run that fails -/

namespace HubState

/-- A hub with one task that a device runs. -/
def hubOf (task : Task) : HubState where
  tasks := fun taskId => if taskId = task.taskId then some task else none
  approvals := []
  connections := fun _ => none
  activeByDevice := fun _ => none
  deviceByTask := fun taskId => if taskId = task.taskId then some "dev_1" else none
  pendingStreamEvents := fun _ => []
  handler := fun _ => []
  dispatching := fun _ => .absent
  failing := []
  sent := []

/-- The device of that task. -/
def sampleConnection : WorkerConnection :=
  { connectionId := 1, deviceId := "dev_1", ownerId := "o1", ready := true }

/-- Settings with no redaction. -/
def sampleEnv : HubEnv where
  txt := .ascii
  maxConcurrentTasks := 2
  sanitizeEventData := fun _ data => data
  redactText := id
  sha256 := id
  keyedSha256 := id
  argsPreview := id

open RunnerState (runOf sampleTask stepLimitState)

/-- A run that stops at its step limit, without a cancel. -/
theorem classified_iff_stepLimit :
    Alike false stepLimitState ∧ ∃ s' task' r',
      (hubOf sampleTask).handleTerminal sampleEnv sampleConnection
        (terminalMessage id "task_1" stepLimitState 2 "t1") [] true "t1" = .ok s' ∧
      s'.tasks "task_1" = some task' ∧
      ((runOf sampleTask).converge true "stopped" "step_limit_reached" "").persist "t1" = some r' ∧
      (task'.status = r'.task.status ∧ task'.stopReason = r'.task.stopReason) := by
  have halike : Alike false stepLimitState := by
    show stepLimitState.stopReason.length ≤ 200
    decide
  have hassigned : (hubOf sampleTask).assignedTask sampleConnection "task_1" = .ok sampleTask := rfl
  obtain ⟨s', task', r', hhub, hstored, hpersist, hiff⟩ :=
    classified_iff sampleEnv (r := runOf sampleTask) stepLimitState hassigned rfl rfl rfl id 2 "t1"
      [] "t1"
  exact ⟨halike, s', task', r', hhub, hstored, hpersist, hiff.mpr halike⟩

/-- The same run with a recorded cancel: the hub persists `BLOCKED`, the backend `CANCELLED`. -/
theorem classified_apart :
    ((hubOf { sampleTask with status := .cancelRequested }).handleTerminal sampleEnv sampleConnection
        (terminalMessage id "task_1" stepLimitState 2 "t1") [] true "t1").toOption.bind
        (fun s' => (s'.tasks "task_1").map fun task => (task.status, task.stopReason)) =
        some (TaskStatus.blocked, some "step_limit_reached") ∧
      (({ runOf { sampleTask with status := .cancelRequested } with tokenCancelled := true }.converge
          true "stopped" "step_limit_reached" "").persist "t1").map
        (fun r' : RunnerState => (r'.task.status, r'.task.stopReason)) =
        some (TaskStatus.cancelled, some "user_cancelled") := by
  constructor
  · decide +kernel
  · rfl

end HubState

end ThreadForge

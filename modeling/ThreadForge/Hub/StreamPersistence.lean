import ThreadForge.Hub.Accounting
import ThreadForge.Hub.Approvals
import ThreadForge.Lib.WriteBehind

/-!
# Deferred persistence of stream events

The thinking and commentary events of a task are not appended to its audit list as they arrive:
`_enqueue_stream_event` keeps them, and the next audited event, the terminal message or the
disconnect appends them in one update. A new connection of the device and a revocation end the task
as well, and forget them.

## Main results

* `HubState.stream_persisted_iff` — the audit list at the end is the one of immediate appends, and
  no event is dropped, exactly when the end flushes the buffer or finds it empty.
* `HubState.stream_lost` — a reconnect drops a thinking event.
-/

namespace ThreadForge

open Transition WriteBehind

/-! ## One append, on the list alone -/

section AuditStep

variable (txt : PyText)

/-- `_append_run_index`, on the audit list alone; an entry that cannot be built is left out. -/
def auditStep (runIndex : List PyDict) (entry : PyDict × PyDict) : List PyDict :=
  let eventType := entry.1.textOf txt "type"
  if eventType = "model.heartbeat" then runIndex
  else match runIndexItem txt entry.1 entry.2 with
    | .ok item => pushRunIndex txt eventType runIndex item
    | .error _ => runIndex

/-- Immediate persistence: each entry is appended in an update of its own. -/
def appendAtOnce (now : String) (task : Task) : List (PyDict × PyDict) → Task
  | [] => task
  | (event, data) :: rest =>
    match appendRunIndex txt now event data task with
    | .ok task' => appendAtOnce now { task' with updatedAt := now } rest
    | .error _ => appendAtOnce now task rest

variable {txt} {now : String} {event data : PyDict} {task task' : Task}

theorem appendRunIndex_runIndex (h : appendRunIndex txt now event data task = .ok task') :
    task'.runIndex = auditStep txt task.runIndex (event, data) := by
  rw [appendRunIndex] at h
  simp only [auditStep]
  split at h
  · next hheartbeat =>
    rw [if_pos hheartbeat, ← Except.ok.inj h]
  · next hother =>
    rw [if_neg hother]
    cases hitem : runIndexItem txt event data with
    | error e => rw [hitem] at h; cases h
    | ok item =>
      rw [hitem] at h
      rw [← Except.ok.inj h]

theorem auditStep_of_error {e : PyError} (h : appendRunIndex txt now event data task = .error e)
    (runIndex : List PyDict) : auditStep txt runIndex (event, data) = runIndex := by
  rw [appendRunIndex] at h
  simp only [auditStep]
  split at h
  · cases h
  · next hother =>
    rw [if_neg hother]
    cases hitem : runIndexItem txt event data with
    | error e => rfl
    | ok item => rw [hitem] at h; cases h

theorem appendAtOnce_runIndex (now : String) :
    ∀ (entries : List (PyDict × PyDict)) (task : Task),
      (appendAtOnce txt now task entries).runIndex
        = entries.foldl (auditStep txt) task.runIndex
  | [], _ => rfl
  | (event, data) :: rest, task => by
    rw [appendAtOnce, List.foldl_cons]
    split
    · next task' happend =>
      rw [appendAtOnce_runIndex now rest, ← appendRunIndex_runIndex happend]
    · next happend =>
      rw [appendAtOnce_runIndex now rest, auditStep_of_error happend]

theorem appendPendingStreamEvents_runIndex (now : String) :
    ∀ (pending : List (PyDict × PyDict)) (task : Task),
      (appendPendingStreamEvents txt now pending task).runIndex
        = pending.foldl (auditStep txt) task.runIndex
  | [], _ => rfl
  | (event, data) :: rest, task => by
    rw [List.foldl_cons]
    cases happend : appendRunIndex txt now event data task with
    | error e =>
      rw [auditStep_of_error happend, ← appendPendingStreamEvents_runIndex now rest]
      simp only [appendPendingStreamEvents, List.foldl_cons, happend]
    | ok task' =>
      rw [← appendRunIndex_runIndex happend, ← appendPendingStreamEvents_runIndex now rest]
      simp only [appendPendingStreamEvents, List.foldl_cons, happend]

end AuditStep

namespace HubState

variable (env : HubEnv)

/-! ## Whole calls -/

/-- A step of a handler. -/
def runHandlerStep (connection : WorkerConnection) (now : String) (s : HubState) :
    HandlerStep → HubState
  | .audit taskId edit => s.writeAudit env taskId edit now
  | .persistApproval taskId approval =>
    s.orSame (s.persistApproval connection taskId approval now)

/-- The rest of the message a connection's handler is on. -/
def drain (s : HubState) (connection : WorkerConnection) (now : String) : HubState :=
  (s.handler connection.connectionId).foldl (runHandlerStep env connection now)
    { s with handler := Function.update s.handler connection.connectionId [] }

/-- `_handle_event`, to its end. -/
def handleEventNow (s : HubState) (connection : WorkerConnection) (message event : PyDict)
    (now : String) : HubState :=
  (s.orSame (s.handleEvent env connection message event)).drain env connection now

/-- `_flush_stream_events`, to its end. -/
def flushNow (s : HubState) (connection : WorkerConnection) (taskId now : String) : HubState :=
  (s.flushStreamEvents connection.connectionId taskId).drain env connection now

/-- `handle` for a terminal message: the buffer of the task it names is written first. -/
def handleTerminalNow (s : HubState) (connection : WorkerConnection) (message event : PyDict)
    (sessionMatches : Bool) (now : String) : Except HubError HubState :=
  (s.flushNow env connection (message.textOf env.txt "task_id") now).handleTerminal env connection
    message event sessionMatches now

/-- The loop of `connect`, `disconnect` and `revoke` over the tasks they have unmapped. Only
`disconnect` writes the buffer of a task before it fails it. -/
def endTask (flusher : Option WorkerConnection) (reason : String) (status : TaskStatus)
    (now : String) (s : HubState) (taskId : String) : HubState :=
  let s := match flusher with
    | some connection => s.flushNow env connection taskId now
    | none => s
  { s with failing := s.failing.erase (taskId, reason, status) }.failTask env taskId reason status
    now

/-- `disconnect`, to its end. -/
def disconnectNow (s : HubState) (connection : WorkerConnection) (now : String) : HubState :=
  match s.connections connection.deviceId with
  | none => s
  | some current =>
    if current.connectionId = connection.connectionId then
      ((s.activeByDevice connection.deviceId).getD []).foldl
        (endTask env (some connection) "worker_disconnected" .interrupted now)
        (s.disconnect connection)
    else s

/-- `connect`, to its end. -/
def connectNow (s : HubState) (connection : WorkerConnection) (now : String) : HubState :=
  match s.connections connection.deviceId with
  | none => s.connect connection
  | some _ =>
    ((s.activeByDevice connection.deviceId).getD []).foldl
      (endTask env none "worker_reconnected" .failed now) (s.connect connection)

/-- `revoke`, to its end. -/
def revokeNow (s : HubState) (deviceId now : String) : HubState :=
  ((s.activeByDevice deviceId).getD []).foldl
    (endTask env none "worker_revoked" .failed now) (s.revoke deviceId)

/-! ## The stream of a task, and its end -/

/-- The data an event of a persisted type is accepted with: its task is assigned to the connection
and not being cancelled, its type is known and its data is an object. -/
def acceptedData (s : HubState) (connection : WorkerConnection) (message : PyDict) :
    Option PyDict :=
  let eventType := message.textOf env.txt "event_type"
  match s.assignedTask connection (message.textOf env.txt "task_id") with
  | .error _ => none
  | .ok task =>
    if !isPublicEventType eventType ∨ eventType ∉ publicWorkerEvents then none
    else match message.getD "data" (.dict []) with
      | .dict data =>
        if task.status = .cancelRequested then none
        else if eventType ∈ streamPersistEvents ∨ eventType ∈ auditedEvents then
          some (env.sanitizeEventData eventType data)
        else none
      | _ => none

end HubState

/-- What happens while a task has its device: whole event messages, of this task or another; the
flush of a terminal message that names the task and is then rejected; and any other step of the
hub. -/
inductive StreamAction
  | event (connection : WorkerConnection) (message event : PyDict) (now : String)
  | flush (connection : WorkerConnection) (now : String)
  | other (action : HubAction)

/-- The ways the stream of a task ends. -/
inductive StreamEnd
  | terminal (connection : WorkerConnection) (message event : PyDict) (sessionMatches : Bool)
  | disconnect (connection : WorkerConnection)
  | connect (connection : WorkerConnection)
  | revoke (deviceId : String)

/-- Only a terminal message and a disconnect flush the buffer. -/
def StreamEnd.flushes : StreamEnd → Bool
  | .terminal .. | .disconnect _ => true
  | .connect _ | .revoke _ => false

/-- The task whose audit list or buffer an action names. -/
def HubAction.auditedTask (env : HubEnv) : HubAction → Option String
  | .event _ message _ | .terminal _ message _ _ _ => some (message.textOf env.txt "task_id")
  | .flush _ taskId => some taskId
  | _ => none

namespace HubState

variable (env : HubEnv)

/-- The state after an action, where the action can be taken: the task keeps its device. -/
def streamNext (id : String) (s : HubState) : StreamAction → Option HubState
  | .event connection message event now =>
    if s.handler connection.connectionId = [] then
      some (s.handleEventNow env connection message event now)
    else none
  | .flush connection now =>
    if s.handler connection.connectionId = [] then some (s.flushNow env connection id now)
    else none
  | .other action =>
    if action.auditedTask env = some id then none
    else (next env s action).filter fun s' => s'.deviceByTask id = s.deviceByTask id

abbrev StreamStep (id : String) (s : HubState) (action : StreamAction) (s' : HubState) : Prop :=
  streamNext env id s action = some s'

/-- The entry an action adds to the events accepted for a task. -/
def acceptedBy (id : String) (s : HubState) : StreamAction → List (PyDict × PyDict)
  | .event connection message event _ =>
    if message.textOf env.txt "task_id" = id then
      match s.acceptedData env connection message with
      | some data => [(event, data)]
      | none => []
    else []
  | .flush _ _ | .other _ => []

/-- The events accepted for a task, in arrival order. -/
def accepted (id : String) (ms : List (Move HubState StreamAction)) : List (PyDict × PyDict) :=
  ms.flatMap fun m => m.pre.acceptedBy env id m.act

/-- The ending is one of the task. -/
def Ends (id now : String) (s : HubState) : StreamEnd → Prop
  | .terminal connection message event sessionMatches =>
    s.handler connection.connectionId = [] ∧ message.textOf env.txt "task_id" = id ∧
      ∃ s', s.handleTerminalNow env connection message event sessionMatches now = .ok s'
  | .disconnect connection =>
    s.handler connection.connectionId = [] ∧ s.deviceByTask id = some connection.deviceId ∧
      ∃ current, s.connections connection.deviceId = some current ∧
        current.connectionId = connection.connectionId
  | .connect connection =>
    s.deviceByTask id = some connection.deviceId ∧
      ∃ previous, s.connections connection.deviceId = some previous
  | .revoke deviceId => s.deviceByTask id = some deviceId

/-- The hub after the end. -/
def endStream (s : HubState) (now : String) : StreamEnd → HubState
  | .terminal connection message event sessionMatches =>
    s.orSame (s.handleTerminalNow env connection message event sessionMatches now)
  | .disconnect connection => s.disconnectNow env connection now
  | .connect connection => s.connectNow env connection now
  | .revoke deviceId => s.revokeNow env deviceId now

/-- The terminal data the audit list gets. -/
def terminalData (request : TerminalRequest) : PyDict :=
  [("final_answer", .str request.finalAnswer), ("stop_reason", .str request.stopReason)]
    ++ request.error

/-- The terminal entry, if the task ended by a terminal message. -/
def terminalEntry (s : HubState) (now : String) : StreamEnd → List (PyDict × PyDict)
  | .terminal connection message event sessionMatches =>
    let s := s.flushNow env connection (message.textOf env.txt "task_id") now
    match s.assignedTask connection (message.textOf env.txt "task_id") with
    | .error _ => []
    | .ok task =>
      match terminalRequest env task message sessionMatches with
      | .error _ => []
      | .ok request => [(event, terminalData request)]
  | _ => []

/-- The audit list finally stored is the one of immediate appends, and nothing is left behind. -/
structure Persisted (id now : String) (task : Task) (entries : List (PyDict × PyDict))
    (s : HubState) : Prop where
  stored : ∃ task', s.tasks id = some task' ∧
    task'.runIndex = (appendAtOnce env.txt now task entries).runIndex
  dropped : s.pendingStreamEvents id = []

/-! ## The log of one task -/

/-- The audit list of a task, if it is stored, with the events kept for it. -/
def auditLog (s : HubState) (id : String) : Log (Option (List PyDict)) (PyDict × PyDict) where
  stored := (s.tasks id).map Task.runIndex
  buffer := s.pendingStreamEvents id

/-- One append, where the task is stored. -/
def push (txt : PyText) (stored : Option (List PyDict)) (entry : PyDict × PyDict) :
    Option (List PyDict) :=
  stored.map fun runIndex => auditStep txt runIndex entry

theorem foldl_push (txt : PyText) (entries : List (PyDict × PyDict))
    (stored : Option (List PyDict)) :
    entries.foldl (push txt) stored = stored.map fun runIndex =>
      entries.foldl (auditStep txt) runIndex := by
  induction entries generalizing stored with
  | nil => cases stored <;> rfl
  | cons entry entries ih =>
    rw [List.foldl_cons, ih, push]
    cases stored <;> rfl

/-- No handler is about to write the audit list of a task. -/
def Settled (s : HubState) (id : String) : Prop :=
  ∀ connectionId edit, .audit id edit ∉ s.handler connectionId

/-- A step that has nothing to do with a task's audit list. -/
structure SameAudit (id : String) (s s' : HubState) : Prop where
  log : s'.auditLog id = s.auditLog id
  queued : ∀ connectionId edit, .audit id edit ∈ s'.handler connectionId →
    .audit id edit ∈ s.handler connectionId

variable {env} {id : String} {s s' : HubState}

theorem SameAudit.refl (s : HubState) : SameAudit id s s := ⟨rfl, fun _ _ h => h⟩

theorem SameAudit.trans {s'' : HubState} (h : SameAudit id s s') (h' : SameAudit id s' s'') :
    SameAudit id s s'' :=
  ⟨h'.log.trans h.log, fun c edit hmem => h.queued c edit (h'.queued c edit hmem)⟩

theorem SameAudit.of_eq (htasks : s'.tasks = s.tasks)
    (hpending : s'.pendingStreamEvents = s.pendingStreamEvents) (hhandler : s'.handler = s.handler) :
    SameAudit id s s' := by
  refine ⟨?_, fun c edit hmem => by rw [← hhandler]; exact hmem⟩
  rw [auditLog, auditLog, htasks, hpending]

theorem SameAudit.settled (h : SameAudit id s s') (hs : s.Settled id) : s'.Settled id :=
  fun c edit hmem => hs c edit (h.queued c edit hmem)

/-! ## What leaves the audit list of a task alone -/

theorem sameAudit_updateTask {t now : String} {fn : Task → Task}
    (hfn : ∀ task, s.tasks t = some task → t = id → (fn task).runIndex = task.runIndex) :
    SameAudit id s (s.updateTask t now fn) := by
  refine ⟨?_, fun _ _ h => h⟩
  simp only [auditLog, updateTask, Function.update_apply, Log.mk.injEq, and_true]
  split
  · next hid =>
    cases htask : s.tasks t with
    | none => rw [hid, htask]; rfl
    | some task =>
      rw [hid, htask]
      exact congrArg some (hfn task htask hid.symm)
  · rfl

theorem sameAudit_sendAfterWrites (s : HubState) (d : String) (message : HubMessage) :
    SameAudit id s (s.sendAfterWrites d message) := by
  rw [sendAfterWrites, send]
  split
  · next h =>
    split at h
    · rw [← Except.ok.inj h]
      exact .of_eq rfl rfl rfl
    · cases h
  · exact .refl s

theorem sameAudit_scrub (s : HubState) (sessionId ownerId now : String) :
    SameAudit id s (s.scrubLocalTaskContent sessionId ownerId now) := by
  refine ⟨?_, fun _ _ h => h⟩
  simp only [auditLog, scrubLocalTaskContent, Log.mk.injEq, and_true]
  cases s.tasks id with
  | none => rfl
  | some task =>
    simp only [Option.map_some]
    split <;> rfl

theorem sameAudit_writeAudit {t : String} (ht : t ≠ id) (s : HubState) (edit : AuditEdit)
    (now : String) : SameAudit id s (s.writeAudit env t edit now) := by
  cases edit with
  | batch pending => exact sameAudit_updateTask fun _ _ hid => absurd hid ht
  | append event data =>
    rw [writeAudit]
    split
    · exact .refl s
    · split
      · exact sameAudit_updateTask fun _ _ hid => absurd hid ht
      · exact .refl s

theorem setTerminal_runIndex {now : String} {status : TaskStatus} {stopReason finalAnswer : String}
    {error : PyDict} {task task' : Task}
    (h : setTerminal env.txt now status stopReason finalAnswer error task = .ok task') :
    task'.runIndex = task.runIndex := by
  simp only [setTerminal, bind, Except.bind, pure, Except.pure] at h
  split at h
  · cases h
  · rw [← Except.ok.inj h]

theorem sameAudit_failTask (s : HubState) (t reason : String) (status : TaskStatus)
    (now : String) : SameAudit id s (s.failTask env t reason status now) := by
  rw [failTask]
  split
  · exact .refl s
  next task htask =>
  split
  · exact .refl s
  simp only
  split
  · next task' hterminal =>
    have hcancel : SameAudit id s (s.cancelPendingApprovals t now reason) := .of_eq rfl rfl rfl
    refine hcancel.trans (sameAudit_updateTask fun old hold _ => ?_)
    have hsame : some task = some old := htask.symm.trans hold
    rw [← Option.some.inj hsame]
    exact setTerminal_runIndex hterminal
  · exact .of_eq rfl rfl rfl

theorem sameAudit_persistApproval (s : HubState) (connection : WorkerConnection)
    (t : String) (approval : Approval) (now : String) :
    SameAudit id s (s.orSame (s.persistApproval connection t approval now)) := by
  simp only [persistApproval]
  split
  · exact .refl s
  split
  · exact .refl s
  split
  · exact .refl s
  split
  · exact sameAudit_updateTask fun _ _ _ => rfl
  · have hset : SameAudit id s (s.updateTask t now (setPendingApproval now approval)) :=
      sameAudit_updateTask fun _ _ _ => rfl
    have hcreate : SameAudit id (s.updateTask t now (setPendingApproval now approval))
        { s.updateTask t now (setPendingApproval now approval) with
          approvals := (s.updateTask t now (setPendingApproval now approval)).approvals ++
            [approval] } := .of_eq rfl rfl rfl
    exact (hset.trans hcreate).trans (sameAudit_sendAfterWrites _ _ _)

theorem sameAudit_beforeTerminal (s : HubState) (task : Task) (t : String)
    (request : TerminalRequest) (now : String) :
    SameAudit id s (s.beforeTerminal task t request now) := by
  simp only [beforeTerminal]
  split
  · exact (sameAudit_scrub s _ _ _).trans (.of_eq rfl rfl rfl)
  · exact .of_eq rfl rfl rfl

theorem sameAudit_handleTerminal {connection : WorkerConnection} {message event : PyDict}
    {sessionMatches : Bool} {now : String} (ht : message.textOf env.txt "task_id" ≠ id)
    (s : HubState) : SameAudit id s
      (s.orSame (s.handleTerminal env connection message event sessionMatches now)) := by
  simp only [handleTerminal]
  split
  · exact .refl s
  next task _ =>
  split
  · exact .refl s
  next request _ =>
  split
  · exact .refl s
  split
  · exact .refl s
  next task' _ =>
  have hbefore : SameAudit id s
      (s.beforeTerminal task (message.textOf env.txt "task_id") request now) :=
    sameAudit_beforeTerminal ..
  have hwrite : SameAudit id (s.beforeTerminal task (message.textOf env.txt "task_id") request now)
      ((s.beforeTerminal task (message.textOf env.txt "task_id") request now).updateTask
        (message.textOf env.txt "task_id") now fun _ => task') :=
    sameAudit_updateTask fun _ _ hid => absurd hid ht
  exact (((hbefore.trans hwrite).trans (sameAudit_writeAudit ht _ _ _)).trans
    (.of_eq rfl rfl rfl))

theorem sameAudit_flushStreamEvents {t : String} (ht : t ≠ id) (s : HubState)
    (connectionId : Nat) : SameAudit id s (s.flushStreamEvents connectionId t) := by
  rw [flushStreamEvents]
  split
  · exact .refl s
  · refine ⟨?_, fun c edit hmem => ?_⟩
    · simp only [auditLog, Log.mk.injEq, true_and]
      exact Function.update_of_ne (Ne.symm ht) ..
    · simp only [Function.update_apply] at hmem
      split at hmem
      · next hc =>
        rcases List.mem_append.mp hmem with hold | hnew
        · rw [hc]
          exact hold
        · rw [List.mem_singleton] at hnew
          injection hnew with hid
          exact absurd hid.symm ht
      · exact hmem

/-- An event of another task. -/
theorem sameAudit_handleEvent {connection : WorkerConnection} {message event : PyDict}
    (ht : message.textOf env.txt "task_id" ≠ id) (s : HubState) :
    SameAudit id s (s.orSame (s.handleEvent env connection message event)) := by
  simp only [handleEvent]
  split
  · exact .refl s
  split
  · exact .refl s
  split
  · exact .refl s
  split
  · split
    · exact .refl s
    split
    · refine ⟨?_, fun _ _ h => h⟩
      simp only [orSame, auditLog, Log.mk.injEq, true_and]
      exact Function.update_of_ne (Ne.symm ht) ..
    split
    · have hflush := sameAudit_flushStreamEvents ht s connection.connectionId
      refine hflush.trans ⟨rfl, fun c edit hmem => ?_⟩
      simp only [orSame, Function.update_apply] at hmem
      split at hmem
      · next hc =>
        rcases List.mem_append.mp hmem with hold | hnew
        · rw [hc]
          exact hold
        · rw [List.mem_singleton] at hnew
          injection hnew with hid
          exact absurd hid.symm ht
      · exact hmem
    · exact .refl s
  · exact .refl s

theorem sameAudit_runHandlerStep (env : HubEnv) {step : HandlerStep} (hstep : ∀ edit, step ≠ .audit id edit)
    (s : HubState) (connection : WorkerConnection) (now : String) :
    SameAudit id s (runHandlerStep env connection now s step) := by
  cases step with
  | audit t edit =>
    refine sameAudit_writeAudit (fun ht => ?_) s edit now
    exact hstep edit (by rw [ht])
  | persistApproval t approval => exact sameAudit_persistApproval s connection t approval now

/-- A handler forgets the steps it has done. -/
theorem sameAudit_pop (s : HubState) (connectionId : Nat) {rest : List HandlerStep}
    (hrest : ∀ step ∈ rest, step ∈ s.handler connectionId) :
    SameAudit id s { s with handler := Function.update s.handler connectionId rest } := by
  refine ⟨rfl, fun c edit hmem => ?_⟩
  simp only [Function.update_apply] at hmem
  split at hmem
  · next hc =>
    rw [hc]
    exact hrest _ hmem
  · exact hmem

/-- **A step that does not name a task leaves its audit list alone.** -/
theorem sameAudit_next (hstored : (s.tasks id).isSome) (hsettled : s.Settled id)
    {action : HubAction} (haction : action.auditedTask env ≠ some id)
    (h : next env s action = some s') : SameAudit id s s' := by
  cases action with
  | createTask task =>
    simp only [next] at h
    split at h
    · rw [← Option.some.inj h, createTask]
      cases hold : s.tasks task.taskId with
      | some old => exact .refl s
      | none =>
        have hid : id ≠ task.taskId := fun hid => by rw [hid, hold] at hstored; cases hstored
        refine ⟨?_, fun _ _ h => h⟩
        simp only [orSame, auditLog, Log.mk.injEq, and_true]
        rw [Function.update_of_ne hid]
    · cases h
  | dispatchClaim task session =>
    simp only [next] at h
    split at h
    · split at h
      · next hclaim =>
        rw [dispatchClaim] at hclaim
        split at hclaim
        · cases hclaim
        split at hclaim
        · cases hclaim
        split at hclaim
        · cases hclaim
        simp only at hclaim
        split at hclaim
        · cases hclaim
        · rw [← Option.some.inj h, ← Except.ok.inj hclaim]
          exact .of_eq rfl rfl rfl
      · rw [← Option.some.inj h]
        exact .of_eq rfl rfl rfl
    · cases h
  | writeRunning t now =>
    simp only [next] at h
    split at h
    · have hwrite : SameAudit id s (s.updateTask t now (setStatus now .running)) :=
        sameAudit_updateTask fun _ _ _ => rfl
      rw [← Option.some.inj h]
      exact hwrite.trans (.of_eq rfl rfl rfl)
    · cases h
  | sendStart t published =>
    simp only [next] at h
    split at h
    · split at h
      · next hsend =>
        rw [send] at hsend
        split at hsend
        · rw [← Option.some.inj h, ← Except.ok.inj hsend]
          split <;> exact .of_eq rfl rfl rfl
        · cases hsend
      · rw [← Option.some.inj h]
        exact .of_eq rfl rfl rfl
    · cases h
  | releaseUnsent t =>
    simp only [next] at h
    split at h
    · rw [← Option.some.inj h]
      exact .of_eq rfl rfl rfl
    · cases h
  | writeFailed t now =>
    simp only [next] at h
    split at h
    · have hwrite : SameAudit id s (s.updateTask t now
          (serviceTerminal now .failed "worker_unavailable" none)) :=
        sameAudit_updateTask fun _ _ _ => rfl
      rw [← Option.some.inj h]
      exact hwrite.trans (.of_eq rfl rfl rfl)
    · cases h
  | cancel t now =>
    rw [← Option.some.inj h]
    simp only [cancel]
    split
    · exact .refl s
    split
    · exact .refl s
    split
    · exact sameAudit_sendAfterWrites s _ _
    · have hcancel : SameAudit id s (s.cancelPendingApprovals t now "cancelled") :=
        .of_eq rfl rfl rfl
      have hwrite : SameAudit id (s.cancelPendingApprovals t now "cancelled")
          ((s.cancelPendingApprovals t now "cancelled").updateTask t now (setCancelRequested now)) :=
        sameAudit_updateTask fun _ _ _ => rfl
      exact (hcancel.trans hwrite).trans (sameAudit_sendAfterWrites _ _ _)
  | resolveApproval approvalId decision expired now =>
    rw [← Option.some.inj h]
    simp only [resolveApproval]
    split
    · exact .refl s
    next approval _ =>
    split
    · split <;> exact .refl s
    split
    · exact .refl s
    split
    · exact .refl s
    split
    · exact .refl s
    split
    · exact .refl s
    split
    · exact .refl s
    split
    · exact .refl s
    · have hdecide : SameAudit id s (s.updateApproval approvalId (setApprovalDecision now
          (if decision = "approved" then .approved else .rejected) decision)) := .of_eq rfl rfl rfl
      have hwrite : ∀ u : HubState,
          SameAudit id u (u.updateTask approval.taskId now (clearApproval now)) :=
        fun _ => sameAudit_updateTask fun _ _ _ => rfl
      exact (hdecide.trans (hwrite _)).trans (sameAudit_sendAfterWrites _ _ _)
  | event connection message event =>
    simp only [next] at h
    split at h
    · rw [← Option.some.inj h]
      exact sameAudit_handleEvent (fun ht => haction (congrArg some ht)) s
    · cases h
  | approvalRequested connection message approvalId createdAt expiresAt =>
    simp only [next] at h
    split at h
    · next hidle =>
      split at h
      · rw [← Option.some.inj h]
        refine ⟨rfl, fun c edit hmem => ?_⟩
        simp only [Function.update_apply] at hmem
        split at hmem
        · rw [List.mem_singleton] at hmem
          cases hmem
        · exact hmem
      · rw [← Option.some.inj h]
        exact .refl s
    · cases h
  | flush connection t =>
    simp only [next] at h
    split at h
    · rw [← Option.some.inj h]
      exact sameAudit_flushStreamEvents (fun ht => haction (congrArg some ht)) s _
    · cases h
  | handlerStep connection now =>
    have hpop : SameAudit id s s' := by
      simp only [next, handlerStep] at h
      split at h
      · cases h
      next step rest hhandler =>
      have hrest : ∀ step' ∈ rest, step' ∈ s.handler connection.connectionId := by
        intro step' hmem
        rw [hhandler]
        exact List.mem_cons_of_mem _ hmem
      have hstep : ∀ edit, step ≠ .audit id edit := by
        rintro edit rfl
        exact hsettled connection.connectionId edit (by rw [hhandler]; exact List.mem_cons_self)
      refine (sameAudit_pop s connection.connectionId hrest).trans ?_
      have hrun := sameAudit_runHandlerStep env hstep
        { s with handler := Function.update s.handler connection.connectionId rest } connection now
      cases step <;> (rw [← Option.some.inj h]; exact hrun)
    exact hpop
  | terminal connection message event sessionMatches now =>
    simp only [next] at h
    split at h
    · rw [← Option.some.inj h]
      exact sameAudit_handleTerminal (fun ht => haction (congrArg some ht)) s
    · cases h
  | connect connection =>
    rw [← Option.some.inj h, connect]
    split <;> exact .of_eq rfl rfl rfl
  | hello connectionId workspaces =>
    rw [← Option.some.inj h]
    exact .of_eq rfl rfl rfl
  | disconnect connection =>
    rw [← Option.some.inj h, disconnect]
    split
    · exact .refl s
    · split
      · exact .of_eq rfl rfl rfl
      · exact .refl s
  | revoke deviceId =>
    rw [← Option.some.inj h]
    exact .of_eq rfl rfl rfl
  | failTask index now =>
    simp only [next] at h
    split at h
    · next t reason status _ =>
      rw [← Option.some.inj h]
      have herase : SameAudit id s { s with failing := s.failing.eraseIdx index } :=
        .of_eq rfl rfl rfl
      exact herase.trans (sameAudit_failTask _ t reason status now)
    · cases h

/-! ## What is done to the audit list of a task -/

/-- A step that performs operations on the log of a task. -/
structure Performs (env : HubEnv) (id : String) (ops : List (Op (PyDict × PyDict)))
    (s s' : HubState) : Prop where
  log : s'.auditLog id = (s.auditLog id).run (push env.txt) ops
  settled : s.Settled id → s'.Settled id

theorem SameAudit.performs (h : SameAudit id s s') : Performs env id [] s s' :=
  ⟨h.log, h.settled⟩

theorem Performs.trans {s'' : HubState} {ops ops' : List (Op (PyDict × PyDict))}
    (h : Performs env id ops s s') (h' : Performs env id ops' s' s'') :
    Performs env id (ops ++ ops') s s'' :=
  ⟨by rw [h'.log, h.log, Log.run_append], fun hs => h'.settled (h.settled hs)⟩

/-- No operation on the log of a task stores it, or deletes it. -/
theorem isSome_run_push (txt : PyText) (ops : List (Op (PyDict × PyDict)))
    (l : Log (Option (List PyDict)) (PyDict × PyDict)) :
    (l.run (push txt) ops).stored.isSome = l.stored.isSome := by
  induction ops generalizing l with
  | nil => rfl
  | cons op ops ih =>
    have hstep : l.run (push txt) (op :: ops) = (l.perform (push txt) op).run (push txt) ops := rfl
    rw [hstep, ih]
    cases op with
    | enqueue e => rfl
    | writeThrough e =>
      simp only [Log.perform, Log.writeThrough, push, Option.isSome_map, Log.effective, foldl_push]
    | flush => simp only [Log.perform, Log.flush, Log.effective, foldl_push, Option.isSome_map]

theorem Performs.stored {ops : List (Op (PyDict × PyDict))} (h : Performs env id ops s s')
    (hs : (s.tasks id).isSome) : (s'.tasks id).isSome := by
  have hlog := congrArg (fun l => l.stored.isSome) h.log
  simp only [isSome_run_push, auditLog, Option.isSome_map] at hlog
  rw [hlog]
  exact hs

theorem writeAudit_handler (s : HubState) (t : String) (edit : AuditEdit) (now : String) :
    (s.writeAudit env t edit now).handler = s.handler := by
  cases edit with
  | batch pending => rfl
  | append event data =>
    rw [writeAudit]
    split
    · rfl
    · split <;> rfl

theorem auditLog_batch (s : HubState) (pending : List (PyDict × PyDict)) (now : String) :
    (s.writeAudit env id (.batch pending) now).auditLog id
      = { s.auditLog id with stored := pending.foldl (push env.txt) (s.auditLog id).stored } := by
  simp only [writeAudit, updateTask, auditLog, Function.update_self, foldl_push]
  cases s.tasks id with
  | none => rfl
  | some task => simp only [Option.map_some, appendPendingStreamEvents_runIndex]

theorem auditLog_append (s : HubState) (event data : PyDict) (now : String) :
    (s.writeAudit env id (.append event data) now).auditLog id
      = { s.auditLog id with stored := push env.txt (s.auditLog id).stored (event, data) } := by
  rw [writeAudit]
  split
  · next hnone => simp only [auditLog, hnone, Option.map_none, push]
  next task htask =>
  split
  · next task' happend =>
    simp only [updateTask, auditLog, Function.update_self, htask, Option.map_some, push,
      appendRunIndex_runIndex happend]
  · next happend =>
    simp only [auditLog, htask, Option.map_some, push, auditStep_of_error happend]

/-- The write a flush leaves to the handler. -/
def flushSteps (id : String) : List (PyDict × PyDict) → List HandlerStep
  | [] => []
  | entry :: rest => [.audit id (.batch (entry :: rest))]

/-- `_flush_stream_events` takes the buffer, and leaves one write to the handler. -/
theorem flushStreamEvents_spec (id : String) (s : HubState) (connectionId : Nat)
    (hidle : s.handler connectionId = []) :
    (s.flushStreamEvents connectionId id).auditLog id = { s.auditLog id with buffer := [] } ∧
      (s.flushStreamEvents connectionId id).handler
        = Function.update s.handler connectionId (flushSteps id (s.pendingStreamEvents id)) := by
  rw [flushStreamEvents]
  cases hpending : s.pendingStreamEvents id with
  | nil =>
    refine ⟨?_, ?_⟩
    · simp only [auditLog, hpending]
    · rw [flushSteps, ← hidle, Function.update_eq_self]
  | cons entry rest =>
    refine ⟨?_, ?_⟩
    · simp only [auditLog, Function.update_self]
    · simp only [hidle, List.nil_append, flushSteps]

/-- The handler writes what the flush took. -/
theorem foldl_flushSteps (env : HubEnv) (id : String) (s : HubState) (connection : WorkerConnection) (now : String)
    (pending : List (PyDict × PyDict)) :
    ((flushSteps id pending).foldl (runHandlerStep env connection now) s).auditLog id
        = { s.auditLog id with stored := pending.foldl (push env.txt) (s.auditLog id).stored } ∧
      ((flushSteps id pending).foldl (runHandlerStep env connection now) s).handler
        = s.handler := by
  cases pending with
  | nil => exact ⟨rfl, rfl⟩
  | cons entry rest =>
    exact ⟨auditLog_batch s (entry :: rest) now, writeAudit_handler s id (.batch (entry :: rest)) now⟩

/-- A handler with nothing left to do is about to write nothing. -/
theorem settled_of_handler {connectionId : Nat} (hs : s.Settled id)
    (hhandler : s'.handler = Function.update s.handler connectionId []) : s'.Settled id := by
  intro c edit hmem
  rw [hhandler, Function.update_apply] at hmem
  split at hmem
  · cases hmem
  · exact hs c edit hmem

/-- **A flush writes the buffer.** -/
theorem performs_flushNow (s : HubState) {connection : WorkerConnection}
    (hidle : s.handler connection.connectionId = []) (now : String) :
    Performs env id [.flush] s (s.flushNow env connection id now) := by
  obtain ⟨hlog, hhandler⟩ := flushStreamEvents_spec id s connection.connectionId hidle
  rw [flushNow, drain, hhandler, Function.update_self, Function.update_idem]
  obtain ⟨hlog', hhandler'⟩ := foldl_flushSteps env id
    { s.flushStreamEvents connection.connectionId id with
      handler := Function.update s.handler connection.connectionId [] }
    connection now (s.pendingStreamEvents id)
  refine ⟨hlog'.trans ?_, fun hs => settled_of_handler hs hhandler'⟩
  have hsame : ({ s.flushStreamEvents connection.connectionId id with
      handler := Function.update s.handler connection.connectionId [] } : HubState).auditLog id
      = (s.flushStreamEvents connection.connectionId id).auditLog id := rfl
  rw [hsame, hlog]
  rfl

/-- `_handle_event` keeps an accepted event of its buffer, or flushes and leaves its write to the
handler. -/
theorem handleEvent_eq (s : HubState) (connection : WorkerConnection) (message event : PyDict) :
    s.orSame (s.handleEvent env connection message event)
      = match s.acceptedData env connection message with
        | none => s
        | some data =>
          let taskId := message.textOf env.txt "task_id"
          if message.textOf env.txt "event_type" ∈ streamPersistEvents then { s with
            pendingStreamEvents := Function.update s.pendingStreamEvents taskId
              (s.pendingStreamEvents taskId ++ [(event, data)]) }
          else
            let s := s.flushStreamEvents connection.connectionId taskId
            { s with
              handler := Function.update s.handler connection.connectionId
                (s.handler connection.connectionId ++ [.audit taskId (.append event data)]) } := by
  simp only [handleEvent, acceptedData]
  cases s.assignedTask connection (message.textOf env.txt "task_id") with
  | error e => rfl
  | ok task =>
    simp only []
    by_cases hpublic : isPublicEventType (message.textOf env.txt "event_type") = true
    · by_cases hknown : message.textOf env.txt "event_type" ∈ publicWorkerEvents
      · simp only [hpublic, hknown, Bool.not_true, Bool.false_eq_true, not_true_eq_false, or_self,
          if_false]
        generalize message.getD "data" (.dict []) = value
        cases value with
        | dict data =>
          by_cases hcancel : task.status = .cancelRequested
          · simp only [hcancel, if_true, orSame]
          by_cases hstream : message.textOf env.txt "event_type" ∈ streamPersistEvents
          · simp only [hcancel, orSame, hstream, true_or, if_true, if_false]
          by_cases haudited : message.textOf env.txt "event_type" ∈ auditedEvents
          · simp only [hcancel, orSame, haudited, or_true, if_true, hstream, if_false]
          · simp only [hcancel, orSame, hstream, haudited, or_self, if_false]
        | _ => rfl
      · simp only [hpublic, hknown, Bool.not_true, Bool.false_eq_true, not_false_eq_true, or_true,
          if_false, if_true, orSame]
    · have hpublic' : isPublicEventType (message.textOf env.txt "event_type") = false :=
        Bool.not_eq_true _ ▸ hpublic
      simp only [hpublic', Bool.not_false, true_or, if_true, orSame]

/-- What `_handle_event` does to the log of its task. -/
def eventOps (env : HubEnv) (s : HubState) (connection : WorkerConnection)
    (message event : PyDict) : List (Op (PyDict × PyDict)) :=
  match s.acceptedData env connection message with
  | none => []
  | some data =>
    if message.textOf env.txt "event_type" ∈ streamPersistEvents then [.enqueue (event, data)]
    else [.writeThrough (event, data)]

/-- **An event of a task is kept, or written behind the buffer.** -/
theorem performs_handleEventNow (s : HubState) {connection : WorkerConnection}
    {message event : PyDict} (hidle : s.handler connection.connectionId = [])
    (hid : message.textOf env.txt "task_id" = id) (now : String) :
    Performs env id (s.eventOps env connection message event) s
      (s.handleEventNow env connection message event now) := by
  rw [handleEventNow, handleEvent_eq, eventOps]
  cases hdata : s.acceptedData env connection message with
  | none =>
    show Performs env id [] s (s.drain env connection now)
    rw [drain, hidle]
    have hpop : SameAudit id s { s with
        handler := Function.update s.handler connection.connectionId [] } :=
      sameAudit_pop s connection.connectionId fun step hstep => (by cases hstep)
    exact hpop.performs
  | some data =>
    simp only [hid]
    split
    · rw [drain]
      simp only [hidle, List.foldl_nil]
      refine ⟨?_, fun hs => settled_of_handler hs rfl⟩
      simp only [auditLog, Function.update_self]
      rfl
    · obtain ⟨hlog, hhandler⟩ := flushStreamEvents_spec id s connection.connectionId hidle
      rw [drain]
      simp only [hhandler, Function.update_self, Function.update_idem, List.foldl_append,
        List.foldl_cons, List.foldl_nil, runHandlerStep]
      obtain ⟨hlog', hhandler'⟩ := foldl_flushSteps env id
        { s.flushStreamEvents connection.connectionId id with
          handler := Function.update s.handler connection.connectionId [] }
        connection now (s.pendingStreamEvents id)
      refine ⟨?_, fun hs => settled_of_handler hs ((writeAudit_handler _ _ _ _).trans hhandler')⟩
      rw [auditLog_append, hlog']
      have hsame : ({ s.flushStreamEvents connection.connectionId id with
          handler := Function.update s.handler connection.connectionId [] } : HubState).auditLog id
          = (s.flushStreamEvents connection.connectionId id).auditLog id := rfl
      rw [hsame, hlog]
      rfl

theorem sameAudit_foldl {connection : WorkerConnection} {now : String} :
    ∀ (steps : List HandlerStep) (s : HubState),
      (∀ step ∈ steps, ∀ edit, step ≠ .audit id edit) →
        SameAudit id s (steps.foldl (runHandlerStep env connection now) s)
  | [], s, _ => .refl s
  | step :: steps, s, h =>
    (sameAudit_runHandlerStep env (h step List.mem_cons_self) s connection now).trans
      (sameAudit_foldl steps _ fun step' hmem => h step' (List.mem_cons_of_mem _ hmem))

/-- A handler on another task's message, to its end. -/
theorem sameAudit_drain (s : HubState) {connection : WorkerConnection}
    (h : ∀ edit, .audit id edit ∉ s.handler connection.connectionId) (now : String) :
    SameAudit id s (s.drain env connection now) := by
  have hpop : SameAudit id s { s with
      handler := Function.update s.handler connection.connectionId [] } :=
    sameAudit_pop s connection.connectionId fun step hstep => (by cases hstep)
  refine hpop.trans (sameAudit_foldl _ _ ?_)
  rintro step hmem edit rfl
  exact h edit hmem

/-- Another task's event, to its end. -/
theorem sameAudit_handleEventNow (s : HubState) {connection : WorkerConnection}
    {message event : PyDict} (hidle : s.handler connection.connectionId = [])
    (ht : message.textOf env.txt "task_id" ≠ id) (now : String) :
    SameAudit id s (s.handleEventNow env connection message event now) := by
  have hevent : SameAudit id s (s.orSame (s.handleEvent env connection message event)) :=
    sameAudit_handleEvent ht s
  refine hevent.trans (sameAudit_drain _ (fun edit hmem => ?_) now)
  have hold := hevent.queued _ edit hmem
  rw [hidle] at hold
  cases hold

/-- Another task's flush, to its end. -/
theorem sameAudit_flushNow (s : HubState) {connection : WorkerConnection} {t : String}
    (hidle : s.handler connection.connectionId = []) (ht : t ≠ id) (now : String) :
    SameAudit id s (s.flushNow env connection t now) := by
  have hflush := sameAudit_flushStreamEvents ht s connection.connectionId
  refine hflush.trans (sameAudit_drain _ (fun edit hmem => ?_) now)
  have hold := hflush.queued _ edit hmem
  rw [hidle] at hold
  cases hold

/-- **Each action performs its operations on the log**, and they accept what the action accepts. -/
theorem streamNext_performs (hstored : (s.tasks id).isSome) (hsettled : s.Settled id)
    {action : StreamAction} (h : streamNext env id s action = some s') :
    ∃ ops, Performs env id ops s s' ∧ ops.flatMap Op.accepted = s.acceptedBy env id action := by
  cases action with
  | event connection message event now =>
    simp only [streamNext] at h
    split at h
    · next hidle =>
      rw [← Option.some.inj h]
      by_cases hid : message.textOf env.txt "task_id" = id
      · refine ⟨_, performs_handleEventNow s hidle hid now, ?_⟩
        rw [acceptedBy, if_pos hid, eventOps]
        cases s.acceptedData env connection message with
        | none => rfl
        | some data =>
          simp only []
          split <;> rfl
      · refine ⟨[], (sameAudit_handleEventNow s hidle hid now).performs, ?_⟩
        rw [acceptedBy, if_neg hid]
        rfl
    · cases h
  | flush connection now =>
    simp only [streamNext] at h
    split at h
    · next hidle =>
      rw [← Option.some.inj h]
      exact ⟨[.flush], performs_flushNow s hidle now, rfl⟩
    · cases h
  | other action =>
    simp only [streamNext] at h
    split at h
    · cases h
    · next hother =>
      obtain ⟨hnext, -⟩ := Option.filter_eq_some_iff.mp h
      exact ⟨[], (sameAudit_next hstored hsettled hother hnext).performs, rfl⟩

/-- **The stream of a task.** Whatever else the hub does, the audit list with the buffer appended is
the one of immediate appends. -/
theorem stream_performs {u : HubState} {ms : List (Move HubState StreamAction)}
    (hstored : (s.tasks id).isSome) (hsettled : s.Settled id)
    (h : Run (StreamStep env id) s ms u) :
    ∃ ops, Performs env id ops s u ∧ ops.flatMap Op.accepted = accepted env id ms := by
  induction h with
  | nil => exact ⟨[], (SameAudit.refl s).performs, rfl⟩
  | @snoc ms t u action hrun hstep ih =>
    obtain ⟨ops, hops, haccepted⟩ := ih
    obtain ⟨ops', hops', haccepted'⟩ :=
      streamNext_performs (hops.stored hstored) (hops.settled hsettled) hstep
    refine ⟨ops ++ ops', hops.trans hops', ?_⟩
    rw [List.flatMap_append, haccepted, haccepted', accepted, accepted, List.flatMap_append]
    simp only [List.flatMap_cons, List.flatMap_nil, List.append_nil]

/-! ## Whole calls are runs of the hub -/

def setHandler (s : HubState) (handler : Nat → List HandlerStep) : HubState :=
  { s with handler := handler }

/-- A step of a handler does not look at the handlers. -/
theorem runHandlerStep_setHandler (s : HubState) (connection : WorkerConnection) (now : String)
    (step : HandlerStep) (handler : Nat → List HandlerStep) :
    runHandlerStep env connection now (s.setHandler handler) step
      = (runHandlerStep env connection now s step).setHandler handler := by
  cases step with
  | audit t edit =>
    cases edit with
    | batch pending => rfl
    | append event data =>
      simp only [runHandlerStep, writeAudit, setHandler]
      cases s.tasks t with
      | none => rfl
      | some task =>
        simp only []
        cases appendRunIndex env.txt now event data task <;> rfl
  | persistApproval t approval =>
    simp only [runHandlerStep, persistApproval, getTask, setHandler]
    cases s.tasks t with
    | none => rfl
    | some task =>
      by_cases hcancel : task.status = .cancelRequested
      · simp only [if_pos hcancel, orSame]
      by_cases hrunning : task.status ≠ .running ∨ task.pendingApproval ≠ none
      · simp only [if_neg hcancel, if_pos hrunning, orSame]
      by_cases htaken : (s.approvals.any fun other =>
          other.approvalId = approval.approvalId) = true
      · simp only [if_neg hcancel, if_neg hrunning, htaken, if_true, orSame]
        rfl
      · simp only [if_neg hcancel, if_neg hrunning, htaken, Bool.false_eq_true, if_false, orSame,
          sendAfterWrites, send, updateTask]
        cases s.connections connection.deviceId <;> rfl

theorem runHandlerStep_handler (s : HubState) (connection : WorkerConnection) (now : String)
    (step : HandlerStep) : (runHandlerStep env connection now s step).handler = s.handler := by
  have h : runHandlerStep env connection now s step
      = (runHandlerStep env connection now s step).setHandler s.handler :=
    runHandlerStep_setHandler s connection now step s.handler
  have hhandler := congrArg HubState.handler h
  exact hhandler

/-- **A handler that goes on to its end takes steps of the hub.** -/
theorem drain_run (connection : WorkerConnection) (now : String) :
    ∀ (steps : List HandlerStep) (s : HubState), s.handler connection.connectionId = steps →
      ∃ ms, Run (HubStep env) s ms (s.drain env connection now)
  | [], s, h => by
    have hself : Function.update s.handler connection.connectionId [] = s.handler := by
      rw [← h, Function.update_eq_self]
    rw [drain, h, hself]
    exact ⟨[], Run.nil⟩
  | step :: rest, s, h => by
    let t := runHandlerStep env connection now
      (s.setHandler (Function.update s.handler connection.connectionId rest)) step
    have hstep : HubStep env s (.handlerStep connection now) t := by
      show s.handlerStep env connection now = some t
      rw [handlerStep, h]
      cases step <;> rfl
    have hhandler : t.handler = Function.update s.handler connection.connectionId rest :=
      runHandlerStep_handler ..
    obtain ⟨ms, hrun⟩ := drain_run connection now rest t (by rw [hhandler, Function.update_self])
    have hset : t.setHandler (Function.update s.handler connection.connectionId [])
        = runHandlerStep env connection now
          (s.setHandler (Function.update s.handler connection.connectionId [])) step :=
      (runHandlerStep_setHandler ..).symm
    have hdrain : t.drain env connection now = s.drain env connection now := by
      rw [drain, drain, h, hhandler, Function.update_self, Function.update_idem, List.foldl_cons]
      exact congrArg (rest.foldl (runHandlerStep env connection now)) hset
    rw [hdrain] at hrun
    exact ⟨_, Run.cons hstep hrun⟩

theorem handleEventNow_run (s : HubState) {connection : WorkerConnection}
    (message event : PyDict) (hidle : s.handler connection.connectionId = []) (now : String) :
    ∃ ms, Run (HubStep env) s ms (s.handleEventNow env connection message event now) := by
  have hstep : HubStep env s (.event connection message event)
      (s.orSame (s.handleEvent env connection message event)) := if_pos hidle
  obtain ⟨ms, hrun⟩ := drain_run connection now _ _ rfl
  exact ⟨_, Run.cons hstep hrun⟩

theorem flushNow_run (s : HubState) {connection : WorkerConnection} (t : String)
    (hidle : s.handler connection.connectionId = []) (now : String) :
    ∃ ms, Run (HubStep env) s ms (s.flushNow env connection t now) := by
  have hstep : HubStep env s (.flush connection t)
      (s.flushStreamEvents connection.connectionId t) := if_pos hidle
  obtain ⟨ms, hrun⟩ := drain_run connection now _ _ rfl
  exact ⟨_, Run.cons hstep hrun⟩

/-- **The stream of a task is a run of the hub.** -/
theorem stream_run {u : HubState} {ms : List (Move HubState StreamAction)}
    (h : Run (StreamStep env id) s ms u) : ∃ ns, Run (HubStep env) s ns u := by
  induction h with
  | nil => exact ⟨[], Run.nil⟩
  | @snoc ms t u action hrun hstep ih =>
    obtain ⟨ns, hbefore⟩ := ih
    have hlast : ∃ ls, Run (HubStep env) t ls u := by
      cases action with
      | event connection message event now =>
        simp only [StreamStep, streamNext] at hstep
        split at hstep
        · next hidle =>
          rw [← Option.some.inj hstep]
          exact handleEventNow_run t message event hidle now
        · cases hstep
      | flush connection now =>
        simp only [StreamStep, streamNext] at hstep
        split at hstep
        · next hidle =>
          rw [← Option.some.inj hstep]
          exact flushNow_run t id hidle now
        · cases hstep
      | other action =>
        simp only [StreamStep, streamNext] at hstep
        split at hstep
        · cases hstep
        · exact ⟨_, Run.single (Option.filter_eq_some_iff.mp hstep).1⟩
    obtain ⟨ls, hlast⟩ := hlast
    exact ⟨_, hbefore.append hlast⟩

/-! ## The ends of a task -/

/-- A flush of a flushed log does nothing. -/
theorem run_flushes {l : Log (Option (List PyDict)) (PyDict × PyDict)} (txt : PyText) (n : Nat) :
    l.run (push txt) (List.replicate (n + 1) .flush) = l.flush (push txt) := by
  induction n generalizing l with
  | zero => rfl
  | succ n ih =>
    have hstep : l.run (push txt) (List.replicate (n + 1 + 1) .flush)
        = (l.flush (push txt)).run (push txt) (List.replicate (n + 1) .flush) := rfl
    rw [hstep, ih, Log.flush_flush]

/-- An accepted terminal message appends its entry. -/
theorem handleTerminal_log {connection : WorkerConnection} {message event : PyDict}
    {sessionMatches : Bool} {now : String} (hid : message.textOf env.txt "task_id" = id)
    (h : s.handleTerminal env connection message event sessionMatches now = .ok s') :
    ∃ task request, s.assignedTask connection id = .ok task ∧
      terminalRequest env task message sessionMatches = .ok request ∧
      s'.auditLog id = { s.auditLog id with
        stored := push env.txt (s.auditLog id).stored (event, terminalData request) } := by
  simp only [handleTerminal, hid] at h
  split at h
  · cases h
  next task hassigned =>
  split at h
  · cases h
  next request hrequest =>
  split at h
  · cases h
  next current hcurrent =>
  split at h
  · cases h
  next task' hterminal =>
  refine ⟨task, request, hassigned, hrequest, ?_⟩
  have hstored : (s.beforeTerminal task id request now).tasks id = some current := by
    simp only [getTask] at hcurrent
    split at hcurrent
    · next hsome => rw [hsome, Except.ok.inj hcurrent]
    · cases hcurrent
  have hbefore : SameAudit id s (s.beforeTerminal task id request now) :=
    sameAudit_beforeTerminal ..
  have hwrite : SameAudit id (s.beforeTerminal task id request now)
      ((s.beforeTerminal task id request now).updateTask id now fun _ => task') := by
    refine sameAudit_updateTask fun old hold _ => ?_
    rw [hstored] at hold
    rw [← Option.some.inj hold]
    exact setTerminal_runIndex hterminal
  have hlog := (hbefore.trans hwrite).log
  rw [← Except.ok.inj h]
  have hrelease : ∀ u : HubState, (u.release id connection.deviceId).auditLog id = u.auditLog id :=
    fun _ => rfl
  rw [hrelease]
  refine (auditLog_append ..).trans ?_
  rw [hlog]
  rfl

theorem failTask_handler (s : HubState) (t reason : String) (status : TaskStatus) (now : String) :
    (s.failTask env t reason status now).handler = s.handler := by
  rw [failTask]
  split
  · rfl
  split
  · rfl
  simp only
  split <;> rfl

theorem flushNow_handler (s : HubState) {connection : WorkerConnection} (t : String)
    (hidle : s.handler connection.connectionId = []) (now : String) :
    (s.flushNow env connection t now).handler connection.connectionId = [] := by
  obtain ⟨-, hhandler⟩ := flushStreamEvents_spec t s connection.connectionId hidle
  rw [flushNow, drain, hhandler, Function.update_self, Function.update_idem,
    (foldl_flushSteps env t _ connection now _).2]
  exact Function.update_self ..

/-- `disconnect` writes the buffer of each task it fails. -/
theorem performs_endTask_flush (s : HubState) {connection : WorkerConnection}
    (hidle : s.handler connection.connectionId = []) (reason now t : String)
    (status : TaskStatus) :
    Performs env id (if t = id then [.flush] else []) s
      (endTask env (some connection) reason status now s t) := by
  have hfail : ∀ u : HubState, SameAudit id u
      ({ u with failing := u.failing.erase (t, reason, status) }.failTask env t reason status
        now) := by
    intro u
    have herase : SameAudit id u { u with failing := u.failing.erase (t, reason, status) } :=
      .of_eq rfl rfl rfl
    exact herase.trans (sameAudit_failTask _ t reason status now)
  by_cases ht : t = id
  · subst ht
    rw [if_pos rfl]
    exact (performs_flushNow s hidle now).trans (hfail _).performs
  · rw [if_neg ht]
    exact ((sameAudit_flushNow s hidle ht now).trans (hfail _)).performs

/-- The other two do not. -/
theorem sameAudit_endTask (s : HubState) (reason now t : String) (status : TaskStatus) :
    SameAudit id s (endTask env none reason status now s t) := by
  have herase : SameAudit id s { s with failing := s.failing.erase (t, reason, status) } :=
    .of_eq rfl rfl rfl
  exact herase.trans (sameAudit_failTask _ t reason status now)

theorem endTask_handler (s : HubState) {connection : WorkerConnection}
    (hidle : s.handler connection.connectionId = []) (reason now t : String)
    (status : TaskStatus) :
    (endTask env (some connection) reason status now s t).handler connection.connectionId = [] := by
  simp only [endTask, failTask_handler]
  exact flushNow_handler s t hidle now

/-- The loop of `disconnect`: one flush for each time the task is in it. -/
theorem performs_disconnect {connection : WorkerConnection} (reason now : String)
    (status : TaskStatus) :
    ∀ (ts : List String) (s : HubState), s.handler connection.connectionId = [] →
      Performs env id (List.replicate (ts.count id) .flush) s
        (ts.foldl (endTask env (some connection) reason status now) s)
  | [], s, _ => (SameAudit.refl s).performs
  | t :: ts, s, hidle => by
    have hhead : Performs env id (if t = id then [.flush] else []) s
        (endTask env (some connection) reason status now s t) :=
      performs_endTask_flush s hidle reason now t status
    have hboth := hhead.trans (performs_disconnect reason now status ts _
      (endTask_handler s hidle reason now t status))
    by_cases ht : t = id
    · rw [if_pos ht] at hboth
      rw [ht, List.count_cons_self, List.replicate_succ]
      rw [ht] at hboth
      exact hboth
    · rw [if_neg ht] at hboth
      rw [List.count_cons_of_ne ht]
      exact hboth

theorem sameAudit_endTasks (reason now : String) (status : TaskStatus) :
    ∀ (ts : List String) (s : HubState),
      SameAudit id s (ts.foldl (endTask env none reason status now) s)
  | [], s => .refl s
  | t :: ts, s =>
    (sameAudit_endTask s reason now t status).trans (sameAudit_endTasks reason now status ts _)

/-- The task is one of those its device loses. -/
theorem mem_active {d : String}
    (hagree : SlotMaps.Agree env.maxConcurrentTasks s.deviceByTask s.activeByDevice)
    (hdevice : s.deviceByTask id = some d) : id ∈ (s.activeByDevice d).getD [] :=
  hagree.mem_getD.mpr hdevice

/-- **A terminal message and a disconnect write the buffer.** -/
theorem endStream_flushes {now : String} {ending : StreamEnd}
    (hagree : SlotMaps.Agree env.maxConcurrentTasks s.deviceByTask s.activeByDevice)
    (hends : s.Ends env id now ending) (hflushes : ending.flushes = true) :
    (s.endStream env now ending).auditLog id
      = { stored := (s.terminalEntry env now ending).foldl (push env.txt)
            ((s.auditLog id).effective (push env.txt))
          buffer := [] } := by
  cases ending with
  | terminal connection message event sessionMatches =>
    obtain ⟨hidle, hid, s', hok⟩ := hends
    have hflush : Performs env id [.flush] s (s.flushNow env connection id now) :=
      performs_flushNow s hidle now
    have hterminal := hok
    simp only [handleTerminalNow, hid] at hterminal
    obtain ⟨task, request, hassigned, hrequest, hlog⟩ := handleTerminal_log hid hterminal
    rw [endStream, hok]
    simp only [orSame, terminalEntry, hid, hassigned, hrequest]
    rw [hlog, hflush.log]
    rfl
  | disconnect connection =>
    obtain ⟨hidle, hdevice, current, hcurrent, hsame⟩ := hends
    have hdrop : SameAudit id s (s.disconnect connection) := by
      rw [disconnect, hcurrent]
      simp only [if_pos hsame]
      exact .of_eq rfl rfl rfl
    have hidle' : (s.disconnect connection).handler connection.connectionId = [] := by
      rw [disconnect, hcurrent]
      simp only [if_pos hsame]
      exact hidle
    have hloop : Performs env id _ _ _ := performs_disconnect "worker_disconnected" now
      .interrupted ((s.activeByDevice connection.deviceId).getD []) _ hidle'
    obtain ⟨n, hn⟩ := Nat.exists_eq_succ_of_ne_zero
      (List.count_pos_iff.mpr (mem_active hagree hdevice)).ne'
    rw [endStream, disconnectNow, hcurrent]
    simp only [if_pos hsame]
    rw [hloop.log, hn, run_flushes, hdrop.log]
    rfl
  | connect connection => cases hflushes
  | revoke deviceId => cases hflushes

/-- **A new connection and a revocation leave the buffer where it is.** -/
theorem endStream_forgets {now : String} {ending : StreamEnd} (hends : s.Ends env id now ending)
    (hflushes : ending.flushes = false) :
    (s.endStream env now ending).auditLog id = s.auditLog id := by
  cases ending with
  | terminal connection message event sessionMatches => cases hflushes
  | disconnect connection => cases hflushes
  | connect connection =>
    obtain ⟨-, previous, hprevious⟩ := hends
    have hdrop : SameAudit id s (s.connect connection) := by
      rw [connect, hprevious]
      exact .of_eq rfl rfl rfl
    rw [endStream, connectNow, hprevious]
    exact (hdrop.trans (sameAudit_endTasks ..)).log
  | revoke deviceId =>
    have hdrop : SameAudit id s (s.revoke deviceId) := .of_eq rfl rfl rfl
    exact (hdrop.trans (sameAudit_endTasks ..)).log

/-- Where there is no terminal message there is no terminal entry. -/
theorem terminalEntry_of_forgets {now : String} {ending : StreamEnd}
    (hflushes : ending.flushes = false) : s.terminalEntry env now ending = [] := by
  cases ending with
  | terminal connection message event sessionMatches => cases hflushes
  | disconnect connection => rfl
  | connect connection => rfl
  | revoke deviceId => rfl

/--
**Deferred persistence is immediate persistence, where the end flushes.**

Any reachable hub, any task of it mapped to a device, and any sequence of event messages for the
task, among any other steps of the hub: at its end, the stored audit list is the one immediate
appends would have made, and no event is dropped, if and only if the task ended by a terminal
message or a disconnect, or its buffer was empty.
-/
theorem stream_persisted_iff {hub u : HubState} {ls : List (Move HubState HubAction)}
    {ms : List (Move HubState StreamAction)} {task : Task} {now : String} {ending : StreamEnd}
    (hhub : hub.Started) (hreached : Run (HubStep env) hub ls s)
    (htask : s.tasks id = some task) (hempty : s.pendingStreamEvents id = [])
    (hsettled : s.Settled id) (h : Run (StreamStep env id) s ms u)
    (hends : u.Ends env id now ending) :
    Persisted env id now task (accepted env id ms ++ u.terminalEntry env now ending)
        (u.endStream env now ending) ↔
      ending.flushes = true ∨ u.pendingStreamEvents id = [] := by
  obtain ⟨ns, hstream⟩ := stream_run h
  have hagree := (accounts_of_run hhub (hreached.append hstream)).agree
  obtain ⟨ops, hops, haccepted⟩ := stream_performs (by rw [htask]; rfl) hsettled h
  -- the audit list with the buffer is the one of immediate appends
  have heffective : (u.auditLog id).effective (push env.txt)
      = some ((accepted env id ms).foldl (auditStep env.txt) task.runIndex) := by
    rw [hops.log, Log.run_effective, haccepted, Log.effective_of_empty hempty, foldl_push]
    simp only [auditLog, htask, Option.map_some]
  have hatonce : some (appendAtOnce env.txt now task
      (accepted env id ms ++ u.terminalEntry env now ending)).runIndex
      = (u.terminalEntry env now ending).foldl (push env.txt)
        ((u.auditLog id).effective (push env.txt)) := by
    rw [heffective, foldl_push, appendAtOnce_runIndex, List.foldl_append]
    rfl
  cases hflushes : ending.flushes with
  | true =>
    have hlog := endStream_flushes hagree hends hflushes
    have hstored := congrArg Log.stored hlog
    rw [← hatonce] at hstored
    have hpersisted := Option.map_eq_some_iff.mp hstored
    exact iff_of_true ⟨hpersisted, congrArg Log.buffer hlog⟩ (Or.inl rfl)
  | false =>
    have hlog := endStream_forgets hends hflushes
    have hbuffer : (u.endStream env now ending).pendingStreamEvents id
        = u.pendingStreamEvents id := congrArg Log.buffer hlog
    constructor
    · intro hpersisted
      exact Or.inr (hbuffer.symm.trans hpersisted.dropped)
    · rintro (hflush | hnone)
      · cases hflush
      have hstored := congrArg Log.stored hlog
      rw [terminalEntry_of_forgets hflushes, List.foldl_nil,
        Log.effective_of_empty hnone] at hatonce
      rw [terminalEntry_of_forgets hflushes]
      rw [← hatonce] at hstored
      exact ⟨Option.map_eq_some_iff.mp hstored, hbuffer.trans hnone⟩

end HubState

/-! ## Two ends of one stream -/

namespace OneTask

/-- The task has started. -/
def start : List HubAction := claim ++ [.writeRunning "task_1" "t1", .sendStart "task_1" true]

def thinking : PyDict :=
  [("task_id", .str "task_1"), ("event_type", .str "assistant.thinking"),
   ("data", .dict [("text", .str "first the tests")])]

/-- One thinking event. -/
def think : List StreamAction :=
  [.event connection thinking [("type", .str "assistant.thinking")] "t2"]

end OneTask

namespace HubState

/-- The hub once the task has started, and the task it stores. -/
theorem exists_started_stream :
    ∃ s ls task, Run (HubStep OneTask.env) OneTask.hub ls s ∧
      execute (next OneTask.env) OneTask.hub OneTask.start = some s ∧
      s.tasks "task_1" = some task ∧ s.pendingStreamEvents "task_1" = [] ∧
      s.Settled "task_1" := by
  obtain ⟨s, hs⟩ : ∃ s, execute (next OneTask.env) OneTask.hub OneTask.start = some s :=
    ⟨_, rfl⟩
  obtain ⟨task, htask⟩ : ∃ task, s.tasks "task_1" = some task := by
    rw [← Option.some.inj hs]
    exact ⟨_, rfl⟩
  refine ⟨s, _, task, Run.of_execute (fun _ _ _ h => h) hs, hs, htask, ?_, ?_⟩
  · rw [← Option.some.inj hs]
    rfl
  · rw [← Option.some.inj hs]
    intro connectionId edit hmem
    cases hmem

/-- A task that ends by a disconnect: its thinking is stored. -/
theorem stream_persisted_disconnect :
    ∃ (u : HubState) (ms : List (Move HubState StreamAction)) (task : Task),
      Persisted OneTask.env "task_1" "t3" task (accepted OneTask.env "task_1" ms)
          (u.endStream OneTask.env "t3" (.disconnect OneTask.connection)) ∧
        accepted OneTask.env "task_1" ms ≠ [] := by
  obtain ⟨s, ls, task, hreached, hs, htask, hempty, hsettled⟩ := exists_started_stream
  obtain ⟨u, hu⟩ : ∃ u, execute (streamNext OneTask.env "task_1") s OneTask.think = some u := by
    rw [← Option.some.inj hs]
    exact ⟨_, rfl⟩
  have hends : u.Ends OneTask.env "task_1" "t3" (.disconnect OneTask.connection) := by
    rw [← Option.some.inj hs] at hu
    rw [← Option.some.inj hu]
    exact ⟨rfl, rfl, _, rfl, rfl⟩
  have hrun : Run (StreamStep OneTask.env "task_1") s _ u := Run.of_execute (fun _ _ _ h => h) hu
  have hpersisted := (stream_persisted_iff OneTask.started hreached htask hempty hsettled hrun
    hends).mpr (Or.inl rfl)
  have hnone : u.terminalEntry OneTask.env "t3" (.disconnect OneTask.connection) = [] := rfl
  rw [hnone, List.append_nil] at hpersisted
  refine ⟨u, _, task, hpersisted, ?_⟩
  rw [← Option.some.inj hs]
  exact List.cons_ne_nil _ _

/-- **A reconnect drops what the Worker was thinking**: the audit list at the end has no entry. -/
theorem stream_lost :
    ∃ s u ls ms task, Run (HubStep OneTask.env) OneTask.hub ls s ∧ OneTask.hub.Started ∧
      s.tasks "task_1" = some task ∧ s.pendingStreamEvents "task_1" = [] ∧ s.Settled "task_1" ∧
      Run (StreamStep OneTask.env "task_1") s ms u ∧
      u.Ends OneTask.env "task_1" "t3" (.connect OneTask.reconnection) ∧
      ¬ ∃ task', (u.endStream OneTask.env "t3" (.connect OneTask.reconnection)).tasks "task_1"
          = some task' ∧
        task'.runIndex = (appendAtOnce OneTask.env.txt "t3" task
          (accepted OneTask.env "task_1" ms)).runIndex := by
  obtain ⟨s, ls, task, hreached, hs, htask, hempty, hsettled⟩ := exists_started_stream
  obtain ⟨u, hu⟩ : ∃ u, execute (streamNext OneTask.env "task_1") s OneTask.think = some u := by
    rw [← Option.some.inj hs]
    exact ⟨_, rfl⟩
  refine ⟨s, u, ls, _, task, hreached, OneTask.started, htask, hempty, hsettled,
    Run.of_execute (fun _ _ _ h => h) hu, ?_, ?_⟩
  · rw [← Option.some.inj hs] at hu
    rw [← Option.some.inj hu]
    exact ⟨rfl, _, rfl⟩
  · rintro ⟨task', htask', hindex⟩
    rw [← Option.some.inj hs] at htask hu hindex
    rw [← Option.some.inj hu] at htask'
    rw [← Option.some.inj htask'] at hindex
    rw [← Option.some.inj htask] at hindex
    cases hindex

end HubState

end ThreadForge

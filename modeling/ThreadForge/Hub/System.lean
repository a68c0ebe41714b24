import ThreadForge.Hub.Slots

/-!
# The worker hub as a concurrent system

Any number of API threads, connection handlers and Workers act on one hub. An action is one lock
region or one repository write made outside the lock; its arguments are what the outside decides
(the message, the clock, the envelope `publish` returned). A region that raises leaves the hub as
it was, except where the source has written before it raised.

## Refinement

`next_slots` maps every step of the hub to a step of the slots, which says all it does to the maps,
the connections and the statuses; `next_refines` reads off it the step of the lifecycle model, which
the laws are proved about.
-/

namespace ThreadForge

open Transition

/-- One step of the hub. -/
inductive HubAction
  | createTask (task : Task)
  | dispatchClaim (task : Task) (session : PyDict)
  | writeRunning (taskId now : String)
  | sendStart (taskId : String) (published : Bool)
  | releaseUnsent (taskId : String)
  | writeFailed (taskId now : String)
  | cancel (taskId now : String)
  | resolveApproval (approvalId decision : String) (expired : Bool) (now : String)
  | event (connection : WorkerConnection) (message event : PyDict)
  | approvalRequested (connection : WorkerConnection) (message : PyDict)
      (approvalId createdAt expiresAt : String)
  | flush (connection : WorkerConnection) (taskId : String)
  | handlerStep (connection : WorkerConnection) (now : String)
  | terminal (connection : WorkerConnection) (message event : PyDict) (sessionMatches : Bool)
      (now : String)
  | connect (connection : WorkerConnection)
  | hello (connectionId : Nat) (workspaces : List String)
  | disconnect (connection : WorkerConnection)
  | revoke (deviceId : String)
  | failTask (index : Nat) (now : String)

namespace HubState

/-- A region that raised changed nothing. -/
def orSame (s : HubState) : Except HubError HubState → HubState
  | .ok s' => s'
  | .error _ => s

def setPhase (s : HubState) (taskId : String) (phase : DispatchPhase) : HubState :=
  { s with dispatching := Function.update s.dispatching taskId phase }

/-- `_terminal` of the task service. -/
def serviceTerminal (now : String) (status : TaskStatus) (stopReason : String)
    (finalAnswer : Option String) (task : Task) : Task :=
  { task with
    status := status
    stopReason := some stopReason
    finalAnswer := finalAnswer
    pendingApproval := none
    updatedAt := now }

/-- What is left of the message a connection's handler is on, one step later. -/
def handlerStep (env : HubEnv) (s : HubState) (connection : WorkerConnection) (now : String) :
    Option HubState :=
  match s.handler connection.connectionId with
  | [] => none
  | step :: rest =>
    let s := { s with handler := Function.update s.handler connection.connectionId rest }
    match step with
    | .audit taskId edit => some (s.writeAudit env taskId edit now)
    | .persistApproval taskId approval =>
      some (s.orSame (s.persistApproval connection taskId approval now))

/-- What `dispatch` compares of a task. -/
def binding (task : Task) : String × String × String :=
  (task.ownerId, task.workspaceId, task.deviceId)

/-- The state after an action, where the action can be taken. `create_task` dispatches the task it
created, and a connection's handler takes a new message only when it is done with the last one. -/
def next (env : HubEnv) (s : HubState) : HubAction → Option HubState
  | .createTask task =>
    if s.dispatching task.taskId = .absent ∧ task.status = .queued then
      some (s.orSame (s.createTask task))
    else none
  | .dispatchClaim task session =>
    if s.dispatching task.taskId = .created ∧
        (s.tasks task.taskId).map binding = some (binding task) then
      match s.dispatchClaim env task session with
      | .ok s' => some (s'.setPhase task.taskId .claimed)
      | .error _ => some (s.setPhase task.taskId .failing)
    else none
  | .writeRunning taskId now =>
    if s.dispatching taskId = .claimed ∧ (s.tasks taskId).isSome then
      some ((s.updateTask taskId now (setStatus now .running)).setPhase taskId .started)
    else none
  | .sendStart taskId published =>
    match s.dispatching taskId, s.tasks taskId with
    | .started, some task =>
      match s.send task.deviceId (.taskStart taskId) with
      | .ok s' => some (if published then s'.setPhase taskId .done else s.setPhase taskId .sendFailed)
      | .error _ => some (s.setPhase taskId .sendFailed)
    | _, _ => none
  | .releaseUnsent taskId =>
    match s.dispatching taskId, s.tasks taskId with
    | .sendFailed, some task => some ((s.release taskId task.deviceId).setPhase taskId .failing)
    | _, _ => none
  | .writeFailed taskId now =>
    if s.dispatching taskId = .failing ∧ (s.tasks taskId).isSome then
      some ((s.updateTask taskId now
        (serviceTerminal now .failed "worker_unavailable" none)).setPhase taskId .done)
    else none
  | .cancel taskId now => some (s.orSame (s.cancel taskId now))
  | .resolveApproval approvalId decision expired now =>
    some (s.orSame (s.resolveApproval approvalId decision expired now))
  | .event connection message event =>
    if s.handler connection.connectionId = [] then
      some (s.orSame (s.handleEvent env connection message event))
    else none
  | .approvalRequested connection message approvalId createdAt expiresAt =>
    if s.handler connection.connectionId = [] then
      match s.approvalOfMessage env connection message approvalId createdAt expiresAt with
      | .ok approval => some { s with
          handler := Function.update s.handler connection.connectionId
            [.persistApproval approval.taskId approval] }
      | .error _ => some s
    else none
  | .flush connection taskId =>
    if s.handler connection.connectionId = [] then
      some (s.flushStreamEvents connection.connectionId taskId)
    else none
  | .handlerStep connection now => s.handlerStep env connection now
  | .terminal connection message event sessionMatches now =>
    if s.handler connection.connectionId = [] then
      some (s.orSame (s.handleTerminal env connection message event sessionMatches now))
    else none
  | .connect connection => some (s.connect connection)
  | .hello connectionId workspaces => some (s.hello connectionId workspaces)
  | .disconnect connection => some (s.disconnect connection)
  | .revoke deviceId => some (s.revoke deviceId)
  | .failTask index now =>
    match s.failing[index]? with
    | some (taskId, reason, status) =>
      some ({ s with failing := s.failing.eraseIdx index }.failTask env taskId reason status now)
    | none => none

/-- What the lifecycle of the tasks sees of the hub. -/
def control (s : HubState) : Control where
  status id := (s.tasks id).map Task.status
  device := s.deviceByTask
  active := s.activeByDevice
  phase := s.dispatching
  failing := s.failing

/-- The device a task was created for, and where it runs. -/
def taskHome (task : Task) : String × String := (task.deviceId, task.executionEnvironment)

/-- What the accounting of the slots sees of the hub. -/
def slots (s : HubState) : Slots where
  control := s.control
  connected d := (s.connections d).isSome
  home id := (s.tasks id).map taskHome

/-- A hub that has just started: nothing mapped and no operation in progress. The repository may
hold tasks of earlier lives. -/
structure Started (s : HubState) : Prop where
  unmapped : ∀ id, s.deviceByTask id = none
  inactive : ∀ d, s.activeByDevice d = none
  settled : ∀ id, s.dispatching id = if (s.tasks id).isSome then .done else .absent
  idle : s.failing = []

end HubState

/-- The write outside the lock an action makes, if it is one. -/
def HubAction.label : HubAction → ControlLabel
  | .writeRunning taskId _ => .runningWrite taskId
  | .writeFailed taskId _ => .failedWrite taskId
  | _ => .locked

/-- What an action is to the slots. -/
def HubAction.slotLabel : HubAction → SlotLabel
  | .writeRunning taskId _ => .runningWrite taskId
  | .writeFailed taskId _ => .failedWrite taskId
  | .sendStart taskId true => .start taskId
  | _ => .locked

namespace HubState

open Control

variable {env : HubEnv}

/-! ## Setters and the control part -/

theorem control_status {s : HubState} {id : String} {task : Task} (h : s.tasks id = some task) :
    s.control.status id = some task.status := by
  show (s.tasks id).map Task.status = some task.status
  rw [h]
  rfl

@[simp] theorem control_setPhase (s : HubState) (id : String) (phase : DispatchPhase) :
    (s.setPhase id phase).control = s.control.setPhase id phase := by
  simp only [control, setPhase, Control.setPhase, Control.mk.injEq, true_and, and_true]
  funext t
  exact Function.update_apply ..

theorem control_updateTask {s : HubState} {id now : String} {fn : Task → Task} {task : Task}
    (h : s.tasks id = some task) :
    (s.updateTask id now fn).control = s.control.setStatus id (fn task).status := by
  simp only [control, updateTask, Control.setStatus, Control.mk.injEq, and_true]
  funext t
  rw [Function.update_apply, h]
  split <;> rfl

/-- An update that keeps the status is not seen by the lifecycle. -/
theorem control_updateTask_same {s : HubState} {id now : String} {fn : Task → Task} {task : Task}
    (h : s.tasks id = some task) (hfn : (fn task).status = task.status) :
    (s.updateTask id now fn).control = s.control := by
  rw [control_updateTask h, hfn]
  exact setStatus_self (control_status h)

@[simp] theorem control_cancelPendingApprovals (s : HubState) (id now decision : String) :
    (s.cancelPendingApprovals id now decision).control = s.control := rfl

@[simp] theorem control_scrub (s : HubState) (sessionId ownerId now : String) :
    (s.scrubLocalTaskContent sessionId ownerId now).control = s.control := by
  simp only [control, scrubLocalTaskContent, Control.mk.injEq, and_true]
  funext t
  cases s.tasks t with
  | none => rfl
  | some task =>
    simp only [Option.map_some]
    split <;> rfl

@[simp] theorem control_writeAudit (s : HubState) (id : String) (edit : AuditEdit) (now : String) :
    (s.writeAudit env id edit now).control = s.control := by
  cases htask : s.tasks id with
  | none =>
    cases edit with
    | append event data => simp only [writeAudit, htask]
    | batch pending =>
      simp only [writeAudit, updateTask, htask, Option.map_none]
      rw [← htask, Function.update_eq_self]
  | some task =>
    cases edit with
    | append event data =>
      simp only [writeAudit, htask]
      split
      · next task' happend =>
        exact control_updateTask_same htask (appendRunIndex_frame happend).status
      · rfl
    | batch pending =>
      exact control_updateTask_same htask (appendPendingStreamEvents_frame now pending task).status

theorem control_dropDevice (s : HubState) (d reason : String) (status : TaskStatus) :
    (s.dropDevice d reason status).control = s.control.dropDevice d reason status := by
  simp only [control, dropDevice, Control.dropDevice, Control.mk.injEq, true_and, and_true]
  refine ⟨rfl, ?_⟩
  funext d'
  exact Function.update_apply ..

theorem control_release (s : HubState) (id d : String) :
    (s.release id d).control = s.control.releaseSlot id d := by
  simp only [control, release, Control.releaseSlot, Control.setActive, Control.setDevice,
    Control.mk.injEq, true_and, and_true]
  constructor
  · funext t
    exact Function.update_apply ..
  · unfold SlotMaps.releaseHeld
    cases s.activeByDevice d <;> rfl

@[simp] theorem control_beforeTerminal (s : HubState) (task : Task) (id : String)
    (request : TerminalRequest) (now : String) :
    (s.beforeTerminal task id request now).control = s.control := by
  simp only [beforeTerminal, control_cancelPendingApprovals]
  split
  · exact control_scrub ..
  · rfl

/-! ## The connections and the homes of the tasks -/

/-- The same connections, and the same tasks under other statuses and texts. -/
structure SameBase (s s' : HubState) : Prop where
  connections : s'.connections = s.connections
  homes : ∀ id, (s'.tasks id).map taskHome = (s.tasks id).map taskHome

theorem SameBase.of_eq {s s' : HubState} (hconnections : s'.connections = s.connections)
    (htasks : s'.tasks = s.tasks) : SameBase s s' :=
  ⟨hconnections, fun _ => by rw [htasks]⟩

theorem SameBase.refl (s : HubState) : SameBase s s := .of_eq rfl rfl

theorem SameBase.trans {s t u : HubState} (h : SameBase s t) (h' : SameBase t u) : SameBase s u :=
  ⟨h'.connections.trans h.connections, fun id => (h'.homes id).trans (h.homes id)⟩

theorem sameBase_updateTask {s : HubState} {id now : String} {fn : Task → Task}
    (hfn : ∀ task, s.tasks id = some task → taskHome (fn task) = taskHome task) :
    SameBase s (s.updateTask id now fn) := by
  refine ⟨rfl, fun t => ?_⟩
  simp only [updateTask, Function.update_apply]
  split
  · next ht =>
    rw [ht]
    cases htask : s.tasks id with
    | none => rfl
    | some task => exact congrArg some (hfn task htask)
  · rfl

theorem sameBase_scrub (s : HubState) (sessionId ownerId now : String) :
    SameBase s (s.scrubLocalTaskContent sessionId ownerId now) := by
  refine ⟨rfl, fun id => ?_⟩
  simp only [scrubLocalTaskContent]
  cases s.tasks id with
  | none => rfl
  | some task =>
    simp only [Option.map_some]
    split <;> rfl

theorem auditFrame_home {task task' : Task} (h : AuditFrame task task') :
    taskHome task' = taskHome task := by rw [h]; rfl

theorem sameBase_writeAudit (s : HubState) (id : String) (edit : AuditEdit) (now : String) :
    SameBase s (s.writeAudit env id edit now) := by
  cases edit with
  | append event data =>
    rw [writeAudit]
    split
    · exact .refl s
    next task htask =>
    split
    · next task' happend =>
      refine sameBase_updateTask fun old hold => ?_
      rw [htask] at hold
      rw [← Option.some.inj hold]
      exact auditFrame_home (appendRunIndex_frame happend)
    · exact .refl s
  | batch pending =>
    exact sameBase_updateTask fun task _ =>
      auditFrame_home (appendPendingStreamEvents_frame now pending task)

theorem sameBase_beforeTerminal (s : HubState) (task : Task) (id : String)
    (request : TerminalRequest) (now : String) :
    SameBase s (s.beforeTerminal task id request now) := by
  simp only [beforeTerminal]
  split
  · exact (sameBase_scrub s _ _ _).trans (.of_eq rfl rfl)
  · exact .of_eq rfl rfl

/-! ## Steps the accounting does not see -/

theorem slots_of {s s' : HubState} {c : Control} (hcontrol : s'.control = c)
    (hbase : SameBase s s') : s'.slots = s.slots.withControl c := by
  simp only [slots, Slots.withControl, Slots.mk.injEq]
  exact ⟨hcontrol, by rw [hbase.connections], funext hbase.homes⟩

theorem slots_keep {s s' : HubState} (hcontrol : s'.control = s.control)
    (hbase : SameBase s s') : s'.slots = s.slots := slots_of hcontrol hbase

@[simp] theorem slots_cancelPendingApprovals (s : HubState) (id now decision : String) :
    (s.cancelPendingApprovals id now decision).slots = s.slots := rfl

@[simp] theorem slots_setPhase (s : HubState) (id : String) (phase : DispatchPhase) :
    (s.setPhase id phase).slots = s.slots.withControl (s.control.setPhase id phase) :=
  slots_of (control_setPhase ..) (.of_eq rfl rfl)

theorem slots_updateTask {s : HubState} {id : String} (now : String) (fn : Task → Task)
    {task : Task} (h : s.tasks id = some task) (hfn : taskHome (fn task) = taskHome task) :
    (s.updateTask id now fn).slots
      = s.slots.withControl (s.control.setStatus id (fn task).status) := by
  refine slots_of (control_updateTask h) (sameBase_updateTask fun old hold => ?_)
  rw [h] at hold
  rw [← Option.some.inj hold]
  exact hfn

theorem slots_send {s s' : HubState} {d : String} {message : HubMessage}
    (h : s.send d message = .ok s') : s'.slots = s.slots ∧ (s.connections d).isSome := by
  rw [send] at h
  split at h
  · next hsome =>
    rw [← Except.ok.inj h, hsome]
    exact ⟨rfl, rfl⟩
  · cases h

@[simp] theorem slots_sendAfterWrites (s : HubState) (d : String) (message : HubMessage) :
    (s.sendAfterWrites d message).slots = s.slots := by
  rw [sendAfterWrites]
  split
  · next h => exact (slots_send h).1
  · rfl

@[simp] theorem slots_flushStreamEvents (s : HubState) (connectionId : Nat) (id : String) :
    (s.flushStreamEvents connectionId id).slots = s.slots := by
  rw [flushStreamEvents]
  split <;> rfl

@[simp] theorem slots_writeAudit (s : HubState) (id : String) (edit : AuditEdit) (now : String) :
    (s.writeAudit env id edit now).slots = s.slots :=
  slots_keep (control_writeAudit ..) (sameBase_writeAudit ..)

@[simp] theorem slots_beforeTerminal (s : HubState) (task : Task) (id : String)
    (request : TerminalRequest) (now : String) :
    (s.beforeTerminal task id request now).slots = s.slots :=
  slots_keep (control_beforeTerminal ..) (sameBase_beforeTerminal ..)

theorem slots_release (s : HubState) (id d : String) :
    (s.release id d).slots = s.slots.withControl (s.control.releaseSlot id d) :=
  slots_of (control_release ..) (.of_eq rfl rfl)

theorem slots_home {s : HubState} {id : String} {task : Task} (h : s.tasks id = some task) :
    s.slots.home id = some (task.deviceId, task.executionEnvironment) := by
  show (s.tasks id).map taskHome = _
  rw [h]
  rfl

/-! ## Each operation is a step of the slots -/

theorem slotStep_createTask {s : HubState} {task : Task}
    (hphase : s.dispatching task.taskId = .absent) (hqueued : task.status = .queued) :
    SlotStep env.maxConcurrentTasks s.slots .locked (s.orSame (s.createTask task)).slots := by
  simp only [createTask]
  split
  · exact SlotStep.idle
  · next hnone =>
    have hslots : ({ s with
          tasks := Function.update s.tasks task.taskId (some { task with input := "" })
          dispatching := Function.update s.dispatching task.taskId .created } : HubState).slots
        = { s.slots with
          control := (s.control.setStatus task.taskId .queued).setPhase task.taskId .created
          home := fun t => if t = task.taskId then some (taskHome task) else s.slots.home t } := by
      simp only [slots, control, Control.setStatus, Control.setPhase, Slots.mk.injEq,
        Control.mk.injEq, true_and, and_true]
      refine ⟨⟨?_, ?_⟩, ?_⟩
      · funext t
        rw [Function.update_apply]
        split
        · rw [Option.map_some, hqueued]
        · rfl
      · funext t
        exact Function.update_apply ..
      · funext t
        rw [Function.update_apply]
        split <;> rfl
    simp only [orSame, hslots]
    exact SlotStep.create hphase (by simp [slots, control, hnone])

theorem slotStep_dispatchClaim {s s' : HubState} {task : Task} {session : PyDict}
    (hphase : s.dispatching task.taskId = .created)
    (hbinding : (s.tasks task.taskId).map binding = some (binding task))
    (h : s.dispatchClaim env task session = .ok s') :
    SlotStep env.maxConcurrentTasks s.slots .locked (s'.setPhase task.taskId .claimed).slots := by
  simp only [dispatchClaim] at h
  split at h
  · cases h
  next connection hconnection =>
  split at h
  · cases h
  split at h
  · cases h
  split at h
  · cases h
  next hslot =>
  obtain ⟨stored, hstored, hsame⟩ := Option.map_eq_some_iff.mp hbinding
  have hdevice : stored.deviceId = task.deviceId := congrArg (fun b => b.2.2) hsame
  have hhome := slots_home hstored
  rw [hdevice] at hhome
  rw [← Except.ok.inj h, slots_setPhase]
  have hcontrol : ({ s with
        activeByDevice := Function.update s.activeByDevice task.deviceId
          (some (addActive ((s.activeByDevice task.deviceId).getD []) task.taskId))
        deviceByTask := Function.update s.deviceByTask task.taskId (some task.deviceId) }
          : HubState).control
      = s.control.claimSlot task.taskId task.deviceId := by
    simp only [control, Control.claimSlot, Control.setActive, Control.setDevice,
      Control.mk.injEq, true_and, and_true]
    funext t
    exact Function.update_apply ..
  rw [hcontrol]
  refine SlotStep.claim hphase hhome ?_ (not_le.mp hslot)
  show (s.connections task.deviceId).isSome = true
  rw [hconnection]
  rfl

theorem slotStep_cancel (s : HubState) (id now : String) :
    SlotStep env.maxConcurrentTasks s.slots .locked (s.orSame (s.cancel id now)).slots := by
  simp only [cancel, getTask]
  cases hdevice : s.deviceByTask id with
  | none => exact SlotStep.idle
  | some d =>
    cases htask : s.tasks id with
    | none => exact SlotStep.idle
    | some task =>
      simp only []
      split
      · simp only [orSame, slots_sendAfterWrites]
        exact SlotStep.idle
      · next hlive =>
        have htask' : (s.cancelPendingApprovals id now "cancelled").tasks id = some task := htask
        simp only [orSame, slots_sendAfterWrites, slots_updateTask now (setCancelRequested now) htask' rfl]
        exact SlotStep.cancel hdevice (control_status htask) (Bool.not_eq_true _ ▸ hlive)

theorem slotStep_resolveApproval (s : HubState) (approvalId decision : String) (expired : Bool)
    (now : String) : SlotStep env.maxConcurrentTasks s.slots .locked
      (s.orSame (s.resolveApproval approvalId decision expired now)).slots := by
  simp only [resolveApproval]
  split
  · exact SlotStep.idle
  next approval _ =>
  split
  · split <;> exact SlotStep.idle
  split
  · exact SlotStep.idle
  split
  · exact SlotStep.idle
  split
  · exact SlotStep.idle
  split
  · exact SlotStep.idle
  cases htask : s.tasks approval.taskId with
  | none =>
    simp only [getTask, htask]
    exact SlotStep.idle
  | some task =>
    simp only [getTask, htask]
    split
    · exact SlotStep.idle
    · next hwaiting =>
      have htask' : ∀ fn, (s.updateApproval approvalId fn).tasks approval.taskId = some task :=
        fun _ => htask
      simp only [orSame, slots_sendAfterWrites, slots_updateTask now (clearApproval now) (htask' _) rfl]
      exact SlotStep.approval (control_status htask) (Or.inr ⟨not_not.mp hwaiting, rfl⟩)

theorem slotStep_persistApproval (s : HubState) (connection : WorkerConnection) (id : String)
    (approval : Approval) (now : String) : SlotStep env.maxConcurrentTasks s.slots .locked
      (s.orSame (s.persistApproval connection id approval now)).slots := by
  simp only [persistApproval, getTask]
  cases htask : s.tasks id with
  | none => exact SlotStep.idle
  | some current =>
    simp only []
    split
    · exact SlotStep.idle
    split
    · exact SlotStep.idle
    next hrunning =>
    have hstatus : current.status = .running := not_not.mp (not_or.mp hrunning).1
    split
    · have hkeep : (s.updateTask id now fun task =>
          clearApproval now (setPendingApproval now approval task)).slots = s.slots :=
        slots_keep (control_updateTask_same htask hstatus.symm) (sameBase_updateTask fun _ _ => rfl)
      rw [orSame, hkeep]
      exact SlotStep.idle
    · simp only [orSame, slots_sendAfterWrites]
      rw [show ({ s.updateTask id now (setPendingApproval now approval) with
            approvals := (s.updateTask id now (setPendingApproval now approval)).approvals ++
              [approval] } : HubState).slots
          = (s.updateTask id now (setPendingApproval now approval)).slots from rfl,
        slots_updateTask now (setPendingApproval now approval) htask rfl]
      exact SlotStep.approval (control_status htask) (Or.inl ⟨hstatus, rfl⟩)

theorem terminalStatusOfText_terminal {text : String} {status : TaskStatus}
    (h : terminalStatusOfText text = .ok status) : status.terminal = true := by
  simp only [terminalStatusOfText] at h
  split at h
  · next status' hlookup =>
    rw [← Except.ok.inj h]
    simp only [List.lookup_cons, List.lookup_nil] at hlookup
    repeat' split at hlookup
    all_goals first | (cases hlookup; rfl) | cases hlookup
  · cases h

/-- A terminal request names a terminal status. -/
theorem terminalRequest_terminal {task : Task} {message : PyDict} {sessionMatches : Bool}
    {request : TerminalRequest}
    (h : terminalRequest env task message sessionMatches = .ok request) :
    request.status.terminal = true := by
  simp only [terminalRequest] at h
  obtain ⟨status, hstatus, h⟩ := Except.bind_eq_ok h
  obtain ⟨_, -, h⟩ := Except.bind_eq_ok h
  obtain ⟨persisted, -, h⟩ := Except.bind_eq_ok h
  split at h
  · cases h
  split at h
  · cases h
  rw [← Except.ok.inj h]
  show TaskStatus.terminal (if _ then _ else _) = true
  split
  · rfl
  · exact terminalStatusOfText_terminal hstatus

theorem setTerminal_status {now : String} {status : TaskStatus} {stopReason finalAnswer : String}
    {error : PyDict} {task task' : Task}
    (h : setTerminal env.txt now status stopReason finalAnswer error task = .ok task') :
    task'.status = status := by
  simp only [setTerminal, bind, Except.bind, pure, Except.pure] at h
  split at h
  · cases h
  · rw [← Except.ok.inj h]

/-- Where a task is assigned, it is mapped to the connection's device and stored. -/
theorem assignedTask_ok {s : HubState} {connection : WorkerConnection} {id : String} {task : Task}
    (h : s.assignedTask connection id = .ok task) :
    s.deviceByTask id = some connection.deviceId ∧ s.tasks id = some task ∧
      task.ownerId = connection.ownerId := by
  simp only [assignedTask, getTask] at h
  split at h
  · cases h
  next hdevice =>
  split at h
  · cases h
  next task' htask =>
  split at h
  · cases h
  next howner =>
  rw [← Except.ok.inj h]
  refine ⟨not_not.mp hdevice, ?_, not_not.mp howner⟩
  split at htask
  · next hsome => rw [hsome, Except.ok.inj htask]
  · cases htask

/-- Ending a task keeps where it runs. -/
theorem setTerminal_home {now : String} {status : TaskStatus} {stopReason finalAnswer : String}
    {error : PyDict} {task task' : Task}
    (h : setTerminal env.txt now status stopReason finalAnswer error task = .ok task') :
    taskHome task' = taskHome task := by
  simp only [setTerminal, bind, Except.bind, pure, Except.pure] at h
  split at h
  · cases h
  · rw [← Except.ok.inj h]
    rfl

theorem slotStep_handleTerminal (s : HubState) (connection : WorkerConnection)
    (message event : PyDict) (sessionMatches : Bool) (now : String) :
    SlotStep env.maxConcurrentTasks s.slots .locked
      (s.orSame (s.handleTerminal env connection message event sessionMatches now)).slots := by
  simp only [handleTerminal]
  split
  · exact SlotStep.idle
  next task hassigned =>
  split
  · exact SlotStep.idle
  next request hrequest =>
  split
  · exact SlotStep.idle
  next current hcurrent =>
  split
  · exact SlotStep.idle
  next task' hterminal =>
  obtain ⟨hdevice, htask, -⟩ := assignedTask_ok hassigned
  have hstored : (s.beforeTerminal task (message.textOf env.txt "task_id") request now).tasks
      (message.textOf env.txt "task_id") = some current := by
    simp only [getTask] at hcurrent
    split at hcurrent
    · next hsome => rw [hsome, Except.ok.inj hcurrent]
    · cases hcurrent
  have hwritten : ((s.beforeTerminal task (message.textOf env.txt "task_id") request
      now).updateTask (message.textOf env.txt "task_id") now fun _ => task').slots
      = s.slots.withControl
        (s.control.setStatus (message.textOf env.txt "task_id") request.status) := by
    rw [slots_updateTask _ _ hstored (setTerminal_home hterminal), slots_beforeTerminal,
      control_beforeTerminal, setTerminal_status hterminal]
  have hcontrol := congrArg Slots.control hwritten
  rw [orSame, slots_release, slots_writeAudit, control_writeAudit]
  rw [hwritten, show HubState.control _ = _ from hcontrol]
  exact SlotStep.terminal hdevice (control_status htask) (terminalRequest_terminal hrequest)

/-- Failing a task cannot go wrong: there is no error to read. -/
theorem setTerminal_no_error (env : HubEnv) (now : String) (status : TaskStatus) (reason : String) (task : Task) :
    ∃ task', setTerminal env.txt now status reason "" [] task = .ok task' := ⟨_, rfl⟩

theorem slotStep_failTask {s : HubState} {index : Nat} {id reason now : String}
    {status : TaskStatus} (hentry : s.failing[index]? = some (id, reason, status)) :
    SlotStep env.maxConcurrentTasks s.slots .locked
      ({ s with failing := s.failing.eraseIdx index }.failTask env id reason status now).slots := by
  have herase : ({ s with failing := s.failing.eraseIdx index } : HubState).slots
      = s.slots.withControl (s.control.setFailing (s.control.failing.eraseIdx index)) := rfl
  simp only [failTask]
  cases htask : s.tasks id with
  | none =>
    refine SlotStep.forget hentry fun old hold => ?_
    have hnone : (s.tasks id).map Task.status = some old := hold
    rw [htask] at hnone
    cases hnone
  | some task =>
    simp only []
    split
    · next hended =>
      refine SlotStep.forget hentry fun old hold => ?_
      rw [show s.slots.control.status id = _ from control_status htask] at hold
      rw [← Option.some.inj hold]
      exact hended
    · next hlive =>
      split
      · next task' hterminal =>
        have hfound : ({ s with failing := s.failing.eraseIdx index }.cancelPendingApprovals
            id now reason).tasks id = some task := htask
        rw [slots_updateTask _ _ hfound (setTerminal_home hterminal), setTerminal_status hterminal]
        exact SlotStep.fail hentry (control_status htask) (Bool.not_eq_true _ ▸ hlive)
      · next herror =>
        obtain ⟨task', hok⟩ := setTerminal_no_error env now status reason task
        rw [hok] at herror
        cases herror

theorem slots_handleEvent (s : HubState) (connection : WorkerConnection)
    (message event : PyDict) :
    (s.orSame (s.handleEvent env connection message event)).slots = s.slots := by
  simp only [handleEvent]
  split
  · rfl
  split
  · rfl
  split
  · rfl
  split
  · split
    · rfl
    split
    · rfl
    split
    · exact slots_flushStreamEvents s _ _
    · rfl
  · rfl

theorem slotStep_handlerStep {s s' : HubState} {connection : WorkerConnection} {now : String}
    (h : s.handlerStep env connection now = some s') :
    SlotStep env.maxConcurrentTasks s.slots .locked s'.slots := by
  simp only [handlerStep] at h
  split at h
  · cases h
  next step rest _ =>
  cases step with
  | audit id edit =>
    rw [← Option.some.inj h, slots_writeAudit]
    exact SlotStep.idle
  | persistApproval id approval =>
    rw [← Option.some.inj h]
    exact slotStep_persistApproval
      { s with handler := Function.update s.handler connection.connectionId rest } connection id
      approval now

/-- A device gets a connection, or loses it, and its tasks with it. -/
theorem slots_dropDevice (s : HubState) (d reason : String) (status : TaskStatus)
    (connection : Option WorkerConnection) :
    ({ s with connections := Function.update s.connections d connection }.dropDevice d reason
      status).slots
      = (s.slots.withControl (s.control.dropDevice d reason status)).setConnected d
        connection.isSome := by
  have hcontrol := control_dropDevice
    { s with connections := Function.update s.connections d connection } d reason status
  simp only [slots, hcontrol, Slots.withControl, Slots.setConnected, Slots.mk.injEq]
  refine ⟨rfl, funext fun d' => ?_, rfl⟩
  show (Function.update s.connections d connection d').isSome = _
  rw [Function.update_apply]
  split <;> rfl

theorem slotStep_connect (s : HubState) (connection : WorkerConnection) :
    SlotStep env.maxConcurrentTasks s.slots .locked (s.connect connection).slots := by
  simp only [connect]
  split
  · have hjoin : ({ s with
        connections := Function.update s.connections connection.deviceId (some connection)
          } : HubState).slots = s.slots.setConnected connection.deviceId true := by
      simp only [slots, Slots.setConnected, Slots.mk.injEq, and_true]
      refine ⟨rfl, funext fun d' => ?_⟩
      rw [Function.update_apply]
      split <;> rfl
    rw [hjoin]
    exact SlotStep.join
  · rw [slots_dropDevice]
    exact SlotStep.drop rfl

theorem slotStep_disconnect (s : HubState) (connection : WorkerConnection) :
    SlotStep env.maxConcurrentTasks s.slots .locked (s.disconnect connection).slots := by
  simp only [disconnect]
  split
  · exact SlotStep.idle
  split
  · rw [slots_dropDevice]
    exact SlotStep.drop rfl
  · exact SlotStep.idle

theorem slots_hello (s : HubState) (connectionId : Nat) (workspaces : List String) :
    (s.hello connectionId workspaces).slots = s.slots := by
  simp only [slots, hello, Slots.mk.injEq, and_true]
  refine ⟨rfl, funext fun d => ?_⟩
  cases s.connections d <;> rfl

theorem slotStep_sendStart {s s' : HubState} {id : String} {published : Bool}
    (h : next env s (.sendStart id published) = some s') :
    SlotStep env.maxConcurrentTasks s.slots (HubAction.sendStart id published).slotLabel
      s'.slots := by
  simp only [next] at h
  split at h
  · next task hstarted htask =>
    have hhome := slots_home htask
    cases published with
    | false =>
      have hunsent : s'.slots = s.slots.withControl (s.control.setPhase id .sendFailed) := by
        split at h <;> (rw [← Option.some.inj h]; exact slots_setPhase ..)
      rw [hunsent]
      exact SlotStep.unpublished hstarted
    | true =>
      split at h
      · next s₁ hsend =>
        obtain ⟨hslots, hup⟩ := slots_send hsend
        rw [← Option.some.inj h, if_pos rfl, slots_setPhase, hslots,
          show s₁.control = s.control from congrArg Slots.control hslots]
        exact SlotStep.sent hstarted hhome hup
      · next herror =>
        rw [← Option.some.inj h, slots_setPhase]
        refine SlotStep.unsent hstarted hhome ?_
        rw [send] at herror
        show (s.connections task.deviceId).isSome = false
        split at herror
        · cases herror
        · next hnone => rw [hnone]; rfl
  · cases h

/-- **Every step of the hub is a step of the slots.** -/
theorem next_slots {s s' : HubState} {action : HubAction} (h : next env s action = some s') :
    SlotStep env.maxConcurrentTasks s.slots action.slotLabel s'.slots := by
  cases action with
  | createTask task =>
    simp only [next] at h
    split at h
    · next hcreate =>
      rw [← Option.some.inj h]
      exact slotStep_createTask hcreate.1 hcreate.2
    · cases h
  | dispatchClaim task session =>
    simp only [next] at h
    split at h
    · next hcreated =>
      split at h
      · next hclaim =>
        rw [← Option.some.inj h]
        exact slotStep_dispatchClaim hcreated.1 hcreated.2 hclaim
      · rw [← Option.some.inj h, slots_setPhase]
        exact SlotStep.reject hcreated.1
    · cases h
  | writeRunning id now =>
    simp only [next] at h
    split at h
    · next hclaimed =>
      obtain ⟨task, htask⟩ := Option.isSome_iff_exists.mp hclaimed.2
      have hwritten := slots_updateTask now (setStatus now .running) htask rfl
      rw [← Option.some.inj h, slots_setPhase, hwritten,
        show HubState.control _ = _ from congrArg Slots.control hwritten]
      exact SlotStep.running hclaimed.1 (control_status htask)
    · cases h
  | sendStart id published => exact slotStep_sendStart h
  | releaseUnsent id =>
    simp only [next] at h
    split at h
    · next task hunsent htask =>
      rw [← Option.some.inj h, slots_setPhase, slots_release, control_release]
      exact SlotStep.released hunsent (slots_home htask)
    · cases h
  | writeFailed id now =>
    simp only [next] at h
    split at h
    · next hfailing =>
      obtain ⟨task, htask⟩ := Option.isSome_iff_exists.mp hfailing.2
      have hwritten := slots_updateTask now
        (serviceTerminal now .failed "worker_unavailable" none) htask rfl
      rw [← Option.some.inj h, slots_setPhase, hwritten,
        show HubState.control _ = _ from congrArg Slots.control hwritten]
      exact SlotStep.failed hfailing.1 (control_status htask)
    · cases h
  | cancel id now =>
    rw [← Option.some.inj h]
    exact slotStep_cancel s id now
  | resolveApproval approvalId decision expired now =>
    rw [← Option.some.inj h]
    exact slotStep_resolveApproval s approvalId decision expired now
  | event connection message event =>
    simp only [next] at h
    split at h
    · rw [← Option.some.inj h, slots_handleEvent]
      exact SlotStep.idle
    · cases h
  | approvalRequested connection message approvalId createdAt expiresAt =>
    simp only [next] at h
    split at h
    · split at h <;> (rw [← Option.some.inj h]; exact SlotStep.idle)
    · cases h
  | flush connection id =>
    simp only [next] at h
    split at h
    · rw [← Option.some.inj h, slots_flushStreamEvents]
      exact SlotStep.idle
    · cases h
  | handlerStep connection now => exact slotStep_handlerStep h
  | terminal connection message event sessionMatches now =>
    simp only [next] at h
    split at h
    · rw [← Option.some.inj h]
      exact slotStep_handleTerminal s connection message event sessionMatches now
    · cases h
  | connect connection =>
    rw [← Option.some.inj h]
    exact slotStep_connect s connection
  | hello connectionId workspaces =>
    rw [← Option.some.inj h, slots_hello]
    exact SlotStep.idle
  | disconnect connection =>
    rw [← Option.some.inj h]
    exact slotStep_disconnect s connection
  | revoke deviceId =>
    rw [← Option.some.inj h, revoke, slots_dropDevice]
    exact SlotStep.drop rfl
  | failTask index now =>
    simp only [next] at h
    split at h
    · next id reason status hentry =>
      rw [← Option.some.inj h]
      exact slotStep_failTask hentry
    · cases h

/-- **Every step of the hub is a step of the lifecycle.** -/
theorem next_refines {s s' : HubState} {action : HubAction} (h : next env s action = some s') :
    Control.Step s.control action.label s'.control := by
  have hstep := (next_slots h).control
  rw [show action.slotLabel.control = action.label from ?_] at hstep
  · exact hstep
  · cases action with
    | sendStart id published => cases published <;> rfl
    | _ => rfl

/-! ## The lifecycle over a run -/

/-- The hub as a transition system. -/
abbrev HubStep (env : HubEnv) (s : HubState) (action : HubAction) (s' : HubState) : Prop :=
  next env s action = some s'

/-- No step of a run takes a terminal status away, or a requested cancel back. -/
def LifecycleMonotone (ms : List (Move HubState HubAction)) : Prop :=
  ∀ m ∈ ms, StatusLaw m.pre.control m.post.control

/-- Each write made outside the lock finds a status it may overwrite. -/
def LateWritesOk (ms : List (Move HubState HubAction)) : Prop :=
  ∀ m ∈ ms, LateWriteOk m.pre.control m.act.label

theorem Started.orderly {s : HubState} (h : s.Started) : Orderly s.control where
  mapped_live id d hd := by
    have hnone : s.control.device id = none := h.unmapped id
    rw [hnone] at hd
    cases hd
  mapped_phase id d hd := by
    have hnone : s.control.device id = none := h.unmapped id
    rw [hnone] at hd
    cases hd
  active_phase d l id hl _ := by
    have hnone : s.control.active d = none := h.inactive d
    rw [hnone] at hl
    cases hl
  failing_unmapped entry hentry := by
    have hnil : s.control.failing = [] := h.idle
    rw [hnil] at hentry
    cases hentry
  failing_terminal entry hentry := by
    have hnil : s.control.failing = [] := h.idle
    rw [hnil] at hentry
    cases hentry
  created_queued id hid := by
    have hsettled : s.control.phase id = if (s.tasks id).isSome then .done else .absent :=
      h.settled id
    rw [hsettled] at hid
    split at hid <;> cases hid

/--
**The lifecycle is monotone exactly when the late writes are.**

Every run of a freshly started hub, with any number of tasks, devices and connections: no step
changes a terminal status or takes back a requested cancel if and only if `dispatch`'s `RUNNING`
write never finds a terminal or cancelled task and `create_task`'s `FAILED` write never finds one
that ended otherwise.
-/
theorem lifecycle_monotone_iff {s t : HubState} {ms : List (Move HubState HubAction)}
    (hs : s.Started) (h : Run (HubStep env) s ms t) :
    LifecycleMonotone ms ↔ LateWritesOk ms := by
  refine h.moves_iff_of_exact (fun s => Orderly s.control)
    (fun s action => LateWriteOk s.control action.label)
    (fun s s' => StatusLaw s.control s'.control) ?_ ?_ ?_ hs.orderly
  · intro s action s' hinv hok hstep
    exact (next_refines hstep).orderly hinv hok
  · intro s action s' hinv hok hstep
    exact (next_refines hstep).statusLaw hinv hok
  · intro s action s' hstep hlaw
    exact (next_refines hstep).lateWriteOk hlaw

end HubState

/-! ## Two runs of one task -/

namespace OneTask

/-- Two slots, and digests that are the length of the text. -/
def env : HubEnv where
  txt := .ascii
  maxConcurrentTasks := 2
  sanitizeEventData _ data := data
  redactText text := text
  sha256 text := toString text.length
  keyedSha256 text := toString text.length
  argsPreview args := args

/-- A hub that has just started over an empty repository. -/
def hub : HubState where
  tasks _ := none
  approvals := []
  connections _ := none
  activeByDevice _ := none
  deviceByTask _ := none
  pendingStreamEvents _ := []
  handler _ := []
  dispatching _ := .absent
  failing := []
  sent := []

theorem started : hub.Started := ⟨fun _ => rfl, fun _ => rfl, fun _ => rfl, rfl⟩

def connection : WorkerConnection where
  connectionId := 1
  deviceId := "dev_1"
  ownerId := "owner"

def task : Task where
  taskId := "task_1"
  sessionId := "ses_1"
  workspaceId := "ws_1"
  ownerId := "owner"
  runId := "run_1"
  input := "fix the build"
  executionEnvironment := "local_worker"
  deviceId := "dev_1"
  createdAt := "t0"
  updatedAt := "t0"

def session : PyDict :=
  [("owner_id", .str "owner"), ("workspace_id", .str "ws_1"), ("device_id", .str "dev_1")]

/-- A Worker comes online and a task is created and claims a slot of it. -/
def claim : List HubAction :=
  [.connect connection, .hello 1 ["ws_1"], .createTask task, .dispatchClaim task session]

/-- The task starts and the Worker completes it. -/
def complete : List HubAction :=
  claim ++ [.writeRunning "task_1" "t1", .sendStart "task_1" true,
    .terminal connection [("task_id", .str "task_1"), ("status", .str "completed")]
      [("type", .str "task.completed")] true "t2"]

/-- The user cancels between the claim and the `RUNNING` write. -/
def cancelEarly : List HubAction := claim ++ [.cancel "task_1" "t1"]

end OneTask

namespace HubState

open Control

/-- A task that runs to its end keeps the law. -/
theorem lifecycle_monotone_complete :
    LifecycleMonotone (movesOf (next OneTask.env) OneTask.hub OneTask.complete) := by
  obtain ⟨t, ht⟩ : ∃ t, execute (next OneTask.env) OneTask.hub OneTask.complete = some t :=
    ⟨_, rfl⟩
  refine (lifecycle_monotone_iff OneTask.started
    (Run.of_execute (fun _ _ _ h => h) ht)).mpr ?_
  refine List.forall_mem_cons.mpr ⟨trivial, List.forall_mem_cons.mpr ⟨trivial,
    List.forall_mem_cons.mpr ⟨trivial, List.forall_mem_cons.mpr ⟨trivial,
    List.forall_mem_cons.mpr ⟨?_, List.forall_mem_cons.mpr ⟨trivial,
    List.forall_mem_cons.mpr ⟨trivial, List.forall_mem_nil _⟩⟩⟩⟩⟩⟩⟩
  -- the `RUNNING` write finds the task in the queue
  intro old hold
  have hqueued : some TaskStatus.queued = some old := hold
  rw [← Option.some.inj hqueued]
  decide

/-- **A cancelled task can be set running.** The cancel lands between `dispatch`'s claim and its
`RUNNING` write, which does not look at the status. -/
theorem dispatch_undoes_cancel :
    ∃ s ms t, s.Started ∧ Run (HubStep OneTask.env) s ms t ∧ ¬ LifecycleMonotone ms := by
  obtain ⟨s, hs⟩ : ∃ s, execute (next OneTask.env) OneTask.hub OneTask.cancelEarly = some s :=
    ⟨_, rfl⟩
  obtain ⟨t, ht⟩ : ∃ t, next OneTask.env s (.writeRunning "task_1" "t2") = some t := by
    rw [← Option.some.inj hs]
    exact ⟨_, rfl⟩
  have hcancelled : s.control.status "task_1" = some .cancelRequested := by
    rw [← Option.some.inj hs]
    rfl
  have hrunning : t.control.status "task_1" = some .running := by
    rw [← Option.some.inj hs] at ht
    rw [← Option.some.inj ht]
    rfl
  refine ⟨OneTask.hub, _, t, OneTask.started,
    (Run.of_execute (fun _ _ _ h => h) hs).snoc ht, fun hmono => ?_⟩
  obtain ⟨new, hnew, -, hcancel⟩ := hmono ⟨s, .writeRunning "task_1" "t2", t⟩ (by simp)
    "task_1" .cancelRequested hcancelled
  rw [hrunning] at hnew
  rw [← Option.some.inj hnew] at hcancel
  rcases hcancel rfl with hc | hc <;> cases hc

end HubState

end ThreadForge

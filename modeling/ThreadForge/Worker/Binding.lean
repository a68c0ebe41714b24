import ThreadForge.Hub.Approvals
import ThreadForge.Worker.Approval

/-!
# The hub and a Worker decide an approval

The hub and one Worker exchange messages over connections that keep their order and can be cut at
any point. What the hub puts in an outbox is read by the Worker from the start of its connection;
what a Worker sends waits until the hub's handler of the connection takes it. Other Workers, the
users and the clock do whatever they want.

## Main results

* `BindingState.Bound` — what ties a noted digest and a stored decision to one call of `decide`.
* `BindingState.decide_bound` — what `decide` returns was stored for exactly that call.
-/

namespace ThreadForge

open Transition

/-! ## The two parties -/

/-- The hub, the Worker, and what is on its way between them. -/
structure BindingState where
  hub : HubState
  worker : WorkerState := {}
  /-- The connections this Worker has made. -/
  made : List Nat := []
  /-- What was sent to the hub on a connection and is not handled yet, the oldest first. -/
  up : Nat → List PyDict := fun _ => []
  /-- How much of its outbox the Worker has handled. -/
  received : Nat → Nat := fun _ => 0

/-- One step of the hub or of the Worker. -/
inductive BindingAction
  | hub (action : HubAction)
  | otherSends (connectionId : Nat) (message : PyDict)
  | connect (connectionId : Nat)
  | cut
  | receive (answer : WorkerState.StartAnswer)
  | register (run : Nat) (request : ApprovalRequest)
  | sendRequest (toolCallId : String) (fits : Bool)
  | sendOther (message : PyDict)
  | decideReturns (toolCallId : String) (outcome : ApprovalOutcome)
  | decideCancelled (toolCallId : String)
  | stop
  | endRun (run : Nat)

/-- The message an action of the hub takes from a connection. -/
def HubAction.message? : HubAction → Option (Nat × PyDict)
  | .event connection message _ => some (connection.connectionId, message)
  | .approvalRequested connection message .. => some (connection.connectionId, message)
  | .terminal connection message .. => some (connection.connectionId, message)
  | _ => none

namespace BindingState

/-- What the hub has put in the outbox of a connection. -/
def outbox (s : BindingState) (connectionId : Nat) : List HubMessage :=
  (s.hub.sent.filter fun entry => entry.1.connectionId = connectionId).map Prod.snd

/-- What is left on the connections once the hub has taken the message of its action, which has to
be the oldest one of its connection. -/
def takeMessage (s : BindingState) (action : HubAction) : Option (Nat → List PyDict) :=
  match action.message? with
  | none => some s.up
  | some (connectionId, message) =>
    match s.up connectionId with
    | [] => none
    | oldest :: rest =>
      if oldest = message then some (Function.update s.up connectionId rest) else none

/-- A message sent on a connection. -/
def push (s : BindingState) (connectionId : Nat) (message : PyDict) : BindingState :=
  { s with up := Function.update s.up connectionId (s.up connectionId ++ [message]) }

/-- The state after an action, where the action can be taken. -/
def next (env : HubEnv) (s : BindingState) : BindingAction → Option BindingState
  | .hub action =>
    match s.takeMessage action, s.hub.next env action with
    | some up, some hub => some { s with hub := hub, up := up }
    | _, _ => none
  | .otherSends connectionId message =>
    if connectionId ∈ s.made then none else some (s.push connectionId message)
  | .connect connectionId =>
    if s.worker.socket = none ∧ connectionId ∉ s.made then
      some { s with
        worker := { s.worker with socket := some connectionId }
        made := connectionId :: s.made }
    else none
  | .cut => some { s with worker := s.worker.cut }
  | .receive answer =>
    match s.worker.socket with
    | none => none
    | some connectionId =>
      match (s.outbox connectionId)[s.received connectionId]? with
      | none => none
      | some message => some { s with
          worker := s.worker.handle answer message
          received := Function.update s.received connectionId (s.received connectionId + 1) }
  | .register run request =>
    (s.worker.register (argsDigest env.sha256 env.txt) run request).map fun worker =>
      { s with worker := worker }
  | .sendRequest toolCallId fits =>
    match s.worker.sendRequest (argsDigest env.sha256 env.txt) toolCallId fits with
    | none => none
    | some (worker, none) => some { s with worker := worker }
    | some (worker, some (connectionId, message)) =>
      some ({ s with worker := worker }.push connectionId message)
  | .sendOther message =>
    match s.worker.socket with
    | none => none
    | some connectionId =>
      if message.get? "type" = some (.str "approval.requested") then none
      else some (s.push connectionId message)
  | .decideReturns toolCallId outcome =>
    match s.worker.decideReturns toolCallId with
    | none => none
    | some (_, returned, worker) =>
      if returned = outcome then some { s with worker := worker } else none
  | .decideCancelled toolCallId =>
    (s.worker.decideCancelled toolCallId).map fun worker => { s with worker := worker }
  | .stop => some { s with worker := s.worker.cancelRuns fun _ => true }
  | .endRun run => some { s with worker := s.worker.endRun run }

/-- The two parties as a transition system. -/
abbrev BindingStep (env : HubEnv) (s : BindingState) (action : BindingAction) (t : BindingState) :
    Prop :=
  s.next env action = some t

/-- Both sides have just started; the repositories may hold anything, each approval under a key of
its own. -/
structure Fresh (s : BindingState) : Prop where
  keys : s.hub.KeysUnique
  unsent : s.hub.sent = []
  strategies : s.worker.strategies = []
  activeRuns : ∀ taskId, s.worker.activeRuns taskId = none
  calls : ∀ toolCallId, s.worker.calls toolCallId = none

end BindingState

/-! ## The invariant -/

/-- The approval is for this call: its task, its id and the digest of its arguments. -/
structure Approval.Names (approval : Approval) (digestOf : PyDict → String) (w : WorkerState)
    (call : DecideCall) : Prop where
  taskId : (w.strategies[call.run]?).map RemoteApproval.taskId = some approval.taskId
  toolCallId : approval.toolCallId = call.request.toolCallId
  digest : approval.requestDigest = digestOf call.request.args

/-- What a strategy has noted is of its calls, and what it was told is stored. -/
structure RemoteApproval.Sound (a : RemoteApproval) (digestOf : PyDict → String)
    (calls : String → Option DecideCall) (approvals : List Approval) (run : Nat) : Prop where
  noted : ∀ id digest, a.pendingDigests id = some digest →
    ∃ call, calls id = some call ∧ call.run = run ∧ digest = digestOf call.request.args
  decided : ∀ id decision, a.decisions id = some decision →
    ∃ digest, a.pendingDigests id = some digest ∧
      ∃ approval ∈ approvals, approval.Decided a.taskId id decision digest

/-- Everything the Worker holds is sound. -/
structure WorkerState.Sound (w : WorkerState) (digestOf : PyDict → String)
    (approvals : List Approval) : Prop where
  /-- A call is kept under the id of its tool call. -/
  calls : ∀ id call, w.calls id = some call → call.request.toolCallId = id
  active : ∀ taskId run, w.activeRuns taskId = some run →
    ∃ a, w.strategies[run]? = some a ∧ a.taskId = taskId
  strategies : ∀ (run : Nat) (a : RemoteApproval), w.strategies[run]? = some a →
    a.Sound digestOf w.calls approvals run

namespace WorkerState

variable {w w' : WorkerState} {digestOf : PyDict → String} {approvals approvals' : List Approval}

/-- More settled approvals do no harm. -/
theorem Sound.mono (h : w.Sound digestOf approvals)
    (hkept : ∀ approval ∈ approvals, approval.status ≠ .pending → approval ∈ approvals') :
    w.Sound digestOf approvals' where
  calls := h.calls
  active := h.active
  strategies run a ha := by
    refine ⟨(h.strategies run a ha).noted, fun id decision hdecision => ?_⟩
    obtain ⟨digest, hdigest, approval, hmem, hdecided⟩ :=
      (h.strategies run a ha).decided id decision hdecision
    refine ⟨digest, hdigest, approval, hkept approval hmem ?_, hdecided⟩
    rw [hdecided.status]
    exact decisionStatus_ne_pending decision

/-- The socket is not read by the invariant. -/
theorem Sound.setSocket (h : w.Sound digestOf approvals) (socket : Option Nat) :
    Sound { w with socket := socket } digestOf approvals := ⟨h.calls, h.active, h.strategies⟩

/-- One call moves on to its next phase. -/
theorem Sound.setPhase (h : w.Sound digestOf approvals) {id : String} {call : DecideCall}
    (hcall : w.calls id = some call) (phase : DecidePhase) :
    Sound (w.setPhase id call phase) digestOf approvals where
  calls id' call' hcall' := by
    simp only [WorkerState.setPhase, Function.update_apply] at hcall'
    split at hcall'
    · next hid =>
      rw [← Option.some.inj hcall', hid]
      exact h.calls id call hcall
    · exact h.calls id' call' hcall'
  active := h.active
  strategies run a ha := by
    refine ⟨fun id' digest hdigest => ?_, (h.strategies run a ha).decided⟩
    obtain ⟨call', hcall', hrun, heq⟩ := (h.strategies run a ha).noted id' digest hdigest
    simp only [WorkerState.setPhase, Function.update_apply]
    by_cases hid : id' = id
    · rw [hid, hcall] at hcall'
      cases hcall'
      exact ⟨_, if_pos hid, hrun, heq⟩
    · exact ⟨call', by rw [if_neg hid, hcall'], hrun, heq⟩

/-- One strategy is replaced by a sound one of the same task. -/
theorem Sound.setStrategy (h : w.Sound digestOf approvals) {run : Nat} {a a' : RemoteApproval}
    (ha : w.strategies[run]? = some a) (ha' : a'.Sound digestOf w.calls approvals run)
    (htask : a'.taskId = a.taskId) :
    Sound { w with strategies := w.strategies.set run a' } digestOf approvals where
  calls := h.calls
  active taskId run' hactive := by
    obtain ⟨b, hb, hbtask⟩ := h.active taskId run' hactive
    by_cases hrun : run = run'
    · subst hrun
      rw [ha] at hb
      cases hb
      exact ⟨a', List.getElem?_set_self (List.getElem?_eq_some_iff.mp ha).1, htask.trans hbtask⟩
    · exact ⟨b, by rw [List.getElem?_set_ne hrun, hb], hbtask⟩
  strategies run' b hb := by
    by_cases hrun : run = run'
    · subst hrun
      rw [List.getElem?_set_self (List.getElem?_eq_some_iff.mp ha).1] at hb
      cases hb
      exact ha'
    · rw [List.getElem?_set_ne hrun] at hb
      exact h.strategies run' b hb

/-- Cancelling runs changes nothing that the invariant reads. -/
theorem Sound.cancelRuns (h : w.Sound digestOf approvals) (picked : String → Bool) :
    Sound (w.cancelRuns picked) digestOf approvals where
  calls := h.calls
  active taskId run hactive := by
    obtain ⟨a, ha, htask⟩ := h.active taskId run hactive
    refine ⟨_, by rw [WorkerState.cancelRuns, List.getElem?_mapIdx, ha]; rfl, ?_⟩
    show (if _ then _ else _ : RemoteApproval).taskId = taskId
    split
    · exact htask
    · exact htask
  strategies run a ha := by
    rw [WorkerState.cancelRuns, List.getElem?_mapIdx] at ha
    obtain ⟨b, hb, hba⟩ := Option.map_eq_some_iff.mp ha
    have hsound := h.strategies run b hb
    rw [← hba]
    split
    · exact ⟨hsound.noted, hsound.decided⟩
    · exact hsound

theorem Sound.cut (h : w.Sound digestOf approvals) : Sound w.cut digestOf approvals :=
  (h.cancelRuns fun _ => true).setSocket none

theorem Sound.endRun (h : w.Sound digestOf approvals) (run : Nat) :
    Sound (w.endRun run) digestOf approvals where
  calls := h.calls
  active taskId run' hactive := by
    simp only [WorkerState.endRun] at hactive
    split at hactive
    · cases hactive
    · exact h.active taskId run' hactive
  strategies := h.strategies

/-- A strategy that has not been asked yet. -/
theorem Sound.startTask (h : w.Sound digestOf approvals) (taskId : String) (answer : StartAnswer) :
    Sound (w.startTask taskId answer) digestOf approvals := by
  cases answer with
  | refused => exact h
  | run wrapped =>
    refine ⟨h.calls, fun taskId' run hactive => ?_, fun run a ha => ?_⟩
    · simp only [WorkerState.startTask, Function.update_apply] at hactive ⊢
      split at hactive
      · next htask =>
        rw [← Option.some.inj hactive, htask]
        exact ⟨_, List.getElem?_concat_length .., rfl⟩
      · obtain ⟨a, ha, htask⟩ := h.active taskId' run hactive
        exact ⟨a, by rw [List.getElem?_append_left (List.getElem?_eq_some_iff.mp ha).1, ha], htask⟩
    · simp only [WorkerState.startTask] at ha ⊢
      by_cases hlt : run < w.strategies.length
      · rw [List.getElem?_append_left hlt] at ha
        exact h.strategies run a ha
      · rw [List.getElem?_append_right (by omega)] at ha
        have hnew := List.mem_of_getElem? ha
        rw [List.mem_singleton] at hnew
        rw [hnew]
        exact ⟨nofun, nofun⟩

/-- A new call takes nothing from the calls there are. -/
theorem Sound.addCall (h : w.Sound digestOf approvals) {id : String} {call : DecideCall}
    (hfresh : w.calls id = none) (hid : call.request.toolCallId = id) :
    Sound { w with calls := Function.update w.calls id (some call) } digestOf approvals where
  calls id' call' hcall' := by
    simp only [Function.update_apply] at hcall'
    split at hcall'
    · next hsame => rw [← Option.some.inj hcall', hsame, hid]
    · exact h.calls id' call' hcall'
  active := h.active
  strategies run a ha := by
    refine ⟨fun id' digest hdigest => ?_, (h.strategies run a ha).decided⟩
    obtain ⟨call', hcall', hrun, heq⟩ := (h.strategies run a ha).noted id' digest hdigest
    have hne : id' ≠ id := by
      intro hsame
      rw [hsame, hfresh] at hcall'
      cases hcall'
    exact ⟨call', by simp only [Function.update_apply, if_neg hne, hcall'], hrun, heq⟩

/-- A new call notes its digest under an id of its own. -/
theorem Sound.register (h : w.Sound digestOf approvals) {run : Nat} {request : ApprovalRequest}
    (hregister : w.register digestOf run request = some w') : w'.Sound digestOf approvals := by
  rw [WorkerState.register] at hregister
  split at hregister
  · next a ha hfresh =>
    rw [← Option.some.inj hregister]
    let call : DecideCall := { run := run, request := request }
    have hadd := h.addCall hfresh (show call.request.toolCallId = request.toolCallId from rfl)
    have hsound := hadd.strategies run a ha
    refine hadd.setStrategy ha ⟨fun id digest hdigest => ?_, fun id decision hdecision => ?_⟩ rfl
    · simp only [RemoteApproval.register, Function.update_apply] at hdigest
      split at hdigest
      · next hid =>
        refine ⟨call, ?_, rfl, (Option.some.inj hdigest).symm⟩
        rw [hid]
        exact Function.update_self ..
      · exact hsound.noted id digest hdigest
    · -- the id is fresh, so no decision waits under it
      obtain ⟨digest, hdigest, hstored⟩ := (h.strategies run a ha).decided id decision hdecision
      obtain ⟨call', hcall', -⟩ := (h.strategies run a ha).noted id digest hdigest
      have hne : id ≠ request.toolCallId := by
        intro hsame
        rw [hsame, hfresh] at hcall'
        cases hcall'
      refine ⟨digest, ?_, hstored⟩
      simp only [RemoteApproval.register, Function.update_apply, if_neg hne, hdigest]
  · cases hregister

theorem Sound.sendRequest (h : w.Sound digestOf approvals) {id : String} {fits : Bool}
    {sent : Option (Nat × PyDict)} (hsend : w.sendRequest digestOf id fits = some (w', sent)) :
    w'.Sound digestOf approvals := by
  rw [WorkerState.sendRequest] at hsend
  split at hsend
  · next call hcall =>
    split at hsend
    · split at hsend
      · rw [← (Prod.mk.inj (Option.some.inj hsend)).1]
        exact h.setPhase hcall .waiting
      · rw [← (Prod.mk.inj (Option.some.inj hsend)).1]
        exact h.setPhase hcall .ended
    · cases hsend
  · cases hsend

theorem Sound.decideCancelled (h : w.Sound digestOf approvals) {id : String}
    (hcancelled : w.decideCancelled id = some w') : w'.Sound digestOf approvals := by
  rw [WorkerState.decideCancelled] at hcancelled
  split at hcancelled
  · next call hcall =>
    split at hcancelled
    · split at hcancelled
      · rw [← Option.some.inj hcancelled]
        exact h.setPhase hcall .ended
      · cases hcancelled
    · cases hcancelled
  · cases hcancelled

/-- What a waiting call finds under its id. -/
theorem decideReturns_cases {id : String} {call : DecideCall} {outcome : ApprovalOutcome}
    (hreturns : w.decideReturns id = some (call, outcome, w')) :
    w.calls id = some call ∧ ∃ a decision, w.strategies[call.run]? = some a ∧
      a.decisions id = some decision ∧
      outcome = (if decision = "approved" then .approved else .rejected) ∧
      w' = { w with strategies := w.strategies.set call.run { a with
        decisions := Function.update a.decisions id none
        pendingDigests := Function.update a.pendingDigests id none } }.setPhase id call .ended := by
  rw [WorkerState.decideReturns] at hreturns
  split at hreturns
  · next call' hcall =>
    split at hreturns
    · split at hreturns
      · next outcome' a' htake =>
        obtain ⟨hcall', hrest⟩ := Prod.mk.inj (Option.some.inj hreturns)
        obtain ⟨houtcome, hstate⟩ := Prod.mk.inj hrest
        subst hcall'
        obtain ⟨a, ha, htaken⟩ := Option.bind_eq_some_iff.mp htake
        obtain ⟨decision, hdecision, heq⟩ := Option.map_eq_some_iff.mp htaken
        refine ⟨hcall, a, decision, ha, hdecision, ?_, ?_⟩
        · rw [← houtcome, ← (Prod.mk.inj heq).1]
        · rw [← hstate, ← (Prod.mk.inj heq).2]
      · cases hreturns
    · cases hreturns
  · cases hreturns

/-- Both entries of the call that returns go. -/
theorem Sound.decideReturns (h : w.Sound digestOf approvals) {id : String} {call : DecideCall}
    {outcome : ApprovalOutcome} (hreturns : w.decideReturns id = some (call, outcome, w')) :
    w'.Sound digestOf approvals := by
  obtain ⟨hcall, a, decision, ha, -, -, rfl⟩ := decideReturns_cases hreturns
  have hsound := h.strategies call.run a ha
  have hrest : RemoteApproval.Sound { a with
      decisions := Function.update a.decisions id none
      pendingDigests := Function.update a.pendingDigests id none } digestOf w.calls approvals
      call.run := by
    refine ⟨fun id' digest hdigest => ?_, fun id' decision' hdecision => ?_⟩
    · simp only [Function.update_apply] at hdigest
      split at hdigest
      · cases hdigest
      · exact hsound.noted id' digest hdigest
    · simp only [Function.update_apply] at hdecision ⊢
      split at hdecision
      · cases hdecision
      · next hne =>
        rw [if_neg hne]
        exact hsound.decided id' decision' hdecision
  exact Sound.setPhase (h.setStrategy ha hrest rfl) hcall .ended

/-- A decision is taken only for the digest that is noted. -/
theorem Sound.resolve (h : w.Sound digestOf approvals) {taskId id decision digest : String}
    (hstored : ∃ approval ∈ approvals, approval.Decided taskId id decision digest) :
    Sound (w.resolve taskId id decision digest) digestOf approvals := by
  rw [WorkerState.resolve]
  split
  · exact h
  next run hactive =>
  obtain ⟨a, ha, htask⟩ := h.active taskId run hactive
  rw [ha]
  simp only
  split
  · next a' hresolve =>
    rw [RemoteApproval.resolve] at hresolve
    split at hresolve
    · cases hresolve
    next hmatches =>
    rw [← Option.some.inj hresolve]
    have hdigest : a.pendingDigests id = some digest := not_not.mp fun hne => hmatches (Or.inr hne)
    refine h.setStrategy ha
      ⟨(h.strategies run a ha).noted, fun id' decision' hdecision => ?_⟩ rfl
    simp only [Function.update_apply] at hdecision
    split at hdecision
    · next hid =>
      rw [← Option.some.inj hdecision, hid, htask]
      exact ⟨digest, hdigest, hstored⟩
    · exact (h.strategies run a ha).decided id' decision' hdecision
  · exact h.cut

/-- One message of the hub, whose decision is stored if it carries one. -/
theorem Sound.handle (h : w.Sound digestOf approvals) (answer : StartAnswer) {message : HubMessage}
    (hstored : message.Stored approvals) :
    Sound (w.handle answer message) digestOf approvals := by
  cases message with
  | taskStart taskId => exact h.startTask taskId answer
  | taskCancel taskId => exact h.cancelRuns fun other => other = taskId
  | approvalRegistered taskId toolCallId approvalId => exact h
  | approvalDecision taskId approvalId toolCallId decision digest => exact h.resolve hstored

end WorkerState

namespace BindingState

variable {s s' t : BindingState} {env : HubEnv}

/-- What ties the Worker's tables to the hub's records. -/
structure Bound (env : HubEnv) (s : BindingState) : Prop where
  keys : s.hub.KeysUnique
  told : ∀ connection message, (connection, message) ∈ s.hub.sent →
    message.Stored s.hub.approvals
  worker : s.worker.Sound (argsDigest env.sha256 env.txt) s.hub.approvals

theorem Fresh.bound (h : s.Fresh) : s.Bound env where
  keys := h.keys
  told connection message hmem := by
    rw [h.unsent] at hmem
    cases hmem
  worker := by
    refine ⟨fun id call hcall => ?_, fun taskId run hactive => ?_, fun run a ha => ?_⟩
    · rw [h.calls] at hcall
      cases hcall
    · rw [h.activeRuns] at hactive
      cases hactive
    · rw [h.strategies] at ha
      cases ha

/-- A step of the hub settles approvals and unsettles none. -/
theorem Bound.hub (h : s.Bound env) {hub : HubState} (hfollows : s.hub.Follows hub)
    (up : Nat → List PyDict) : Bound env { s with hub := hub, up := up } where
  keys := hfollows.keys h.keys
  told connection message hmem := by
    rcases hfollows.told h.keys connection message hmem with hbefore | hstored
    · exact hfollows.stored h.keys (h.told connection message hbefore)
    · exact hstored
  worker := h.worker.mono fun approval hmem => hfollows.kept h.keys approval hmem

/-- What the Worker is handed was sent by the hub. -/
theorem mem_sent_of_outbox {connectionId index : Nat} {message : HubMessage}
    (h : (s.outbox connectionId)[index]? = some message) :
    ∃ connection, (connection, message) ∈ s.hub.sent := by
  obtain ⟨entry, hentry, hmessage⟩ := List.mem_map.mp (List.mem_of_getElem? h)
  exact ⟨entry.1, hmessage ▸ (List.mem_filter.mp hentry).1⟩

/-- **Every step of either party keeps them bound.** -/
theorem Bound.next (h : s.Bound env) {action : BindingAction} (hstep : s.next env action = some t) :
    t.Bound env := by
  cases action with
  | hub action =>
    simp only [BindingState.next] at hstep
    split at hstep
    · next up hub _ hnext =>
      rw [← Option.some.inj hstep]
      exact h.hub (HubState.next_follows hnext) up
    · cases hstep
  | otherSends connectionId message =>
    simp only [BindingState.next] at hstep
    split at hstep
    · cases hstep
    · rw [← Option.some.inj hstep]
      exact ⟨h.keys, h.told, h.worker⟩
  | connect connectionId =>
    simp only [BindingState.next] at hstep
    split at hstep
    · rw [← Option.some.inj hstep]
      exact ⟨h.keys, h.told, h.worker.setSocket _⟩
    · cases hstep
  | cut =>
    rw [← Option.some.inj hstep]
    exact ⟨h.keys, h.told, h.worker.cut⟩
  | receive answer =>
    simp only [BindingState.next] at hstep
    split at hstep
    · cases hstep
    split at hstep
    · cases hstep
    next message hmessage =>
    rw [← Option.some.inj hstep]
    obtain ⟨connection, hsent⟩ := mem_sent_of_outbox hmessage
    exact ⟨h.keys, h.told, h.worker.handle answer (h.told connection message hsent)⟩
  | register run request =>
    obtain ⟨worker, hregister, heq⟩ := Option.map_eq_some_iff.mp hstep
    rw [← heq]
    exact ⟨h.keys, h.told, h.worker.register hregister⟩
  | sendRequest toolCallId fits =>
    simp only [BindingState.next] at hstep
    split at hstep
    · cases hstep
    · next hsend =>
      rw [← Option.some.inj hstep]
      exact ⟨h.keys, h.told, h.worker.sendRequest hsend⟩
    · next hsend =>
      rw [← Option.some.inj hstep]
      exact ⟨h.keys, h.told, h.worker.sendRequest hsend⟩
  | sendOther message =>
    simp only [BindingState.next] at hstep
    split at hstep
    · cases hstep
    split at hstep
    · cases hstep
    · rw [← Option.some.inj hstep]
      exact ⟨h.keys, h.told, h.worker⟩
  | decideReturns toolCallId outcome =>
    simp only [BindingState.next] at hstep
    split at hstep
    · cases hstep
    next hreturns =>
    split at hstep
    · rw [← Option.some.inj hstep]
      exact ⟨h.keys, h.told, h.worker.decideReturns hreturns⟩
    · cases hstep
  | decideCancelled toolCallId =>
    obtain ⟨worker, hcancelled, heq⟩ := Option.map_eq_some_iff.mp hstep
    rw [← heq]
    exact ⟨h.keys, h.told, h.worker.decideCancelled hcancelled⟩
  | stop =>
    rw [← Option.some.inj hstep]
    exact ⟨h.keys, h.told, h.worker.cancelRuns fun _ => true⟩
  | endRun run =>
    rw [← Option.some.inj hstep]
    exact ⟨h.keys, h.told, h.worker.endRun run⟩

/-! ## What `decide` returns -/

/-- A decision that waits under an id was stored for the call of that id, and for no other. -/
theorem Bound.decision (h : s.Bound env) {run : Nat} {a : RemoteApproval} {id decision : String}
    (ha : s.worker.strategies[run]? = some a) (hdecision : a.decisions id = some decision) :
    ∃ call approval, s.worker.calls id = some call ∧ approval ∈ s.hub.approvals ∧
      approval.status = decisionStatus decision ∧
      approval.Names (argsDigest env.sha256 env.txt) s.worker call ∧
      ∀ id' other, s.worker.calls id' = some other →
        approval.Names (argsDigest env.sha256 env.txt) s.worker other → id' = id := by
  obtain ⟨digest, hdigest, approval, hmem, hdecided⟩ :=
    (h.worker.strategies run a ha).decided id decision hdecision
  obtain ⟨call, hcall, hrun, heq⟩ := (h.worker.strategies run a ha).noted id digest hdigest
  refine ⟨call, approval, hcall, hmem, hdecided.status, ⟨?_, ?_, ?_⟩, fun id' other hother hnames => ?_⟩
  · rw [hrun, ha, hdecided.taskId]
    rfl
  · rw [hdecided.toolCallId, h.worker.calls id call hcall]
  · rw [hdecided.digest, heq]
  · rw [← h.worker.calls id' other hother, ← hnames.toolCallId, hdecided.toolCallId]

/--
**What `decide` returns was stored for exactly that call.**

In every run of the hub and a Worker, `decide` returns `APPROVED` only when the hub holds an
approval with status `APPROVED` for the same task, the same tool call and the digest of the very
arguments, `REJECTED` only when it holds a rejected one, and the approval names no other call.
-/
theorem decide_bound {ms : List (Move BindingState BindingAction)} (hs : s.Fresh)
    (h : Run (BindingStep env) s ms t) :
    ∀ m ∈ ms, ∀ id outcome, m.act = .decideReturns id outcome →
      ∃ call approval, m.pre.worker.calls id = some call ∧ approval ∈ m.pre.hub.approvals ∧
        (outcome = .approved ∧ approval.status = .approved ∨
          outcome = .rejected ∧ approval.status = .rejected) ∧
        approval.Names (argsDigest env.sha256 env.txt) m.pre.worker call ∧
        ∀ id' other, m.pre.worker.calls id' = some other →
          approval.Names (argsDigest env.sha256 env.txt) m.pre.worker other → id' = id := by
  intro m hm id outcome hact
  have hbound : m.pre.Bound env :=
    h.invariant_before (fun _ _ _ hinv hstep => hinv.next hstep) hs.bound m hm
  have hstep : m.pre.next env m.act = some m.post := h.step_of_mem hm
  rw [hact] at hstep
  simp only [BindingState.next] at hstep
  split at hstep
  · cases hstep
  next call returned worker hreturns =>
  split at hstep
  · next houtcome =>
    obtain ⟨hcall, a, decision, ha, hdecision, hreturned, -⟩ :=
      WorkerState.decideReturns_cases hreturns
    obtain ⟨call', approval, hcall', hmem, hstatus, hnames, honly⟩ := hbound.decision ha hdecision
    have hsame : call' = call := Option.some.inj (hcall'.symm.trans hcall)
    rw [hsame] at hnames
    refine ⟨call, approval, hcall, hmem, ?_, hnames, honly⟩
    -- the outcome and the stored status are read off the same text
    rw [← houtcome, hreturned, hstatus, decisionStatus]
    by_cases happroved : decision = "approved"
    · rw [if_pos happroved, if_pos happroved]
      exact Or.inl ⟨rfl, rfl⟩
    · rw [if_neg happroved, if_neg happroved]
      exact Or.inr ⟨rfl, rfl⟩
  · cases hstep

end BindingState

/-! ## One call that is approved -/

namespace OneCall

/-- The settings of the one-task hub, with the real digest of the arguments below. -/
def env : HubEnv :=
  { OneTask.env with
    sha256 := fun text =>
      if text = "\x7b\"command\":\"ls\"\x7d" then
        "4cf29611a66934862f29acfcc817e30b905c1ab73d5e65831413eb6b454d49db"
      else "" }

def start : BindingState where
  hub := OneTask.hub

theorem fresh : start.Fresh := ⟨List.nodup_nil, rfl, rfl, fun _ => rfl, fun _ => rfl⟩

def request : ApprovalRequest where
  name := "run_shell"
  args := [("command", .str "ls")]
  toolCallId := "call_1"

def message : PyDict :=
  WorkerState.requestMessage (argsDigest env.sha256 env.txt) "task_1" request

/-- The task is dispatched and started, the call asks, the user approves, the Worker is told. -/
def untilDecided : List BindingAction :=
  [.connect 1, .hub (.connect OneTask.connection), .hub (.hello 1 ["ws_1"]),
   .hub (.createTask OneTask.task), .hub (.dispatchClaim OneTask.task OneTask.session),
   .hub (.writeRunning "task_1" "t1"), .hub (.sendStart "task_1" true), .receive (.run false),
   .register 0 request, .sendRequest "call_1" true,
   .hub (.approvalRequested OneTask.connection message "apr_1" "t2" "t9"),
   .hub (.handlerStep OneTask.connection "t2"), .receive .refused,
   .hub (.resolveApproval "apr_1" "approved" false "t3"), .receive .refused]

end OneCall

namespace BindingState

/-- A call that the user approves returns `APPROVED`, and the approval is stored. -/
theorem decide_bound_approved :
    ∃ ms t, Run (BindingStep OneCall.env) OneCall.start ms t ∧
      ∃ m ∈ ms, m.act = .decideReturns "call_1" .approved ∧
        ∃ approval ∈ m.pre.hub.approvals, approval.status = .approved := by
  obtain ⟨s, hs⟩ : ∃ s, execute (next OneCall.env) OneCall.start OneCall.untilDecided = some s :=
    ⟨_, rfl⟩
  obtain ⟨t, ht⟩ : ∃ t, next OneCall.env s (.decideReturns "call_1" .approved) = some t := by
    rw [← Option.some.inj hs]
    exact ⟨_, rfl⟩
  have hrun := (Run.of_execute (fun _ _ _ h => h) hs).snoc ht
  have hlast := List.mem_append_right
    (movesOf (next OneCall.env) OneCall.start OneCall.untilDecided)
    (List.mem_singleton_self (⟨s, .decideReturns "call_1" .approved, t⟩ :
      Move BindingState BindingAction))
  obtain ⟨-, approval, -, hmem, hstatus, -⟩ :=
    decide_bound OneCall.fresh hrun _ hlast "call_1" .approved rfl
  refine ⟨_, t, hrun, _, hlast, rfl, approval, hmem, ?_⟩
  rcases hstatus with ⟨-, happroved⟩ | ⟨hrejected, -⟩
  · exact happroved
  · cases hrejected

end BindingState

end ThreadForge

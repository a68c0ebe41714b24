import ThreadForge.Events.Broker
import ThreadForge.Runner.System

/-!
# The end of a task and its subscribers

Every path on which a task ends persists the terminal status and then publishes the terminal event;
`subscribe` registers the queue and then reads the snapshot. Here the paths of the hub, the runner
and the task service run on threads of their own, among the subscribers and the event loop.

## Main results

* `TaskPath.announces` — every path publishes the end it persisted.
* `EndState.not_quiet_enabled` — what is in progress can always go on.
* `EndState.end_not_missed` — no subscriber misses the end of its task.
-/

namespace ThreadForge

open Transition

/-! ## The paths on which a task ends -/

/-- One step of a path: the terminal status is looked at, a status is persisted, an event is
published. -/
inductive PathStep
  | stopIfTerminal
  | persist (status : TaskStatus)
  | publish (type : String)
  deriving DecidableEq, Repr

/-- The terminal event of a status. -/
def terminalEvent : TaskStatus → String
  | .completed => "task.completed"
  | .cancelled => "task.cancelled"
  | .interrupted => "task.interrupted"
  | .blocked => "task.blocked"
  | _ => "task.failed"

/-- The status of an outcome persisted, and its events: a completed task has its answer published
first. -/
def persistAndPublish (status : TaskStatus) : List PathStep :=
  [.persist status] ++ (if status = .completed then [.publish "message.completed"] else []) ++
    [.publish (terminalEvent status)]

/-- The paths on which a task ends, and any other code that persists a status or publishes. -/
inductive TaskPath
  /-- `WorkerHub._handle_terminal_locked`, for one of the statuses it knows. -/
  | handleTerminal (status : { status : TaskStatus // status.terminal = true })
  /-- `WorkerHub._fail_task`. -/
  | failTask (interrupted : Bool)
  /-- `TaskRunner._worker`: cancelled before it started. -/
  | workerCancelled
  /-- `TaskRunner._worker`: `RUNNING` could not be persisted. -/
  | workerFailed
  /-- `TaskRunner._worker`: the adapter could not be built. -/
  | initFailed (cancelled : Bool)
  /-- `TaskRunner._converge_terminal`. -/
  | convergeTerminal (cancelled cleanupSucceeded : Bool) (status stopReason finalAnswer : String)
  /-- `TaskRunner.shutdown`. -/
  | shutdown
  /-- `TaskService.create_task`: `dispatch` or `register` raised. -/
  | createTaskFailed
  /-- Code that persists no terminal status. -/
  | other (steps : { steps : List PathStep //
      ∀ status, .persist status ∈ steps → status.terminal = false })

/-- What a path does. -/
def TaskPath.steps : TaskPath → List PathStep
  | .handleTerminal status => persistAndPublish status
  | .failTask interrupted =>
    [.stopIfTerminal, .persist (if interrupted then .interrupted else .failed),
      .publish (if interrupted then "task.interrupted" else "task.failed")]
  | .workerCancelled => [.persist .cancelled, .publish "task.cancelled"]
  | .workerFailed => [.persist .failed, .publish "task.failed"]
  | .initFailed cancelled =>
    [.persist (if cancelled then .cancelled else .failed),
      .publish (if cancelled then "task.cancelled" else "task.failed")]
  | .convergeTerminal cancelled cleanupSucceeded status stopReason finalAnswer =>
    persistAndPublish
      (RunnerState.publicOutcome cancelled cleanupSucceeded status stopReason finalAnswer).1
  | .shutdown => [.persist .interrupted, .publish "task.interrupted"]
  | .createTaskFailed => [.persist .failed, .publish "task.failed"]
  | .other steps => steps

/-- A publish step. -/
def PathStep.isPublish : PathStep → Bool
  | .publish _ => true
  | .stopIfTerminal | .persist _ => false

/-- A terminal event is published before anything else is done that can end the path. -/
def Announcing (steps : List PathStep) : Prop :=
  ∃ type ∈ terminalTypes, .publish type ∈ steps.takeWhile PathStep.isPublish

instance (steps : List PathStep) : Decidable (Announcing steps) := by
  unfold Announcing
  infer_instance

/-- What a path persists last is announced: a terminal status is followed by a terminal event. -/
def Announces : List PathStep → Prop
  | [] => True
  | .persist status :: rest => (status.terminal = true → Announcing rest) ∧ Announces rest
  | _ :: rest => Announces rest

theorem Announces.tail {step : PathStep} {rest : List PathStep} (h : Announces (step :: rest)) :
    Announces rest := by
  cases step with
  | persist status => exact h.2
  | stopIfTerminal | publish _ => exact h

theorem announcing_terminalEvent {status : TaskStatus} (h : status.terminal = true) :
    Announcing ((if status = .completed then [.publish "message.completed"] else []) ++
      [.publish (terminalEvent status)]) := by
  cases status with
  | completed | cancelled | failed | interrupted | blocked => decide
  | _ => cases h

theorem persistAndPublish_announces {status : TaskStatus} (h : status.terminal = true) :
    Announces (persistAndPublish status) := by
  refine ⟨fun _ => announcing_terminalEvent h, ?_⟩
  show Announces ((if status = .completed then [.publish "message.completed"] else []) ++
    [.publish (terminalEvent status)])
  split <;> trivial

theorem announces_of_live : ∀ {steps : List PathStep},
    (∀ status, .persist status ∈ steps → status.terminal = false) → Announces steps
  | [], _ => trivial
  | .persist status :: rest, h => by
    refine ⟨fun hterminal => ?_, announces_of_live fun st hst => h st (List.mem_cons_of_mem _ hst)⟩
    rw [h status List.mem_cons_self] at hterminal
    cases hterminal
  | .stopIfTerminal :: rest, h => by
    show Announces rest
    exact announces_of_live fun st hst => h st (List.mem_cons_of_mem _ hst)
  | .publish _ :: rest, h => by
    show Announces rest
    exact announces_of_live fun st hst => h st (List.mem_cons_of_mem _ hst)

/-- **Every path publishes the end it persisted.** -/
theorem TaskPath.announces (path : TaskPath) : Announces path.steps := by
  cases path with
  | handleTerminal status => exact persistAndPublish_announces status.2
  | failTask interrupted =>
    cases interrupted <;> exact ⟨fun _ => by decide, trivial⟩
  | workerCancelled | workerFailed | shutdown | createTaskFailed =>
    exact ⟨fun _ => by decide, trivial⟩
  | initFailed cancelled => cases cancelled <;> exact ⟨fun _ => by decide, trivial⟩
  | convergeTerminal cancelled cleanupSucceeded status stopReason finalAnswer =>
    exact persistAndPublish_announces (RunnerState.publicOutcome_terminal ..)
  | other steps => exact announces_of_live steps.2

/-! ## The paths among the subscribers -/

/-- The stored status of a task, the threads that write it, and its events. -/
structure EndState where
  broker : BrokerState := {}
  status : TaskStatus := .queued
  /-- What each thread still has to do; it publishes with the call of its own number. -/
  threads : Nat → List PathStep := fun _ => []
  /-- The status in the snapshot of each subscriber, once it was read. -/
  snapshots : Nat → Option TaskStatus := fun _ => none
  /-- A path has persisted a terminal status since the snapshot, and goes on. -/
  ended : Nat → Bool := fun _ => false

/-- One step of the paths, the subscribers and the event loop. -/
inductive EndAction
  | start (thread : Nat) (path : TaskPath)
  | check (thread : Nat)
  | persist (thread : Nat)
  /-- The update raises, and may have stored the status before it did. -/
  | persistRaises (thread : Nat) (stored : Bool)
  | publish (thread : Nat)
  | snapshot
  /-- Any other step of the broker. -/
  | broker (action : BrokerAction)

/-- The steps that finish what is in progress. -/
def EndAction.finishes : EndAction → Bool
  | .check _ | .persist _ | .publish _ | .snapshot => true
  | .broker action =>
    match action with
    | .pop _ | .capture _ | .hand .. | .done _ | .runCallback => true
    | _ => false
  | .start .. | .persistRaises .. => false

namespace EndState

/-- The state with what a thread still has to do. -/
def setThread (s : EndState) (thread : Nat) (steps : List PathStep) : EndState :=
  { s with threads := Function.update s.threads thread steps }

/-- A status is persisted. The snapshots read before it no longer tell how the task stands. -/
def store (s : EndState) (status : TaskStatus) (goesOn : Bool) : EndState :=
  { s with
    status := status
    ended := fun queue => s.ended queue || (status.terminal && goesOn) }

/-- `subscribe` reads the snapshot. -/
def readSnapshot (s : EndState) (queue : Nat) : EndState :=
  { s with
    broker := s.broker.snapshot queue
    snapshots := Function.update s.snapshots queue (some s.status)
    ended := Function.update s.ended queue false }

/-- The steps of the broker that stand on their own. Between the steps of a path its thread publishes
nothing else, and the snapshot is a step of this system. -/
def mayTake (s : EndState) : BrokerAction → Bool
  | .draw call _ => (s.threads call).isEmpty
  | .snapshot => false
  | _ => true

/-- The state after a step, where the step can be taken. -/
def next (queueSize : Int) (s : EndState) : EndAction → Option EndState
  | .start thread path =>
    if s.threads thread = [] ∧ s.broker.calls thread = .idle then
      some (s.setThread thread path.steps)
    else none
  | .check thread =>
    match s.threads thread with
    | .stopIfTerminal :: rest =>
      some (s.setThread thread (if s.status.terminal then [] else rest))
    | _ => none
  | .persist thread =>
    match s.threads thread with
    | .persist status :: rest =>
      if s.broker.calls thread = .idle then some ((s.setThread thread rest).store status true)
      else none
    | _ => none
  | .persistRaises thread stored =>
    match s.threads thread with
    | .persist status :: _ =>
      if s.broker.calls thread = .idle then
        some (if stored then (s.setThread thread []).store status false else s.setThread thread [])
      else none
    | _ => none
  | .publish thread =>
    match s.threads thread with
    | .publish type :: rest =>
      (s.broker.next queueSize (.draw thread type)).map fun broker =>
        { s.setThread thread rest with broker := broker }
    | _ => none
  | .snapshot => s.broker.registering.map s.readSnapshot
  | .broker action =>
    if s.mayTake action then
      (s.broker.next queueSize action).map fun broker => { s with broker := broker }
    else none

/-- The paths, the subscribers and the event loop as a transition system. -/
abbrev EndStep (queueSize : Int) (s : EndState) (action : EndAction) (t : EndState) : Prop :=
  s.next queueSize action = some t

/-! ## What is asked of a run -/

/-- No callback finds a full queue. -/
def NoOverflow (queueSize : Int) (s : EndState) : EndAction → Prop
  | .broker .runCallback =>
    match s.broker.ready with
    | (queue, _) :: _ => queueFull queueSize (s.broker.subs queue).queue = false
    | [] => True
  | _ => True

instance (queueSize : Int) (s : EndState) (action : EndAction) :
    Decidable (NoOverflow queueSize s action) := by
  unfold NoOverflow
  split
  · split <;> infer_instance
  · infer_instance

/-- The update of a terminal status does not raise once it is stored. -/
def NotTorn : EndAction → Prop
  | .persistRaises _ stored => stored = false
  | _ => True

/-- Nothing is in progress: no path, no call of `publish`, no registration, no callback. -/
structure Quiet (s : EndState) : Prop where
  threads : ∀ thread, s.threads thread = []
  calls : ∀ call, s.broker.calls call = .idle
  registering : s.broker.registering = none
  ready : s.broker.ready = []

/-- The subscriber is still registered, and its snapshot was not terminal. -/
structure Waiting (s : EndState) (queue : Nat) : Prop where
  subscribed : queue ∈ s.broker.subscribers
  live : ∃ status, s.snapshots queue = some status ∧ status.terminal = false

/-- A terminal event has arrived in the subscriber's queue since the snapshot. -/
def Received (s : EndState) (queue : Nat) : Prop :=
  ∃ event ∈ (s.broker.subs queue).arrived, event.ends = true

/-- A terminal event is on its way to the subscriber. -/
inductive Underway (s : EndState) (queue : Nat) : Prop
  | announcing (thread : Nat) : Announcing (s.threads thread) → Underway s queue
  | popping (call : Nat) (event : PublicEvent) : event.ends = true →
      s.broker.calls call = .popping event → Underway s queue
  | publishing (call : Nat) (event : PublicEvent) : event.ends = true →
      s.broker.calls call = .publishing event → Underway s queue
  | handing (call : Nat) (event : PublicEvent) (queues : List Nat) : event.ends = true →
      s.broker.calls call = .handing event queues → queue ∈ queues → Underway s queue
  | ready (event : PublicEvent) : event.ends = true →
      (queue, .event event) ∈ s.broker.ready → Underway s queue

/-- What every run keeps: a subscriber whose task ended has the terminal event, or it is on its
way. -/
structure Owing (s : EndState) : Prop where
  announces : ∀ thread, Announces (s.threads thread)
  registering_used : ∀ queue, s.broker.registering = some queue →
    (s.broker.subs queue).used = true
  snapshot_used : ∀ queue, s.snapshots queue ≠ none → (s.broker.subs queue).used = true
  owed : s.broker.loopClosed = false → ∀ queue, queue ∈ s.broker.subscribers →
    s.snapshots queue ≠ none → s.ended queue = true → s.Received queue ∨ s.Underway queue

variable {queueSize : Int} {s t : EndState} {queue : Nat}

/-! ## The terminal event stays on its way -/

theorem not_announcing_nil : ¬Announcing [] := by
  rintro ⟨_, -, hmem⟩
  cases hmem

/-- A path that does something else first is not announcing. -/
theorem not_announcing_cons {step : PathStep} {rest : List PathStep}
    (h : step.isPublish = false) : ¬Announcing (step :: rest) := by
  rintro ⟨_, -, hmem⟩
  rw [List.takeWhile_cons, h] at hmem
  cases hmem

/-- What a thread that has to publish announces: this event, or one of the rest. -/
theorem announcing_publish {type : String} {rest : List PathStep}
    (h : Announcing (.publish type :: rest)) : type ∈ terminalTypes ∨ Announcing rest := by
  obtain ⟨found, hfound, hmem⟩ := h
  rw [List.takeWhile_cons_of_pos rfl, List.mem_cons] at hmem
  rcases hmem with hsame | hrest
  · exact Or.inl (PathStep.publish.inj hsame ▸ hfound)
  · exact Or.inr ⟨found, hfound, hrest⟩

theorem threads_setThread_self {thread : Nat} {steps : List PathStep} :
    (s.setThread thread steps).threads thread = steps :=
  Function.update_self ..

theorem threads_setThread_of_ne {thread other : Nat} {steps : List PathStep}
    (h : other ≠ thread) : (s.setThread thread steps).threads other = s.threads other :=
  Function.update_of_ne h ..

/-- A thread that announces nothing may move on. -/
theorem Underway.setThread (h : s.Underway queue) {thread : Nat} {steps : List PathStep}
    (hnot : ¬Announcing (s.threads thread)) : (s.setThread thread steps).Underway queue := by
  cases h with
  | announcing other hother =>
    have hne : other ≠ thread := fun heq => hnot (heq ▸ hother)
    exact Underway.announcing other (by rw [threads_setThread_of_ne hne]; exact hother)
  | popping call event hends hcall => exact Underway.popping call event hends hcall
  | publishing call event hends hcall => exact Underway.publishing call event hends hcall
  | handing call event queues hends hcall hmem =>
    exact Underway.handing call event queues hends hcall hmem
  | ready event hends hmem => exact Underway.ready event hends hmem

/-- Only the paths, the calls and the callbacks tell what is on its way. -/
theorem Underway.of_eq (h : s.Underway queue) (hthreads : t.threads = s.threads)
    (hcalls : t.broker.calls = s.broker.calls) (hready : t.broker.ready = s.broker.ready) :
    t.Underway queue := by
  cases h with
  | announcing thread hthread => exact Underway.announcing thread (hthreads ▸ hthread)
  | popping call event hends hcall => exact Underway.popping call event hends (hcalls ▸ hcall)
  | publishing call event hends hcall =>
    exact Underway.publishing call event hends (hcalls ▸ hcall)
  | handing call event queues hends hcall hmem =>
    exact Underway.handing call event queues hends (hcalls ▸ hcall) hmem
  | ready event hends hmem => exact Underway.ready event hends (hready ▸ hmem)

theorem Received.mono (h : s.Received queue)
    (hsub : (s.broker.subs queue).arrived ⊆ (t.broker.subs queue).arrived) : t.Received queue := by
  obtain ⟨event, hmem, hends⟩ := h
  exact ⟨event, hsub hmem, hends⟩

/-- A call that starts with a terminal event has it on its way. -/
theorem underway_draw {broker : BrokerState} {call : Nat} {type : String}
    (htype : type ∈ terminalTypes) (hbroker : t.broker = broker.draw call type) :
    t.Underway queue := by
  have hends : PublicEvent.ends { sequence := broker.counter.getD 0, type := type } = true :=
    decide_eq_true htype
  refine Underway.popping call _ hends ?_
  rw [hbroker]
  show (broker.setCall call _).calls call = _
  rw [BrokerState.calls_setCall_self, if_pos hends]

/-- A new call leaves what the others have on the way. -/
theorem Underway.draw (h : s.Underway queue) {call : Nat} {type : String}
    (hidle : s.broker.calls call = .idle) (hbroker : t.broker = s.broker.draw call type)
    (hthreads : ∀ thread, Announcing (s.threads thread) → Announcing (t.threads thread)) :
    t.Underway queue := by
  have hcalls : ∀ other, s.broker.calls other ≠ .idle →
      t.broker.calls other = s.broker.calls other := by
    intro other hbusy
    rw [hbroker]
    exact BrokerState.calls_setCall_of_ne fun heq => hbusy (heq ▸ hidle)
  cases h with
  | announcing thread hthread => exact Underway.announcing thread (hthreads thread hthread)
  | popping other event hends hcall =>
    refine Underway.popping other event hends ?_
    rw [hcalls other (by rw [hcall]; exact fun heq => (by cases heq)), hcall]
  | publishing other event hends hcall =>
    refine Underway.publishing other event hends ?_
    rw [hcalls other (by rw [hcall]; exact fun heq => (by cases heq)), hcall]
  | handing other event queues hends hcall hmem =>
    refine Underway.handing other event queues hends ?_ hmem
    rw [hcalls other (by rw [hcall]; exact fun heq => (by cases heq)), hcall]
  | ready event hends hmem =>
    refine Underway.ready event hends ?_
    rw [hbroker]
    exact hmem

/-- A call that moves on leaves what the others have on the way. -/
theorem Underway.setCall (h : s.Underway queue) {call : Nat} {phase : PublishPhase}
    (hthreads : t.threads = s.threads) (hready : s.broker.ready ⊆ t.broker.ready)
    (hcalls : t.broker.calls = (s.broker.setCall call phase).calls)
    (hcall : ∀ event, event.ends = true → s.broker.calls call = .popping event ∨
        s.broker.calls call = .publishing event ∨
        (∃ queues, s.broker.calls call = .handing event queues ∧ queue ∈ queues) →
      t.Received queue ∨ t.Underway queue) : t.Received queue ∨ t.Underway queue := by
  have hother : ∀ other, other ≠ call → t.broker.calls other = s.broker.calls other := by
    intro other hne
    rw [hcalls]
    exact BrokerState.calls_setCall_of_ne hne
  cases h with
  | announcing thread hthread => exact Or.inr (Underway.announcing thread (hthreads ▸ hthread))
  | popping other event hends hphase =>
    by_cases hne : other = call
    · exact hcall event hends (Or.inl (hne ▸ hphase))
    · exact Or.inr (Underway.popping other event hends ((hother other hne).trans hphase))
  | publishing other event hends hphase =>
    by_cases hne : other = call
    · exact hcall event hends (Or.inr (Or.inl (hne ▸ hphase)))
    · exact Or.inr (Underway.publishing other event hends ((hother other hne).trans hphase))
  | handing other event queues hends hphase hmem =>
    by_cases hne : other = call
    · exact hcall event hends (Or.inr (Or.inr ⟨queues, hne ▸ hphase, hmem⟩))
    · exact Or.inr (Underway.handing other event queues hends ((hother other hne).trans hphase) hmem)
  | ready event hends hmem => exact Or.inr (Underway.ready event hends (hready hmem))

/-- **A step of the broker keeps a terminal event on its way**, while the subscriber is registered
and the loop is open. -/
theorem Underway.broker (h : s.Underway queue) {action : BrokerAction} {broker : BrokerState}
    (hmay : s.mayTake action = true) (heffect : s.broker.Effect queueSize action broker)
    (hroom : NoOverflow queueSize s (.broker action)) (hopen : broker.loopClosed = false)
    (hsubscribed : queue ∈ broker.subscribers) :
    Received { s with broker := broker } queue ∨ Underway { s with broker := broker } queue := by
  cases heffect with
  | draw hidle => exact Or.inr (h.draw hidle rfl fun _ hthread => hthread)
  | @pop call found hphase =>
    refine h.setCall rfl (List.Subset.refl _) rfl
      fun event hends hcases => Or.inr ?_
    have hsame : event = found := by
      rw [hphase] at hcases
      rcases hcases with hpop | hpublish | ⟨_, hhand, -⟩
      · exact (PublishPhase.popping.inj hpop).symm
      · cases hpublish
      · cases hhand
    exact Underway.publishing call event hends (hsame ▸ BrokerState.calls_setCall_self)
  | @capture call found hphase _ =>
    refine h.setCall rfl (List.Subset.refl _) rfl fun event hends hcases => Or.inr ?_
    have hsame : event = found := by
      rw [hphase] at hcases
      rcases hcases with hpop | hpublish | ⟨_, hhand, -⟩
      · cases hpop
      · exact (PublishPhase.publishing.inj hpublish).symm
      · cases hhand
    exact Underway.handing call event _ hends (hsame ▸ BrokerState.calls_setCall_self) hsubscribed
  | @hand call target found queues hphase htarget =>
    obtain ⟨ready, hready, hcases⟩ := s.broker.hand_eq call target found queues
    have hloop : ready = s.broker.ready ++ [(target, .event found)] := by
      rcases hcases with ⟨-, hclosed⟩ | ⟨hgrown, -⟩
      · rw [hready] at hopen
        rw [show s.broker.loopClosed = false from hopen] at hclosed
        cases hclosed
      · exact hgrown
    rw [hready]
    refine h.setCall rfl ?_ rfl fun event hends hevent => ?_
    · rw [hloop]
      exact List.subset_append_left _ _
    · rw [hphase] at hevent
      rcases hevent with hpop | hpublish | ⟨rest, hhand, hmem⟩
      · cases hpop
      · cases hpublish
      · obtain ⟨rfl, rfl⟩ := PublishPhase.handing.inj hhand
        right
        by_cases hthis : queue = target
        · refine Underway.ready found hends ?_
          rw [hloop, hthis]
          exact List.mem_append_right _ (List.mem_singleton_self _)
        · exact Underway.handing call found (queues.erase target) hends
            BrokerState.calls_setCall_self ((List.mem_erase_of_ne hthis).mpr hmem)
  | @done call found hphase =>
    refine h.setCall rfl (List.Subset.refl _) rfl fun event _ hevent => ?_
    rw [hphase] at hevent
    rcases hevent with hpop | hpublish | ⟨rest, hhand, hmem⟩
    · cases hpop
    · cases hpublish
    · rw [← (PublishPhase.handing.inj hhand).2] at hmem
      cases hmem
  | closeLoop => cases hopen
  | snapshot _ => cases hmay
  | register _ _ | snapshotFails _ | unsubscribe _ _ | get _ _ _ _ =>
    exact Or.inr (h.of_eq rfl rfl rfl)
  | closeAll _ => cases hsubscribed
  | @handClosed target _ =>
    obtain ⟨ready, hready, hcases⟩ := s.broker.handClosed_eq target
    rw [hready]
    cases h with
    | announcing thread hthread => exact Or.inr (Underway.announcing thread hthread)
    | popping call event hends hcall => exact Or.inr (Underway.popping call event hends hcall)
    | publishing call event hends hcall => exact Or.inr (Underway.publishing call event hends hcall)
    | handing call event queues hends hcall hmem =>
      exact Or.inr (Underway.handing call event queues hends hcall hmem)
    | ready event hends hmem =>
      refine Or.inr (Underway.ready event hends ?_)
      rcases hcases with ⟨rfl, -⟩ | ⟨rfl, -⟩
      · exact hmem
      · exact List.mem_append_left _ hmem
  | @runCallback target item rest hready _ =>
    cases h with
    | announcing thread hthread => exact Or.inr (Underway.announcing thread hthread)
    | popping call event hends hcall => exact Or.inr (Underway.popping call event hends hcall)
    | publishing call event hends hcall => exact Or.inr (Underway.publishing call event hends hcall)
    | handing call event queues hends hcall hmem =>
      exact Or.inr (Underway.handing call event queues hends hcall hmem)
    | ready event hends hmem =>
      rw [hready] at hmem
      rcases List.mem_cons.mp hmem with hhead | htail
      · -- the callback of this very event: there is room for it
        obtain ⟨rfl, rfl⟩ := Prod.mk.inj hhead
        have hfull : queueFull queueSize (s.broker.subs queue).queue = false := by
          simpa only [NoOverflow, hready] using hroom
        refine Or.inl ⟨event, ?_, hends⟩
        show event ∈ (Function.update s.broker.subs queue _ queue).arrived
        rw [Function.update_self]
        simp only [hfull, Bool.false_eq_true, if_false]
        exact List.mem_append_right _ (List.mem_singleton_self _)
      · exact Or.inr (Underway.ready event hends htail)

/-- What a step of the broker keeps of a subscriber. -/
structure KeepsSub (before after : Subscriber) : Prop where
  arrived : before.arrived ⊆ after.arrived
  used : before.used = true → after.used = true

theorem KeepsSub.refl (sub : Subscriber) : KeepsSub sub sub := ⟨List.Subset.refl _, id⟩

theorem keepsSub_update {before after : BrokerState} {target : Nat} {sub : Subscriber}
    (hsubs : after.subs = Function.update before.subs target sub)
    (hsub : KeepsSub (before.subs target) sub) (queue : Nat) :
    KeepsSub (before.subs queue) (after.subs queue) := by
  rw [hsubs]
  by_cases hqueue : queue = target
  · rw [hqueue, Function.update_self]
    exact hsub
  · rw [Function.update_of_ne hqueue]
    exact KeepsSub.refl _

/-- A queue stays in use, and what arrived in it since the snapshot stays there. -/
theorem keepsSub_effect {before after : BrokerState} {action : BrokerAction}
    (heffect : before.Effect queueSize action after) (hsnapshot : action ≠ .snapshot)
    (queue : Nat) : KeepsSub (before.subs queue) (after.subs queue) := by
  cases heffect with
  | snapshot _ => exact absurd rfl hsnapshot
  | draw _ | pop _ | capture _ _ | done _ | closeAll _ | closeLoop => exact KeepsSub.refl _
  | @handClosed target _ =>
    obtain ⟨ready, hready, -⟩ := before.handClosed_eq target
    rw [hready]
    exact KeepsSub.refl _
  | @hand call target event queues _ _ =>
    obtain ⟨ready, hready, -⟩ := before.hand_eq call target event queues
    rw [hready]
    refine keepsSub_update rfl ?_ queue
    exact ⟨List.Subset.refl _, id⟩
  | register _ _ =>
    refine keepsSub_update rfl ?_ queue
    exact ⟨List.Subset.refl _, fun _ => rfl⟩
  | snapshotFails _ | unsubscribe _ _ =>
    refine keepsSub_update rfl ?_ queue
    exact ⟨List.Subset.refl _, id⟩
  | @runCallback target item _ _ _ =>
    refine keepsSub_update rfl ?_ queue
    refine ⟨?_, id⟩
    cases item with
    | closed => exact List.Subset.refl _
    | event event =>
      show (before.subs target).arrived ⊆
        if queueFull queueSize (before.subs target).queue then (before.subs target).arrived
        else (before.subs target).arrived ++ [event]
      split
      · exact List.Subset.refl _
      · exact List.subset_append_left _ _
  | @get target item _ _ _ _ _ =>
    refine keepsSub_update rfl ?_ queue
    cases item with
    | closed | event _ => exact ⟨List.Subset.refl _, id⟩

/-- The registered queues and the one being registered, after a step of the broker. -/
theorem subscribers_effect {before after : BrokerState} {action : BrokerAction}
    (heffect : before.Effect queueSize action after) {queue : Nat} :
    (queue ∈ after.subscribers → queue ∈ before.subscribers ∨
        (before.subs queue).used = false) ∧
      (after.registering = some queue → before.registering = some queue ∨
        (after.subs queue).used = true) := by
  cases heffect with
  | @register target _ hunused =>
    constructor
    · intro hmem
      rcases List.mem_append.mp hmem with hold | hnew
      · exact Or.inl hold
      · rw [List.mem_singleton.mp hnew]
        exact Or.inr hunused
    · intro hregistering
      have hsame : target = queue := Option.some.inj hregistering
      right
      show (Function.update before.subs target _ queue).used = true
      rw [hsame, Function.update_self]
  | @hand call target event queues _ _ =>
    obtain ⟨ready, hready, -⟩ := before.hand_eq call target event queues
    rw [hready]
    exact ⟨Or.inl, Or.inl⟩
  | @handClosed target _ =>
    obtain ⟨ready, hready, -⟩ := before.handClosed_eq target
    rw [hready]
    exact ⟨Or.inl, Or.inl⟩
  | snapshot _ => exact ⟨Or.inl, fun hregistering => (by cases hregistering)⟩
  | snapshotFails _ =>
    exact ⟨fun hmem => Or.inl (List.mem_of_mem_erase hmem), fun hregistering => (by cases hregistering)⟩
  | unsubscribe _ _ => exact ⟨fun hmem => Or.inl (List.mem_of_mem_erase hmem), Or.inl⟩
  | closeAll _ => exact ⟨fun hmem => (by cases hmem), Or.inl⟩
  | _ => exact ⟨Or.inl, Or.inl⟩

/-! ## Every run keeps what it owes -/

/-- A step of a path that changes neither the broker nor what is recorded of the subscribers. -/
theorem Owing.setThread (h : s.Owing) {thread : Nat} {steps : List PathStep}
    (hnot : ¬Announcing (s.threads thread)) (hsteps : Announces steps) :
    (s.setThread thread steps).Owing where
  announces other := by
    by_cases hne : other = thread
    · rw [hne, threads_setThread_self]
      exact hsteps
    · rw [threads_setThread_of_ne hne]
      exact h.announces other
  registering_used := h.registering_used
  snapshot_used := h.snapshot_used
  owed hopen queue hmem hsnapshot hended := by
    rcases h.owed hopen queue hmem hsnapshot hended with hreceived | hunderway
    · exact Or.inl hreceived
    · exact Or.inr (hunderway.setThread hnot)

/-- A status stored by a path that goes on to announce it, or by one that stops. -/
theorem Owing.store (h : s.Owing) {status : TaskStatus} {goesOn : Bool}
    (hannounced : status.terminal = true → goesOn = true →
      ∃ thread, Announcing (s.threads thread)) : (s.store status goesOn).Owing where
  announces := h.announces
  registering_used := h.registering_used
  snapshot_used := h.snapshot_used
  owed hopen queue hmem hsnapshot hended := by
    have hwas : s.ended queue = true ∨ (status.terminal && goesOn) = true :=
      Bool.or_eq_true_iff.mp hended
    rcases hwas with hbefore | hnow
    · rcases h.owed hopen queue hmem hsnapshot hbefore with hreceived | hunderway
      · exact Or.inl hreceived
      · exact Or.inr (hunderway.of_eq rfl rfl rfl)
    · rw [Bool.and_eq_true] at hnow
      obtain ⟨thread, hthread⟩ := hannounced hnow.1 hnow.2
      exact Or.inr (Underway.announcing thread hthread)

/-- A step of the broker. -/
theorem Owing.broker (h : s.Owing) {action : BrokerAction} {broker : BrokerState}
    (hmay : s.mayTake action = true) (heffect : s.broker.Effect queueSize action broker)
    (hroom : NoOverflow queueSize s (.broker action)) : Owing { s with broker := broker } := by
  have hsnapshot : action ≠ .snapshot := fun heq => by rw [heq] at hmay; cases hmay
  have hkeeps := keepsSub_effect heffect hsnapshot
  have hopenBefore : broker.loopClosed = false → s.broker.loopClosed = false := by
    cases heffect with
    | closeLoop => intro hopen; cases hopen
    | @hand call target event queues _ _ =>
      obtain ⟨ready, hready, -⟩ := s.broker.hand_eq call target event queues
      rw [hready]
      exact id
    | @handClosed target _ =>
      obtain ⟨ready, hready, -⟩ := s.broker.handClosed_eq target
      rw [hready]
      exact id
    | _ => exact id
  refine ⟨h.announces, fun queue hregistering => ?_, fun queue hread => ?_, ?_⟩
  · rcases (subscribers_effect heffect).2 hregistering with hbefore | hused
    · exact (hkeeps queue).used (h.registering_used queue hbefore)
    · exact hused
  · exact (hkeeps queue).used (h.snapshot_used queue hread)
  · intro hopen queue hmem hread hended
    have hbefore : queue ∈ s.broker.subscribers := by
      rcases (subscribers_effect heffect).1 hmem with hold | hunused
      · exact hold
      · have hused := h.snapshot_used queue hread
        rw [hunused] at hused
        cases hused
    rcases h.owed (hopenBefore hopen) queue hbefore hread hended with hreceived | hunderway
    · exact Or.inl (hreceived.mono (hkeeps queue).arrived)
    · exact hunderway.broker hmay heffect hroom hopen hmem

/-- The snapshot of a subscriber is read: nothing is owed to it yet. -/
theorem Owing.readSnapshot (h : s.Owing) {target : Nat}
    (hregistering : s.broker.registering = some target) : (s.readSnapshot target).Owing := by
  have hsubs : ∀ queue, queue ≠ target →
      (s.broker.snapshot target).subs queue = s.broker.subs queue :=
    fun queue hne => Function.update_of_ne hne ..
  have hused : ∀ queue, (s.broker.subs queue).used = true →
      ((s.broker.snapshot target).subs queue).used = true := by
    intro queue hqueue
    by_cases hne : queue = target
    · rw [hne]
      show (Function.update s.broker.subs target _ target).used = true
      rw [Function.update_self]
      exact hne ▸ hqueue
    · rw [hsubs queue hne]
      exact hqueue
  refine ⟨h.announces, fun queue hnow => (by cases hnow), fun queue hread => hused queue ?_, ?_⟩
  · by_cases hne : queue = target
    · rw [hne]
      exact h.registering_used target hregistering
    · refine h.snapshot_used queue fun hnone => hread ?_
      show Function.update s.snapshots target _ queue = none
      rw [Function.update_of_ne hne]
      exact hnone
  · intro hopen queue hmem hread hended
    have hne : queue ≠ target := by
      rintro rfl
      have hnow : Function.update s.ended queue false queue = true := hended
      rw [Function.update_self] at hnow
      cases hnow
    have hread' : s.snapshots queue ≠ none := fun hnone => hread (by
      show Function.update s.snapshots target _ queue = none
      rw [Function.update_of_ne hne]
      exact hnone)
    have hended' : s.ended queue = true := by
      have hnow : Function.update s.ended target false queue = true := hended
      rwa [Function.update_of_ne hne] at hnow
    rcases h.owed hopen queue hmem hread' hended' with hreceived | hunderway
    · refine Or.inl (hreceived.mono ?_)
      show (s.broker.subs queue).arrived ⊆ ((s.broker.snapshot target).subs queue).arrived
      rw [hsubs queue hne]
      exact List.Subset.refl _
    · exact Or.inr (hunderway.of_eq rfl rfl rfl)

/-- **Every step without an overflow keeps what is owed.** -/
theorem owing_step {action : EndAction} (h : s.Owing) (hroom : NoOverflow queueSize s action)
    (hstep : EndStep queueSize s action t) : t.Owing := by
  cases action with
  | start thread path =>
    simp only [EndStep, next] at hstep
    split at hstep
    · next hidle =>
      rw [← Option.some.inj hstep]
      refine h.setThread ?_ path.announces
      rw [hidle.1]
      exact not_announcing_nil
    · cases hstep
  | check thread =>
    simp only [EndStep, next] at hstep
    split at hstep
    · next rest hthread =>
      rw [← Option.some.inj hstep]
      have hsteps := h.announces thread
      rw [hthread] at hsteps
      refine h.setThread ?_ ?_
      · rw [hthread]
        exact not_announcing_cons rfl
      · split
        · trivial
        · exact hsteps.tail
    · cases hstep
  | persist thread =>
    simp only [EndStep, next] at hstep
    split at hstep
    · next status rest hthread =>
      split at hstep
      · rw [← Option.some.inj hstep]
        have hsteps := h.announces thread
        rw [hthread] at hsteps
        have hmoved : (s.setThread thread rest).Owing := by
          refine h.setThread ?_ hsteps.tail
          rw [hthread]
          exact not_announcing_cons rfl
        refine hmoved.store fun hterminal _ => ⟨thread, ?_⟩
        rw [threads_setThread_self]
        exact hsteps.1 hterminal
      · cases hstep
    · cases hstep
  | persistRaises thread stored =>
    simp only [EndStep, next] at hstep
    split at hstep
    · next status rest hthread =>
      split at hstep
      · rw [← Option.some.inj hstep]
        have hdropped : (s.setThread thread []).Owing := by
          refine h.setThread ?_ trivial
          rw [hthread]
          exact not_announcing_cons rfl
        split
        · exact hdropped.store fun _ hgoes => (by cases hgoes)
        · exact hdropped
      · cases hstep
    · cases hstep
  | publish thread =>
    simp only [EndStep, next] at hstep
    split at hstep
    · next type rest hthread =>
      obtain ⟨broker, hbroker, rfl⟩ := Option.map_eq_some_iff.mp hstep
      have hsteps := h.announces thread
      rw [hthread] at hsteps
      cases BrokerState.next_effect hbroker with
      | draw hidle =>
        refine ⟨fun other => ?_, h.registering_used, h.snapshot_used, ?_⟩
        · by_cases hne : other = thread
          · rw [hne]
            show Announces (Function.update s.threads thread rest thread)
            rw [Function.update_self]
            exact hsteps.tail
          · show Announces (Function.update s.threads thread rest other)
            rw [Function.update_of_ne hne]
            exact h.announces other
        · intro hopen queue hmem hsnapshot hended
          rcases h.owed hopen queue hmem hsnapshot hended with hreceived | hunderway
          · exact Or.inl hreceived
          · right
            by_cases htype : type ∈ terminalTypes
            · exact underway_draw htype rfl
            · -- another event goes first: the terminal one is among the rest
              refine hunderway.draw hidle rfl fun other hother => ?_
              by_cases hne : other = thread
              · rw [hne, hthread] at hother
                rw [hne]
                show Announcing (Function.update s.threads thread rest thread)
                rw [Function.update_self]
                exact (announcing_publish hother).resolve_left htype
              · show Announcing (Function.update s.threads thread rest other)
                rw [Function.update_of_ne hne]
                exact hother
    · cases hstep
  | snapshot =>
    obtain ⟨target, htarget, rfl⟩ := Option.map_eq_some_iff.mp hstep
    exact h.readSnapshot htarget
  | broker action =>
    simp only [EndStep, next] at hstep
    split at hstep
    · next hmay =>
      obtain ⟨broker, hbroker, rfl⟩ := Option.map_eq_some_iff.mp hstep
      exact h.broker hmay (BrokerState.next_effect hbroker) hroom
    · cases hstep

/-! ## When the stored status tells that the task ended -/

/-- A subscriber with a live snapshot whose task has not ended since finds it live still. -/
def StatusTold (s : EndState) : Prop :=
  ∀ queue status, s.snapshots queue = some status → status.terminal = false →
    s.ended queue = false → s.status.terminal = false

theorem statusTold_step {action : EndAction} (h : s.StatusTold) (hwhole : NotTorn action)
    (hstep : EndStep queueSize s action t) : t.StatusTold := by
  cases action with
  | start thread path =>
    simp only [EndStep, next] at hstep
    split at hstep
    · exact Option.some.inj hstep ▸ h
    · cases hstep
  | check thread =>
    simp only [EndStep, next] at hstep
    split at hstep
    · exact Option.some.inj hstep ▸ h
    · cases hstep
  | persist thread =>
    simp only [EndStep, next] at hstep
    split at hstep
    · next status rest hthread =>
      split at hstep
      · rw [← Option.some.inj hstep]
        intro queue snapshot _ _ hended
        have hnot : (s.ended queue || (status.terminal && true)) = false := hended
        rw [Bool.and_true, Bool.or_eq_false_iff] at hnot
        exact hnot.2
      · cases hstep
    · cases hstep
  | persistRaises thread stored =>
    simp only [EndStep, next] at hstep
    split at hstep
    · split at hstep
      · rw [show stored = false from hwhole] at hstep
        exact Option.some.inj hstep ▸ h
      · cases hstep
    · cases hstep
  | publish thread =>
    simp only [EndStep, next] at hstep
    split at hstep
    · obtain ⟨broker, -, rfl⟩ := Option.map_eq_some_iff.mp hstep
      exact h
    · cases hstep
  | snapshot =>
    obtain ⟨target, -, rfl⟩ := Option.map_eq_some_iff.mp hstep
    intro queue status hread hlive hended
    by_cases hne : queue = target
    · have hnow : Function.update s.snapshots target (some s.status) queue = some status := hread
      rw [hne, Function.update_self] at hnow
      rw [← Option.some.inj hnow] at hlive
      exact hlive
    · have hread' : Function.update s.snapshots target (some s.status) queue = some status := hread
      have hended' : Function.update s.ended target false queue = false := hended
      rw [Function.update_of_ne hne] at hread' hended'
      exact h queue status hread' hlive hended'
  | broker action =>
    simp only [EndStep, next] at hstep
    split at hstep
    · obtain ⟨broker, -, rfl⟩ := Option.map_eq_some_iff.mp hstep
      exact h
    · cases hstep

/-! ## What is in progress can go on -/

/-- **What is in progress can always go on**, while the loop is open. -/
theorem not_quiet_enabled (hopen : s.broker.loopClosed = false) (hbusy : ¬s.Quiet) :
    ∃ action t, action.finishes = true ∧ EndStep queueSize s action t := by
  by_contra hstuck
  have hnone : ∀ action : EndAction, action.finishes = true → s.next queueSize action = none := by
    intro action hfinishes
    by_contra hsome
    obtain ⟨t, ht⟩ := Option.ne_none_iff_exists'.mp hsome
    exact hstuck ⟨action, t, hfinishes, ht⟩
  have hregistering : s.broker.registering = none := by
    have hsnapshot := hnone .snapshot rfl
    simp only [next, Option.map_eq_none_iff] at hsnapshot
    exact hsnapshot
  have hcalls : ∀ call, s.broker.calls call = .idle := by
    intro call
    cases hphase : s.broker.calls call with
    | idle => rfl
    | popping event =>
      have hpop := hnone (.broker (.pop call)) rfl
      simp [next, mayTake, BrokerState.next, hphase] at hpop
    | publishing event =>
      have hcapture := hnone (.broker (.capture call)) rfl
      simp [next, mayTake, BrokerState.next, hphase, hregistering] at hcapture
    | handing event queues =>
      cases queues with
      | nil =>
        have hdone := hnone (.broker (.done call)) rfl
        simp [next, mayTake, BrokerState.next, hphase] at hdone
      | cons target queues =>
        have hhand := hnone (.broker (.hand call target)) rfl
        simp [next, mayTake, BrokerState.next, hphase] at hhand
  refine hbusy ⟨fun thread => ?_, hcalls, hregistering, ?_⟩
  · cases hthread : s.threads thread with
    | nil => rfl
    | cons step rest =>
      cases step with
      | stopIfTerminal =>
        have hcheck := hnone (.check thread) rfl
        simp [next, hthread] at hcheck
      | persist status =>
        have hpersist := hnone (.persist thread) rfl
        simp [next, hthread, hcalls thread] at hpersist
      | publish type =>
        have hpublish := hnone (.publish thread) rfl
        simp [next, hthread, BrokerState.next, hcalls thread] at hpublish
  · cases hready : s.broker.ready with
    | nil => rfl
    | cons entry rest =>
      have hcallback := hnone (.broker .runCallback) rfl
      simp [next, mayTake, BrokerState.next, hready, hopen] at hcallback

/-! ## No subscriber misses the end -/

theorem owing_initial : ({} : EndState).Owing where
  announces _ := trivial
  registering_used _ hregistering := by cases hregistering
  snapshot_used _ hread := absurd rfl hread
  owed _ _ hmem := by cases hmem

theorem statusTold_initial : ({} : EndState).StatusTold := fun _ _ hread => (by cases hread)

/-- Nothing is on its way once nothing is in progress. -/
theorem Quiet.not_underway (h : s.Quiet) : ¬s.Underway queue := by
  intro hunderway
  cases hunderway with
  | announcing thread hthread =>
    rw [h.threads thread] at hthread
    exact not_announcing_nil hthread
  | popping call event _ hcall =>
    rw [h.calls call] at hcall
    cases hcall
  | publishing call event _ hcall =>
    rw [h.calls call] at hcall
    cases hcall
  | handing call event queues _ hcall _ =>
    rw [h.calls call] at hcall
    cases hcall
  | ready event _ hmem =>
    rw [h.ready] at hmem
    cases hmem

/--
**No subscriber misses the end of its task.**

Every run of the paths on which a task ends, of any other code that persists or publishes, of any
number of subscribers and of the event loop, in which no callback finds a full queue. As long as
something is in progress and the loop is open, a step of it can be taken. Once nothing is, a
subscriber that is still registered and whose snapshot was not terminal has a terminal event in its
queue since the snapshot, if a path has persisted a terminal status since and went on; and where no
update raises once it has stored its status, if the stored status is terminal.
-/
theorem end_not_missed (queueSize : Int) {ms : List (Move EndState EndAction)}
    (h : Run (EndStep queueSize) {} ms t) (hroom : ∀ m ∈ ms, NoOverflow queueSize m.pre m.act)
    (hopen : t.broker.loopClosed = false) :
    (¬t.Quiet → ∃ action u, action.finishes = true ∧ EndStep queueSize t action u) ∧
      (t.Quiet → ∀ queue, t.Waiting queue →
        (t.ended queue = true → t.Received queue) ∧
          ((∀ m ∈ ms, NotTorn m.act) → t.status.terminal = true → t.Received queue)) := by
  refine ⟨not_quiet_enabled hopen, fun hquiet queue hwaiting => ?_⟩
  have howing : t.Owing := (h.invariant
    (fun _ _ _ howing hguard hstep => owing_step howing hguard hstep) owing_initial hroom).1
  obtain ⟨status, hread, hlive⟩ := hwaiting.live
  have hreceived : t.ended queue = true → t.Received queue := by
    intro hended
    have hsome : t.snapshots queue ≠ none := by
      rw [hread]
      exact Option.some_ne_none _
    rcases howing.owed hopen queue hwaiting.subscribed hsome hended with hnow | hunderway
    · exact hnow
    · exact absurd hunderway hquiet.not_underway
  refine ⟨hreceived, fun hwhole hterminal => hreceived ?_⟩
  have htold : t.StatusTold := (h.invariant
    (fun _ _ _ htold hguard hstep => statusTold_step htold hguard hstep) statusTold_initial
      hwhole).1
  cases hended : t.ended queue with
  | true => rfl
  | false =>
    rw [htold queue status hread hlive hended] at hterminal
    cases hterminal

/-! ## A task completed by its Worker -/

/-- A subscriber registers, the Worker reports the end, and the loop runs its callbacks. -/
def completedRun : List EndAction :=
  [.broker (.register 0), .snapshot, .start 1 (.handleTerminal ⟨.completed, rfl⟩), .persist 1,
   .publish 1, .broker (.capture 1), .broker (.hand 1 0), .broker (.done 1),
   .publish 1, .broker (.pop 1), .broker (.capture 1), .broker (.hand 1 0), .broker (.done 1),
   .broker .runCallback, .broker .runCallback]

/-- The subscriber of a task that completes has its terminal event. -/
theorem end_not_missed_completed : ∃ t ms, Run (EndStep 16) {} ms t ∧ t.status = .completed ∧
    t.Received 0 := by
  obtain ⟨t, ht⟩ : ∃ t, execute (next 16) {} completedRun = some t := ⟨_, rfl⟩
  have hrun := Run.of_execute (fun _ _ _ hnext => hnext) ht
  have hroom : ∀ m ∈ movesOf (next 16) {} completedRun, NoOverflow 16 m.pre m.act := by
    decide +kernel
  have hstate := Option.some.inj ht
  -- only the first thread did anything, and it is done
  have hquiet : t.Quiet := by
    rw [← hstate]
    refine ⟨fun thread => ?_, fun call => ?_, rfl, rfl⟩
    · by_cases hthread : thread = 1
      · rw [hthread]
        rfl
      · show Function.update (Function.update (Function.update (Function.update
          (fun _ => []) 1 _) 1 _) 1 _) 1 _ thread = []
        simp only [Function.update_of_ne hthread]
    · by_cases hcall : call = 1
      · rw [hcall]
        rfl
      · show Function.update (Function.update (Function.update (Function.update (Function.update
          (Function.update (Function.update (Function.update (Function.update
            (fun _ => PublishPhase.idle) 1 _) 1 _) 1 _) 1 _) 1 _) 1 _) 1 _) 1 _) 1 _ call = .idle
        simp only [Function.update_of_ne hcall]
  have hwaiting : t.Waiting 0 := by
    rw [← hstate]
    exact ⟨List.mem_singleton_self _, .queued, rfl, rfl⟩
  have hopen : t.broker.loopClosed = false := by
    rw [← hstate]
    rfl
  have hended : t.ended 0 = true := by
    rw [← hstate]
    rfl
  refine ⟨t, _, hrun, by rw [← hstate]; rfl, ?_⟩
  exact (((end_not_missed 16 hrun hroom hopen).2 hquiet) 0 hwaiting).1 hended

end EndState

end ThreadForge

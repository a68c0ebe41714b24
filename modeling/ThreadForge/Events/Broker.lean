import Mathlib.Logic.Function.Basic
import Mathlib.Data.List.Basic
import ThreadForge.Lib.Transition

/-!
# The events of one task

`EventPublisher.publish` draws the number of an event under its own lock, forgets the counter at a
terminal event, and hands the event to `EventBroker.publish`. The broker reads the subscribers under
a second lock and schedules one callback for each queue, and the event loop runs the callbacks. The
dictionaries are keyed by task and nothing passes from one task to another: a state here is the part
of one task.

Each action is one critical section, one call into the event loop, or one callback of it. Any number
of calls of `publish` run at once, each on a thread of its own.

## What the state remembers

`drawn` lists the numbers in the order they were drawn, and `captured` those whose call has read the
subscribers. A subscriber keeps what was captured before it was registered, the numbers handed to it,
and what arrived in its queue since its snapshot.
-/

namespace ThreadForge

open Transition

/-! ## Events and queues -/

/-- `_TERMINAL_TYPES`, of the publisher and of the event stream. -/
def terminalTypes : List String :=
  ["task.completed", "task.cancelled", "task.failed", "task.interrupted", "task.blocked"]

/-- The envelope of an event: what the stream reads of it. -/
structure PublicEvent where
  sequence : Nat
  type : String
  deriving DecidableEq, Repr

/-- The event ends the stream of a subscriber. -/
def PublicEvent.ends (event : PublicEvent) : Bool := event.type ∈ terminalTypes

/-- What a queue holds: events, and the marker `CLOSED`. -/
inductive QueueItem
  | closed
  | event (event : PublicEvent)
  deriving DecidableEq, Repr

def QueueItem.isEvent : QueueItem → Bool
  | .closed => false
  | .event _ => true

/-- `Queue.full`: a size that is not positive is no bound. -/
def queueFull (queueSize : Int) (queue : List QueueItem) : Bool :=
  0 < queueSize ∧ queueSize ≤ queue.length

/-- `EventBroker._enqueue`. -/
def enqueue (queueSize : Int) (queue : List QueueItem) (item : QueueItem) : List QueueItem :=
  if queueFull queueSize queue then
    -- one item is discarded to make room for the marker
    if queueFull queueSize queue.tail then queue.tail else queue.tail ++ [.closed]
  else queue ++ [item]

/-- One subscriber: its queue, and the coroutine that reads it. -/
structure Subscriber where
  /-- The queue has been registered. -/
  used : Bool := false
  /-- The coroutine has left its loop. -/
  ended : Bool := false
  queue : List QueueItem := []
  taken : List PublicEvent := []
  missed : List Nat := []
  handed : List Nat := []
  arrived : List PublicEvent := []
  deriving DecidableEq, Repr

/-- Where one call of `EventPublisher.publish` stands. -/
inductive PublishPhase
  | idle
  /-- A terminal event: the counter has to be forgotten. -/
  | popping (event : PublicEvent)
  /-- The subscribers have to be read. -/
  | publishing (event : PublicEvent)
  /-- The queues the event still has to be handed to. -/
  | handing (event : PublicEvent) (queues : List Nat)
  deriving DecidableEq, Repr

/-- The publisher, the broker and the event loop, as far as one task goes. -/
structure BrokerState where
  counter : Option Nat := none
  subscribers : List Nat := []
  subs : Nat → Subscriber := fun _ => {}
  /-- The call of `subscribe` that holds the lock of the broker. -/
  registering : Option Nat := none
  calls : Nat → PublishPhase := fun _ => .idle
  /-- The queues `close_all` still has to hand the marker to. -/
  closing : List Nat := []
  /-- The callbacks of the event loop, the next first. -/
  ready : List (Nat × QueueItem) := []
  loopClosed : Bool := false
  drawn : List Nat := []
  captured : List Nat := []

/-- One step of the publishing threads, the subscribers and the event loop. -/
inductive BrokerAction
  | draw (call : Nat) (type : String)
  | pop (call : Nat)
  | capture (call : Nat)
  | hand (call : Nat) (queue : Nat)
  | done (call : Nat)
  | register (queue : Nat)
  | snapshot
  | snapshotFails
  | unsubscribe (queue : Nat)
  | closeAll
  | handClosed (queue : Nat)
  | closeLoop
  | runCallback
  | get (queue : Nat)
  deriving DecidableEq, Repr

namespace BrokerState

/-- The state with what `fn` makes of a subscriber. -/
def modifySub (s : BrokerState) (queue : Nat) (fn : Subscriber → Subscriber) : BrokerState :=
  { s with subs := Function.update s.subs queue (fn (s.subs queue)) }

/-- The state with a call in its next phase. -/
def setCall (s : BrokerState) (call : Nat) (phase : PublishPhase) : BrokerState :=
  { s with calls := Function.update s.calls call phase }

/-- `call_soon_threadsafe`: a closed loop takes no callback. -/
def callSoon (s : BrokerState) (queue : Nat) (item : QueueItem) : BrokerState :=
  if s.loopClosed then s else { s with ready := s.ready ++ [(queue, item)] }

/-! ## `publish` -/

/-- The first critical section of `publish`. -/
def draw (s : BrokerState) (call : Nat) (type : String) : BrokerState :=
  let sequence := s.counter.getD 0
  let event : PublicEvent := { sequence := sequence, type := type }
  { s.setCall call (if event.ends then .popping event else .publishing event) with
    counter := some (sequence + 1)
    drawn := s.drawn ++ [sequence] }

/-- The second critical section of `publish`, at a terminal event. -/
def pop (s : BrokerState) (call : Nat) (event : PublicEvent) : BrokerState :=
  { s.setCall call (.publishing event) with counter := none }

/-- `EventBroker.publish` reads the subscribers. -/
def capture (s : BrokerState) (call : Nat) (event : PublicEvent) : BrokerState :=
  { s.setCall call (.handing event s.subscribers) with captured := s.captured ++ [event.sequence] }

/-- The event is handed to one of the queues. -/
def hand (s : BrokerState) (call : Nat) (event : PublicEvent) (queues : List Nat) (queue : Nat) :
    BrokerState :=
  ((s.setCall call (.handing event (queues.erase queue))).callSoon queue (.event event)).modifySub
    queue fun sub => { sub with handed := sub.handed ++ [event.sequence] }

/-! ## `subscribe` and the event stream -/

/-- `subscribe` up to the snapshot: the lock is held. -/
def register (s : BrokerState) (queue : Nat) : BrokerState :=
  { s.modifySub queue fun sub => { sub with used := true, missed := s.captured } with
    subscribers := s.subscribers ++ [queue]
    registering := some queue }

/-- The snapshot was read: the lock is free, and what arrives from here on is new. -/
def snapshot (s : BrokerState) (queue : Nat) : BrokerState :=
  { s.modifySub queue fun sub => { sub with arrived := [] } with registering := none }

/-- The snapshot could not be read. -/
def snapshotFails (s : BrokerState) (queue : Nat) : BrokerState :=
  { s.modifySub queue fun sub => { sub with ended := true } with
    subscribers := s.subscribers.erase queue
    registering := none }

/-- The stream ends: `unsubscribe`. -/
def unsubscribe (s : BrokerState) (queue : Nat) : BrokerState :=
  { s.modifySub queue fun sub => { sub with ended := true } with
    subscribers := s.subscribers.erase queue }

/-- `close_all` clears the subscribers. -/
def closeAll (s : BrokerState) : BrokerState :=
  { s with subscribers := [], closing := s.closing ++ s.subscribers }

/-- `close_all` hands the marker to one of the queues. -/
def handClosed (s : BrokerState) (queue : Nat) : BrokerState :=
  { s with closing := s.closing.erase queue }.callSoon queue .closed

/-- One callback of the event loop. -/
def runCallback (queueSize : Int) (s : BrokerState) (queue : Nat) (item : QueueItem)
    (rest : List (Nat × QueueItem)) : BrokerState :=
  { s.modifySub queue fun sub =>
      { sub with
        queue := enqueue queueSize sub.queue item
        arrived := match item with
          | .event event =>
            if queueFull queueSize sub.queue then sub.arrived else sub.arrived ++ [event]
          | .closed => sub.arrived } with
    ready := rest }

/-- One turn of the loop of the event stream: the coroutine leaves it at the marker and after a
terminal event. -/
def take (s : BrokerState) (queue : Nat) (item : QueueItem) (rest : List QueueItem) :
    BrokerState :=
  s.modifySub queue fun sub =>
    match item with
    | .closed => { sub with queue := rest, ended := true }
    | .event event =>
      { sub with queue := rest, taken := sub.taken ++ [event], ended := event.ends }

/-- The state after a step, where the step can be taken. -/
def next (queueSize : Int) (s : BrokerState) : BrokerAction → Option BrokerState
  | .draw call type => if s.calls call = .idle then some (s.draw call type) else none
  | .pop call =>
    match s.calls call with
    | .popping event => some (s.pop call event)
    | _ => none
  | .capture call =>
    match s.calls call with
    | .publishing event => if s.registering = none then some (s.capture call event) else none
    | _ => none
  | .hand call queue =>
    match s.calls call with
    | .handing event queues =>
      if queue ∈ queues then some (s.hand call event queues queue) else none
    | _ => none
  | .done call =>
    match s.calls call with
    | .handing _ [] => some (s.setCall call .idle)
    | _ => none
  | .register queue =>
    if s.registering = none ∧ (s.subs queue).used = false then some (s.register queue) else none
  | .snapshot => s.registering.map s.snapshot
  | .snapshotFails => s.registering.map s.snapshotFails
  | .unsubscribe queue =>
    if s.registering = none ∧ (s.subs queue).used then some (s.unsubscribe queue) else none
  | .closeAll => if s.registering = none then some s.closeAll else none
  | .handClosed queue => if queue ∈ s.closing then some (s.handClosed queue) else none
  | .closeLoop => some { s with loopClosed := true }
  | .runCallback =>
    match s.ready with
    | (queue, item) :: rest =>
      if s.loopClosed then none else some (runCallback queueSize s queue item rest)
    | [] => none
  | .get queue =>
    match (s.subs queue).queue with
    | item :: rest =>
      if (s.subs queue).ended ∨ s.registering = some queue ∨ s.loopClosed then none
      else some (s.take queue item rest)
    | [] => none

/-- The publisher, the broker and the event loop as a transition system. -/
abbrev BrokerStep (queueSize : Int) (s : BrokerState) (action : BrokerAction) (t : BrokerState) :
    Prop :=
  s.next queueSize action = some t

/-- What each step does, and when. -/
inductive Effect (queueSize : Int) (s : BrokerState) : BrokerAction → BrokerState → Prop
  | draw {call : Nat} {type : String} :
      s.calls call = .idle → Effect queueSize s (.draw call type) (s.draw call type)
  | pop {call : Nat} {event : PublicEvent} :
      s.calls call = .popping event → Effect queueSize s (.pop call) (s.pop call event)
  | capture {call : Nat} {event : PublicEvent} :
      s.calls call = .publishing event → s.registering = none →
      Effect queueSize s (.capture call) (s.capture call event)
  | hand {call queue : Nat} {event : PublicEvent} {queues : List Nat} :
      s.calls call = .handing event queues → queue ∈ queues →
      Effect queueSize s (.hand call queue) (s.hand call event queues queue)
  | done {call : Nat} {event : PublicEvent} :
      s.calls call = .handing event [] → Effect queueSize s (.done call) (s.setCall call .idle)
  | register {queue : Nat} :
      s.registering = none → (s.subs queue).used = false →
      Effect queueSize s (.register queue) (s.register queue)
  | snapshot {queue : Nat} :
      s.registering = some queue → Effect queueSize s .snapshot (s.snapshot queue)
  | snapshotFails {queue : Nat} :
      s.registering = some queue → Effect queueSize s .snapshotFails (s.snapshotFails queue)
  | unsubscribe {queue : Nat} :
      s.registering = none → (s.subs queue).used = true →
      Effect queueSize s (.unsubscribe queue) (s.unsubscribe queue)
  | closeAll : s.registering = none → Effect queueSize s .closeAll s.closeAll
  | handClosed {queue : Nat} :
      queue ∈ s.closing → Effect queueSize s (.handClosed queue) (s.handClosed queue)
  | closeLoop : Effect queueSize s .closeLoop { s with loopClosed := true }
  | runCallback {queue : Nat} {item : QueueItem} {rest : List (Nat × QueueItem)} :
      s.ready = (queue, item) :: rest → s.loopClosed = false →
      Effect queueSize s .runCallback (runCallback queueSize s queue item rest)
  | get {queue : Nat} {item : QueueItem} {rest : List QueueItem} :
      (s.subs queue).queue = item :: rest → (s.subs queue).ended = false →
      s.registering ≠ some queue → s.loopClosed = false →
      Effect queueSize s (.get queue) (s.take queue item rest)

theorem next_effect {queueSize : Int} {s t : BrokerState} {action : BrokerAction}
    (hstep : BrokerStep queueSize s action t) : Effect queueSize s action t := by
  cases action with
  | draw call type =>
    simp only [BrokerStep, next] at hstep
    split at hstep
    · next hidle => exact Option.some.inj hstep ▸ Effect.draw hidle
    · cases hstep
  | pop call =>
    simp only [BrokerStep, next] at hstep
    split at hstep
    · next hcall => exact Option.some.inj hstep ▸ Effect.pop hcall
    · cases hstep
  | capture call =>
    simp only [BrokerStep, next] at hstep
    split at hstep
    · next hcall =>
      split at hstep
      · next hfree => exact Option.some.inj hstep ▸ Effect.capture hcall hfree
      · cases hstep
    · cases hstep
  | hand call queue =>
    simp only [BrokerStep, next] at hstep
    split at hstep
    · next hcall =>
      split at hstep
      · next hqueue => exact Option.some.inj hstep ▸ Effect.hand hcall hqueue
      · cases hstep
    · cases hstep
  | done call =>
    simp only [BrokerStep, next] at hstep
    split at hstep
    · next hcall => exact Option.some.inj hstep ▸ Effect.done hcall
    · cases hstep
  | register queue =>
    simp only [BrokerStep, next] at hstep
    split at hstep
    · next hfree => exact Option.some.inj hstep ▸ Effect.register hfree.1 hfree.2
    · cases hstep
  | snapshot =>
    obtain ⟨queue, hqueue, rfl⟩ := Option.map_eq_some_iff.mp hstep
    exact Effect.snapshot hqueue
  | snapshotFails =>
    obtain ⟨queue, hqueue, rfl⟩ := Option.map_eq_some_iff.mp hstep
    exact Effect.snapshotFails hqueue
  | unsubscribe queue =>
    simp only [BrokerStep, next] at hstep
    split at hstep
    · next hfree => exact Option.some.inj hstep ▸ Effect.unsubscribe hfree.1 hfree.2
    · cases hstep
  | closeAll =>
    simp only [BrokerStep, next] at hstep
    split at hstep
    · next hfree => exact Option.some.inj hstep ▸ Effect.closeAll hfree
    · cases hstep
  | handClosed queue =>
    simp only [BrokerStep, next] at hstep
    split at hstep
    · next hqueue => exact Option.some.inj hstep ▸ Effect.handClosed hqueue
    · cases hstep
  | closeLoop => exact Option.some.inj hstep ▸ Effect.closeLoop
  | runCallback =>
    simp only [BrokerStep, next] at hstep
    split at hstep
    · next hready =>
      split at hstep
      · cases hstep
      · next hopen =>
        exact Option.some.inj hstep ▸ Effect.runCallback hready (Bool.not_eq_true _ ▸ hopen)
    · cases hstep
  | get queue =>
    simp only [BrokerStep, next] at hstep
    split at hstep
    · next hqueue =>
      split at hstep
      · cases hstep
      · next hreading =>
        rw [not_or, not_or, Bool.not_eq_true, Bool.not_eq_true] at hreading
        exact Option.some.inj hstep ▸ Effect.get hqueue hreading.1 hreading.2.1 hreading.2.2
    · cases hstep

/-! ## What a step reads -/

variable {s : BrokerState} {queue other call : Nat} {fn : Subscriber → Subscriber}

@[simp] theorem subs_modifySub_self : (s.modifySub queue fn).subs queue = fn (s.subs queue) :=
  Function.update_self ..

@[simp] theorem calls_setCall_self {phase : PublishPhase} :
    (s.setCall call phase).calls call = phase :=
  Function.update_self ..

/-- A callback handed to the loop changes nothing but what the loop will run. -/
theorem callSoon_eq (s : BrokerState) (queue : Nat) (item : QueueItem) :
    ∃ ready, s.callSoon queue item = { s with ready := ready } ∧
      (ready = s.ready ∧ s.loopClosed = true ∨
        ready = s.ready ++ [(queue, item)] ∧ s.loopClosed = false) := by
  unfold callSoon
  split
  · next hclosed => exact ⟨s.ready, rfl, Or.inl ⟨rfl, hclosed⟩⟩
  · next hopen => exact ⟨_, rfl, Or.inr ⟨rfl, Bool.not_eq_true _ ▸ hopen⟩⟩

/-- An event handed over: the call has one queue less, the subscriber one number more. -/
theorem hand_eq (s : BrokerState) (call queue : Nat) (event : PublicEvent) (queues : List Nat) :
    ∃ ready, s.hand call event queues queue =
        { (s.setCall call (.handing event (queues.erase queue))).modifySub queue
            (fun sub => { sub with handed := sub.handed ++ [event.sequence] }) with
          ready := ready } ∧
      (ready = s.ready ∧ s.loopClosed = true ∨
        ready = s.ready ++ [(queue, .event event)] ∧ s.loopClosed = false) := by
  obtain ⟨ready, hready, hcases⟩ :=
    (s.setCall call (.handing event (queues.erase queue))).callSoon_eq queue (.event event)
  exact ⟨ready, by rw [hand, hready]; rfl, hcases⟩

theorem handClosed_eq (s : BrokerState) (queue : Nat) :
    ∃ ready, s.handClosed queue =
        { s with closing := s.closing.erase queue, ready := ready } ∧
      (ready = s.ready ∧ s.loopClosed = true ∨
        ready = s.ready ++ [(queue, .closed)] ∧ s.loopClosed = false) :=
  { s with closing := s.closing.erase queue }.callSoon_eq queue .closed

theorem calls_setCall_of_ne {phase : PublishPhase} (h : other ≠ call) :
    (s.setCall call phase).calls other = s.calls other :=
  Function.update_of_ne h ..

end BrokerState

end ThreadForge

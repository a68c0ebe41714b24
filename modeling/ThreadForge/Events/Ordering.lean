import ThreadForge.Events.Broker
import ThreadForge.Lib.Gapless
import Mathlib.Data.List.Nodup

/-!
# The order of a subscriber's events

The numbers of a task's events are meant to grow by one, and a subscriber is meant to see them in
that order. The calls that draw the numbers are not the ones that deliver: a call can be overtaken
between its two locks, the counter is forgotten at a terminal event, and a full queue loses its
oldest item.

## Main results

* `BrokerState.drawn_nodup_iff` — when no two events carry one number.
* `BrokerState.Ordered.hand_next` — what is handed over in order follows what was handed over last.
* `BrokerState.stream_gapless` — when every subscriber sees consecutive numbers.
-/

namespace ThreadForge

open Transition

/-- The number of an item; the marker has none. -/
def QueueItem.number? : QueueItem → Option Nat
  | .closed => none
  | .event found => some found.sequence

/-- The event of a call on its way. -/
def PublishPhase.event? : PublishPhase → Option PublicEvent
  | .idle => none
  | .popping event | .publishing event | .handing event _ => some event

/-- The event of a call that has not read the subscribers. -/
def PublishPhase.waiting? : PublishPhase → Option PublicEvent
  | .popping event | .publishing event => some event
  | .idle | .handing .. => none

theorem PublishPhase.event?_of_waiting? {phase : PublishPhase} {event : PublicEvent}
    (h : phase.waiting? = some event) : phase.event? = some event := by
  cases phase with
  | popping | publishing => exact h
  | idle | handing => cases h

namespace BrokerState

/-! ## The law and its guard -/

/-- **Each subscriber sees a gap-free ordered stream**: no two events drew one number, and what a
subscriber has taken is numbered without a gap. -/
structure StreamLaw (s : BrokerState) : Prop where
  drawn : s.drawn.Nodup
  taken : ∀ queue, ∃ start, (s.subs queue).taken.map PublicEvent.sequence =
    List.range' start (s.subs queue).taken.length

/-- The counter is there, or the event is the first of the task. -/
def DrawGuard (s : BrokerState) : BrokerAction → Prop
  | .draw .. => s.counter ≠ none ∨ s.drawn = []
  | _ => True

/-- An event is handed over in its turn: every lower number was handed to the subscriber before, or
was past the reading of the subscribers when it registered, and no higher number was. -/
def InTurn (sub : Subscriber) (sequence : Nat) : Prop :=
  (∀ m, m < sequence → m ∈ sub.missed ∨ m ∈ sub.handed) ∧ ∀ m ∈ sub.missed, m < sequence

/-- A full queue loses its oldest item to a subscriber that has taken nothing, or that finds no event
behind it. -/
def LossUnseen (sub : Subscriber) : Prop :=
  sub.taken = [] ∨ ∀ item ∈ sub.queue.tail.head?, item.isEvent = false

/-- The counter is not restarted, the events are handed over in their turn, and no loss is seen. -/
def StreamGuard (queueSize : Int) (s : BrokerState) : BrokerAction → Prop
  | .draw .. => s.counter ≠ none ∨ s.drawn = []
  | .hand call queue =>
    match s.calls call with
    | .handing event _ => InTurn (s.subs queue) event.sequence
    | _ => True
  | .runCallback =>
    match s.ready with
    | (queue, _) :: _ =>
      queueFull queueSize (s.subs queue).queue = true → (s.subs queue).ended = false →
        LossUnseen (s.subs queue)
    | [] => True
  | _ => True

instance (sub : Subscriber) (sequence : Nat) : Decidable (InTurn sub sequence) :=
  inferInstanceAs (Decidable (_ ∧ _))

instance (sub : Subscriber) : Decidable (LossUnseen sub) := inferInstanceAs (Decidable (_ ∨ _))

instance (queueSize : Int) (s : BrokerState) (action : BrokerAction) :
    Decidable (StreamGuard queueSize s action) := by
  unfold StreamGuard
  split
  · infer_instance
  · split <;> infer_instance
  · split <;> infer_instance
  · infer_instance

/-! ## The numbers -/

/-- The numbers drawn are those below their count, and a counter stands at it. -/
structure Counted (s : BrokerState) : Prop where
  drawn : s.drawn = List.range s.drawn.length
  counter : ∀ n, s.counter = some n → n = s.drawn.length

/-- The count and the counter of a state no draw led to. -/
theorem Counted.of_eq {s t : BrokerState} (h : s.Counted) (hdrawn : t.drawn = s.drawn)
    (hcounter : t.counter = s.counter ∨ t.counter = none) : t.Counted where
  drawn := by rw [hdrawn]; exact h.drawn
  counter n hn := by
    rw [hdrawn]
    rcases hcounter with hsame | hnone
    · exact h.counter n (hsame ▸ hn)
    · rw [hnone] at hn
      cases hn

/-- The number a call draws: the next one, unless the counter was forgotten. -/
theorem Counted.draw_sequence {s : BrokerState} (h : s.Counted)
    (hguard : s.counter ≠ none ∨ s.drawn = []) : s.counter.getD 0 = s.drawn.length := by
  cases hcounter : s.counter with
  | some n => exact h.counter n hcounter
  | none =>
    rcases hguard with hsome | hnil
    · exact absurd hcounter hsome
    · rw [hnil]
      rfl

theorem Counted.draw {s : BrokerState} (h : s.Counted)
    (hguard : s.counter ≠ none ∨ s.drawn = []) (call : Nat) (type : String) :
    (s.draw call type).Counted := by
  have hsequence := h.draw_sequence hguard
  have hlength : (s.draw call type).drawn.length = s.drawn.length + 1 := by
    show (s.drawn ++ [_]).length = _
    rw [List.length_append, List.length_singleton]
  constructor
  · rw [hlength, List.range_succ, ← h.drawn]
    show s.drawn ++ [s.counter.getD 0] = _
    rw [hsequence]
  · intro n hn
    have hnext : s.counter.getD 0 + 1 = n := Option.some.inj hn
    rw [hlength, ← hnext, hsequence]

/-- What a step does to the drawn numbers and the counter. -/
theorem drawn_cases {queueSize : Int} {s t : BrokerState} {action : BrokerAction}
    (hstep : BrokerStep queueSize s action t) :
    (∃ call type, action = .draw call type ∧ t = s.draw call type) ∨
      t.drawn = s.drawn ∧ (t.counter = s.counter ∨ t.counter = none) := by
  cases next_effect hstep with
  | draw _ => exact Or.inl ⟨_, _, rfl, rfl⟩
  | pop _ => exact Or.inr ⟨rfl, Or.inr rfl⟩
  | @hand call queue event queues _ _ =>
    obtain ⟨ready, hready, -⟩ := s.hand_eq call queue event queues
    rw [hready]
    exact Or.inr ⟨rfl, Or.inl rfl⟩
  | @handClosed queue _ =>
    obtain ⟨ready, hready, -⟩ := s.handClosed_eq queue
    rw [hready]
    exact Or.inr ⟨rfl, Or.inl rfl⟩
  | _ => exact Or.inr ⟨rfl, Or.inl rfl⟩

/-! ## When no two events carry one number -/

/-- A task without a draw has no counter, and the first draw was the zero. -/
structure Started (s : BrokerState) : Prop where
  unstarted : s.drawn = [] → s.counter = none
  first : s.drawn ≠ [] → 0 ∈ s.drawn

theorem started_step {queueSize : Int} {s t : BrokerState} {action : BrokerAction}
    (h : s.Started) (hstep : BrokerStep queueSize s action t) : t.Started := by
  rcases drawn_cases hstep with ⟨call, type, rfl, rfl⟩ | ⟨hdrawn, hcounter⟩
  · refine ⟨fun hnil => absurd hnil (List.append_ne_nil_of_right_ne_nil _ (by simp)), fun _ => ?_⟩
    by_cases hnil : s.drawn = []
    · refine List.mem_append_right _ (List.mem_singleton.mpr ?_)
      rw [h.unstarted hnil]
      rfl
    · exact List.mem_append_left _ (h.first hnil)
  · constructor
    · intro hnil
      rcases hcounter with hsame | hnone
      · exact hsame.trans (h.unstarted (hdrawn ▸ hnil))
      · exact hnone
    · rw [hdrawn]
      exact h.first

/-- **No two events carry one number exactly when no draw finds a forgotten counter.** -/
theorem drawn_nodup_iff {queueSize : Int} {s t : BrokerState}
    {ms : List (Move BrokerState BrokerAction)} (hs : s.Started) (hcounted : s.Counted)
    (h : Run (BrokerStep queueSize) s ms t) :
    t.drawn.Nodup ↔ ∀ m ∈ ms, DrawGuard m.pre m.act := by
  refine h.law_iff_of_exact Started Counted DrawGuard (fun s => s.drawn.Nodup)
    (fun _ _ _ hbase hstep => started_step hbase hstep) ?_ ?_ ?_ hs hcounted
  · intro s action t _ hinv hguard hstep
    rcases drawn_cases hstep with ⟨call, type, rfl, rfl⟩ | ⟨hdrawn, hcounter⟩
    · exact hinv.draw hguard call type
    · exact hinv.of_eq hdrawn hcounter
  · intro s hinv
    rw [hinv.drawn]
    exact List.nodup_range
  · intro s action t hbase hstep hlaw
    rcases drawn_cases hstep with ⟨call, type, rfl, rfl⟩ | ⟨hdrawn, -⟩
    · have hlast : s.counter.getD 0 ∉ s.drawn ∧ s.drawn.Nodup := by
        have hnodup : (s.drawn ++ [s.counter.getD 0]).Nodup := hlaw
        rw [List.nodup_append] at hnodup
        refine ⟨fun hmem => ?_, hnodup.1⟩
        exact hnodup.2.2 _ hmem _ (List.mem_singleton_self _) rfl
      refine ⟨?_, hlast.2⟩
      by_contra hguard
      rw [DrawGuard, not_or, not_not] at hguard
      rw [hguard.1] at hlast
      exact hlast.1 (hbase.first hguard.2)
    · refine ⟨?_, hdrawn ▸ hlaw⟩
      cases action with
      | draw call type =>
        cases next_effect hstep
        have hlength := congrArg List.length hdrawn
        rw [draw] at hlength
        simp at hlength
      | _ => trivial

/-! ## The calls on their way -/

/-- The events on their way carry numbers drawn, each its own. -/
structure Numbered (s : BrokerState) : Prop extends Counted s where
  event_drawn : ∀ call event, (s.calls call).event? = some event →
    event.sequence < s.drawn.length
  event_distinct : ∀ call call' event event', (s.calls call).event? = some event →
    (s.calls call').event? = some event' → event.sequence = event'.sequence → call = call'

variable {queueSize : Int} {s t : BrokerState}

theorem Numbered.mono (h : s.Numbered) (hdrawn : t.drawn = s.drawn)
    (hcounter : t.counter = s.counter ∨ t.counter = none)
    (hevents : ∀ call event, (t.calls call).event? = some event →
      (s.calls call).event? = some event) : t.Numbered where
  toCounted := h.toCounted.of_eq hdrawn hcounter
  event_drawn call event hcall := by
    rw [hdrawn]
    exact h.event_drawn call event (hevents call event hcall)
  event_distinct call call' event event' hcall hcall' :=
    h.event_distinct call call' event event' (hevents call event hcall)
      (hevents call' event' hcall')

/-- A call in a phase with the event it had. -/
theorem event?_setCall {call : Nat} {phase : PublishPhase}
    (hphase : ∀ event, phase.event? = some event → (s.calls call).event? = some event) :
    ∀ other event, ((s.setCall call phase).calls other).event? = some event →
      (s.calls other).event? = some event := by
  intro other event hevent
  by_cases hother : other = call
  · subst hother
    rw [calls_setCall_self] at hevent
    exact hphase event hevent
  · rw [calls_setCall_of_ne hother] at hevent
    exact hevent

theorem Numbered.draw (h : s.Numbered) (hguard : s.counter ≠ none ∨ s.drawn = []) (call : Nat)
    (type : String) : (s.draw call type).Numbered := by
  have hsequence := h.draw_sequence hguard
  have hlength : (s.draw call type).drawn.length = s.drawn.length + 1 := by
    show (s.drawn ++ [_]).length = _
    rw [List.length_append, List.length_singleton]
  -- the new event has the number past all others
  have hcases : ∀ other event, ((s.draw call type).calls other).event? = some event →
      other = call ∧ event.sequence = s.drawn.length ∨
        other ≠ call ∧ (s.calls other).event? = some event := by
    intro other event hevent
    by_cases hother : other = call
    · subst hother
      left
      refine ⟨rfl, ?_⟩
      rw [← hsequence]
      simp only [BrokerState.draw, calls_setCall_self] at hevent
      split at hevent
      · rw [← Option.some.inj hevent]
      · rw [← Option.some.inj hevent]
    · right
      refine ⟨hother, ?_⟩
      simp only [BrokerState.draw, calls_setCall_of_ne hother] at hevent
      exact hevent
  refine ⟨h.toCounted.draw hguard call type, ?_, ?_⟩
  · intro other event hevent
    rw [hlength]
    rcases hcases other event hevent with ⟨-, hnew⟩ | ⟨-, hold⟩
    · rw [hnew]
      exact Nat.lt_succ_self _
    · exact Nat.lt_succ_of_lt (h.event_drawn other event hold)
  · intro other other' event event' hevent hevent' hsame
    rcases hcases other event hevent with ⟨hcall, hnew⟩ | ⟨-, hold⟩
    · rcases hcases other' event' hevent' with ⟨hcall', -⟩ | ⟨-, hold'⟩
      · rw [hcall, hcall']
      · have hlt := h.event_drawn other' event' hold'
        omega
    · rcases hcases other' event' hevent' with ⟨-, hnew'⟩ | ⟨-, hold'⟩
      · have hlt := h.event_drawn other event hold
        omega
      · exact h.event_distinct other other' event event' hold hold' hsame

theorem numbered_step {action : BrokerAction} (h : s.Numbered) (hguard : s.DrawGuard action)
    (hstep : BrokerStep queueSize s action t) : t.Numbered := by
  cases next_effect hstep with
  | draw _ => exact h.draw hguard _ _
  | pop hcall =>
    refine h.mono rfl (Or.inr rfl) (event?_setCall fun event hevent => ?_)
    rw [hcall]
    exact hevent
  | capture hcall _ =>
    refine h.mono rfl (Or.inl rfl) (event?_setCall fun event hevent => ?_)
    rw [hcall]
    exact hevent
  | @hand call queue event queues hcall _ =>
    obtain ⟨ready, hready, -⟩ := s.hand_eq call queue event queues
    rw [hready]
    refine h.mono rfl (Or.inl rfl) (event?_setCall fun found hfound => ?_)
    rw [hcall]
    exact hfound
  | done _ => exact h.mono rfl (Or.inl rfl) (event?_setCall fun _ hevent => (by cases hevent))
  | @handClosed queue _ =>
    obtain ⟨ready, hready, -⟩ := s.handClosed_eq queue
    rw [hready]
    exact h.mono rfl (Or.inl rfl) fun _ _ hevent => hevent
  | _ => exact h.mono rfl (Or.inl rfl) fun _ _ hevent => hevent

/-! ## What a subscriber was handed -/

/-- The numbers handed to a subscriber are consecutive, and begin where what it missed ends. -/
def HandedInTurn (sub : Subscriber) : Prop :=
  ∃ start, sub.handed = List.range' start sub.handed.length ∧
    (sub.handed ≠ [] → (∀ m, m < start → m ∈ sub.missed) ∧ ∀ m ∈ sub.missed, m < start)

/-- **What is handed over in its turn comes right after what was handed over last.** -/
theorem HandedInTurn.next {sub : Subscriber} {n : Nat} (h : HandedInTurn sub) (hturn : InTurn sub n)
    (hhanded : n ∉ sub.handed) (hmissed : n ∉ sub.missed) :
    HandedInTurn { sub with handed := sub.handed ++ [n] } ∧
      ∀ last ∈ sub.handed.getLast?, n = last + 1 := by
  obtain ⟨start, hrange, hbounds⟩ := h
  by_cases hnil : sub.handed = []
  · refine ⟨⟨n, ?_, fun _ => ⟨fun m hm => ?_, hturn.2⟩⟩, ?_⟩
    · show sub.handed ++ [n] = List.range' n (sub.handed ++ [n]).length
      rw [hnil]
      rfl
    · rcases hturn.1 m hm with hmem | hmem
      · exact hmem
      · rw [hnil] at hmem
        cases hmem
    · rw [hnil]
      intro last hlast
      cases hlast
  · obtain ⟨hbelow, habove⟩ := hbounds hnil
    -- `n` is neither below the range nor beyond its end
    have hn : n = start + sub.handed.length := by
      have hlow : start ≤ n := by
        by_contra hlt
        exact hmissed (hbelow n (by omega))
      have houtside : start + sub.handed.length ≤ n := by
        by_contra hlt
        refine hhanded ?_
        rw [hrange, List.mem_range'_1]
        omega
      by_contra hne
      rcases hturn.1 (start + sub.handed.length) (by omega) with hmem | hmem
      · have := habove _ hmem
        omega
      · rw [hrange, List.mem_range'_1, List.length_range'] at hmem
        omega
    have hgrown : sub.handed ++ [n] = List.range' start (sub.handed ++ [n]).length := by
      rw [List.length_append, List.length_singleton, List.range'_1_concat, ← hrange, hn]
    refine ⟨⟨start, hgrown, fun _ => ⟨hbelow, habove⟩⟩, fun last hlast => ?_⟩
    have hpos : 0 < sub.handed.length := List.length_pos_iff.mpr hnil
    have hlast' : sub.handed.getLast? = some (start + sub.handed.length - 1) := by
      rw [hrange, List.getLast?_range', List.length_range', if_neg (by omega)]
    rw [hlast', Option.mem_some_iff] at hlast
    omega

/-- Two states of a subscriber that was handed the same. -/
structure SameSeen (before after : Subscriber) : Prop where
  used : after.used = before.used
  missed : after.missed = before.missed
  handed : after.handed = before.handed

/-- The calls and the subscribers, where every event was handed over in its turn. -/
structure Ordered (s : BrokerState) : Prop extends Numbered s where
  waiting : ∀ call event, (s.calls call).waiting? = some event → event.sequence ∉ s.captured
  captured_drawn : ∀ n ∈ s.captured, n < s.drawn.length
  handing : ∀ call event queues, s.calls call = .handing event queues →
    event.sequence ∈ s.captured ∧ queues.Nodup ∧ ∀ queue ∈ queues, (s.subs queue).used = true ∧
      event.sequence ∉ (s.subs queue).handed ∧ event.sequence ∉ (s.subs queue).missed
  subscribers_nodup : s.subscribers.Nodup
  subscribers_used : ∀ queue ∈ s.subscribers, (s.subs queue).used = true
  seen_captured : ∀ queue n, n ∈ (s.subs queue).missed ∨ n ∈ (s.subs queue).handed →
    n ∈ s.captured
  unused : ∀ queue, (s.subs queue).used = false → (s.subs queue).handed = []
  turns : ∀ queue, HandedInTurn (s.subs queue)

theorem HandedInTurn.same {before after : Subscriber} (h : HandedInTurn before)
    (hsame : SameSeen before after) : HandedInTurn after := by
  rw [HandedInTurn, hsame.handed, hsame.missed]
  exact h

/-- A step that leaves the calls and what was handed over alone. -/
theorem Ordered.frame (h : s.Ordered) (hdrawn : t.drawn = s.drawn) (hcounter : t.counter = s.counter)
    (hcalls : t.calls = s.calls) (hcaptured : t.captured = s.captured)
    (hsubscribers : t.subscribers.Sublist s.subscribers)
    (hsame : ∀ queue, SameSeen (s.subs queue) (t.subs queue)) : t.Ordered where
  toNumbered := h.toNumbered.mono hdrawn (Or.inl hcounter) fun _ _ hevent => hcalls ▸ hevent
  waiting := by rw [hcalls, hcaptured]; exact h.waiting
  captured_drawn := by rw [hcaptured, hdrawn]; exact h.captured_drawn
  handing call event queues hcall := by
    rw [hcalls] at hcall
    obtain ⟨hmem, hnodup, hqueues⟩ := h.handing call event queues hcall
    refine ⟨hcaptured ▸ hmem, hnodup, fun queue hqueue => ?_⟩
    rw [(hsame queue).used, (hsame queue).handed, (hsame queue).missed]
    exact hqueues queue hqueue
  subscribers_nodup := h.subscribers_nodup.sublist hsubscribers
  subscribers_used queue hqueue := by
    rw [(hsame queue).used]
    exact h.subscribers_used queue (hsubscribers.subset hqueue)
  seen_captured queue n := by
    rw [(hsame queue).handed, (hsame queue).missed, hcaptured]
    exact h.seen_captured queue n
  unused queue := by
    rw [(hsame queue).used, (hsame queue).handed]
    exact h.unused queue
  turns queue := (h.turns queue).same (hsame queue)

/-- What a subscriber that is only read or fed keeps. -/
theorem sameSeen_update {queue : Nat} {sub : Subscriber}
    (hsubs : t.subs = Function.update s.subs queue sub) (hsame : SameSeen (s.subs queue) sub)
    (other : Nat) : SameSeen (s.subs other) (t.subs other) := by
  rw [hsubs]
  by_cases hother : other = queue
  · rw [hother, Function.update_self]
    exact hsame
  · rw [Function.update_of_ne hother]
    exact ⟨rfl, rfl, rfl⟩

/-- A call moves on and what was captured stays: it is not left waiting for what was captured, and
has no queues left that it did not have. -/
theorem Ordered.callMoves (h : s.Ordered) {call : Nat} {phase : PublishPhase}
    (hnumbered : t.Numbered) (hcalls : t.calls = (s.setCall call phase).calls)
    (hcaptured : t.captured = s.captured) (hdrawn : s.drawn.length ≤ t.drawn.length)
    (hsubscribers : t.subscribers = s.subscribers) (hsubs : t.subs = s.subs)
    (hwaiting : ∀ event, phase.waiting? = some event → event.sequence ∉ s.captured)
    (hhanding : ∀ event queues, phase ≠ .handing event queues) : t.Ordered where
  toNumbered := hnumbered
  waiting other event hevent := by
    rw [hcaptured]
    rw [hcalls] at hevent
    by_cases hother : other = call
    · subst hother
      rw [calls_setCall_self] at hevent
      exact hwaiting event hevent
    · rw [calls_setCall_of_ne hother] at hevent
      exact h.waiting other event hevent
  captured_drawn n hn := by
    rw [hcaptured] at hn
    exact Nat.lt_of_lt_of_le (h.captured_drawn n hn) hdrawn
  handing other event queues hother := by
    rw [hcalls] at hother
    rw [hcaptured, hsubs]
    by_cases hcall : other = call
    · subst hcall
      rw [calls_setCall_self] at hother
      exact absurd hother (hhanding event queues)
    · rw [calls_setCall_of_ne hcall] at hother
      exact h.handing other event queues hother
  subscribers_nodup := by rw [hsubscribers]; exact h.subscribers_nodup
  subscribers_used := by rw [hsubscribers, hsubs]; exact h.subscribers_used
  seen_captured := by rw [hsubs, hcaptured]; exact h.seen_captured
  unused := by rw [hsubs]; exact h.unused
  turns := by rw [hsubs]; exact h.turns

theorem Ordered.draw (h : s.Ordered) (hguard : s.counter ≠ none ∨ s.drawn = []) (call : Nat)
    (type : String) : (s.draw call type).Ordered := by
  have hsequence := h.draw_sequence hguard
  refine h.callMoves (h.toNumbered.draw hguard call type) rfl rfl ?_ rfl rfl ?_ ?_
  · show s.drawn.length ≤ (s.drawn ++ [_]).length
    rw [List.length_append]
    omega
  · intro event hevent hmem
    have hnew : event.sequence = s.counter.getD 0 := by
      split at hevent
      · rw [← Option.some.inj hevent]
      · rw [← Option.some.inj hevent]
    have hlt := h.captured_drawn _ hmem
    omega
  · intro event queues hphase
    split at hphase <;> cases hphase

theorem Ordered.capture (h : s.Ordered) {call : Nat} {event : PublicEvent}
    (hcall : s.calls call = .publishing event) (hnumbered : (s.capture call event).Numbered) :
    (s.capture call event).Ordered := by
  have hfresh : event.sequence ∉ s.captured := h.waiting call event (by rw [hcall]; rfl)
  -- the number of another call on its way is not the one captured now
  have hother : ∀ other found, other ≠ call → (s.calls other).event? = some found →
      found.sequence ≠ event.sequence := by
    intro other found hne hfound heq
    exact hne (h.event_distinct other call found event hfound (by rw [hcall]; rfl) heq)
  have hcalls : ∀ other, other ≠ call → (s.capture call event).calls other = s.calls other :=
    fun other hne => calls_setCall_of_ne hne
  have hself : (s.capture call event).calls call = .handing event s.subscribers :=
    calls_setCall_self (s := s)
  refine ⟨hnumbered, ?_, ?_, ?_, h.subscribers_nodup, h.subscribers_used, ?_, h.unused, h.turns⟩
  · intro other found hfound hmem
    by_cases hne : other = call
    · subst hne
      rw [hself] at hfound
      cases hfound
    · rw [hcalls other hne] at hfound
      rcases List.mem_append.mp hmem with hold | hnew
      · exact h.waiting other found hfound hold
      · exact hother other found hne (PublishPhase.event?_of_waiting? hfound)
          (List.mem_singleton.mp hnew)
  · intro n hn
    rcases List.mem_append.mp hn with hold | hnew
    · exact h.captured_drawn n hold
    · rw [List.mem_singleton.mp hnew]
      exact h.event_drawn call event (by rw [hcall]; rfl)
  · intro other found queues hphase
    by_cases hne : other = call
    · subst hne
      rw [hself] at hphase
      obtain ⟨rfl, rfl⟩ := PublishPhase.handing.inj hphase
      refine ⟨List.mem_append_right _ (List.mem_singleton_self _), h.subscribers_nodup, ?_⟩
      intro queue hqueue
      exact ⟨h.subscribers_used queue hqueue,
        fun hmem => hfresh (h.seen_captured queue _ (Or.inr hmem)),
        fun hmem => hfresh (h.seen_captured queue _ (Or.inl hmem))⟩
    · rw [hcalls other hne] at hphase
      obtain ⟨hmem, hrest⟩ := h.handing other found queues hphase
      exact ⟨List.mem_append_left _ hmem, hrest⟩
  · intro queue n hn
    exact List.mem_append_left _ (h.seen_captured queue n hn)

theorem Ordered.hand (h : s.Ordered) {call queue : Nat} {event : PublicEvent} {queues : List Nat}
    (hcall : s.calls call = .handing event queues) (hqueue : queue ∈ queues)
    (hturn : InTurn (s.subs queue) event.sequence)
    (hnumbered : (s.hand call event queues queue).Numbered) :
    (s.hand call event queues queue).Ordered ∧
      ∀ last ∈ (s.subs queue).handed.getLast?, event.sequence = last + 1 := by
  obtain ⟨hcaptured, hnodup, hqueues⟩ := h.handing call event queues hcall
  obtain ⟨hused, hhanded, hmissed⟩ := hqueues queue hqueue
  obtain ⟨hnext, hlast⟩ := (h.turns queue).next hturn hhanded hmissed
  refine ⟨?_, hlast⟩
  have hself : (s.hand call event queues queue).subs queue =
      { s.subs queue with handed := (s.subs queue).handed ++ [event.sequence] } := by
    obtain ⟨ready, hready, -⟩ := s.hand_eq call queue event queues
    rw [hready]
    exact Function.update_self ..
  have hrest : ∀ other, other ≠ queue →
      (s.hand call event queues queue).subs other = s.subs other := by
    intro other hne
    obtain ⟨ready, hready, -⟩ := s.hand_eq call queue event queues
    rw [hready]
    exact Function.update_of_ne hne ..
  have hcallSelf : (s.hand call event queues queue).calls call =
      .handing event (queues.erase queue) := by
    obtain ⟨ready, hready, -⟩ := s.hand_eq call queue event queues
    rw [hready]
    exact calls_setCall_self
  have hcallRest : ∀ other, other ≠ call →
      (s.hand call event queues queue).calls other = s.calls other := by
    intro other hne
    obtain ⟨ready, hready, -⟩ := s.hand_eq call queue event queues
    rw [hready]
    exact calls_setCall_of_ne hne
  have hsame : (s.hand call event queues queue).captured = s.captured ∧
      (s.hand call event queues queue).drawn = s.drawn ∧
      (s.hand call event queues queue).subscribers = s.subscribers := by
    obtain ⟨ready, hready, -⟩ := s.hand_eq call queue event queues
    rw [hready]
    exact ⟨rfl, rfl, rfl⟩
  obtain ⟨hsameCaptured, hsameDrawn, hsameSubscribers⟩ := hsame
  generalize s.hand call event queues queue = t at *
  refine ⟨hnumbered, ?_, ?_, ?_, ?_, ?_, ?_, ?_, ?_⟩
  · intro other found hfound
    rw [hsameCaptured]
    by_cases hne : other = call
    · rw [hne, hcallSelf] at hfound
      cases hfound
    · rw [hcallRest other hne] at hfound
      exact h.waiting other found hfound
  · rw [hsameCaptured, hsameDrawn]
    exact h.captured_drawn
  · intro other found rest hphase
    rw [hsameCaptured]
    by_cases hne : other = call
    · rw [hne, hcallSelf] at hphase
      obtain ⟨rfl, rfl⟩ := PublishPhase.handing.inj hphase
      refine ⟨hcaptured, hnodup.erase queue, fun target htarget => ?_⟩
      have hnot : target ≠ queue := fun heq => by
        rw [heq] at htarget
        exact hnodup.not_mem_erase htarget
      rw [hrest target hnot]
      exact hqueues target (List.mem_of_mem_erase htarget)
    · rw [hcallRest other hne] at hphase
      obtain ⟨hmem, hrestNodup, hrestQueues⟩ := h.handing other found rest hphase
      refine ⟨hmem, hrestNodup, fun target htarget => ?_⟩
      obtain ⟨htargetUsed, htargetHanded, htargetMissed⟩ := hrestQueues target htarget
      by_cases hsame : target = queue
      · subst hsame
        rw [hself]
        refine ⟨htargetUsed, fun hmem => ?_, htargetMissed⟩
        rcases List.mem_append.mp hmem with hold | hnew
        · exact htargetHanded hold
        · -- two calls on their way have different numbers
          exact hne (h.event_distinct other call found event (by rw [hphase]; rfl)
            (by rw [hcall]; rfl) (List.mem_singleton.mp hnew))
      · rw [hrest target hsame]
        exact ⟨htargetUsed, htargetHanded, htargetMissed⟩
  · rw [hsameSubscribers]
    exact h.subscribers_nodup
  · intro other hother
    rw [hsameSubscribers] at hother
    by_cases hne : other = queue
    · rw [hne, hself]
      exact hused
    · rw [hrest other hne]
      exact h.subscribers_used other hother
  · intro other n hn
    rw [hsameCaptured]
    by_cases hne : other = queue
    · rw [hne, hself] at hn
      rcases hn with hmissed | hhanded
      · exact h.seen_captured queue n (Or.inl hmissed)
      · rcases List.mem_append.mp hhanded with hold | hnew
        · exact h.seen_captured queue n (Or.inr hold)
        · rw [List.mem_singleton.mp hnew]
          exact hcaptured
    · rw [hrest other hne] at hn
      exact h.seen_captured other n hn
  · intro other hunused
    by_cases hne : other = queue
    · rw [hne, hself] at hunused
      rw [show (s.subs queue).used = false from hunused] at hused
      cases hused
    · rw [hrest other hne] at hunused ⊢
      exact h.unused other hunused
  · intro other
    by_cases hne : other = queue
    · rw [hne, hself]
      exact hnext
    · rw [hrest other hne]
      exact h.turns other

theorem Ordered.register (h : s.Ordered) {queue : Nat} (hunused : (s.subs queue).used = false)
    (hnumbered : (s.register queue).Numbered) : (s.register queue).Ordered := by
  have hnil := h.unused queue hunused
  have hself : (s.register queue).subs queue =
      { s.subs queue with used := true, missed := s.captured } := Function.update_self ..
  have hrest : ∀ other, other ≠ queue → (s.register queue).subs other = s.subs other :=
    fun other hne => Function.update_of_ne hne ..
  have hnot : queue ∉ s.subscribers := fun hmem => by
    have hused := h.subscribers_used queue hmem
    rw [hunused] at hused
    cases hused
  refine ⟨hnumbered, h.waiting, h.captured_drawn, ?_, ?_, ?_, ?_, ?_, ?_⟩
  · intro call event queues hcall
    obtain ⟨hmem, hnodup, hqueues⟩ := h.handing call event queues hcall
    refine ⟨hmem, hnodup, fun target htarget => ?_⟩
    have hne : target ≠ queue := fun heq => by
      have hused := (hqueues target htarget).1
      rw [heq, hunused] at hused
      cases hused
    rw [hrest target hne]
    exact hqueues target htarget
  · refine List.nodup_append.mpr ⟨h.subscribers_nodup, List.nodup_singleton _, ?_⟩
    intro other hother new hnew heq
    rw [List.mem_singleton.mp hnew] at heq
    exact hnot (heq ▸ hother)
  · intro other hother
    by_cases hne : other = queue
    · rw [hne, hself]
    · rw [hrest other hne]
      rcases List.mem_append.mp hother with hold | hnew
      · exact h.subscribers_used other hold
      · exact absurd (List.mem_singleton.mp hnew) hne
  · intro other n hn
    by_cases hne : other = queue
    · rw [hne, hself] at hn
      rcases hn with hmissed | hhanded
      · exact hmissed
      · exact h.seen_captured queue n (Or.inr hhanded)
    · rw [hrest other hne] at hn
      exact h.seen_captured other n hn
  · intro other hother
    by_cases hne : other = queue
    · rw [hne, hself] at hother
      cases hother
    · rw [hrest other hne] at hother ⊢
      exact h.unused other hother
  · intro other
    by_cases hne : other = queue
    · -- nothing was handed to a queue that did not exist
      rw [hne, hself]
      refine ⟨0, ?_, fun hhanded => absurd hnil hhanded⟩
      show (s.subs queue).handed = List.range' 0 (s.subs queue).handed.length
      rw [hnil]
      rfl
    · rw [hrest other hne]
      exact h.turns other

/-- **A guarded step keeps the calls and the subscribers in order.** -/
theorem ordered_step {action : BrokerAction} (h : s.Ordered)
    (hguard : StreamGuard queueSize s action) (hstep : BrokerStep queueSize s action t) :
    t.Ordered := by
  have hdraw : s.DrawGuard action := by
    cases action with
    | draw call type => exact hguard
    | _ => trivial
  have hnumbered := numbered_step h.toNumbered hdraw hstep
  cases next_effect hstep with
  | draw _ => exact h.draw hdraw _ _
  | @pop call event hcall =>
    refine h.callMoves hnumbered rfl rfl le_rfl rfl rfl (fun found hfound => ?_) ?_
    · rw [← Option.some.inj hfound]
      exact h.waiting call event (by rw [hcall]; rfl)
    · rintro _ _ ⟨⟩
  | capture hcall _ => exact h.capture hcall hnumbered
  | hand hcall hqueue =>
    simp only [StreamGuard, hcall] at hguard
    exact (h.hand hcall hqueue hguard hnumbered).1
  | @done call event hcall =>
    refine h.callMoves hnumbered rfl rfl le_rfl rfl rfl (fun found hfound => ?_) ?_
    · cases hfound
    · rintro _ _ ⟨⟩
  | register _ hunused => exact h.register hunused hnumbered
  | @handClosed queue _ =>
    obtain ⟨ready, hready, -⟩ := s.handClosed_eq queue
    rw [hready]
    exact h.frame rfl rfl rfl rfl (List.Sublist.refl _) fun _ => ⟨rfl, rfl, rfl⟩
  | closeAll _ =>
    exact h.frame rfl rfl rfl rfl (List.nil_sublist _) fun _ => ⟨rfl, rfl, rfl⟩
  | closeLoop =>
    exact h.frame rfl rfl rfl rfl (List.Sublist.refl _) fun _ => ⟨rfl, rfl, rfl⟩
  | snapshot _ | runCallback _ _ =>
    exact h.frame rfl rfl rfl rfl (List.Sublist.refl _) (sameSeen_update rfl ⟨rfl, rfl, rfl⟩)
  | snapshotFails _ | unsubscribe _ _ =>
    exact h.frame rfl rfl rfl rfl List.erase_sublist (sameSeen_update rfl ⟨rfl, rfl, rfl⟩)
  | @get queue item rest _ _ _ _ =>
    refine h.frame rfl rfl rfl rfl (List.Sublist.refl _) (sameSeen_update rfl ?_)
    cases item with
    | closed | event => exact ⟨rfl, rfl, rfl⟩

/-! ## What a subscriber will see -/

/-- The items the event loop will put in a queue. -/
def pendingFor (s : BrokerState) (queue : Nat) : List QueueItem :=
  s.ready.filterMap fun entry => if entry.1 = queue then some entry.2 else none

/-- What a subscriber took, what its queue holds, and what is on the way to it. -/
def streamOf (s : BrokerState) (queue : Nat) : List QueueItem :=
  (s.subs queue).taken.map .event ++ (s.subs queue).queue ++ s.pendingFor queue

/-- What reaches a subscriber is numbered without a gap, up to each marker, and ends with what was
handed over last. -/
structure Flowing (queueSize : Int) (s : BrokerState) : Prop where
  bounded : ∀ queue, 0 < queueSize → ((s.subs queue).queue.length : Int) ≤ queueSize
  taken : ∀ queue, Consecutive ((s.subs queue).taken.map PublicEvent.sequence)
  stream : ∀ queue, (s.subs queue).ended = false → Gapless QueueItem.number? (s.streamOf queue)
  last : s.loopClosed = false → ∀ queue, (s.subs queue).ended = false → ∀ event,
    (s.streamOf queue).getLast? = some (.event event) →
      (s.subs queue).handed.getLast? = some event.sequence

/-- Two states of a subscriber with the same items, the second no less ended. -/
structure SameFlow (before after : Subscriber) : Prop where
  queue : after.queue = before.queue
  taken : after.taken = before.taken
  ended : after.ended = false → before.ended = false

theorem forall_subs_update {P : Subscriber → Subscriber → Prop} {queue : Nat} {sub : Subscriber}
    (hsubs : t.subs = Function.update s.subs queue sub) (hrefl : ∀ sub, P sub sub)
    (hsub : P (s.subs queue) sub) (other : Nat) : P (s.subs other) (t.subs other) := by
  rw [hsubs]
  by_cases hother : other = queue
  · rw [hother, Function.update_self]
    exact hsub
  · rw [Function.update_of_ne hother]
    exact hrefl _

theorem sameFlow_update {queue : Nat} {sub : Subscriber}
    (hsubs : t.subs = Function.update s.subs queue sub) (hsame : SameFlow (s.subs queue) sub)
    (other : Nat) : SameFlow (s.subs other) (t.subs other) :=
  forall_subs_update hsubs (fun _ => ⟨rfl, rfl, id⟩) hsame other

theorem handed_update {queue : Nat} {sub : Subscriber}
    (hsubs : t.subs = Function.update s.subs queue sub)
    (hsame : sub.handed = (s.subs queue).handed) (other : Nat) :
    (t.subs other).handed = (s.subs other).handed :=
  forall_subs_update (P := fun before after => after.handed = before.handed) hsubs
    (fun _ => rfl) hsame other

theorem pendingFor_snoc {queue : Nat} {item : QueueItem}
    (hready : t.ready = s.ready ++ [(queue, item)]) (other : Nat) :
    t.pendingFor other = s.pendingFor other ++ if queue = other then [item] else [] := by
  rw [pendingFor, hready, List.filterMap_append]
  congr 1
  by_cases hother : queue = other
  · simp [hother]
  · simp [hother]

theorem pendingFor_cons {queue : Nat} {item : QueueItem} {rest : List (Nat × QueueItem)}
    (hready : s.ready = (queue, item) :: rest) (hrest : t.ready = rest) (other : Nat) :
    s.pendingFor other = (if queue = other then [item] else []) ++ t.pendingFor other := by
  rw [pendingFor, pendingFor, hready, hrest, List.filterMap_cons]
  by_cases hother : queue = other
  · simp [hother]
  · simp [hother]

/-- A step that leaves the items alone. Once the loop is closed nothing reaches a queue, whatever is
handed over. -/
theorem Flowing.frame (h : s.Flowing queueSize) (hready : t.ready = s.ready)
    (hloop : t.loopClosed = false → s.loopClosed = false)
    (hsame : ∀ queue, SameFlow (s.subs queue) (t.subs queue))
    (hhanded : t.loopClosed = false → ∀ queue, (t.subs queue).handed = (s.subs queue).handed) :
    t.Flowing queueSize := by
  have hstream : ∀ queue, t.streamOf queue = s.streamOf queue := fun queue => by
    rw [streamOf, streamOf, (hsame queue).taken, (hsame queue).queue, pendingFor, pendingFor, hready]
  constructor
  · intro queue
    rw [(hsame queue).queue]
    exact h.bounded queue
  · intro queue
    rw [(hsame queue).taken]
    exact h.taken queue
  · intro queue hended
    rw [hstream]
    exact h.stream queue ((hsame queue).ended hended)
  · intro hopen queue hended event
    rw [hstream, hhanded hopen queue]
    exact h.last (hloop hopen) queue ((hsame queue).ended hended) event

/-- An item that continues the stream of its queue is on the way. -/
theorem Flowing.push (h : s.Flowing queueSize) {queue : Nat} {item : QueueItem}
    (hready : t.ready = s.ready ++ [(queue, item)]) (hloop : t.loopClosed = s.loopClosed)
    (hsame : ∀ other, SameFlow (s.subs other) (t.subs other))
    (hhanded : ∀ other, other ≠ queue → (t.subs other).handed = (s.subs other).handed)
    (hfollows : (s.subs queue).ended = false → ∀ last ∈ (s.streamOf queue).getLast?,
      Gapless.Follows QueueItem.number? last item)
    (hlast : ∀ event, item = .event event →
      (t.subs queue).handed.getLast? = some event.sequence) : t.Flowing queueSize := by
  have hstream : ∀ other, t.streamOf other =
      s.streamOf other ++ if queue = other then [item] else [] := fun other => by
    rw [streamOf, streamOf, (hsame other).taken, (hsame other).queue, pendingFor_snoc hready,
      List.append_assoc]
    simp only [List.append_assoc]
  constructor
  · intro other
    rw [(hsame other).queue]
    exact h.bounded other
  · intro other
    rw [(hsame other).taken]
    exact h.taken other
  · intro other hended
    have hstill := (hsame other).ended hended
    rw [hstream]
    by_cases hother : queue = other
    · subst hother
      rw [if_pos rfl]
      exact (h.stream queue hstill).snoc (hfollows hstill)
    · rw [if_neg hother, List.append_nil]
      exact h.stream other hstill
  · intro hopen other hended event
    have hstill := (hsame other).ended hended
    rw [hstream]
    by_cases hother : queue = other
    · subst hother
      rw [if_pos rfl, List.getLast?_concat]
      intro hitem
      exact hlast event (Option.some.inj hitem)
    · rw [if_neg hother, List.append_nil, hhanded other (Ne.symm hother)]
      exact h.last (hloop ▸ hopen) other hstill event

/-- **An event handed over right after the last one continues the stream.** -/
theorem Flowing.hand (h : s.Flowing queueSize) {call queue : Nat} {event : PublicEvent}
    {queues : List Nat}
    (hnext : ∀ last ∈ (s.subs queue).handed.getLast?, event.sequence = last + 1) :
    (s.hand call event queues queue).Flowing queueSize := by
  obtain ⟨ready, hready, hcases⟩ := s.hand_eq call queue event queues
  rw [hready]
  rcases hcases with ⟨rfl, hclosed⟩ | ⟨rfl, hopen⟩
  · refine h.frame rfl id (sameFlow_update rfl ⟨rfl, rfl, id⟩) fun hopen => ?_
    rw [show s.loopClosed = false from hopen] at hclosed
    cases hclosed
  · refine h.push rfl rfl (sameFlow_update rfl ⟨rfl, rfl, id⟩)
      (fun other hne => congrArg Subscriber.handed (Function.update_of_ne hne ..)) ?_ ?_
    · intro hended last hlast m n hm hn
      cases last with
      | closed => cases hm
      | event found =>
        have hfound := h.last hopen queue hended found hlast
        rw [← Option.some.inj hm, ← Option.some.inj hn]
        exact hnext _ hfound
    · intro found hfound
      rw [← QueueItem.event.inj hfound]
      show (Function.update s.subs queue _ queue).handed.getLast? = _
      rw [Function.update_self]
      exact List.getLast?_concat ..

/-! ## The event loop and the stream -/

theorem queueFull_iff {queue : List QueueItem} :
    queueFull queueSize queue = true ↔ 0 < queueSize ∧ queueSize ≤ queue.length := by
  rw [queueFull, decide_eq_true_iff]

/-- An item put in a queue with room. -/
theorem enqueue_room {queue : List QueueItem} {item : QueueItem}
    (hroom : queueFull queueSize queue = false) :
    enqueue queueSize queue item = queue ++ [item] := by
  rw [enqueue, hroom, if_neg Bool.false_ne_true]

/-- A full queue loses its oldest item and ends with the marker. -/
theorem enqueue_full {queue : List QueueItem} (item : QueueItem)
    (hfull : queueFull queueSize queue = true) (hbound : (queue.length : Int) ≤ queueSize) :
    ∃ oldest, queue = oldest :: queue.tail ∧
      enqueue queueSize queue item = queue.tail ++ [.closed] := by
  obtain ⟨hpos, hlength⟩ := queueFull_iff.mp hfull
  cases queue with
  | nil =>
    rw [List.length_nil] at hlength
    omega
  | cons oldest rest =>
    refine ⟨oldest, rfl, ?_⟩
    have hroom : ¬queueFull queueSize rest = true := by
      rw [queueFull_iff]
      rw [List.length_cons] at hbound
      omega
    rw [enqueue, if_pos hfull, List.tail_cons, if_neg hroom]

/-- **A callback keeps the stream**: an item moves from the loop to its queue, or a full queue loses
its oldest item where nobody sees it. -/
theorem Flowing.callback (h : s.Flowing queueSize) {queue : Nat} {item : QueueItem}
    {rest : List (Nat × QueueItem)} (hready : s.ready = (queue, item) :: rest)
    (hloss : queueFull queueSize (s.subs queue).queue = true → (s.subs queue).ended = false →
      LossUnseen (s.subs queue)) :
    (runCallback queueSize s queue item rest).Flowing queueSize := by
  have hpending := pendingFor_cons (t := runCallback queueSize s queue item rest) hready rfl
  have hrest : ∀ other, other ≠ queue →
      (runCallback queueSize s queue item rest).subs other = s.subs other :=
    fun other hne => Function.update_of_ne hne ..
  have hself : (runCallback queueSize s queue item rest).subs queue = _ := Function.update_self ..
  have hqueue : ((runCallback queueSize s queue item rest).subs queue).queue =
      enqueue queueSize (s.subs queue).queue item := by rw [hself]
  have htaken : ((runCallback queueSize s queue item rest).subs queue).taken =
      (s.subs queue).taken := by rw [hself]
  have hended : ((runCallback queueSize s queue item rest).subs queue).ended =
      (s.subs queue).ended := by rw [hself]
  have hhanded : ((runCallback queueSize s queue item rest).subs queue).handed =
      (s.subs queue).handed := by rw [hself]
  clear hself
  have hloop : (runCallback queueSize s queue item rest).loopClosed = s.loopClosed := rfl
  generalize runCallback queueSize s queue item rest = t at *
  have hother : ∀ other, other ≠ queue → t.streamOf other = s.streamOf other := by
    intro other hne
    rw [streamOf, streamOf, hrest other hne, hpending other, if_neg (Ne.symm hne), List.nil_append]
  have hbefore : s.streamOf queue = (s.subs queue).taken.map .event ++ (s.subs queue).queue ++
      item :: t.pendingFor queue := by
    rw [streamOf, hpending queue, if_pos rfl, List.singleton_append]
  have hafter : t.streamOf queue = (s.subs queue).taken.map .event ++
      enqueue queueSize (s.subs queue).queue item ++ t.pendingFor queue := by
    rw [streamOf, hqueue, htaken]
  -- what remains to show is about the queue of the callback
  suffices hone : (0 < queueSize → ((t.subs queue).queue.length : Int) ≤ queueSize) ∧
      ((s.subs queue).ended = false → Gapless QueueItem.number? (t.streamOf queue)) ∧
      (s.loopClosed = false → (s.subs queue).ended = false → ∀ event,
        (t.streamOf queue).getLast? = some (.event event) →
          (s.streamOf queue).getLast? = some (.event event)) by
    obtain ⟨hbounded, hstream, hlast⟩ := hone
    constructor
    · intro other
      by_cases hne : other = queue
      · rw [hne]
        exact hbounded
      · rw [hrest other hne]
        exact h.bounded other
    · intro other
      by_cases hne : other = queue
      · rw [hne, htaken]
        exact h.taken queue
      · rw [hrest other hne]
        exact h.taken other
    · intro other hother'
      by_cases hne : other = queue
      · rw [hne] at hother' ⊢
        exact hstream (hended ▸ hother')
      · rw [hother other hne]
        exact h.stream other (hrest other hne ▸ hother')
    · intro hopen other hother' event hevent
      rw [hloop] at hopen
      by_cases hne : other = queue
      · rw [hne] at hother' hevent ⊢
        rw [hended] at hother'
        rw [hhanded]
        exact h.last hopen queue hother' event (hlast hopen hother' event hevent)
      · rw [hother other hne] at hevent
        rw [hrest other hne] at hother' ⊢
        exact h.last hopen other hother' event hevent
  cases hfull : queueFull queueSize (s.subs queue).queue with
  | false =>
    have hsame : t.streamOf queue = s.streamOf queue := by
      rw [hafter, hbefore, enqueue_room hfull]
      simp only [List.append_assoc, List.singleton_append]
    refine ⟨fun hpos => ?_, fun hreading => hsame ▸ h.stream queue hreading,
      fun _ _ event hevent => hsame ▸ hevent⟩
    have hroom : ¬queueFull queueSize (s.subs queue).queue = true := by
      rw [hfull]
      exact Bool.false_ne_true
    rw [queueFull_iff] at hroom
    rw [hqueue, enqueue_room hfull, List.length_append, List.length_singleton]
    omega
  | true =>
    have hbound := h.bounded queue (queueFull_iff.mp hfull).1
    obtain ⟨oldest, holdest, henqueue⟩ := enqueue_full item hfull hbound
    refine ⟨fun _ => ?_, fun hreading => ?_, fun _ _ event hevent => ?_⟩
    · rw [hqueue, henqueue, List.length_append, List.length_singleton]
      have hlength := congrArg List.length holdest
      rw [List.length_cons] at hlength
      omega
    · have hstream := h.stream queue hreading
      rw [hbefore] at hstream
      have hfront := hstream.left
      rw [holdest] at hfront
      rw [hafter, henqueue, ← List.append_assoc]
      refine Gapless.append_marker (hfront.drop_front ?_) rfl (List.IsChain.tail hstream.right)
      rcases hloss hfull hreading with htook | hmarker
      · left
        rw [htook]
        rfl
      · right
        intro found hfound
        have hnot := hmarker found hfound
        cases found with
        | closed => rfl
        | event _ => cases hnot
    · rw [hafter, henqueue] at hevent
      rw [hbefore]
      cases hnext : t.pendingFor queue with
      | nil =>
        rw [hnext, List.append_nil, ← List.append_assoc, List.getLast?_concat] at hevent
        cases hevent
      | cons first others =>
        rw [hnext] at hevent
        rw [List.getLast?_append_of_ne_nil _ (List.cons_ne_nil _ _)] at hevent ⊢
        exact hevent

/-- Events in a row without a gap have consecutive numbers. -/
theorem consecutive_of_gapless {events : List PublicEvent}
    (h : Gapless QueueItem.number? (events.map .event)) :
    Consecutive (events.map PublicEvent.sequence) := by
  have hnumbers : ∀ item ∈ events.map QueueItem.event,
      item.number? = some (item.number?.getD 0) := by
    intro item hitem
    obtain ⟨event, -, rfl⟩ := List.mem_map.mp hitem
    rfl
  have hmap := h.consecutive hnumbers
  rw [List.map_map] at hmap
  exact hmap

theorem Flowing.take (h : s.Flowing queueSize) {queue : Nat} {item : QueueItem}
    {rest : List QueueItem} (hqueue : (s.subs queue).queue = item :: rest)
    (hreading : (s.subs queue).ended = false) : (s.take queue item rest).Flowing queueSize := by
  have hrest : ∀ other, other ≠ queue → (s.take queue item rest).subs other = s.subs other :=
    fun other hne => Function.update_of_ne hne ..
  have hother : ∀ other, other ≠ queue → (s.take queue item rest).streamOf other =
      s.streamOf other := by
    intro other hne
    rw [streamOf, hrest other hne]
    rfl
  have hstream : Gapless QueueItem.number? ((s.subs queue).taken.map .event ++ item :: rest ++
      s.pendingFor queue) := by
    rw [← hqueue]
    exact h.stream queue hreading
  have hself : (s.take queue item rest).subs queue = _ := Function.update_self ..
  -- what remains to show is about the queue read from
  suffices hone : ((s.take queue item rest).subs queue).queue = rest ∧
      ((s.take queue item rest).subs queue).handed = (s.subs queue).handed ∧
      Consecutive (((s.take queue item rest).subs queue).taken.map PublicEvent.sequence) ∧
      (((s.take queue item rest).subs queue).ended = false →
        (s.take queue item rest).streamOf queue = s.streamOf queue) by
    obtain ⟨hleft, hhanded, htaken, hsame⟩ := hone
    constructor
    · intro other hpos
      by_cases hne : other = queue
      · have hbound := h.bounded queue hpos
        rw [hqueue, List.length_cons] at hbound
        rw [hne, hleft]
        omega
      · rw [hrest other hne]
        exact h.bounded other hpos
    · intro other
      by_cases hne : other = queue
      · rw [hne]
        exact htaken
      · rw [hrest other hne]
        exact h.taken other
    · intro other hended
      by_cases hne : other = queue
      · rw [hne] at hended ⊢
        rw [hsame hended]
        exact h.stream queue hreading
      · rw [hother other hne]
        exact h.stream other (hrest other hne ▸ hended)
    · intro hopen other hended event hevent
      by_cases hne : other = queue
      · rw [hne] at hended hevent ⊢
        rw [hsame hended] at hevent
        rw [hhanded]
        exact h.last hopen queue hreading event hevent
      · rw [hother other hne] at hevent
        rw [hrest other hne] at hended ⊢
        exact h.last hopen other hended event hevent
  cases item with
  | closed =>
    rw [hself]
    exact ⟨rfl, rfl, h.taken queue, fun hended => (by cases hended)⟩
  | event event =>
    refine ⟨by rw [hself], by rw [hself], ?_, fun _ => ?_⟩
    · rw [hself]
      refine consecutive_of_gapless ?_
      have htaken : Gapless QueueItem.number? (((s.subs queue).taken.map .event ++ [.event event]) ++
          (rest ++ s.pendingFor queue)) := by
        simpa only [List.append_assoc, List.nil_append, List.cons_append] using hstream
      rw [List.map_append]
      exact htaken.left
    · rw [streamOf, streamOf, hself, hqueue, List.map_append]
      simp only [List.append_assoc, List.map_cons, List.map_nil, List.cons_append]
      rfl

/-- **A guarded step keeps the streams of all subscribers.** -/
theorem flowing_step {action : BrokerAction} (hordered : s.Ordered) (h : s.Flowing queueSize)
    (hguard : StreamGuard queueSize s action) (hstep : BrokerStep queueSize s action t) :
    t.Flowing queueSize := by
  cases next_effect hstep with
  | draw _ | pop _ | capture _ _ | done _ | closeAll _ =>
    exact h.frame rfl id (fun _ => ⟨rfl, rfl, id⟩) fun _ _ => rfl
  | closeLoop =>
    exact h.frame rfl (fun hopen => (by cases hopen)) (fun _ => ⟨rfl, rfl, id⟩)
      fun hopen => (by cases hopen)
  | register _ _ | snapshot _ =>
    exact h.frame rfl id (sameFlow_update rfl ⟨rfl, rfl, id⟩) fun _ => handed_update rfl rfl
  | snapshotFails _ | unsubscribe _ _ =>
    exact h.frame rfl id (sameFlow_update rfl ⟨rfl, rfl, fun hended => (by cases hended)⟩)
      fun _ => handed_update rfl rfl
  | @hand call queue event queues hcall hqueue =>
    have hdraw : s.DrawGuard (.hand call queue) := trivial
    have hnumbered := numbered_step hordered.toNumbered hdraw hstep
    simp only [StreamGuard, hcall] at hguard
    exact h.hand (hordered.hand hcall hqueue hguard hnumbered).2
  | @handClosed queue _ =>
    obtain ⟨ready, hready, hcases⟩ := s.handClosed_eq queue
    rw [hready]
    rcases hcases with ⟨rfl, -⟩ | ⟨rfl, -⟩
    · exact h.frame rfl id (fun _ => ⟨rfl, rfl, id⟩) fun _ _ => rfl
    · exact h.push rfl rfl (fun _ => ⟨rfl, rfl, id⟩) (fun _ _ => rfl)
        (fun _ _ _ => Gapless.Follows.of_marker_right rfl) fun _ heq => (by cases heq)
  | runCallback hready _ =>
    simp only [StreamGuard, hready] at hguard
    exact h.callback hready hguard
  | get hqueue hreading _ _ => exact h.take hqueue hreading

/-! ## Every subscriber sees a gap-free ordered stream -/

theorem started_initial : ({} : BrokerState).Started :=
  ⟨fun _ => rfl, fun hne => absurd rfl hne⟩

theorem counted_initial : ({} : BrokerState).Counted :=
  ⟨rfl, fun _ hn => (by cases hn)⟩

theorem ordered_initial : ({} : BrokerState).Ordered where
  toCounted := counted_initial
  event_drawn _ _ hevent := by cases hevent
  event_distinct _ _ _ _ hevent := by cases hevent
  waiting _ _ hevent := by cases hevent
  captured_drawn _ hn := by cases hn
  handing _ _ _ hcall := by cases hcall
  subscribers_nodup := List.nodup_nil
  subscribers_used _ hqueue := by cases hqueue
  seen_captured _ _ hn := by
    rcases hn with hn | hn <;> cases hn
  unused _ _ := rfl
  turns _ := ⟨0, rfl, fun hne => absurd rfl hne⟩

theorem flowing_initial (queueSize : Int) : ({} : BrokerState).Flowing queueSize where
  bounded _ hpos := by
    show ((0 : Nat) : Int) ≤ queueSize
    omega
  taken _ := List.isChain_nil
  stream _ _ := List.isChain_nil
  last _ _ _ _ hlast := by cases hlast

/--
**When every subscriber sees a gap-free ordered stream.**

Every run of any number of calls of `publish`, subscribers and callbacks of the event loop, with any
size of the queues. No two events carry one number exactly when no draw finds the counter forgotten.
When, besides, each event is handed to each subscriber in its turn, and a full queue loses an item
only to a subscriber that has taken nothing or finds no event behind it, what each subscriber takes
before the marker is numbered without a gap.
-/
theorem stream_gapless (queueSize : Int) {ms : List (Move BrokerState BrokerAction)}
    (h : Run (BrokerStep queueSize) {} ms t) :
    (t.drawn.Nodup ↔ ∀ m ∈ ms, DrawGuard m.pre m.act) ∧
      ((∀ m ∈ ms, StreamGuard queueSize m.pre m.act) → t.StreamLaw) := by
  refine ⟨drawn_nodup_iff started_initial counted_initial h, fun hguard => ?_⟩
  have hkeep : ∀ (s : BrokerState) (action : BrokerAction) (t : BrokerState),
      s.Ordered ∧ s.Flowing queueSize → StreamGuard queueSize s action →
      BrokerStep queueSize s action t → t.Ordered ∧ t.Flowing queueSize :=
    fun s action t hinv hg hstep =>
      ⟨ordered_step hinv.1 hg hstep, flowing_step hinv.1 hinv.2 hg hstep⟩
  obtain ⟨hordered, hflowing⟩ :=
    (h.invariant hkeep ⟨ordered_initial, flowing_initial queueSize⟩ hguard).1
  constructor
  · rw [hordered.drawn]
    exact List.nodup_range
  · intro queue
    obtain ⟨start, hstart⟩ := consecutive_iff.mp (hflowing.taken queue)
    rw [List.length_map] at hstart
    exact ⟨start, hstart⟩

/-! ## Four runs of one task -/

/-- A subscriber is registered and gets its snapshot. -/
def subscribed : List BrokerAction := [.register 0, .snapshot]

/-- One call of `publish`, from its draw to its return. -/
def published (call : Nat) (type : String) : List BrokerAction :=
  [.draw call type, .capture call, .hand call 0, .done call]

/-- One event after the other, each taken at once. -/
def oneByOne : List BrokerAction :=
  subscribed ++ published 1 "task.started" ++ [.runCallback, .get 0] ++
    published 2 "model.started" ++ [.runCallback, .get 0]

/-- A subscriber that keeps up sees its two events in order. -/
theorem stream_gapless_kept : ∃ t ms, Run (BrokerStep 2) {} ms t ∧ t.StreamLaw ∧
    (t.subs 0).taken.map PublicEvent.sequence = [0, 1] := by
  have hcheck : (execute (next 2) {} oneByOne).any
      (fun t => decide ((t.subs 0).taken.map PublicEvent.sequence = [0, 1])) = true := by
    decide +kernel
  obtain ⟨t, ht, htaken⟩ := (Option.any_eq_true ..).mp hcheck
  have hrun := Run.of_execute (fun _ _ _ hnext => hnext) ht
  refine ⟨t, _, hrun, (stream_gapless 2 hrun).2 ?_, of_decide_eq_true htaken⟩
  decide +kernel

/-- The counter is forgotten at a terminal event and the next call starts anew. -/
def restarted : List BrokerAction :=
  subscribed ++ [.draw 1 "task.failed", .pop 1, .capture 1, .hand 1 0, .done 1, .draw 2 "task.failed"]

/-- A call is overtaken between its draw and its hand-over. -/
def overtaken : List BrokerAction :=
  subscribed ++ [.draw 1 "model.started"] ++ published 2 "tool.started" ++
    [.capture 1, .hand 1 0, .done 1, .runCallback, .runCallback, .get 0, .get 0]

/-- A queue of two items loses the oldest before the marker. -/
def overflowed : List BrokerAction :=
  subscribed ++ published 1 "task.started" ++ [.runCallback, .get 0] ++
    published 1 "model.started" ++ published 1 "model.completed" ++ published 1 "tool.started" ++
    [.runCallback, .runCallback, .runCallback, .get 0]

/-- **A number is drawn twice, events arrive in the wrong order, and one is lost before the
marker.** -/
theorem stream_broken :
    (∃ t ms, Run (BrokerStep 16) {} ms t ∧ t.drawn = [0, 0] ∧ ¬t.StreamLaw) ∧
      (∃ t ms, Run (BrokerStep 16) {} ms t ∧
        (t.subs 0).taken.map PublicEvent.sequence = [1, 0] ∧ ¬t.StreamLaw) ∧
      ∃ t ms, Run (BrokerStep 2) {} ms t ∧
        (t.subs 0).taken.map PublicEvent.sequence = [0, 2] ∧ ¬t.StreamLaw := by
  have hgap : ∀ t : BrokerState, ∀ numbers, (t.subs 0).taken.map PublicEvent.sequence = numbers →
      ¬Consecutive numbers → ¬t.StreamLaw := by
    intro t numbers htaken hnot hlaw
    obtain ⟨start, hstart⟩ := hlaw.taken 0
    rw [htaken] at hstart
    refine hnot (consecutive_iff.mpr ⟨start, ?_⟩)
    rw [← htaken, List.length_map, htaken]
    exact hstart
  refine ⟨?_, ?_, ?_⟩
  · have hcheck : (execute (next 16) {} restarted).any (fun t => decide (t.drawn = [0, 0])) = true := by
      decide +kernel
    obtain ⟨t, ht, hdrawn⟩ := (Option.any_eq_true ..).mp hcheck
    refine ⟨t, _, Run.of_execute (fun _ _ _ hnext => hnext) ht, of_decide_eq_true hdrawn, ?_⟩
    intro hlaw
    have hnodup := hlaw.drawn
    rw [of_decide_eq_true hdrawn] at hnodup
    revert hnodup
    decide
  · have hcheck : (execute (next 16) {} overtaken).any
        (fun t => decide ((t.subs 0).taken.map PublicEvent.sequence = [1, 0])) = true := by
      decide +kernel
    obtain ⟨t, ht, htaken⟩ := (Option.any_eq_true ..).mp hcheck
    refine ⟨t, _, Run.of_execute (fun _ _ _ hnext => hnext) ht, of_decide_eq_true htaken, ?_⟩
    exact hgap t _ (of_decide_eq_true htaken) (by unfold Consecutive; decide)
  · have hcheck : (execute (next 2) {} overflowed).any
        (fun t => decide ((t.subs 0).taken.map PublicEvent.sequence = [0, 2])) = true := by
      decide +kernel
    obtain ⟨t, ht, htaken⟩ := (Option.any_eq_true ..).mp hcheck
    refine ⟨t, _, Run.of_execute (fun _ _ _ hnext => hnext) ht, of_decide_eq_true htaken, ?_⟩
    exact hgap t _ (of_decide_eq_true htaken) (by unfold Consecutive; decide)

end BrokerState

end ThreadForge

import ThreadForge.Lib.PyString
import ThreadForge.Lib.Transition

/-!
# Follow-up messages

A message for a run goes from `append_message` through the connection to the handler of the Worker,
and from there into the inbox of the run. `run_task` makes the inbox when the agent is built and
gives it to `run_native`, which takes it and passes it on to nobody: no step of the loop takes an
item out of it.

## What is left out

The texts of the prompts. A prompt is the list of the texts that its sections show, by where each
comes from. Which of them a prompt shows is decided by the context manager and left open.

## Main results

* `FollowupState.delivers_iff` — when no message is lost.
-/

namespace ThreadForge

open Transition

/-! ## The inbox -/

/-- `InboxItem`, with its place among the accepted messages. -/
structure InboxItem where
  index : Nat
  message : String
  wake : Bool := true
  priority : Nat := 0
  deriving DecidableEq, Repr

/-- `InboxSource.append`. -/
def appendInbox (txt : PyText) (items : List InboxItem) (index : Nat) (message : String)
    (wake : Bool) : List InboxItem :=
  let text := pyStrip txt message
  if text = "" then items else items ++ [{ index := index, message := text, wake := wake }]

/-! ## The state -/

/-- What the loop puts in its history, its memory and its feedback. -/
inductive RunSource
  | request
  | model
  | tool
  | runtime
  deriving DecidableEq, Repr

/-- Where a text that a prompt shows comes from. -/
inductive TextOrigin
  | run (source : RunSource)
  /-- The accepted message at this place. -/
  | followup (index : Nat)
  deriving DecidableEq, Repr

/-- A message on its way to the Worker. -/
inductive FollowupFrame
  | start
  | message (index : Nat) (content : String) (wake : Bool)
  deriving DecidableEq, Repr

/-- Where the run stands: the entry of `active_runs` has no inbox until the agent is built. -/
inductive FollowupRun
  | absent
  | starting
  | looping (inbox : List InboxItem)
  | ended
  deriving DecidableEq, Repr

structure FollowupState where
  taskTerminal : Bool := false
  online : Bool := true
  /-- For how many messages `append_message` returned `queued`. -/
  accepted : Nat := 0
  wire : List FollowupFrame := []
  run : FollowupRun := .absent
  /-- The texts that a prompt may show. -/
  material : List TextOrigin := []
  prompts : List (List TextOrigin) := []
  /-- The messages to consume that reached the Worker. -/
  arrived : List Nat := []
  /-- Those that had reached it when the last model call started. -/
  due : List Nat := []
  deriving DecidableEq, Repr

inductive FollowupAction
  /-- `append_message`; `fits` is the size limit of the connection. -/
  | append (content : String) (wake fits : Bool)
  /-- `task.start` is sent. -/
  | dispatch
  | setTerminal
  | cut
  | connect
  /-- `_handle` takes the next message. -/
  | receive
  /-- `run_task` has built the agent. -/
  | prepare
  | record (source : RunSource)
  | callModel (prompt : List TextOrigin)
  | finish
  deriving DecidableEq, Repr

namespace FollowupRun

/-- The `task.message` branch of `_handle`. -/
def deliver (txt : PyText) (index : Nat) (content : String) (wake : Bool) :
    FollowupRun → FollowupRun
  | .looping inbox => .looping (appendInbox txt inbox index content wake)
  | .absent => .absent
  | .starting => .starting
  | .ended => .ended

/-- The items in the inbox. -/
def items : FollowupRun → List InboxItem
  | .looping inbox => inbox
  | .absent | .starting | .ended => []

end FollowupRun

namespace FollowupRun

/-- A run goes on with every item it had in the inbox, until it ends. -/
def Grows (before after : FollowupRun) : Prop :=
  after = .ended ∨ (before ≠ .ended ∧ before.items <+: after.items)

theorem Grows.refl (run : FollowupRun) : Grows run run := by
  by_cases hended : run = .ended
  · exact Or.inl hended
  · exact Or.inr ⟨hended, List.prefix_refl _⟩

end FollowupRun

namespace FollowupState

/-- A message that is there to be consumed. -/
def Counts (txt : PyText) (content : String) (wake : Bool) : Prop :=
  wake = true ∧ pyStrip txt content ≠ ""

instance (txt : PyText) (content : String) (wake : Bool) : Decidable (Counts txt content wake) :=
  inferInstanceAs (Decidable (_ ∧ _))

/-- The state after an action, where it can be taken. -/
def next (txt : PyText) (s : FollowupState) : FollowupAction → Option FollowupState
  | .append content wake fits =>
    if s.taskTerminal ∨ ¬fits ∨ ¬s.online then none
    else some { s with
      accepted := s.accepted + 1
      wire := s.wire ++ [.message s.accepted content wake] }
  | .dispatch => if s.online then some { s with wire := s.wire ++ [.start] } else none
  | .setTerminal => some { s with taskTerminal := true }
  | .cut => some { s with online := false, wire := [] }
  | .connect => some { s with online := true }
  | .receive =>
    match s.wire with
    | [] => none
    | .start :: rest =>
      match s.run with
      | .absent => some { s with wire := rest, run := .starting }
      | _ => none
    | .message index content wake :: rest =>
      some { s with
        wire := rest
        run := s.run.deliver txt index content wake
        arrived := if Counts txt content wake then s.arrived ++ [index] else s.arrived }
  | .prepare =>
    match s.run with
    | .starting => some { s with run := .looping [] }
    | _ => none
  | .record source =>
    match s.run with
    | .looping _ => some { s with material := s.material ++ [.run source] }
    | _ => none
  | .callModel prompt =>
    match s.run with
    | .looping _ =>
      if ∀ text ∈ prompt, text ∈ s.material then
        some { s with prompts := s.prompts ++ [prompt], due := s.arrived }
      else none
    | _ => none
  | .finish =>
    match s.run with
    | .looping _ | .starting => some { s with run := .ended }
    | _ => none

def step (txt : PyText) (s : FollowupState) (a : FollowupAction) (t : FollowupState) : Prop :=
  s.next txt a = some t

/-! ## What it is for -/

/-- The message that a text is. -/
def followupOf : TextOrigin → Option Nat
  | .followup index => some index
  | .run _ => none

/-- A message that had reached the Worker when the last model call started is in a prompt once, and
the prompts show the messages in the order in which they were accepted. -/
structure Delivers (s : FollowupState) : Prop where
  once : ∀ index ∈ s.due, ∃ prompt ∈ s.prompts, prompt.count (.followup index) = 1
  ordered : ∀ prompt ∈ s.prompts, (prompt.filterMap followupOf).Pairwise (· < ·)

/-- The Worker takes a message that is there to be consumed. -/
def Brings (txt : PyText) (m : Move FollowupState FollowupAction) : Prop :=
  m.act = .receive ∧ ∃ index content wake rest,
    m.pre.wire = .message index content wake :: rest ∧ Counts txt content wake

/-- A model call starts. -/
def Calls (m : Move FollowupState FollowupAction) : Prop := ∃ prompt, m.act = .callModel prompt

/-- No message is brought before a model call. -/
def BroughtLate (txt : PyText) (ms : List (Move FollowupState FollowupAction)) : Prop :=
  ms.Pairwise fun earlier later => Brings txt earlier → ¬Calls later

/-- Before the task is sent. -/
def initial : FollowupState := {}

variable {txt : PyText} {s t : FollowupState} {ms : List (Move FollowupState FollowupAction)}

/-! ## What the actions do -/

/-- What an action that neither takes a message nor touches a prompt leaves alone. -/
structure Aside (s t : FollowupState) : Prop where
  material : t.material = s.material
  prompts : t.prompts = s.prompts
  arrived : t.arrived = s.arrived
  due : t.due = s.due
  run : s.run.Grows t.run

/-- What a step does. -/
inductive Effect (txt : PyText) (s : FollowupState) : FollowupAction → FollowupState → Prop
  | start {rest : List FollowupFrame} : s.wire = .start :: rest → s.run = .absent →
      Effect txt s .receive { s with wire := rest, run := .starting }
  | message {index : Nat} {content : String} {wake : Bool} {rest : List FollowupFrame} :
      s.wire = .message index content wake :: rest →
      Effect txt s .receive { s with
        wire := rest
        run := s.run.deliver txt index content wake
        arrived := if Counts txt content wake then s.arrived ++ [index] else s.arrived }
  | record {source : RunSource} :
      Effect txt s (.record source) { s with material := s.material ++ [.run source] }
  | callModel {prompt : List TextOrigin} : (∀ text ∈ prompt, text ∈ s.material) →
      Effect txt s (.callModel prompt) { s with prompts := s.prompts ++ [prompt], due := s.arrived }
  | aside {a : FollowupAction} {t : FollowupState} : a ≠ .receive → (∀ prompt, a ≠ .callModel prompt) →
      Aside s t → Effect txt s a t

theorem aside_of_same {a : FollowupAction} (hreceive : a ≠ .receive)
    (hcall : ∀ prompt, a ≠ .callModel prompt) (accepted : Nat) (wire : List FollowupFrame)
    (terminal online : Bool) :
    Effect txt s a { s with
      accepted := accepted, wire := wire, taskTerminal := terminal, online := online } :=
  .aside hreceive hcall ⟨rfl, rfl, rfl, rfl, FollowupRun.Grows.refl _⟩

theorem effect_of_next {a : FollowupAction} (h : s.next txt a = some t) : Effect txt s a t := by
  cases a with
  | append content wake fits =>
    simp only [next] at h
    split at h
    · cases h
    · rw [← Option.some.inj h]
      exact aside_of_same (by simp) (by simp) _ _ _ _
  | dispatch =>
    simp only [next] at h
    split at h
    · rw [← Option.some.inj h]
      exact aside_of_same (by simp) (by simp) _ _ _ _
    · cases h
  | setTerminal =>
    rw [← Option.some.inj h]
    exact aside_of_same (by simp) (by simp) _ _ _ _
  | cut =>
    rw [← Option.some.inj h]
    exact aside_of_same (by simp) (by simp) _ _ _ _
  | connect =>
    rw [← Option.some.inj h]
    exact aside_of_same (by simp) (by simp) _ _ _ _
  | receive =>
    simp only [next] at h
    split at h
    · cases h
    · next rest hwire =>
      split at h
      · next hrun =>
        rw [← Option.some.inj h]
        exact .start hwire hrun
      · cases h
    · next index content wake rest hwire =>
      rw [← Option.some.inj h]
      exact .message hwire
  | prepare =>
    simp only [next] at h
    split at h
    · next hrun =>
      rw [← Option.some.inj h]
      refine .aside (by simp) (by simp) ⟨rfl, rfl, rfl, rfl, Or.inr ⟨?_, ?_⟩⟩
      · rw [hrun]
        simp
      · rw [hrun]
        exact List.nil_prefix
    · cases h
  | record source =>
    simp only [next] at h
    split at h
    · rw [← Option.some.inj h]
      exact .record
    · cases h
  | callModel prompt =>
    simp only [next] at h
    split at h
    · split at h
      · next hshown =>
        rw [← Option.some.inj h]
        exact .callModel hshown
      · cases h
    · cases h
  | finish =>
    simp only [next] at h
    split at h
    · rw [← Option.some.inj h]
      exact .aside (by simp) (by simp) ⟨rfl, rfl, rfl, rfl, Or.inl rfl⟩
    · rw [← Option.some.inj h]
      exact .aside (by simp) (by simp) ⟨rfl, rfl, rfl, rfl, Or.inl rfl⟩
    · cases h

/-! ## No prompt shows a message -/

/-- The loop has its own texts only. -/
structure Own (s : FollowupState) : Prop where
  material : ∀ text ∈ s.material, ∃ source, text = .run source
  prompts : ∀ prompt ∈ s.prompts, ∀ text ∈ prompt, ∃ source, text = .run source

theorem Own.step {a : FollowupAction} (hs : Own s) (h : Effect txt s a t) : Own t := by
  cases h with
  | start hwire hrun => exact ⟨hs.material, hs.prompts⟩
  | message hwire => exact ⟨hs.material, hs.prompts⟩
  | @record source =>
    refine ⟨fun text htext => ?_, hs.prompts⟩
    rcases List.mem_append.mp htext with hbefore | hlast
    · exact hs.material text hbefore
    · exact ⟨source, List.mem_singleton.mp hlast⟩
  | callModel hshown =>
    refine ⟨hs.material, fun other hother text htext => ?_⟩
    rcases List.mem_append.mp hother with hbefore | hlast
    · exact hs.prompts other hbefore text htext
    · rw [List.mem_singleton.mp hlast] at htext
      exact hs.material text (hshown text htext)
  | aside hreceive hcall hkept =>
    refine ⟨?_, ?_⟩
    · rw [hkept.material]
      exact hs.material
    · rw [hkept.prompts]
      exact hs.prompts

theorem own_of_run (h : Run (FollowupState.step txt) initial ms t) : Own t :=
  h.invariant_of_step (fun _ _ _ hs hstep => hs.step (effect_of_next hstep))
    ⟨fun _ htext => absurd htext List.not_mem_nil, fun _ hprompt => absurd hprompt List.not_mem_nil⟩

/-- So the messages that were due are the lost ones. -/
theorem Own.delivers_iff_due (hs : Own s) : s.Delivers ↔ s.due = [] := by
  have hnone : ∀ prompt ∈ s.prompts, ∀ index, TextOrigin.followup index ∉ prompt := by
    intro prompt hprompt index hmem
    obtain ⟨source, hsource⟩ := hs.prompts prompt hprompt _ hmem
    cases hsource
  constructor
  · intro h
    refine List.eq_nil_iff_forall_not_mem.mpr fun index hindex => ?_
    obtain ⟨prompt, hprompt, hcount⟩ := h.once index hindex
    rw [List.count_eq_zero_of_not_mem (hnone prompt hprompt index)] at hcount
    cases hcount
  · intro hdue
    refine ⟨?_, fun prompt hprompt => ?_⟩
    · rw [hdue]
      exact fun index hindex => absurd hindex List.not_mem_nil
    · have hfiltered : prompt.filterMap followupOf = [] := by
        refine List.filterMap_eq_nil_iff.mpr fun text htext => ?_
        obtain ⟨source, rfl⟩ := hs.prompts prompt hprompt text htext
        rfl
      rw [hfiltered]
      exact List.Pairwise.nil

/-! ## What is due -/

/-- What arrives. -/
theorem Effect.arrived_iff {a : FollowupAction} (h : Effect txt s a t) :
    t.arrived = [] ↔ s.arrived = [] ∧ ¬Brings txt ⟨s, a, t⟩ := by
  cases h with
  | @start rest hwire hrun =>
    refine (and_iff_left ?_).symm
    rintro ⟨-, index, content, wake, rest', hmessage, -⟩
    rw [show s.wire = .message index content wake :: rest' from hmessage] at hwire
    cases hwire
  | @message index content wake rest hwire =>
    show (if Counts txt content wake then s.arrived ++ [index] else s.arrived) = [] ↔ _
    by_cases hcounts : Counts txt content wake
    · rw [if_pos hcounts]
      refine iff_of_false (by simp) fun hnone => hnone.2 ?_
      exact ⟨rfl, index, content, wake, rest, hwire, hcounts⟩
    · rw [if_neg hcounts]
      refine (and_iff_left ?_).symm
      rintro ⟨-, index', content', wake', rest', hmessage, hcounts'⟩
      rw [show s.wire = .message index' content' wake' :: rest' from hmessage] at hwire
      cases hwire
      exact hcounts hcounts'
  | record =>
    refine (and_iff_left ?_).symm
    rintro ⟨hact, -⟩
    cases hact
  | callModel hshown =>
    refine (and_iff_left ?_).symm
    rintro ⟨hact, -⟩
    cases hact
  | aside hreceive hcall hkept =>
    rw [hkept.arrived]
    exact (and_iff_left fun hbrings => hreceive hbrings.1).symm

/-- What is due after a model call, and after another step. -/
theorem Effect.due_eq {a : FollowupAction} (h : Effect txt s a t) :
    (Calls ⟨s, a, t⟩ ∧ t.due = s.arrived) ∨ (¬Calls ⟨s, a, t⟩ ∧ t.due = s.due) := by
  cases h with
  | callModel hshown => exact Or.inl ⟨⟨_, rfl⟩, rfl⟩
  | start hwire hrun =>
    refine Or.inr ⟨?_, rfl⟩
    rintro ⟨prompt, hact⟩
    cases hact
  | message hwire =>
    refine Or.inr ⟨?_, rfl⟩
    rintro ⟨prompt, hact⟩
    cases hact
  | record =>
    refine Or.inr ⟨?_, rfl⟩
    rintro ⟨prompt, hact⟩
    cases hact
  | aside hreceive hcall hkept =>
    refine Or.inr ⟨?_, hkept.due⟩
    rintro ⟨prompt, hact⟩
    exact hcall prompt hact

theorem due_eq_nil_iff (h : Run (FollowupState.step txt) initial ms t) :
    (t.arrived = [] ↔ ∀ m ∈ ms, ¬Brings txt m) ∧ (t.due = [] ↔ BroughtLate txt ms) := by
  induction h with
  | nil =>
    exact ⟨iff_of_true rfl fun _ hm => absurd hm List.not_mem_nil,
      iff_of_true rfl List.Pairwise.nil⟩
  | @snoc ms s t a _ hstep ih =>
    obtain ⟨harrived, hdue⟩ := ih
    have heffect := effect_of_next hstep
    have hpairs : BroughtLate txt (ms ++ [⟨s, a, t⟩]) ↔
        BroughtLate txt ms ∧ ∀ m ∈ ms, Brings txt m → ¬Calls ⟨s, a, t⟩ := by
      unfold BroughtLate
      rw [List.pairwise_append]
      simp
    refine ⟨?_, ?_⟩
    · rw [heffect.arrived_iff, harrived, List.forall_mem_append, List.forall_mem_singleton]
    · rw [hpairs]
      rcases heffect.due_eq with ⟨hcalls, hnow⟩ | ⟨hnot, hsame⟩
      · -- a model call: what arrived is due from now on
        rw [hnow, harrived]
        constructor
        · intro hnone
          refine ⟨?_, fun m hm hbrings => absurd hbrings (hnone m hm)⟩
          exact List.pairwise_of_forall_mem_list fun m hm _ _ hbrings =>
            absurd hbrings (hnone m hm)
        · rintro ⟨-, hlate⟩ m hm hbrings
          exact hlate m hm hbrings hcalls
      · rw [hsame, hdue]
        exact (and_iff_left fun _ _ _ => hnot).symm

/--
**No follow-up message is lost exactly where none reaches the Worker before a model call.**

Any number of messages, at any time between the start of the task and its end. A message that comes
before the agent is built is dropped; one that comes later stays in the inbox, which nothing reads.
-/
theorem delivers_iff (h : Run (FollowupState.step txt) initial ms t) :
    t.Delivers ↔ BroughtLate txt ms := by
  rw [(own_of_run h).delivers_iff_due]
  exact (due_eq_nil_iff h).2

/-! ## Two runs -/

/-- A message that is accepted and reaches the Worker. -/
def sampleAppend : List FollowupAction := [.append "use the new API" true true, .receive]

/-- A run with two model calls, and what happens between them and after them. -/
def twoCalls (between later : List FollowupAction) : List FollowupAction :=
  [.dispatch, .receive, .prepare, .record .request, .callModel [.run .request]] ++ between ++
    [.record .model, .callModel [.run .request, .run .model]] ++ later

/-- The state after a script. -/
def after (script : List FollowupAction) : FollowupState :=
  (execute (next PyText.ascii) initial script).getD initial

/-- A message after the last model call comes too late for the run. -/
theorem delivers_iff_late : (after (twoCalls [] sampleAppend)).Delivers := by
  have hrun : Run (FollowupState.step PyText.ascii) initial
      (movesOf (next PyText.ascii) initial (twoCalls [] sampleAppend))
      (after (twoCalls [] sampleAppend)) :=
    Run.of_execute (fun _ _ _ hstep => hstep) (by decide +kernel)
  refine (delivers_iff hrun).mpr ((due_eq_nil_iff hrun).2.mp ?_)
  decide +kernel

/-- A message between two model calls is still in the inbox after the second. One that comes while
the agent is built is not even there. -/
theorem followup_lost :
    (after (twoCalls sampleAppend [])).accepted = 1 ∧
      (after (twoCalls sampleAppend [])).due = [0] ∧
      (after (twoCalls sampleAppend [])).run = .looping [{ index := 0, message := "use the new API" }] ∧
      ¬(after (twoCalls sampleAppend [])).Delivers ∧
      (after ([.dispatch, .receive] ++ sampleAppend ++ [.prepare])).run = .looping [] := by
  refine ⟨by decide +kernel, by decide +kernel, by decide +kernel, fun hdelivers => ?_,
    by decide +kernel⟩
  obtain ⟨prompt, hprompt, hcount⟩ := hdelivers.once 0 (by decide +kernel)
  have hnone : ∀ prompt ∈ (after (twoCalls sampleAppend [])).prompts,
      prompt.count (.followup 0) = 0 := by decide +kernel
  rw [hnone prompt hprompt] at hcount
  cases hcount

end FollowupState

end ThreadForge

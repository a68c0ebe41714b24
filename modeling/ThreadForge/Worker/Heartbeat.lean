import ThreadForge.Lib.Transition
import ThreadForge.Hub.State
import Mathlib.Data.List.Basic

/-!
# What the threads of a run send

One run of a task on the Worker: the thread of the run with the threads of a batch, the heartbeat
threads that `before_tool` starts, the threads of the model requests and the cancellation. All of them
send on the socket of the Worker, and the last message of the run thread is the terminal one.

## Steps

A step is one check, one change of a slot, or one message. A heartbeat looks at the token at the head
of its loop only, and after the wait it sends without a further look. A model request goes on in its
thread when the run thread has left it, and its callbacks look at the token before they send.
-/

namespace ThreadForge

open Transition

/-! ## State -/

/-- A message of the Worker about the task. -/
inductive TaskMessage
  | event
  | approvalRequested
  | terminal
  deriving DecidableEq, Repr

/-- Where a heartbeat thread stands: before the check of its loop, in `stop.wait`, or after it. -/
inductive BeatPhase
  | none
  | looping
  | waiting
  | woken
  | done
  deriving DecidableEq, Repr

/-- Where the call of a tool stands, from the check in `before_tool` to the one in `after_tool`. -/
inductive ToolPhase
  | checked
  | running
  | closing
  | done
  deriving DecidableEq, Repr

/-- A call of a tool, with its heartbeat. -/
structure ToolCall where
  phase : ToolPhase := .checked
  heartbeatStop : Bool := false
  beat : BeatPhase := .none
  deriving DecidableEq, Repr

/-- Where the thread of a model request stands: at the provider, in a callback after its check, or at
its end. -/
inductive RequestPhase
  | working
  | delivering
  | done
  deriving DecidableEq, Repr

/-- What the run thread is doing. -/
inductive RunPhase
  | active
  | waiting (request : Nat)
  | done
  deriving DecidableEq, Repr

/-- One run of a task. -/
structure TaskRun where
  phase : RunPhase := .active
  calls : List ToolCall := []
  requests : List RequestPhase := []
  cancelled : Bool := false
  sent : List TaskMessage := []
  deriving DecidableEq, Repr

/-- One step. Where `sent` is false, the send raised. -/
inductive RunAction
  | event
  | requestApproval
  | checkTool
  | openTool (call : Nat)
  | toolRaises (call : Nat)
  | afterTool (call : Nat)
  | closeTool (call : Nat)
  | beatLoops (call : Nat)
  | beatWaits (call : Nat)
  | beatSends (call : Nat) (sent : Bool)
  | callModel
  | requestChecks (request : Nat)
  | requestSends (request : Nat) (sent : Bool)
  | requestResumes (request : Nat)
  | requestEnds (request : Nat)
  | modelReturns
  | leaveModel
  | cancel
  | terminal (sent : Bool)
  deriving DecidableEq, Repr

namespace TaskRun

/-- A message goes out. -/
def emit (s : TaskRun) (message : TaskMessage) : TaskRun := { s with sent := s.sent ++ [message] }

def setCall (s : TaskRun) (i : Nat) (call : ToolCall) : TaskRun :=
  { s with calls := s.calls.set i call }

def setRequest (s : TaskRun) (i : Nat) (request : RequestPhase) : TaskRun :=
  { s with requests := s.requests.set i request }

/-- A step of the run thread, or of a batch that it waits for. -/
def whenActive (s : TaskRun) (t : TaskRun) : Option TaskRun :=
  if s.phase = .active then some t else none

/-- A step of one call. -/
def withCall (s : TaskRun) (i : Nat) (f : ToolCall → Option TaskRun) : Option TaskRun :=
  (s.calls[i]?).bind f

/-- A step of one model request. -/
def withRequest (s : TaskRun) (i : Nat) (f : RequestPhase → Option TaskRun) : Option TaskRun :=
  (s.requests[i]?).bind f

/-! ## The calls -/

/-- `_check` of `before_tool`. -/
def checkTool (s : TaskRun) : Option TaskRun :=
  if s.cancelled then none else s.whenActive { s with calls := s.calls ++ [{}] }

/-- The slot of the call is opened, and its heartbeat thread started. -/
def openTool (s : TaskRun) (i : Nat) : Option TaskRun :=
  s.withCall i fun call =>
    if call.phase = .checked then
      some (s.setCall i { call with phase := .running, beat := .looping })
    else none

/-- The call ends with an exception that does not come to `after_tool`: `ProcessCleanupFailed`,
`RunCancelled`, or one that is raised outside of the handler. -/
def toolRaises (s : TaskRun) (i : Nat) : Option TaskRun :=
  s.withCall i fun call =>
    if call.phase = .running then some (s.setCall i { call with phase := .done }) else none

/-- `_check` of `after_tool`, which raises before the slot is looked at. -/
def afterTool (s : TaskRun) (i : Nat) : Option TaskRun :=
  s.withCall i fun call =>
    if call.phase = .running then
      some (s.setCall i { call with phase := if s.cancelled then .done else .closing })
    else none

/-- `after_tool` takes the slot and stops its heartbeat. -/
def closeTool (s : TaskRun) (i : Nat) : Option TaskRun :=
  s.withCall i fun call =>
    if call.phase = .closing then
      some (s.setCall i { call with phase := .done, heartbeatStop := true })
    else none

/-! ## The heartbeats -/

/-- The head of the loop in `beat`. -/
def beatLoops (s : TaskRun) (i : Nat) : Option TaskRun :=
  s.withCall i fun call =>
    if call.beat = .looping then
      some (s.setCall i { call with
        beat := if call.heartbeatStop || s.cancelled then .done else .waiting })
    else none

/-- The end of `stop.wait`. -/
def beatWaits (s : TaskRun) (i : Nat) : Option TaskRun :=
  s.withCall i fun call =>
    if call.beat = .waiting then
      some (s.setCall i { call with beat := if call.heartbeatStop then .done else .woken })
    else none

/-- `model.heartbeat`. -/
def beatSends (s : TaskRun) (i : Nat) (sent : Bool) : Option TaskRun :=
  s.withCall i fun call =>
    if call.beat = .woken then
      if sent then some ((s.setCall i { call with beat := .looping }).emit .event)
      else some (s.setCall i { call with beat := .done })
    else none

/-! ## The model requests -/

/-- `complete` starts the thread of the request. -/
def callModel (s : TaskRun) : Option TaskRun :=
  if s.cancelled || !s.calls.all (fun call => call.phase = .done) then none
  else s.whenActive { s with
    requests := s.requests ++ [.working], phase := .waiting s.requests.length }

/-- `_check` of a callback. -/
def requestChecks (s : TaskRun) (i : Nat) : Option TaskRun :=
  s.withRequest i fun request =>
    if request = .working then some (s.setRequest i (if s.cancelled then .done else .delivering))
    else none

/-- An event of a callback. -/
def requestSends (s : TaskRun) (i : Nat) (sent : Bool) : Option TaskRun :=
  s.withRequest i fun request =>
    if request = .delivering then
      if sent then some (s.emit .event) else some (s.setRequest i .done)
    else none

/-- The callback returns. -/
def requestResumes (s : TaskRun) (i : Nat) : Option TaskRun :=
  s.withRequest i fun request =>
    if request = .delivering then some (s.setRequest i .working) else none

/-- The outcome of the request is put into the queue. -/
def requestEnds (s : TaskRun) (i : Nat) : Option TaskRun :=
  s.withRequest i fun request =>
    if request = .working then some (s.setRequest i .done) else none

/-- The run thread takes the outcome. -/
def modelReturns (s : TaskRun) : Option TaskRun :=
  match s.phase with
  | .waiting i => if s.requests[i]? = some .done then some { s with phase := .active } else none
  | _ => none

/-- `raise_if_cancelled` of the polling loop: the run thread leaves the request to itself. -/
def leaveModel (s : TaskRun) : Option TaskRun :=
  match s.phase with
  | .waiting _ => if s.cancelled then some { s with phase := .active } else none
  | _ => none

/-! ## The end of the run -/

/-- The terminal message. The calls of a batch have ended before. -/
def terminal (s : TaskRun) (sent : Bool) : Option TaskRun :=
  if s.calls.all (fun call => call.phase = .done) then
    s.whenActive { s with
      phase := .done, sent := if sent then s.sent ++ [.terminal] else s.sent }
  else none

/-- The state after an action, where the action can be taken. -/
def next (s : TaskRun) : RunAction → Option TaskRun
  | .event => s.whenActive (s.emit .event)
  | .requestApproval => s.whenActive (s.emit .approvalRequested)
  | .checkTool => s.checkTool
  | .openTool call => s.openTool call
  | .toolRaises call => s.toolRaises call
  | .afterTool call => s.afterTool call
  | .closeTool call => s.closeTool call
  | .beatLoops call => s.beatLoops call
  | .beatWaits call => s.beatWaits call
  | .beatSends call sent => s.beatSends call sent
  | .callModel => s.callModel
  | .requestChecks request => s.requestChecks request
  | .requestSends request sent => s.requestSends request sent
  | .requestResumes request => s.requestResumes request
  | .requestEnds request => s.requestEnds request
  | .modelReturns => s.modelReturns
  | .leaveModel => s.leaveModel
  | .cancel => some { s with cancelled := true }
  | .terminal sent => s.terminal sent

/-- A run of a task as a transition system. -/
abbrev RunStep (s : TaskRun) (action : RunAction) (t : TaskRun) : Prop := s.next action = some t

/-! ## Statements -/

/-- A heartbeat that sends nothing any more, whatever comes. -/
def QuietBeat (cancelled : Bool) (call : ToolCall) : Prop :=
  match call.beat with
  | .none => True
  | .looping => call.heartbeatStop = true ∨ cancelled = true
  | .waiting => call.heartbeatStop = true
  | .woken => False
  | .done => True

/-- The other threads of the run are quiet: each heartbeat has ended, or finds its slot closed or the
token cancelled before it sends, and no callback of a model request is past its check. -/
structure Quiet (s : TaskRun) : Prop where
  beats : ∀ call ∈ s.calls, QuietBeat s.cancelled call
  requests : ∀ request ∈ s.requests, request ≠ .delivering

/-- Nothing follows the terminal message. -/
def TerminalLast (sent : List TaskMessage) : Prop :=
  ∀ before after : List TaskMessage, sent = before ++ .terminal :: after → after = []

/-- `_assigned_task` of the hub over the messages of the task in their order: the terminal message
takes the task out of the map, and what comes for a task that is not there is rejected. -/
def accepted (assigned : Bool) : List TaskMessage → Bool
  | [] => true
  | message :: rest => assigned && accepted (assigned && message ≠ .terminal) rest

theorem terminalLast_cons {message : TaskMessage} {rest : List TaskMessage}
    (hne : message ≠ .terminal) : TerminalLast (message :: rest) ↔ TerminalLast rest := by
  constructor
  · intro h before after heq
    exact h (message :: before) after (by rw [heq]; rfl)
  · intro h before after heq
    cases before with
    | nil => exact absurd (List.cons.inj heq).1 hne
    | cons first before => exact h before after (List.cons.inj heq).2

/-- The hub accepts the messages of which none follows the terminal one. -/
theorem accepted_iff {sent : List TaskMessage} : accepted true sent = true ↔ TerminalLast sent := by
  induction sent with
  | nil =>
    refine iff_of_true rfl fun before after heq => ?_
    have hlength := congrArg List.length heq
    simp at hlength
  | cons message rest ih =>
    by_cases hterminal : message = .terminal
    · subst hterminal
      constructor
      · intro haccepted before after heq
        have hrest : rest = [] := by
          cases rest with
          | nil => rfl
          | cons _ _ => simp [accepted] at haccepted
        rw [hrest] at heq
        have hlength := congrArg List.length heq
        simp only [List.length_cons, List.length_nil, List.length_append] at hlength
        exact List.length_eq_zero_iff.mp (by omega)
      · intro hlast
        rw [hlast [] rest rfl]
        rfl
    · rw [terminalLast_cons hterminal, ← ih]
      simp [accepted, hterminal]

end TaskRun

/-! ## The hub -/

namespace TaskRun

variable {s t u : TaskRun} {action : RunAction} {i : Nat} {call : ToolCall}

/-! ## Steps of one call or request -/

theorem withCall_eq_some {f : ToolCall → Option TaskRun} (h : s.withCall i f = some t) :
    ∃ call, s.calls[i]? = some call ∧ f call = some t :=
  Option.bind_eq_some_iff.mp h

theorem withRequest_eq_some {f : RequestPhase → Option TaskRun} (h : s.withRequest i f = some t) :
    ∃ request, s.requests[i]? = some request ∧ f request = some t :=
  Option.bind_eq_some_iff.mp h

theorem whenActive_eq_some (h : s.whenActive t = some u) : s.phase = .active ∧ u = t := by
  unfold whenActive at h
  split at h
  · next hactive => exact ⟨hactive, (Option.some.inj h).symm⟩
  · cases h

theorem withCall_of_get {f : ToolCall → Option TaskRun} (h : s.calls[i]? = some call) :
    s.withCall i f = f call := by
  rw [withCall, h]
  rfl

theorem getElem?_setCall {call' : ToolCall} (h : s.calls[i]? = some call) :
    (s.setCall i call').calls[i]? = some call' := by
  obtain ⟨hlt, _⟩ := List.getElem?_eq_some_iff.mp h
  exact List.getElem?_set_self hlt

/-! ## After the terminal message -/

/-- A run that has ended, and whose threads are quiet. -/
structure Settled (sent : List TaskMessage) (s : TaskRun) : Prop where
  phase : s.phase = .done
  calls : ∀ call ∈ s.calls, call.phase = .done
  quiet : s.Quiet
  left : ∀ request ∈ s.requests, request = .done ∨ s.cancelled = true
  sent : s.sent = sent

variable {sent : List TaskMessage}

/-- A call comes to another quiet point. -/
theorem Settled.setCall (h : Settled sent s) {call' : ToolCall} (hphase : call'.phase = .done)
    (hquiet : QuietBeat s.cancelled call') : Settled sent (s.setCall i call') where
  phase := h.phase
  calls call hmem := by
    rcases List.mem_or_eq_of_mem_set hmem with hold | rfl
    · exact h.calls call hold
    · exact hphase
  quiet := by
    refine ⟨fun call hmem => ?_, h.quiet.requests⟩
    rcases List.mem_or_eq_of_mem_set hmem with hold | rfl
    · exact h.quiet.beats call hold
    · exact hquiet
  left := h.left
  sent := h.sent

/-- A model request ends. -/
theorem Settled.endRequest (h : Settled sent s) : Settled sent (s.setRequest i .done) where
  phase := h.phase
  calls := h.calls
  quiet := by
    refine ⟨h.quiet.beats, fun request hmem => ?_⟩
    rcases List.mem_or_eq_of_mem_set hmem with hold | rfl
    · exact h.quiet.requests request hold
    · simp
  left request hmem := by
    rcases List.mem_or_eq_of_mem_set hmem with hold | rfl
    · exact h.left request hold
    · exact Or.inl rfl
  sent := h.sent

/-- The token is cancelled. -/
theorem Settled.cancel (h : Settled sent s) : Settled sent { s with cancelled := true } where
  phase := h.phase
  calls := h.calls
  quiet := by
    refine ⟨fun call hmem => ?_, h.quiet.requests⟩
    have hbefore := h.quiet.beats call hmem
    unfold QuietBeat at hbefore ⊢
    split <;> simp_all
  left _ _ := Or.inr rfl
  sent := h.sent

/-- A run that has ended takes no step of its own thread. -/
theorem Settled.whenActive (h : Settled sent s) (hstep : s.whenActive t = some u) :
    Settled sent u := by
  have hactive := (whenActive_eq_some hstep).1
  rw [h.phase] at hactive
  cases hactive

theorem Settled.step (h : Settled sent s) (hstep : RunStep s action t) : Settled sent t := by
  unfold RunStep next at hstep
  cases action with
  | event => exact h.whenActive hstep
  | requestApproval => exact h.whenActive hstep
  | checkTool =>
    simp only [checkTool] at hstep
    split at hstep
    · cases hstep
    · exact h.whenActive hstep
  | openTool i =>
    obtain ⟨call, hget, hcall⟩ := withCall_eq_some hstep
    have hdone := h.calls call (List.mem_of_getElem? hget)
    simp [hdone] at hcall
  | toolRaises i =>
    obtain ⟨call, hget, hcall⟩ := withCall_eq_some hstep
    have hdone := h.calls call (List.mem_of_getElem? hget)
    simp [hdone] at hcall
  | afterTool i =>
    obtain ⟨call, hget, hcall⟩ := withCall_eq_some hstep
    have hdone := h.calls call (List.mem_of_getElem? hget)
    simp [hdone] at hcall
  | closeTool i =>
    obtain ⟨call, hget, hcall⟩ := withCall_eq_some hstep
    have hdone := h.calls call (List.mem_of_getElem? hget)
    simp [hdone] at hcall
  | beatLoops i =>
    obtain ⟨call, hget, hcall⟩ := withCall_eq_some hstep
    have hmem := List.mem_of_getElem? hget
    split at hcall
    · next hbeat =>
      have hquiet := h.quiet.beats call hmem
      rw [QuietBeat, hbeat] at hquiet
      have hends : (call.heartbeatStop || s.cancelled) = true := by
        rw [Bool.or_eq_true]
        exact hquiet
      rw [if_pos hends] at hcall
      cases hcall
      exact h.setCall (h.calls call hmem) trivial
    · cases hcall
  | beatWaits i =>
    obtain ⟨call, hget, hcall⟩ := withCall_eq_some hstep
    have hmem := List.mem_of_getElem? hget
    split at hcall
    · next hbeat =>
      have hquiet := h.quiet.beats call hmem
      rw [QuietBeat, hbeat] at hquiet
      rw [if_pos hquiet] at hcall
      cases hcall
      exact h.setCall (h.calls call hmem) trivial
    · cases hcall
  | beatSends i sent =>
    obtain ⟨call, hget, hcall⟩ := withCall_eq_some hstep
    have hquiet := h.quiet.beats call (List.mem_of_getElem? hget)
    split at hcall
    · next hbeat =>
      rw [QuietBeat, hbeat] at hquiet
      cases hquiet
    · cases hcall
  | callModel =>
    simp only [callModel] at hstep
    split at hstep
    · cases hstep
    · exact h.whenActive hstep
  | requestChecks i =>
    obtain ⟨request, hget, hrequest⟩ := withRequest_eq_some hstep
    split at hrequest
    · next hworking =>
      rcases h.left request (List.mem_of_getElem? hget) with hdone | hcancelled
      · rw [hdone] at hworking
        cases hworking
      · rw [hcancelled] at hrequest
        cases hrequest
        exact h.endRequest
    · cases hrequest
  | requestSends i sent =>
    obtain ⟨request, hget, hrequest⟩ := withRequest_eq_some hstep
    simp [h.quiet.requests request (List.mem_of_getElem? hget)] at hrequest
  | requestResumes i =>
    obtain ⟨request, hget, hrequest⟩ := withRequest_eq_some hstep
    simp [h.quiet.requests request (List.mem_of_getElem? hget)] at hrequest
  | requestEnds i =>
    obtain ⟨request, hget, hrequest⟩ := withRequest_eq_some hstep
    split at hrequest
    · cases hrequest
      exact h.endRequest
    · cases hrequest
  | modelReturns => simp [modelReturns, h.phase] at hstep
  | leaveModel => simp [leaveModel, h.phase] at hstep
  | cancel =>
    cases hstep
    exact h.cancel
  | terminal sent =>
    simp only [terminal] at hstep
    split at hstep
    · exact h.whenActive hstep
    · cases hstep

/-! ## Before the terminal message -/

/-- What holds while the run goes on: no terminal message is out, and a request that has not ended is
the one the run thread waits for, or was left by it. -/
structure Underway (s : TaskRun) : Prop where
  none : s.phase ≠ .done → .terminal ∉ s.sent
  left : ∀ {i : Nat} {request : RequestPhase}, s.requests[i]? = some request →
    request = .done ∨ s.cancelled = true ∨ s.phase = .waiting i

/-- A step of a thread that leaves the requests and the run thread alone, and may send an event. -/
theorem Underway.frame (h : s.Underway) (hphase : t.phase = s.phase)
    (hrequests : t.requests = s.requests) (hcancelled : s.cancelled = true → t.cancelled = true)
    (hsent : t.sent = s.sent ∨ ∃ message, message ≠ .terminal ∧ t.sent = s.sent ++ [message]) :
    t.Underway where
  none hne := by
    have hbefore := h.none (hphase ▸ hne)
    rcases hsent with heq | ⟨message, hmessage, heq⟩
    · rw [heq]
      exact hbefore
    · rw [heq, List.mem_append, List.mem_singleton]
      rintro (hold | hnew)
      · exact hbefore hold
      · exact hmessage hnew.symm
  left hget := by
    rw [hrequests] at hget
    rw [hphase]
    rcases h.left hget with hdone | hcancel | hwaiting
    · exact Or.inl hdone
    · exact Or.inr (Or.inl (hcancelled hcancel))
    · exact Or.inr (Or.inr hwaiting)

theorem Underway.setCall (h : s.Underway) (call : ToolCall) : (s.setCall i call).Underway :=
  h.frame rfl rfl id (Or.inl rfl)

/-- A request comes to another point; it has not ended before. -/
theorem Underway.setRequest (h : s.Underway) {request request' : RequestPhase}
    (hget : s.requests[i]? = some request) (hne : request ≠ .done) :
    (s.setRequest i request').Underway where
  none := h.none
  left {j other} hj := by
    change (s.requests.set i request')[j]? = some other at hj
    by_cases hij : i = j
    · subst hij
      rcases h.left hget with hdone | hleft
      · exact absurd hdone hne
      · exact Or.inr hleft
    · rw [List.getElem?_set_ne hij] at hj
      exact h.left hj

/-- The run thread comes back from a request that has ended or was cancelled. -/
theorem Underway.return (h : s.Underway) (hphase : s.phase = .waiting i)
    (hleft : s.requests[i]? = some .done ∨ s.cancelled = true) :
    ({ s with phase := .active } : TaskRun).Underway where
  none _ := h.none (by rw [hphase]; simp)
  left {j request} hj := by
    rcases h.left hj with hdone | hcancel | hwaiting
    · exact Or.inl hdone
    · exact Or.inr (Or.inl hcancel)
    · rw [hphase] at hwaiting
      cases hwaiting
      rcases hleft with hdone | hcancel
      · exact Or.inl (Option.some.inj (hj.symm.trans hdone))
      · exact Or.inr (Or.inl hcancel)

theorem Underway.step (h : s.Underway) (hstep : RunStep s action t) : t.Underway := by
  unfold RunStep next at hstep
  cases action with
  | event =>
    obtain ⟨_, rfl⟩ := whenActive_eq_some hstep
    exact h.frame rfl rfl id (Or.inr ⟨.event, by simp, rfl⟩)
  | requestApproval =>
    obtain ⟨_, rfl⟩ := whenActive_eq_some hstep
    exact h.frame rfl rfl id (Or.inr ⟨.approvalRequested, by simp, rfl⟩)
  | checkTool =>
    simp only [checkTool] at hstep
    split at hstep
    · cases hstep
    · obtain ⟨_, rfl⟩ := whenActive_eq_some hstep
      exact h.frame rfl rfl id (Or.inl rfl)
  | openTool i =>
    obtain ⟨call, _, hcall⟩ := withCall_eq_some hstep
    simp only [Option.ite_none_right_eq_some, Option.some.injEq] at hcall
    obtain ⟨_, rfl⟩ := hcall
    exact h.setCall _
  | toolRaises i =>
    obtain ⟨call, _, hcall⟩ := withCall_eq_some hstep
    simp only [Option.ite_none_right_eq_some, Option.some.injEq] at hcall
    obtain ⟨_, rfl⟩ := hcall
    exact h.setCall _
  | afterTool i =>
    obtain ⟨call, _, hcall⟩ := withCall_eq_some hstep
    simp only [Option.ite_none_right_eq_some, Option.some.injEq] at hcall
    obtain ⟨_, rfl⟩ := hcall
    exact h.setCall _
  | closeTool i =>
    obtain ⟨call, _, hcall⟩ := withCall_eq_some hstep
    simp only [Option.ite_none_right_eq_some, Option.some.injEq] at hcall
    obtain ⟨_, rfl⟩ := hcall
    exact h.setCall _
  | beatLoops i =>
    obtain ⟨call, _, hcall⟩ := withCall_eq_some hstep
    simp only [Option.ite_none_right_eq_some, Option.some.injEq] at hcall
    obtain ⟨_, rfl⟩ := hcall
    exact h.setCall _
  | beatWaits i =>
    obtain ⟨call, _, hcall⟩ := withCall_eq_some hstep
    simp only [Option.ite_none_right_eq_some, Option.some.injEq] at hcall
    obtain ⟨_, rfl⟩ := hcall
    exact h.setCall _
  | beatSends i sent =>
    obtain ⟨call, _, hcall⟩ := withCall_eq_some hstep
    split at hcall
    · split at hcall
      · cases hcall
        exact (h.setCall (i := i) _).frame rfl rfl id (Or.inr ⟨.event, by simp, rfl⟩)
      · cases hcall
        exact h.setCall _
    · cases hcall
  | callModel =>
    simp only [callModel] at hstep
    split at hstep
    · cases hstep
    · obtain ⟨hactive, rfl⟩ := whenActive_eq_some hstep
      refine ⟨fun _ => h.none (by rw [hactive]; simp), fun {j request} hj => ?_⟩
      change (s.requests ++ [.working])[j]? = some request at hj
      rw [List.getElem?_append] at hj
      split at hj
      · rcases h.left hj with hdone | hcancel | hwaiting
        · exact Or.inl hdone
        · exact Or.inr (Or.inl hcancel)
        · rw [hactive] at hwaiting
          cases hwaiting
      · -- the new request is the one that is waited for
        next hle =>
        have hlast : j - s.requests.length = 0 := by
          have hlt := (List.getElem?_eq_some_iff.mp hj).1
          simpa using hlt
        have hj' : j = s.requests.length := by omega
        exact Or.inr (Or.inr (by rw [hj']))
  | requestChecks i =>
    obtain ⟨request, hget, hrequest⟩ := withRequest_eq_some hstep
    simp only [Option.ite_none_right_eq_some, Option.some.injEq] at hrequest
    obtain ⟨hworking, rfl⟩ := hrequest
    exact h.setRequest hget (by rw [hworking]; simp)
  | requestSends i sent =>
    obtain ⟨request, hget, hrequest⟩ := withRequest_eq_some hstep
    split at hrequest
    · next hdelivering =>
      split at hrequest
      · cases hrequest
        exact h.frame rfl rfl id (Or.inr ⟨.event, by simp, rfl⟩)
      · cases hrequest
        exact h.setRequest hget (by rw [hdelivering]; simp)
    · cases hrequest
  | requestResumes i =>
    obtain ⟨request, hget, hrequest⟩ := withRequest_eq_some hstep
    simp only [Option.ite_none_right_eq_some, Option.some.injEq] at hrequest
    obtain ⟨hdelivering, rfl⟩ := hrequest
    exact h.setRequest hget (by rw [hdelivering]; simp)
  | requestEnds i =>
    obtain ⟨request, hget, hrequest⟩ := withRequest_eq_some hstep
    simp only [Option.ite_none_right_eq_some, Option.some.injEq] at hrequest
    obtain ⟨hworking, rfl⟩ := hrequest
    exact h.setRequest hget (by rw [hworking]; simp)
  | modelReturns =>
    simp only [modelReturns] at hstep
    split at hstep
    · next i hwaiting =>
      simp only [Option.ite_none_right_eq_some, Option.some.injEq] at hstep
      obtain ⟨hdone, rfl⟩ := hstep
      exact h.return hwaiting (Or.inl hdone)
    · cases hstep
  | leaveModel =>
    simp only [leaveModel] at hstep
    split at hstep
    · next i hwaiting =>
      simp only [Option.ite_none_right_eq_some, Option.some.injEq] at hstep
      obtain ⟨hcancelled, rfl⟩ := hstep
      exact h.return hwaiting (Or.inr hcancelled)
    · cases hstep
  | cancel =>
    cases hstep
    exact h.frame rfl rfl (fun _ => rfl) (Or.inl rfl)
  | terminal sent =>
    simp only [terminal] at hstep
    split at hstep
    · obtain ⟨hactive, rfl⟩ := whenActive_eq_some hstep
      refine ⟨fun hne => absurd rfl hne, fun hj => ?_⟩
      rcases h.left hj with hdone | hcancel | hwaiting
      · exact Or.inl hdone
      · exact Or.inr (Or.inl hcancel)
      · rw [hactive] at hwaiting
        cases hwaiting
    · cases hstep

theorem underway_initial : ({} : TaskRun).Underway where
  none _ := by simp
  left hget := by cases hget

/-! ## A thread that is not quiet -/

/-- A heartbeat past its wait sends. -/
theorem run_of_woken (hget : s.calls[i]? = some call) (hbeat : call.beat = .woken) :
    ∃ ns u, Run RunStep s ns u ∧ u.sent = s.sent ++ [.event] := by
  have hstep : RunStep s (.beatSends i true)
      ((s.setCall i { call with beat := .looping }).emit .event) := by
    show s.beatSends i true = _
    rw [beatSends, withCall_of_get hget, if_pos hbeat]
    rfl
  exact ⟨_, _, Run.single hstep, rfl⟩

/-- One in its wait sends, unless its slot is closed. -/
theorem run_of_waiting (hget : s.calls[i]? = some call) (hbeat : call.beat = .waiting)
    (hopen : call.heartbeatStop = false) :
    ∃ ns u, Run RunStep s ns u ∧ u.sent = s.sent ++ [.event] := by
  have hstep : RunStep s (.beatWaits i) (s.setCall i { call with beat := .woken }) := by
    show s.beatWaits i = _
    rw [beatWaits, withCall_of_get hget, if_pos hbeat, hopen]
    rfl
  have hwoken : (s.setCall i { call with beat := .woken }).calls[i]? =
      some { call with beat := .woken } := getElem?_setCall hget
  obtain ⟨ns, u, hrun, hsent⟩ := run_of_woken hwoken rfl
  exact ⟨_, u, Run.cons hstep hrun, hsent⟩

/-- One at the head of its loop sends, unless its slot is closed or the token cancelled. -/
theorem run_of_looping (hget : s.calls[i]? = some call) (hbeat : call.beat = .looping)
    (hopen : call.heartbeatStop = false) (hcancelled : s.cancelled = false) :
    ∃ ns u, Run RunStep s ns u ∧ u.sent = s.sent ++ [.event] := by
  have hstep : RunStep s (.beatLoops i) (s.setCall i { call with beat := .waiting }) := by
    show s.beatLoops i = _
    rw [beatLoops, withCall_of_get hget, if_pos hbeat, hopen, hcancelled]
    rfl
  have hwaiting : (s.setCall i { call with beat := .waiting }).calls[i]? =
      some { call with beat := .waiting } := getElem?_setCall hget
  obtain ⟨ns, u, hrun, hsent⟩ := run_of_waiting hwaiting rfl hopen
  exact ⟨_, u, Run.cons hstep hrun, hsent⟩

theorem run_of_not_quietBeat (hget : s.calls[i]? = some call)
    (hnot : ¬QuietBeat s.cancelled call) :
    ∃ ns u, Run RunStep s ns u ∧ u.sent = s.sent ++ [.event] := by
  cases hbeat : call.beat with
  | none => exact absurd (by rw [QuietBeat, hbeat]; trivial) hnot
  | done => exact absurd (by rw [QuietBeat, hbeat]; trivial) hnot
  | woken => exact run_of_woken hget hbeat
  | waiting =>
    rw [QuietBeat, hbeat] at hnot
    exact run_of_waiting hget hbeat (Bool.eq_false_iff.mpr hnot)
  | looping =>
    rw [QuietBeat, hbeat] at hnot
    obtain ⟨hopen, hcancelled⟩ := not_or.mp hnot
    exact run_of_looping hget hbeat (Bool.eq_false_iff.mpr hopen)
      (Bool.eq_false_iff.mpr hcancelled)

theorem run_of_delivering (hget : s.requests[i]? = some .delivering) :
    ∃ ns u, Run RunStep s ns u ∧ u.sent = s.sent ++ [.event] := by
  have hstep : RunStep s (.requestSends i true) (s.emit .event) := by
    show s.requestSends i true = _
    rw [requestSends, withRequest, hget]
    rfl
  exact ⟨_, _, Run.single hstep, rfl⟩

/-! ## Nothing after the terminal message -/

theorem terminalLast_append {before : List TaskMessage} (h : .terminal ∉ before) :
    TerminalLast (before ++ [.terminal]) := by
  intro front after heq
  rcases List.eq_nil_or_concat after with hnil | ⟨rest, last, rfl⟩
  · exact hnil
  · rw [List.concat_eq_append] at heq
    have hsplit : before ++ [.terminal] = (front ++ .terminal :: rest) ++ [last] := by
      rw [heq, List.append_assoc]
      rfl
    obtain ⟨hbefore, _⟩ := List.append_inj' hsplit rfl
    refine absurd ?_ h
    rw [hbefore]
    exact List.mem_append_right _ List.mem_cons_self

theorem terminal_eq_some (h : RunStep s (.terminal true) t) : s.phase = .active ∧
    (∀ call ∈ s.calls, call.phase = .done) ∧
      t = { s with phase := .done, sent := s.sent ++ [.terminal] } := by
  have h : s.terminal true = some t := h
  unfold terminal at h
  split at h
  · next hdone =>
    obtain ⟨hactive, rfl⟩ := whenActive_eq_some h
    refine ⟨hactive, fun call hmem => ?_, rfl⟩
    exact of_decide_eq_true (List.all_eq_true.mp hdone call hmem)
  · cases h

/-- The terminal message of a run is its last one, and the hub accepts all of them, in every
continuation of the run exactly where the other threads are quiet when it is sent. -/
theorem terminalLast_iff {ms : List (Move TaskRun RunAction)} (h : Run RunStep {} ms s)
    (hterminal : RunStep s (.terminal true) t) :
    (∀ {ns : List (Move TaskRun RunAction)} {u : TaskRun}, Run RunStep t ns u →
      TerminalLast u.sent ∧ accepted true u.sent = true) ↔ s.Quiet := by
  have hunderway : s.Underway :=
    h.invariant_of_step (fun _ _ _ hkept hstep => hkept.step hstep) underway_initial
  obtain ⟨hactive, hcalls, rfl⟩ := terminal_eq_some hterminal
  constructor
  · -- a thread that is not quiet sends one more event
    intro hall
    have hmore : ¬∃ ns u, Run RunStep
        { s with phase := .done, sent := s.sent ++ [.terminal] } ns u ∧
          u.sent = s.sent ++ [.terminal] ++ [.event] := by
      rintro ⟨ns, u, hrun, hsent⟩
      have hlast := (hall hrun).1 s.sent [.event] (by rw [hsent, List.append_assoc]; rfl)
      cases hlast
    refine ⟨fun call hmem => ?_, fun request hmem hdelivering => ?_⟩
    · obtain ⟨i, hget⟩ := List.getElem?_of_mem hmem
      by_contra hnot
      exact hmore (run_of_not_quietBeat hget hnot)
    · obtain ⟨i, hget⟩ := List.getElem?_of_mem hmem
      rw [hdelivering] at hget
      exact hmore (run_of_delivering hget)
  · intro hquiet ns u hrun
    have hsettled : Settled (s.sent ++ [.terminal])
        { s with phase := .done, sent := s.sent ++ [.terminal] } := by
      refine ⟨rfl, hcalls, ⟨hquiet.beats, hquiet.requests⟩, fun request hmem => ?_, rfl⟩
      obtain ⟨i, hget⟩ := List.getElem?_of_mem hmem
      rcases hunderway.left hget with hdone | hcancel | hwaiting
      · exact Or.inl hdone
      · exact Or.inr hcancel
      · rw [hactive] at hwaiting
        cases hwaiting
    have hend := hrun.invariant_of_step (fun _ _ _ hkept hstep => hkept.step hstep) hsettled
    have hlast : TerminalLast u.sent := by
      rw [hend.sent]
      exact terminalLast_append (hunderway.none (by rw [hactive]; simp))
    exact ⟨hlast, accepted_iff.mpr hlast⟩

/-- A tool that ends while its heartbeat waits. -/
def toolEnds : List RunAction :=
  [.checkTool, .openTool 0, .event, .beatLoops 0, .afterTool 0, .closeTool 0, .event]

theorem terminalLast_iff_toolEnds : ∃ s t, execute next {} toolEnds = some s ∧
    RunStep s (.terminal true) t ∧
    ∀ {ns : List (Move TaskRun RunAction)} {u : TaskRun}, Run RunStep t ns u →
      TerminalLast u.sent ∧ accepted true u.sent = true := by
  have hrun : execute next {} toolEnds = some {
      calls := [{ phase := .done, heartbeatStop := true, beat := .waiting }]
      sent := [.event, .event] } := by
    decide +kernel
  have hend : RunStep {
      calls := [{ phase := .done, heartbeatStop := true, beat := .waiting }]
      sent := [.event, .event] } (.terminal true) {
      phase := .done
      calls := [{ phase := .done, heartbeatStop := true, beat := .waiting }]
      sent := [.event, .event, .terminal] } := by
    decide +kernel
  refine ⟨_, _, hrun, hend, fun hmore => ?_⟩
  refine (terminalLast_iff (Run.of_execute (fun _ _ _ hnext => hnext) hrun) hend).mpr ?_ hmore
  exact ⟨by simp [QuietBeat], by simp⟩

/-- The cleanup of a shell command fails: `after_tool` is not reached, and the heartbeat of the tool
goes on when the run has ended. -/
def cleanupFails : List RunAction :=
  [.checkTool, .openTool 0, .event, .beatLoops 0, .toolRaises 0, .terminal true, .beatWaits 0,
    .beatSends 0 true]

theorem heartbeat_after_terminal :
    ¬∀ {ms : List (Move TaskRun RunAction)} {s : TaskRun}, Run RunStep {} ms s →
      TerminalLast s.sent ∧ accepted true s.sent = true := by
  intro hall
  have hrun : execute next {} cleanupFails = some {
      phase := .done
      calls := [{ phase := .done, beat := .looping }]
      sent := [.event, .terminal, .event] } := by
    decide +kernel
  obtain ⟨hlast, _⟩ := hall (Run.of_execute (fun _ _ _ hnext => hnext) hrun)
  have hnone := hlast [.event] [.event] rfl
  cases hnone

end TaskRun

end ThreadForge

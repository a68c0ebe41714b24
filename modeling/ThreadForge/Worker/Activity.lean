import ThreadForge.Lib.Transition
import Mathlib.Data.List.Basic

/-!
# Runs, updates and uninstalls of a Worker

The receiving thread, the threads of the runs and those of the updates of a `WorkerClient`. They share
`active_runs` and `_updating` under one lock, which each of them holds for a short check only.

## Steps

A step is a region of the lock, or what one thread does between two of them. The receiving thread
handles one message after the other; where a send of it raises, it leaves the connection, and joins
the runs it found active before it connects again.
-/

namespace ThreadForge

open Transition

/-! ## State -/

/-- Where the answer to one `task.start` stands. -/
inductive StartPhase
  | received
  | refusing
  | refused
  | registered
  | running
  | failing
  | ending
  | finished
  deriving DecidableEq, Repr

/-- One `task.start` that was received, with the number of terminal messages that answered it. -/
structure TaskStart where
  taskId : String
  phase : StartPhase
  terminals : Nat := 0
  deriving DecidableEq, Repr

/-- The thread of the run is alive. -/
def TaskStart.live (a : TaskStart) : Bool :=
  a.phase = .running || a.phase = .failing || a.phase = .ending

/-- The thread of the run was started. -/
def TaskStart.launched (a : TaskStart) : Bool := a.live || a.phase = .finished

/-- What the receiving thread is doing. -/
inductive Receiver
  | idle
  | starting (start : Nat)
  | uninstalling (busy : Bool)
  | answeringUpdate (begun : Bool)
  | joining (runs : List Nat)
  | offline
  deriving DecidableEq, Repr

/-- Where the update that a message asked for stands. It is abandoned where the answer to the message
could not be sent: then its thread was never started. -/
inductive ManualUpdate
  | none
  | answering
  | running
  | abandoned
  deriving DecidableEq, Repr

/-- A `WorkerClient`. A run is known by the number of its `task.start`. -/
structure ActivityState where
  starts : List TaskStart := []
  activeRuns : List (String × Nat) := []
  updating : Bool := false
  manualUpdate : ManualUpdate := .none
  autoUpdate : Bool := false
  uninstallAccepted : Bool := false
  receiver : Receiver := .idle
  deriving DecidableEq, Repr

/-- How `run_task` ends: with its terminal message, or with an exception. -/
inductive RunTaskEnd
  | answered
  | raised
  deriving DecidableEq, Repr

/-- One step. `sent` is whether the message of the step went out. -/
inductive ActivityAction
  | receiveStart (taskId : String) (known : Bool)
  | startRegion
  | refuse (sent : Bool)
  | launch
  | runTask (start : Nat) (ended : RunTaskEnd)
  | lastMessage (start : Nat) (sent : Bool)
  | popRun (start : Nat)
  | receiveUninstall
  | answerUninstall (available sent : Bool)
  | requestUpdate (considered : Bool)
  | answerUpdate (sent : Bool)
  | manualUpdateEnds
  | autoUpdateBegins
  | autoUpdateEnds
  | disconnect
  | joined
  | reconnect
  deriving DecidableEq, Repr

namespace ActivityState

/-! ## The lock -/

/-- `begin_update`: `none` where it returns `False`. -/
def beginUpdate (s : ActivityState) : Option ActivityState :=
  if s.activeRuns ≠ [] ∨ s.updating = true then none else some { s with updating := true }

/-- `end_update`. -/
def endUpdate (s : ActivityState) : ActivityState := { s with updating := false }

/-- `self.active_runs[task_id] = active`. -/
def register (s : ActivityState) (taskId : String) (start : Nat) : ActivityState :=
  { s with activeRuns := s.activeRuns.filter (fun entry => entry.1 ≠ taskId) ++ [(taskId, start)] }

/-- The run is taken out where it is still the active one of its task. -/
def unregister (s : ActivityState) (taskId : String) (start : Nat) : ActivityState :=
  { s with activeRuns := s.activeRuns.filter fun entry => entry ≠ (taskId, start) }

/-! ## The threads -/

/-- The answer to a `task.start` comes to a new phase. -/
def setStart (s : ActivityState) (start : Nat) (a : TaskStart) : ActivityState :=
  { s with starts := s.starts.set start a }

/-- The receiving thread leaves the connection: it waits for the runs that are active. -/
def leave (s : ActivityState) : ActivityState :=
  { s with receiver := .joining (s.activeRuns.map Prod.snd) }

/-- The receiving thread after a message that it sent, or could not send. -/
def afterSend (s : ActivityState) (sent : Bool) : ActivityState :=
  if sent then { s with receiver := .idle } else s.leave

/-- The `task.start` that the receiving thread handles. -/
def handled (s : ActivityState) : Option (Nat × TaskStart) :=
  match s.receiver with
  | .starting start => (s.starts[start]?).map fun a => (start, a)
  | _ => none

/-! ### `task.start` -/

/-- A `task.start` arrives. One for a workspace that is not known is refused at once. -/
def receiveStart (s : ActivityState) (taskId : String) (known : Bool) : Option ActivityState :=
  if s.receiver = .idle then some { s with
    starts := s.starts ++ [{ taskId := taskId, phase := if known then .received else .refusing }]
    receiver := .starting s.starts.length }
  else none

/-- The region of `_start_task`. -/
def startRegion (s : ActivityState) : Option ActivityState :=
  match s.handled with
  | some (start, a) =>
    if a.phase = .received then
      if s.updating then some (s.setStart start { a with phase := .refusing })
      else some ((s.setStart start { a with phase := .registered }).register a.taskId start)
    else none
  | none => none

/-- The terminal message of a refusal. -/
def refuse (s : ActivityState) (sent : Bool) : Option ActivityState :=
  match s.handled with
  | some (start, a) =>
    if a.phase = .refusing then
      some ((s.setStart start { a with
        phase := .refused
        terminals := if sent then a.terminals + 1 else a.terminals }).afterSend sent)
    else none
  | none => none

/-- `active.thread.start()`. -/
def launch (s : ActivityState) : Option ActivityState :=
  match s.handled with
  | some (start, a) =>
    if a.phase = .registered then
      some { s.setStart start { a with phase := .running } with receiver := .idle }
    else none
  | none => none

/-- `run_task`, whose last statement sends the terminal message. -/
def runTask (s : ActivityState) (start : Nat) (ended : RunTaskEnd) : Option ActivityState :=
  match s.starts[start]? with
  | some a =>
    if a.phase = .running then
      match ended with
      | .answered =>
        some (s.setStart start { a with phase := .ending, terminals := a.terminals + 1 })
      | .raised => some (s.setStart start { a with phase := .failing })
    else none
  | none => none

/-- The terminal message of a run that raised. -/
def lastMessage (s : ActivityState) (start : Nat) (sent : Bool) : Option ActivityState :=
  match s.starts[start]? with
  | some a =>
    if a.phase = .failing then
      some (s.setStart start { a with
        phase := .ending
        terminals := if sent then a.terminals + 1 else a.terminals })
    else none
  | none => none

/-- The region at the end of a run. -/
def popRun (s : ActivityState) (start : Nat) : Option ActivityState :=
  match s.starts[start]? with
  | some a =>
    if a.phase = .ending then
      some ((s.setStart start { a with phase := .finished }).unregister a.taskId start)
    else none
  | none => none

/-! ### Updates and uninstalls -/

/-- The region of `_uninstall_worker`. -/
def receiveUninstall (s : ActivityState) : Option ActivityState :=
  if s.receiver = .idle then
    some { s with receiver := .uninstalling (!s.activeRuns.isEmpty || s.updating) }
  else none

/-- The answer to an uninstall, which is accepted where it could be sent. -/
def answerUninstall (s : ActivityState) (available sent : Bool) : Option ActivityState :=
  match s.receiver with
  | .uninstalling busy =>
    some ({ s with
      uninstallAccepted := s.uninstallAccepted || (available && !busy && sent) }.afterSend sent)
  | _ => none

/-- The message that asks for an update. `considered` is whether it comes to `begin_update`. -/
def requestUpdate (s : ActivityState) (considered : Bool) : Option ActivityState :=
  if s.receiver = .idle then
    match considered, s.beginUpdate with
    | true, some begun =>
      some { begun with manualUpdate := .answering, receiver := .answeringUpdate true }
    | _, _ => some { s with receiver := .answeringUpdate false }
  else none

/-- The answer to it, and the start of the thread of the update. -/
def answerUpdate (s : ActivityState) (sent : Bool) : Option ActivityState :=
  match s.receiver with
  | .answeringUpdate true =>
    some ({ s with manualUpdate := if sent then .running else .abandoned }.afterSend sent)
  | .answeringUpdate false => some (s.afterSend sent)
  | _ => none

/-- `end_update` of the thread of an update. -/
def manualUpdateEnds (s : ActivityState) : Option ActivityState :=
  if s.manualUpdate = .running then some { s.endUpdate with manualUpdate := .none } else none

/-- `begin_update` of the loop that looks for updates. -/
def autoUpdateBegins (s : ActivityState) : Option ActivityState :=
  if s.autoUpdate then none
  else match s.beginUpdate with
    | some begun => some { begun with autoUpdate := true }
    | none => some s

/-- `end_update` of that loop. -/
def autoUpdateEnds (s : ActivityState) : Option ActivityState :=
  if s.autoUpdate then some { s.endUpdate with autoUpdate := false } else none

/-! ### The connection -/

/-- The connection ends between two messages. -/
def disconnect (s : ActivityState) : Option ActivityState :=
  if s.receiver = .idle then some s.leave else none

/-- The runs that were active have ended. -/
def joined (s : ActivityState) : Option ActivityState :=
  match s.receiver with
  | .joining runs =>
    if runs.all fun start => (s.starts[start]?).all fun a => a.phase = .finished then
      some { s with receiver := .offline }
    else none
  | _ => none

/-- A new connection. -/
def reconnect (s : ActivityState) : Option ActivityState :=
  if s.receiver = .offline then some { s with receiver := .idle } else none

/-- The state after an action, where the action can be taken. -/
def next (s : ActivityState) : ActivityAction → Option ActivityState
  | .receiveStart taskId known => s.receiveStart taskId known
  | .startRegion => s.startRegion
  | .refuse sent => s.refuse sent
  | .launch => s.launch
  | .runTask start ended => s.runTask start ended
  | .lastMessage start sent => s.lastMessage start sent
  | .popRun start => s.popRun start
  | .receiveUninstall => s.receiveUninstall
  | .answerUninstall available sent => s.answerUninstall available sent
  | .requestUpdate considered => s.requestUpdate considered
  | .answerUpdate sent => s.answerUpdate sent
  | .manualUpdateEnds => s.manualUpdateEnds
  | .autoUpdateBegins => s.autoUpdateBegins
  | .autoUpdateEnds => s.autoUpdateEnds
  | .disconnect => s.disconnect
  | .joined => s.joined
  | .reconnect => s.reconnect

/-- The Worker as a transition system. -/
abbrev ActivityStep (s : ActivityState) (action : ActivityAction) (t : ActivityState) : Prop :=
  s.next action = some t

/-! ## Statements -/

/-- An update is in progress: a `begin_update` succeeded, and its `end_update` was not called. -/
def UpdateInProgress (s : ActivityState) : Prop := s.autoUpdate = true ∨ s.manualUpdate ≠ .none

/-- What exclusion means in one state. -/
structure Exclusive (s : ActivityState) : Prop where
  runs : s.UpdateInProgress → s.activeRuns = []
  uninstall : s.UpdateInProgress → s.uninstallAccepted = false
  threads : ∀ {i j : Nat} {a b : TaskStart}, s.starts[i]? = some a → s.starts[j]? = some b →
    a.live = true → b.live = true → a.taskId = b.taskId → i = j
  answers : ∀ {i : Nat} {a : TaskStart}, s.starts[i]? = some a → a.terminals ≤ 1

/-- Exclusion over one move: the state after it is exclusive, and no run was started during an
update. -/
def ExclusiveMove (s t : ActivityState) : Prop :=
  t.Exclusive ∧ (s.UpdateInProgress →
    t.starts.countP TaskStart.launched = s.starts.countP TaskStart.launched)

/-- No `begin_update` succeeds once an uninstall was accepted, none is accepted during an update, and
no run is started for a task whose earlier run is alive. -/
def ExclusiveGuard (s : ActivityState) : ActivityAction → Prop
  | .requestUpdate considered =>
    considered = true → s.beginUpdate.isSome = true → s.uninstallAccepted = false
  | .autoUpdateBegins => s.beginUpdate.isSome = true → s.uninstallAccepted = false
  | .answerUninstall available sent =>
    s.receiver = .uninstalling false → available = true → sent = true → ¬s.UpdateInProgress
  | .launch => ∀ {i j : Nat} {a b : TaskStart}, s.receiver = .starting i → s.starts[i]? = some a →
    s.starts[j]? = some b → b.live = true → b.taskId ≠ a.taskId
  | _ => True

/-! ## The starts -/

theorem getElem?_set_cases {α : Type} {l : List α} {i j : Nat} {a b : α}
    (h : (l.set i a)[j]? = some b) : (j = i ∧ b = a) ∨ (j ≠ i ∧ l[j]? = some b) := by
  rw [List.getElem?_set] at h
  by_cases hij : i = j
  · rw [if_pos hij] at h
    split at h
    · exact Or.inl ⟨hij.symm, (Option.some.inj h).symm⟩
    · cases h
  · rw [if_neg hij] at h
    exact Or.inr ⟨fun heq => hij heq.symm, h⟩

theorem countP_set_of_eq {α : Type} {p : α → Bool} {l : List α} {i : Nat} {a b : α}
    (h : l[i]? = some a) (hp : p b = p a) : (l.set i b).countP p = l.countP p := by
  obtain ⟨hlt, rfl⟩ := List.getElem?_eq_some_iff.mp h
  rw [List.countP_set hlt, hp]
  by_cases hpa : p l[i] = true
  · have hpos : 0 < l.countP p := List.countP_pos_iff.mpr ⟨l[i], List.getElem_mem hlt, hpa⟩
    rw [if_pos hpa]
    omega
  · rw [if_neg hpa]
    omega

/-- A start has at most one terminal message, and none before its answer was sent. -/
def Sound (a : TaskStart) : Prop :=
  a.terminals ≤ 1 ∧
    (a.phase ≠ .refused → a.phase ≠ .ending → a.phase ≠ .finished → a.terminals = 0)

/-- What holds of the starts, next to the active runs and the receiving thread. -/
structure StartsKept (starts : List TaskStart) (activeRuns : List (String × Nat))
    (receiver : Receiver) : Prop where
  threads : ∀ {i j : Nat} {a b : TaskStart}, starts[i]? = some a → starts[j]? = some b →
    a.live = true → b.live = true → a.taskId = b.taskId → i = j
  sound : ∀ {i : Nat} {a : TaskStart}, starts[i]? = some a → Sound a
  registered : ∀ {i : Nat} {a : TaskStart}, starts[i]? = some a → a.phase = .registered →
    (a.taskId, i) ∈ activeRuns
  handling : ∀ {i : Nat} {a : TaskStart}, starts[i]? = some a → a.phase = .registered →
    receiver = .starting i

variable {starts : List TaskStart} {activeRuns activeRuns' : List (String × Nat)}
  {receiver receiver' : Receiver} {i : Nat} {a b : TaskStart}

/-- One start comes to a new phase. -/
theorem StartsKept.set (h : StartsKept starts activeRuns receiver) (ha : starts[i]? = some a)
    (htask : b.taskId = a.taskId) (hsound : Sound b)
    (hlive : b.live = true → a.live = true ∨
      ∀ {j : Nat} {b : TaskStart}, starts[j]? = some b → b.live = true → b.taskId ≠ a.taskId)
    (hregistered : b.phase = .registered → (a.taskId, i) ∈ activeRuns' ∧ receiver' = .starting i)
    (hactive : ∀ {j : Nat} {b : TaskStart}, j ≠ i → starts[j]? = some b →
      b.phase = .registered → (b.taskId, j) ∈ activeRuns')
    (hreceiver : receiver' = receiver ∨ receiver = .starting i) :
    StartsKept (starts.set i b) activeRuns' receiver' where
  threads {j k b c} hj hk hb hc heq := by
    rcases getElem?_set_cases hj with ⟨rfl, rfl⟩ | ⟨_, hj'⟩
    · rcases getElem?_set_cases hk with ⟨rfl, rfl⟩ | ⟨_, hk'⟩
      · rfl
      · rcases hlive hb with halive | hnone
        · exact h.threads ha hk' halive hc (htask.symm.trans heq)
        · exact absurd (heq.symm.trans htask) (hnone hk' hc)
    · rcases getElem?_set_cases hk with ⟨rfl, rfl⟩ | ⟨_, hk'⟩
      · rcases hlive hc with halive | hnone
        · exact h.threads hj' ha hb halive (heq.trans htask)
        · exact absurd (heq.trans htask) (hnone hj' hb)
      · exact h.threads hj' hk' hb hc heq
  sound {j b} hj := by
    rcases getElem?_set_cases hj with ⟨rfl, rfl⟩ | ⟨_, hj'⟩
    · exact hsound
    · exact h.sound hj'
  registered {j b} hj hb := by
    rcases getElem?_set_cases hj with ⟨rfl, rfl⟩ | ⟨hji, hj'⟩
    · rw [htask]
      exact (hregistered hb).1
    · exact hactive hji hj' hb
  handling {j b} hj hb := by
    rcases getElem?_set_cases hj with ⟨rfl, rfl⟩ | ⟨hji, hj'⟩
    · exact (hregistered hb).2
    · rcases hreceiver with rfl | hstarting
      · exact h.handling hj' hb
      · -- only the start at hand can be registered
        have hother := h.handling hj' hb
        rw [hstarting] at hother
        exact absurd (Receiver.starting.inj hother).symm hji

/-- The receiving thread turns from or to something else than a start. -/
theorem StartsKept.turn (h : StartsKept starts activeRuns receiver)
    (hreceiver : ∀ i, receiver ≠ .starting i) : StartsKept starts activeRuns receiver' where
  threads := h.threads
  sound := h.sound
  registered := h.registered
  handling hi ha := absurd (h.handling hi ha) (hreceiver _)

/-- A new start. -/
theorem StartsKept.receive (h : StartsKept starts activeRuns .idle) {taskId : String}
    {phase : StartPhase} (hphase : phase = .received ∨ phase = .refusing) :
    StartsKept (starts ++ [{ taskId := taskId, phase := phase }]) activeRuns
      (.starting starts.length) := by
  have hcases : ∀ {j : Nat} {b : TaskStart},
      (starts ++ [{ taskId := taskId, phase := phase }])[j]? = some b →
      starts[j]? = some b ∨ b = { taskId := taskId, phase := phase } := by
    intro j b hj
    rw [List.getElem?_append] at hj
    split at hj
    · exact Or.inl hj
    · exact Or.inr (List.mem_singleton.mp (List.mem_of_getElem? hj))
  have hdead : ({ taskId := taskId, phase := phase } : TaskStart).live = false := by
    rcases hphase with rfl | rfl <;> rfl
  have hnot : ({ taskId := taskId, phase := phase } : TaskStart).phase ≠ .registered := by
    rcases hphase with rfl | rfl <;> simp
  refine ⟨fun {j k b c} hj hk hb hc heq => ?_, fun {j b} hj => ?_, fun {j b} hj hb => ?_,
    fun {j b} hj hb => ?_⟩
  · rcases hcases hj with hj | rfl
    · rcases hcases hk with hk | rfl
      · exact h.threads hj hk hb hc heq
      · rw [hdead] at hc
        cases hc
    · rw [hdead] at hb
      cases hb
  · rcases hcases hj with hj | rfl
    · exact h.sound hj
    · exact ⟨Nat.zero_le 1, fun _ _ _ => rfl⟩
  · rcases hcases hj with hj | rfl
    · exact h.registered hj hb
    · exact absurd hb hnot
  · rcases hcases hj with hj | rfl
    · cases h.handling hj hb
    · exact absurd hb hnot

/-! ## The updates -/

/-- What holds of the update in progress. -/
structure UpdatesKept (s : ActivityState) : Prop where
  flag : s.UpdateInProgress ↔ s.updating = true
  one : s.autoUpdate = true → s.manualUpdate = .none
  runs : s.UpdateInProgress → s.activeRuns = []
  uninstall : s.UpdateInProgress → s.uninstallAccepted = false

/-- What holds between the steps. -/
structure Kept (s : ActivityState) : Prop where
  starts : StartsKept s.starts s.activeRuns s.receiver
  updates : UpdatesKept s

variable {s t : ActivityState}

theorem Kept.exclusive (h : s.Kept) : s.Exclusive where
  runs := h.updates.runs
  uninstall := h.updates.uninstall
  threads := h.starts.threads
  answers ha := (h.starts.sound ha).1

/-- A step that leaves the updates alone, and adds no active run during one. -/
theorem UpdatesKept.frame (h : s.UpdatesKept) (hauto : t.autoUpdate = s.autoUpdate)
    (hmanual : t.manualUpdate = s.manualUpdate) (hflag : t.updating = s.updating)
    (huninstall : t.uninstallAccepted = s.uninstallAccepted)
    (hruns : s.updating = true → s.activeRuns = [] → t.activeRuns = []) : t.UpdatesKept := by
  have hprogress : t.UpdateInProgress ↔ s.UpdateInProgress := by
    unfold UpdateInProgress
    rw [hauto, hmanual]
  refine ⟨?_, ?_, fun ht => ?_, fun ht => ?_⟩
  · rw [hprogress, hflag]
    exact h.flag
  · rw [hauto, hmanual]
    exact h.one
  · have hs := hprogress.mp ht
    exact hruns (h.flag.mp hs) (h.runs hs)
  · rw [huninstall]
    exact h.uninstall (hprogress.mp ht)

theorem beginUpdate_some (h : s.beginUpdate = some t) :
    s.activeRuns = [] ∧ s.updating = false ∧ t = { s with updating := true } := by
  unfold beginUpdate at h
  split at h
  · cases h
  · next hfree =>
    obtain ⟨hruns, hflag⟩ := not_or.mp hfree
    exact ⟨not_not.mp hruns, Bool.eq_false_iff.mpr hflag, (Option.some.inj h).symm⟩

/-- A free Worker has no update in progress. -/
theorem UpdatesKept.free (h : s.UpdatesKept) (hflag : s.updating = false) :
    s.autoUpdate = false ∧ s.manualUpdate = .none := by
  have hnone : ¬s.UpdateInProgress := by
    rw [h.flag, hflag]
    simp
  obtain ⟨hauto, hmanual⟩ := not_or.mp hnone
  exact ⟨Bool.eq_false_iff.mpr hauto, not_not.mp hmanual⟩

theorem handled_eq (h : s.handled = some (i, a)) :
    s.receiver = .starting i ∧ s.starts[i]? = some a := by
  unfold handled at h
  split at h
  · next start hreceiver =>
    obtain ⟨b, hb, heq⟩ := Option.map_eq_some_iff.mp h
    cases heq
    exact ⟨hreceiver, hb⟩
  · cases h

/-! ## What one step keeps -/

/-- The step keeps what holds between the steps, and starts no run during an update. -/
def Keeping (s t : ActivityState) : Prop :=
  t.Kept ∧ (s.UpdateInProgress →
    t.starts.countP TaskStart.launched = s.starts.countP TaskStart.launched)

/-- A step on one start that does not make its run live. -/
theorem Kept.setStart (h : s.Kept) (ha : s.starts[i]? = some a) (htask : b.taskId = a.taskId)
    (hsound : Sound b) (hlive : b.live = true → a.live = true)
    (hlaunched : b.launched = a.launched) (hphase : b.phase ≠ .registered)
    (hstarts : t.starts = s.starts.set i b)
    (hactive : ∀ {j : Nat} {b : TaskStart}, j ≠ i → s.starts[j]? = some b →
      (b.taskId, j) ∈ s.activeRuns → (b.taskId, j) ∈ t.activeRuns)
    (hreceiver : t.receiver = s.receiver ∨ s.receiver = .starting i)
    (hupdates : t.UpdatesKept) : Keeping s t := by
  refine ⟨⟨?_, hupdates⟩, fun _ => ?_⟩
  · rw [hstarts]
    exact h.starts.set ha htask hsound (fun hb => Or.inl (hlive hb))
      (fun hb => absurd hb hphase)
      (fun hne hj hb => hactive hne hj (h.starts.registered hj hb)) hreceiver
  · rw [hstarts]
    exact countP_set_of_eq ha hlaunched

/-- A step of the receiving thread, or of an update, that leaves the starts alone. -/
theorem Kept.turn (h : s.Kept) (hstarts : t.starts = s.starts)
    (hactive : t.activeRuns = s.activeRuns)
    (hreceiver : t.receiver = s.receiver ∨ ∀ i, s.receiver ≠ .starting i)
    (hupdates : t.UpdatesKept) : Keeping s t := by
  refine ⟨⟨?_, hupdates⟩, fun _ => by rw [hstarts]⟩
  rw [hstarts, hactive]
  rcases hreceiver with heq | hne
  · rw [heq]
    exact h.starts
  · exact h.starts.turn hne

@[simp] theorem afterSend_starts (sent : Bool) : (s.afterSend sent).starts = s.starts := by
  cases sent <;> rfl

@[simp] theorem afterSend_activeRuns (sent : Bool) :
    (s.afterSend sent).activeRuns = s.activeRuns := by
  cases sent <;> rfl

@[simp] theorem afterSend_updating (sent : Bool) : (s.afterSend sent).updating = s.updating := by
  cases sent <;> rfl

@[simp] theorem afterSend_autoUpdate (sent : Bool) :
    (s.afterSend sent).autoUpdate = s.autoUpdate := by
  cases sent <;> rfl

@[simp] theorem afterSend_manualUpdate (sent : Bool) :
    (s.afterSend sent).manualUpdate = s.manualUpdate := by
  cases sent <;> rfl

@[simp] theorem afterSend_uninstallAccepted (sent : Bool) :
    (s.afterSend sent).uninstallAccepted = s.uninstallAccepted := by
  cases sent <;> rfl

theorem Kept.receiveStart (h : s.Kept) {taskId : String} {known : Bool}
    (hstep : s.receiveStart taskId known = some t) : Keeping s t := by
  unfold ActivityState.receiveStart at hstep
  split at hstep
  · next hidle =>
    cases hstep
    have hstarts := h.starts
    rw [hidle] at hstarts
    refine ⟨⟨?_, h.updates.frame rfl rfl rfl rfl fun _ hruns => hruns⟩, fun _ => ?_⟩
    · refine hstarts.receive ?_
      cases known
      · exact Or.inr rfl
      · exact Or.inl rfl
    · rw [List.countP_append, List.countP_singleton]
      cases known <;> rfl
  · cases hstep

theorem Kept.startRegion (h : s.Kept) (hstep : s.startRegion = some t) : Keeping s t := by
  unfold ActivityState.startRegion at hstep
  split at hstep
  · next i a hhandled =>
    obtain ⟨hreceiver, ha⟩ := handled_eq hhandled
    split at hstep
    · next hphase =>
      have hsound := h.starts.sound ha
      have hnone : a.terminals = 0 := hsound.2 (by rw [hphase]; simp) (by rw [hphase]; simp)
        (by rw [hphase]; simp)
      split at hstep
      · cases hstep
        refine h.setStart (b := { a with phase := .refusing }) ha rfl ⟨hsound.1, fun _ _ _ => hnone⟩
          (by simp [TaskStart.live]) (by simp [TaskStart.launched, TaskStart.live, hphase]) (by simp)
          rfl (fun _ _ hmem => hmem) (Or.inl rfl) ?_
        exact h.updates.frame rfl rfl rfl rfl fun _ hruns => hruns
      · next hflag =>
        -- no update is in progress, and the start becomes an active run
        cases hstep
        refine ⟨⟨?_, ?_⟩, fun _ => ?_⟩
        · refine h.starts.set (b := { a with phase := .registered }) ha rfl
            ⟨hsound.1, fun _ _ _ => hnone⟩ (fun hlive => by simp [TaskStart.live] at hlive)
            (fun _ => ⟨by simp [register], hreceiver⟩) ?_ (Or.inl rfl)
          intro j b hji hj hb
          have hother := h.starts.handling hj hb
          rw [hreceiver] at hother
          exact absurd (Receiver.starting.inj hother).symm hji
        · refine h.updates.frame rfl rfl rfl rfl fun hupdating => ?_
          exact absurd hupdating hflag
        · exact countP_set_of_eq ha (by simp [TaskStart.launched, TaskStart.live, hphase])
    · cases hstep
  · cases hstep

theorem Kept.refuse (h : s.Kept) {sent : Bool} (hstep : s.refuse sent = some t) : Keeping s t := by
  unfold ActivityState.refuse at hstep
  split at hstep
  · next i a hhandled =>
    obtain ⟨hreceiver, ha⟩ := handled_eq hhandled
    split at hstep
    · next hphase =>
      have hnone : a.terminals = 0 := (h.starts.sound ha).2 (by rw [hphase]; simp)
        (by rw [hphase]; simp) (by rw [hphase]; simp)
      cases hstep
      refine h.setStart ha (b := { a with
        phase := .refused, terminals := if sent then a.terminals + 1 else a.terminals }) rfl
        ⟨?_, fun hne => absurd rfl hne⟩ (by simp [TaskStart.live])
        (by simp [TaskStart.launched, TaskStart.live, hphase]) (by simp)
        (by rw [afterSend_starts]; rfl)
        (fun _ _ hmem => by rw [afterSend_activeRuns]; exact hmem) (Or.inr hreceiver) ?_
      · show (if sent then a.terminals + 1 else a.terminals) ≤ 1
        split <;> omega
      · exact h.updates.frame (by simp [ActivityState.setStart]) (by simp [ActivityState.setStart])
          (by simp [ActivityState.setStart]) (by simp [ActivityState.setStart])
          (by simp [ActivityState.setStart])
    · cases hstep
  · cases hstep

theorem Kept.launch (h : s.Kept) (hguard : s.ExclusiveGuard .launch) (hstep : s.launch = some t) :
    Keeping s t := by
  unfold ActivityState.launch at hstep
  split at hstep
  · next i a hhandled =>
    obtain ⟨hreceiver, ha⟩ := handled_eq hhandled
    split at hstep
    · next hphase =>
      have hsound := h.starts.sound ha
      have hnone : a.terminals = 0 := hsound.2 (by rw [hphase]; simp) (by rw [hphase]; simp)
        (by rw [hphase]; simp)
      have hmem := h.starts.registered ha hphase
      cases hstep
      refine ⟨⟨?_, h.updates.frame rfl rfl rfl rfl fun _ hruns => hruns⟩, fun hprogress => ?_⟩
      · refine h.starts.set (b := { a with phase := .running }) ha rfl
          ⟨hsound.1, fun _ _ _ => hnone⟩ (fun _ => Or.inr fun hj hb => hguard hreceiver ha hj hb)
          (fun hregistered => by cases hregistered)
          (fun _ hj hb => h.starts.registered hj hb) (Or.inr hreceiver)
      · -- the run is an active one, so no update is in progress
        rw [h.updates.runs hprogress] at hmem
        cases hmem
    · cases hstep
  · cases hstep

theorem Kept.runTask (h : s.Kept) {ended : RunTaskEnd} (hstep : s.runTask i ended = some t) :
    Keeping s t := by
  unfold ActivityState.runTask at hstep
  split at hstep
  · next a ha =>
    split at hstep
    · next hphase =>
      have hnone : a.terminals = 0 := (h.starts.sound ha).2 (by rw [hphase]; simp)
        (by rw [hphase]; simp) (by rw [hphase]; simp)
      have hupdates : ∀ b, (s.setStart i b).UpdatesKept := fun b =>
        h.updates.frame rfl rfl rfl rfl fun _ hruns => hruns
      split at hstep
      · cases hstep
        refine h.setStart (b := { a with phase := .ending, terminals := a.terminals + 1 }) ha rfl
          ⟨?_, fun _ hne => absurd rfl hne⟩ (by simp [TaskStart.live, hphase])
          (by simp [TaskStart.launched, TaskStart.live, hphase]) (by simp) rfl
          (fun _ _ hmem => hmem) (Or.inl rfl) (hupdates _)
        show a.terminals + 1 ≤ 1
        omega
      · cases hstep
        exact h.setStart (b := { a with phase := .failing }) ha rfl
          ⟨(h.starts.sound ha).1, fun _ _ _ => hnone⟩ (by simp [TaskStart.live, hphase])
          (by simp [TaskStart.launched, TaskStart.live, hphase]) (by simp) rfl
          (fun _ _ hmem => hmem) (Or.inl rfl) (hupdates _)
    · cases hstep
  · cases hstep

theorem Kept.lastMessage (h : s.Kept) {sent : Bool} (hstep : s.lastMessage i sent = some t) :
    Keeping s t := by
  unfold ActivityState.lastMessage at hstep
  split at hstep
  · next a ha =>
    split at hstep
    · next hphase =>
      have hnone : a.terminals = 0 := (h.starts.sound ha).2 (by rw [hphase]; simp)
        (by rw [hphase]; simp) (by rw [hphase]; simp)
      cases hstep
      refine h.setStart ha (b := { a with
        phase := .ending, terminals := if sent then a.terminals + 1 else a.terminals }) rfl
        ⟨?_, fun _ hne => absurd rfl hne⟩ (by simp [TaskStart.live, hphase])
        (by simp [TaskStart.launched, TaskStart.live, hphase]) (by simp) rfl
        (fun _ _ hmem => hmem) (Or.inl rfl) ?_
      · show (if sent then a.terminals + 1 else a.terminals) ≤ 1
        split <;> omega
      · exact h.updates.frame rfl rfl rfl rfl fun _ hruns => hruns
    · cases hstep
  · cases hstep

theorem Kept.popRun (h : s.Kept) (hstep : s.popRun i = some t) : Keeping s t := by
  unfold ActivityState.popRun at hstep
  split at hstep
  · next a ha =>
    split at hstep
    · next hphase =>
      cases hstep
      refine h.setStart (b := { a with phase := .finished }) ha rfl
        ⟨(h.starts.sound ha).1, fun _ _ hne => absurd rfl hne⟩ (by simp [TaskStart.live])
        (by simp [TaskStart.launched, TaskStart.live, hphase]) (by simp) rfl ?_ (Or.inl rfl) ?_
      · -- the entries of the other runs stay
        intro j b hji _ hmem
        refine List.mem_filter.mpr ⟨hmem, ?_⟩
        simp only [ne_eq, decide_eq_true_eq]
        exact fun heq => hji (Prod.mk.inj heq).2
      · refine h.updates.frame rfl rfl rfl rfl fun _ hruns => ?_
        show s.activeRuns.filter _ = []
        rw [hruns]
        rfl
    · cases hstep
  · cases hstep

theorem Kept.answerUninstall (h : s.Kept) {available sent : Bool}
    (hguard : s.ExclusiveGuard (.answerUninstall available sent))
    (hstep : s.answerUninstall available sent = some t) : Keeping s t := by
  unfold ActivityState.answerUninstall at hstep
  split at hstep
  · next busy hreceiver =>
    cases hstep
    refine h.turn (by simp) (by simp) (Or.inr fun i => by rw [hreceiver]; simp) ?_
    by_cases haccepted : (available && !busy && sent) = true
    · simp only [Bool.and_eq_true, Bool.not_eq_true'] at haccepted
      obtain ⟨⟨hav, hbusy⟩, hsent⟩ := haccepted
      rw [hbusy] at hreceiver
      have hfree := hguard hreceiver hav hsent
      refine ⟨?_, ?_, fun hprogress => ?_, fun hprogress => ?_⟩
      · unfold UpdateInProgress
        simp only [afterSend_autoUpdate, afterSend_manualUpdate, afterSend_updating]
        exact h.updates.flag
      · simp only [afterSend_autoUpdate, afterSend_manualUpdate]
        exact h.updates.one
      · unfold UpdateInProgress at hprogress
        simp only [afterSend_autoUpdate, afterSend_manualUpdate] at hprogress
        exact absurd hprogress hfree
      · unfold UpdateInProgress at hprogress
        simp only [afterSend_autoUpdate, afterSend_manualUpdate] at hprogress
        exact absurd hprogress hfree
    · rw [Bool.not_eq_true] at haccepted
      refine h.updates.frame (by simp) (by simp) (by simp) ?_ (by simp)
      rw [afterSend_uninstallAccepted, haccepted, Bool.or_false]
  · cases hstep

/-- The start of an update. -/
theorem updatesKept_of_begin (hfree : s.uninstallAccepted = false)
    (hruns : s.activeRuns = []) (hauto : t.autoUpdate = true ∧ t.manualUpdate = .none ∨
      t.autoUpdate = false ∧ t.manualUpdate ≠ .none)
    (hflag : t.updating = true) (hactive : t.activeRuns = s.activeRuns)
    (huninstall : t.uninstallAccepted = s.uninstallAccepted) : t.UpdatesKept := by
  refine ⟨?_, ?_, fun _ => hactive.trans hruns, fun _ => huninstall.trans hfree⟩
  · rw [hflag]
    refine iff_of_true ?_ rfl
    exact hauto.imp (fun hcase => hcase.1) fun hcase => hcase.2
  · intro ht
    rcases hauto with ⟨_, hmanual⟩ | ⟨hno, _⟩
    · exact hmanual
    · rw [hno] at ht
      cases ht

theorem Kept.requestUpdate (h : s.Kept) {considered : Bool}
    (hguard : s.ExclusiveGuard (.requestUpdate considered))
    (hstep : s.requestUpdate considered = some t) : Keeping s t := by
  unfold ActivityState.requestUpdate at hstep
  split at hstep
  · next hidle =>
    have hturn : ∀ i, s.receiver ≠ .starting i := fun i => by rw [hidle]; simp
    split at hstep
    · next begun hbegin =>
      obtain ⟨hruns, hflag, rfl⟩ := beginUpdate_some hbegin
      have hfree := hguard rfl (by rw [hbegin]; rfl)
      obtain ⟨hauto, _⟩ := h.updates.free hflag
      cases hstep
      refine h.turn rfl rfl (Or.inr hturn) ?_
      exact updatesKept_of_begin hfree hruns (Or.inr ⟨hauto, by simp⟩) rfl rfl rfl
    · cases hstep
      exact h.turn rfl rfl (Or.inr hturn)
        (h.updates.frame rfl rfl rfl rfl fun _ hruns => hruns)
  · cases hstep

/-- While the answer to an update that began is out, the update is in that phase. -/
def Answering (s : ActivityState) : Prop :=
  s.receiver = .answeringUpdate true → s.manualUpdate = .answering

theorem Kept.answerUpdate (h : s.Kept) {sent : Bool} (hanswering : s.Answering)
    (hstep : s.answerUpdate sent = some t) : Keeping s t := by
  unfold ActivityState.answerUpdate at hstep
  split at hstep
  · next hreceiver =>
    -- the update goes on, in another phase
    have hmanual : s.manualUpdate ≠ .none := by rw [hanswering hreceiver]; simp
    cases hstep
    refine h.turn (by simp) (by simp) (Or.inr fun i => by rw [hreceiver]; simp) ?_
    have hprogress : s.UpdateInProgress := Or.inr hmanual
    have hphase : (if sent then ManualUpdate.running else .abandoned) ≠ .none := by
      split <;> simp
    refine ⟨?_, fun hauto => ?_, fun _ => ?_, fun _ => ?_⟩
    · simp only [afterSend_updating]
      exact iff_of_true (Or.inr (by simpa using hphase)) (h.updates.flag.mp hprogress)
    · simp only [afterSend_autoUpdate] at hauto
      exact absurd (h.updates.one hauto) hmanual
    · simp only [afterSend_activeRuns]
      exact h.updates.runs hprogress
    · simp only [afterSend_uninstallAccepted]
      exact h.updates.uninstall hprogress
  · next hreceiver =>
    cases hstep
    exact h.turn (by simp) (by simp) (Or.inr fun i => by rw [hreceiver]; simp)
      (h.updates.frame (by simp) (by simp) (by simp) (by simp) (by simp))
  · cases hstep

/-- The end of the update that was in progress. -/
theorem updatesKept_of_end (hauto : t.autoUpdate = false)
    (hmanual : t.manualUpdate = .none) (hflag : t.updating = false) : t.UpdatesKept := by
  have hnone : ¬t.UpdateInProgress := by
    unfold UpdateInProgress
    rw [hauto, hmanual]
    simp
  refine ⟨?_, fun hyes => ?_, fun hyes => absurd hyes hnone, fun hyes => absurd hyes hnone⟩
  · rw [hflag]
    exact iff_of_false hnone (by simp)
  · rw [hauto] at hyes
    cases hyes

theorem Kept.manualUpdateEnds (h : s.Kept) (hstep : s.manualUpdateEnds = some t) :
    Keeping s t := by
  unfold ActivityState.manualUpdateEnds at hstep
  split at hstep
  · next hrunning =>
    cases hstep
    have hauto : s.autoUpdate = false := by
      by_contra hyes
      rw [h.updates.one (Bool.not_eq_false _ |>.mp hyes)] at hrunning
      cases hrunning
    exact h.turn rfl rfl (Or.inl rfl) (updatesKept_of_end hauto rfl rfl)
  · cases hstep

theorem Kept.autoUpdateBegins (h : s.Kept) (hguard : s.ExclusiveGuard .autoUpdateBegins)
    (hstep : s.autoUpdateBegins = some t) : Keeping s t := by
  unfold ActivityState.autoUpdateBegins at hstep
  split at hstep
  · cases hstep
  · split at hstep
    · next begun hbegin =>
      obtain ⟨hruns, hflag, rfl⟩ := beginUpdate_some hbegin
      have hfree := hguard (by rw [hbegin]; rfl)
      obtain ⟨_, hmanual⟩ := h.updates.free hflag
      cases hstep
      refine h.turn rfl rfl (Or.inl rfl) ?_
      exact updatesKept_of_begin hfree hruns (Or.inl ⟨rfl, hmanual⟩) rfl rfl rfl
    · cases hstep
      exact h.turn rfl rfl (Or.inl rfl) h.updates

theorem Kept.autoUpdateEnds (h : s.Kept) (hstep : s.autoUpdateEnds = some t) : Keeping s t := by
  unfold ActivityState.autoUpdateEnds at hstep
  split at hstep
  · next hauto =>
    cases hstep
    exact h.turn rfl rfl (Or.inl rfl) (updatesKept_of_end rfl (h.updates.one hauto) rfl)
  · cases hstep

/-- The receiving thread comes to another point, and nothing else changes. -/
theorem Kept.turnTo (h : s.Kept) {receiver : Receiver}
    (hturn : ∀ i, s.receiver ≠ .starting i) : Keeping s { s with receiver := receiver } :=
  h.turn rfl rfl (Or.inr hturn) (h.updates.frame rfl rfl rfl rfl fun _ hruns => hruns)

theorem Kept.receiveUninstall (h : s.Kept) (hstep : s.receiveUninstall = some t) :
    Keeping s t := by
  unfold ActivityState.receiveUninstall at hstep
  split at hstep
  · next hidle =>
    cases hstep
    exact h.turnTo fun i => by rw [hidle]; simp
  · cases hstep

theorem Kept.disconnect (h : s.Kept) (hstep : s.disconnect = some t) : Keeping s t := by
  unfold ActivityState.disconnect at hstep
  split at hstep
  · next hidle =>
    cases hstep
    exact h.turnTo fun i => by rw [hidle]; simp
  · cases hstep

theorem Kept.joined (h : s.Kept) (hstep : s.joined = some t) : Keeping s t := by
  unfold ActivityState.joined at hstep
  split at hstep
  · next runs hjoining =>
    split at hstep
    · cases hstep
      exact h.turnTo fun i => by rw [hjoining]; simp
    · cases hstep
  · cases hstep

theorem Kept.reconnect (h : s.Kept) (hstep : s.reconnect = some t) : Keeping s t := by
  unfold ActivityState.reconnect at hstep
  split at hstep
  · next hoffline =>
    cases hstep
    exact h.turnTo fun i => by rw [hoffline]; simp
  · cases hstep

/-- A guarded step keeps what holds between the steps. -/
theorem Kept.step (h : s.Kept) (hanswering : s.Answering) {action : ActivityAction}
    (hguard : s.ExclusiveGuard action) (hstep : ActivityStep s action t) : Keeping s t := by
  cases action with
  | receiveStart taskId known => exact h.receiveStart hstep
  | startRegion => exact h.startRegion hstep
  | refuse sent => exact h.refuse hstep
  | launch => exact h.launch hguard hstep
  | runTask start ended => exact h.runTask hstep
  | lastMessage start sent => exact h.lastMessage hstep
  | popRun start => exact h.popRun hstep
  | receiveUninstall => exact h.receiveUninstall hstep
  | answerUninstall available sent => exact h.answerUninstall hguard hstep
  | requestUpdate considered => exact h.requestUpdate hguard hstep
  | answerUpdate sent => exact h.answerUpdate hanswering hstep
  | manualUpdateEnds => exact h.manualUpdateEnds hstep
  | autoUpdateBegins => exact h.autoUpdateBegins hguard hstep
  | autoUpdateEnds => exact h.autoUpdateEnds hstep
  | disconnect => exact h.disconnect hstep
  | joined => exact h.joined hstep
  | reconnect => exact h.reconnect hstep

/-! ### The answer to an update -/

/-- The receiving thread is at another point after the step. -/
theorem answering_of_ne (hreceiver : t.receiver ≠ .answeringUpdate true) : t.Answering :=
  fun hyes => absurd hyes hreceiver

/-- The step is one of another thread, which leaves this phase alone. -/
theorem Answering.frame (h : s.Answering) (hreceiver : t.receiver = s.receiver)
    (hmanual : s.manualUpdate = .answering → t.manualUpdate = .answering) : t.Answering :=
  fun hyes => hmanual (h (hreceiver ▸ hyes))

theorem afterSend_receiver_ne (sent : Bool) :
    (s.afterSend sent).receiver ≠ .answeringUpdate true := by
  cases sent <;> simp [afterSend, leave]

theorem Answering.step (h : s.Answering) {action : ActivityAction}
    (hstep : ActivityStep s action t) : t.Answering := by
  unfold ActivityStep next at hstep
  cases action with
  | receiveStart taskId known =>
    simp only [receiveStart, Option.ite_none_right_eq_some, Option.some.injEq] at hstep
    obtain ⟨_, rfl⟩ := hstep
    exact answering_of_ne (by simp)
  | startRegion =>
    simp only [startRegion] at hstep
    split at hstep
    · split at hstep
      · split at hstep <;> (cases hstep; exact h.frame rfl id)
      · cases hstep
    · cases hstep
  | refuse sent =>
    simp only [refuse] at hstep
    split at hstep
    · split at hstep
      · cases hstep
        exact answering_of_ne (afterSend_receiver_ne sent)
      · cases hstep
    · cases hstep
  | launch =>
    simp only [launch] at hstep
    split at hstep
    · split at hstep
      · cases hstep
        exact answering_of_ne (by simp)
      · cases hstep
    · cases hstep
  | runTask start ended =>
    simp only [runTask] at hstep
    split at hstep
    · split at hstep
      · cases ended <;> (cases hstep; exact h.frame rfl id)
      · cases hstep
    · cases hstep
  | lastMessage start sent =>
    simp only [lastMessage] at hstep
    split at hstep
    · split at hstep
      · cases hstep
        exact h.frame rfl id
      · cases hstep
    · cases hstep
  | popRun start =>
    simp only [popRun] at hstep
    split at hstep
    · split at hstep
      · cases hstep
        exact h.frame rfl id
      · cases hstep
    · cases hstep
  | receiveUninstall =>
    simp only [receiveUninstall, Option.ite_none_right_eq_some, Option.some.injEq] at hstep
    obtain ⟨_, rfl⟩ := hstep
    exact answering_of_ne (by simp)
  | answerUninstall available sent =>
    simp only [answerUninstall] at hstep
    split at hstep
    · cases hstep
      exact answering_of_ne (afterSend_receiver_ne sent)
    · cases hstep
  | requestUpdate considered =>
    simp only [requestUpdate] at hstep
    split at hstep
    · split at hstep
      · cases hstep
        exact fun _ => rfl
      · cases hstep
        exact answering_of_ne (by simp)
    · cases hstep
  | answerUpdate sent =>
    simp only [answerUpdate] at hstep
    split at hstep
    · cases hstep
      exact answering_of_ne (afterSend_receiver_ne sent)
    · cases hstep
      exact answering_of_ne (afterSend_receiver_ne sent)
    · cases hstep
  | manualUpdateEnds =>
    simp only [manualUpdateEnds, Option.ite_none_right_eq_some, Option.some.injEq] at hstep
    obtain ⟨hrunning, rfl⟩ := hstep
    refine h.frame rfl fun hyes => ?_
    rw [hrunning] at hyes
    cases hyes
  | autoUpdateBegins =>
    simp only [autoUpdateBegins] at hstep
    split at hstep
    · cases hstep
    · split at hstep
      · next begun hbegin =>
        obtain ⟨_, _, rfl⟩ := beginUpdate_some hbegin
        cases hstep
        exact h.frame rfl id
      · cases hstep
        exact h
  | autoUpdateEnds =>
    simp only [autoUpdateEnds, Option.ite_none_right_eq_some, Option.some.injEq] at hstep
    obtain ⟨_, rfl⟩ := hstep
    exact h.frame rfl id
  | disconnect =>
    simp only [disconnect, Option.ite_none_right_eq_some, Option.some.injEq] at hstep
    obtain ⟨_, rfl⟩ := hstep
    exact answering_of_ne (by simp [leave])
  | joined =>
    simp only [joined] at hstep
    split at hstep
    · simp only [Option.ite_none_right_eq_some, Option.some.injEq] at hstep
      obtain ⟨_, rfl⟩ := hstep
      exact answering_of_ne (by simp)
    · cases hstep
  | reconnect =>
    simp only [reconnect, Option.ite_none_right_eq_some, Option.some.injEq] at hstep
    obtain ⟨_, rfl⟩ := hstep
    exact answering_of_ne (by simp)

/-! ## The guard is needed -/

/-- A step that keeps exclusion met the guard. -/
theorem exclusiveGuard_of_move {action : ActivityAction} (hstep : ActivityStep s action t)
    (hmove : ExclusiveMove s t) : s.ExclusiveGuard action := by
  obtain ⟨hexclusive, _⟩ := hmove
  unfold ActivityStep next at hstep
  cases action with
  | requestUpdate considered =>
    intro hconsidered hfree
    obtain ⟨begun, hbegin⟩ := Option.isSome_iff_exists.mp hfree
    subst hconsidered
    simp only [requestUpdate, hbegin, Option.ite_none_right_eq_some, Option.some.injEq] at hstep
    obtain ⟨_, rfl⟩ := hstep
    obtain ⟨_, _, rfl⟩ := beginUpdate_some hbegin
    exact hexclusive.uninstall (Or.inr (by simp))
  | autoUpdateBegins =>
    intro hfree
    obtain ⟨begun, hbegin⟩ := Option.isSome_iff_exists.mp hfree
    simp only [autoUpdateBegins, hbegin] at hstep
    split at hstep
    · cases hstep
    · cases hstep
      obtain ⟨_, _, rfl⟩ := beginUpdate_some hbegin
      exact hexclusive.uninstall (Or.inl rfl)
  | answerUninstall available sent =>
    intro hreceiver havailable hsent hprogress
    subst havailable hsent
    simp only [answerUninstall, hreceiver, Option.some.injEq] at hstep
    subst hstep
    have haccepted := hexclusive.uninstall hprogress
    simp [afterSend] at haccepted
  | launch =>
    intro i j a b hreceiver ha hb hlive htask
    have hhandled : s.handled = some (i, a) := by simp [handled, hreceiver, ha]
    simp only [launch, hhandled, Option.ite_none_right_eq_some, Option.some.injEq] at hstep
    obtain ⟨hphase, rfl⟩ := hstep
    have hij : i ≠ j := by
      rintro rfl
      rw [ha] at hb
      cases hb
      simp [TaskStart.live, hphase] at hlive
    -- both runs are alive after the step
    have hi : ((s.starts.set i { a with phase := .running })[i]?) =
        some { a with phase := .running } := by
      obtain ⟨hlt, _⟩ := List.getElem?_eq_some_iff.mp ha
      rw [List.getElem?_set_self hlt]
    have hj : ((s.starts.set i { a with phase := .running })[j]?) = some b := by
      rw [List.getElem?_set_ne hij]
      exact hb
    exact hij (hexclusive.threads hi hj rfl hlive htask.symm)
  | receiveStart _ _ => trivial
  | startRegion => trivial
  | refuse _ => trivial
  | runTask _ _ => trivial
  | lastMessage _ _ => trivial
  | popRun _ => trivial
  | receiveUninstall => trivial
  | answerUpdate _ => trivial
  | manualUpdateEnds => trivial
  | autoUpdateEnds => trivial
  | disconnect => trivial
  | joined => trivial
  | reconnect => trivial

/-! ## Exclusion over whole runs -/

theorem kept_initial : ({} : ActivityState).Kept where
  starts := ⟨by simp, by simp, by simp, by simp⟩
  updates := ⟨by simp [UpdateInProgress], by simp, by simp, by simp⟩

/-- Exclusion holds at every move of the runs, of any interleaving, whose moves all meet the
guard, and of no other one. -/
theorem exclusive_iff {ms : List (Move ActivityState ActivityAction)} {t : ActivityState}
    (h : Run ActivityStep {} ms t) :
    (∀ m ∈ ms, ExclusiveMove m.pre m.post) ↔ ∀ m ∈ ms, m.pre.ExclusiveGuard m.act := by
  refine h.moves_iff_of_exact (fun s => s.Kept ∧ s.Answering) ExclusiveGuard ExclusiveMove
    ?_ ?_ ?_ ⟨kept_initial, answering_of_ne (by simp)⟩
  · intro s action t hinv hguard hstep
    exact ⟨(hinv.1.step hinv.2 hguard hstep).1, hinv.2.step hstep⟩
  · intro s action t hinv hguard hstep
    obtain ⟨hkept, hlaunched⟩ := hinv.1.step hinv.2 hguard hstep
    exact ⟨hkept.exclusive, hlaunched⟩
  · intro s action t hstep hmove
    exact exclusiveGuard_of_move hstep hmove

/-- A step that meets the guard for plain reasons: no uninstall was accepted before it or is by it,
and where it launches a run, no run is alive. -/
def Plain (m : Move ActivityState ActivityAction) : Bool :=
  !m.pre.uninstallAccepted &&
    (match m.act with
    | .answerUninstall _ _ => false
    | .launch => m.pre.starts.all fun a => !a.live
    | _ => true)

theorem Plain.guard {m : Move ActivityState ActivityAction} (h : Plain m = true) :
    m.pre.ExclusiveGuard m.act := by
  obtain ⟨pre, act, post⟩ := m
  simp only [Plain, Bool.and_eq_true, Bool.not_eq_true'] at h
  obtain ⟨huninstall, hact⟩ := h
  cases act with
  | requestUpdate considered => exact fun _ _ => huninstall
  | autoUpdateBegins => exact fun _ => huninstall
  | answerUninstall available sent => cases hact
  | launch =>
    intro i j a b _ _ hb hlive
    have hdead := List.all_eq_true.mp hact b (List.mem_of_getElem? hb)
    rw [hlive] at hdead
    cases hdead
  | receiveStart _ _ => trivial
  | startRegion => trivial
  | refuse _ => trivial
  | runTask _ _ => trivial
  | lastMessage _ _ => trivial
  | popRun _ => trivial
  | receiveUninstall => trivial
  | answerUpdate _ => trivial
  | manualUpdateEnds => trivial
  | autoUpdateEnds => trivial
  | disconnect => trivial
  | joined => trivial
  | reconnect => trivial

/-- A run that is answered, and then an update. -/
def runThenUpdate : List ActivityAction :=
  [.receiveStart "a" true, .startRegion, .launch, .runTask 0 .answered, .popRun 0,
    .autoUpdateBegins, .autoUpdateEnds]

theorem exclusive_iff_runThenUpdate :
    execute next {} runThenUpdate =
        some { starts := [{ taskId := "a", phase := .finished, terminals := 1 }] } ∧
      ∀ m ∈ movesOf next {} runThenUpdate, ExclusiveMove m.pre m.post := by
  have hrun : execute next {} runThenUpdate =
      some { starts := [{ taskId := "a", phase := .finished, terminals := 1 }] } := by
    decide +kernel
  refine ⟨hrun, (exclusive_iff (Run.of_execute (fun _ _ _ hnext => hnext) hrun)).mpr ?_⟩
  have hplain : ∀ m ∈ movesOf next {} runThenUpdate, Plain m = true := by decide +kernel
  exact fun m hm => Plain.guard (hplain m hm)

/-- An uninstall that is accepted after an update began. -/
def uninstallDuringUpdate : List ActivityAction :=
  [.receiveUninstall, .autoUpdateBegins, .answerUninstall true true]

/-- The check of `_uninstall_worker` finds the Worker free and releases the lock. The update begins
before the answer goes out, which still says that the uninstall is on. -/
theorem uninstall_accepted_during_update :
    ¬∀ {ms : List (Move ActivityState ActivityAction)} {t : ActivityState},
      Run ActivityStep {} ms t → ∀ m ∈ ms, ExclusiveMove m.pre m.post := by
  intro hall
  have hrun : execute next {} uninstallDuringUpdate =
      some { updating := true, autoUpdate := true, uninstallAccepted := true } := by
    decide +kernel
  have hlast : (⟨{ updating := true, autoUpdate := true, receiver := .uninstalling false },
      .answerUninstall true true,
      { updating := true, autoUpdate := true, uninstallAccepted := true }⟩ :
        Move ActivityState ActivityAction) ∈ movesOf next {} uninstallDuringUpdate :=
    List.mem_cons_of_mem _ (List.mem_cons_of_mem _ List.mem_cons_self)
  obtain ⟨hexclusive, _⟩ := hall (Run.of_execute (fun _ _ _ hnext => hnext) hrun) _ hlast
  have hnot := hexclusive.uninstall (Or.inl rfl)
  cases hnot

end ActivityState

end ThreadForge

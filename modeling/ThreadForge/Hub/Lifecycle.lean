import ThreadForge.Hub.State
import ThreadForge.Lib.Transition

/-!
# The lifecycle of a local task

An abstract model of what the hub's operations do to the statuses of its tasks: no approvals, no
messages, no audit lists, only who runs what, where each `create_task` stands, and the persisted
status. The statement of purpose is `StatusLaw`: a terminal status is final, and a requested cancel
only becomes terminal.

## Where the law can fail

Two writes are made outside the lock, long after the checks they rely on: `dispatch` writes
`RUNNING`, and `create_task` writes `FAILED` when `dispatch` raised. `LateWriteOk` is the condition
under which they do no harm; every other step keeps the law from an `Orderly` state.
-/

namespace ThreadForge

open Transition

/-! ## States and steps -/

/-- What the lifecycle of the tasks depends on. -/
structure Control where
  status : String → Option TaskStatus
  device : String → Option String
  active : String → Option (List String)
  phase : String → DispatchPhase
  failing : List (String × String × TaskStatus)

/-- The two writes made outside the lock, and everything else. -/
inductive ControlLabel
  | runningWrite (taskId : String)
  | failedWrite (taskId : String)
  | locked

namespace Control

def setStatus (c : Control) (id : String) (status : TaskStatus) : Control :=
  { c with status := fun t => if t = id then some status else c.status t }

def setPhase (c : Control) (id : String) (phase : DispatchPhase) : Control :=
  { c with phase := fun t => if t = id then phase else c.phase t }

def setDevice (c : Control) (id : String) (device : Option String) : Control :=
  { c with device := fun t => if t = id then device else c.device t }

def setActive (c : Control) (active : String → Option (List String)) : Control :=
  { c with active := active }

def setFailing (c : Control) (failing : List (String × String × TaskStatus)) : Control :=
  { c with failing := failing }

/-- A device's tasks unmapped, and each of them left to be failed. -/
def dropDevice (c : Control) (d reason : String) (status : TaskStatus) : Control :=
  { c with
    active := fun d' => if d' = d then none else c.active d'
    device := fun id => if id ∈ (c.active d).getD [] then none else c.device id
    failing := c.failing ++ ((c.active d).getD []).map fun id => (id, reason, status) }

/-- No task is active that was not before. -/
def ActiveSub (active' active : String → Option (List String)) : Prop :=
  ∀ d l t, active' d = some l → t ∈ l → ∃ d' l', active d' = some l' ∧ t ∈ l'

/-- What one step of the hub can do to the control part of its state. -/
inductive Step : Control → ControlLabel → Control → Prop
  | idle {c} : Step c .locked c
  | create {c : Control} {id : String} : c.phase id = .absent → c.status id = none →
      Step c .locked ((c.setStatus id .queued).setPhase id .created)
  | claim {c : Control} {id d : String} {active : String → Option (List String)} :
      c.phase id = .created →
      (∀ d' l t, active d' = some l → t ∈ l → t = id ∨ ∃ l', c.active d' = some l' ∧ t ∈ l') →
      Step c .locked (((c.setActive active).setDevice id (some d)).setPhase id .claimed)
  | reject {c : Control} {id : String} : c.phase id = .created →
      Step c .locked (c.setPhase id .failing)
  | running {c : Control} {id : String} {old : TaskStatus} : c.phase id = .claimed →
      c.status id = some old →
      Step c (.runningWrite id) ((c.setStatus id .running).setPhase id .started)
  | sent {c : Control} {id : String} {phase : DispatchPhase} : c.phase id = .started →
      phase = .done ∨ phase = .sendFailed → Step c .locked (c.setPhase id phase)
  | released {c : Control} {id : String} {active : String → Option (List String)} :
      c.phase id = .sendFailed → ActiveSub active c.active →
      Step c .locked (((c.setActive active).setDevice id none).setPhase id .failing)
  | failed {c : Control} {id : String} {old : TaskStatus} : c.phase id = .failing →
      c.status id = some old →
      Step c (.failedWrite id) ((c.setStatus id .failed).setPhase id .done)
  | cancel {c : Control} {id d : String} {old : TaskStatus} : c.device id = some d →
      c.status id = some old → old.terminal = false →
      Step c .locked (c.setStatus id .cancelRequested)
  | approval {c : Control} {id : String} {old new : TaskStatus} : c.status id = some old →
      (old = .running ∧ new = .waitingForApproval) ∨ (old = .waitingForApproval ∧ new = .running) →
      Step c .locked (c.setStatus id new)
  | terminal {c : Control} {id d : String} {old new : TaskStatus}
      {active : String → Option (List String)} : c.device id = some d → c.status id = some old →
      new.terminal = true → ActiveSub active c.active →
      Step c .locked (((c.setActive active).setDevice id none).setStatus id new)
  | drop {c : Control} {d reason : String} {status : TaskStatus} : status.terminal = true →
      Step c .locked (c.dropDevice d reason status)
  | forget {c : Control} {i : Nat} : Step c .locked (c.setFailing (c.failing.eraseIdx i))
  | fail {c : Control} {i : Nat} {id reason : String} {old status : TaskStatus} :
      c.failing[i]? = some (id, reason, status) → c.status id = some old → old.terminal = false →
      Step c .locked ((c.setStatus id status).setFailing (c.failing.eraseIdx i))

/-! ## The law and its guard -/

/-- The change of one persisted status is allowed. -/
def Allowed (old new : TaskStatus) : Prop :=
  (old.terminal = true → new = old) ∧
    (old = .cancelRequested → new = .cancelRequested ∨ new.terminal = true)

/-- **Monotone lifecycle.** No task is lost, a terminal status is final, and a requested cancel
only becomes terminal. -/
def StatusLaw (c c' : Control) : Prop :=
  ∀ id old, c.status id = some old → ∃ new, c'.status id = some new ∧ Allowed old new

/-- A write outside the lock finds a status it may overwrite: `RUNNING` one that is neither
terminal nor `CANCEL_REQUESTED`, `FAILED` none that is terminal otherwise. -/
def LateWriteOk (c : Control) : ControlLabel → Prop
  | .runningWrite id =>
    ∀ old, c.status id = some old → old.terminal = false ∧ old ≠ .cancelRequested
  | .failedWrite id => ∀ old, c.status id = some old → old.terminal = true → old = .failed
  | .locked => True

/-- What holds of the hub between its steps: who is mapped runs, who is created waits in the queue,
and who is to be failed is mapped no more. -/
structure Orderly (c : Control) : Prop where
  mapped_live : ∀ id d, c.device id = some d →
    ∃ status, c.status id = some status ∧ status.terminal = false
  mapped_phase : ∀ id d, c.device id = some d →
    c.phase id ≠ .absent ∧ c.phase id ≠ .created ∧ c.phase id ≠ .failing
  active_phase : ∀ d l id, c.active d = some l → id ∈ l →
    c.phase id ≠ .absent ∧ c.phase id ≠ .created
  failing_unmapped : ∀ entry ∈ c.failing, c.device entry.1 = none ∧
    c.phase entry.1 ≠ .absent ∧ c.phase entry.1 ≠ .created
  failing_terminal : ∀ entry ∈ c.failing, entry.2.2.terminal = true
  created_queued : ∀ id, c.phase id = .created → c.status id = some .queued

/-! ## The setters, field by field -/

section Setters

variable (c : Control) (id t : String) (status : TaskStatus) (phase : DispatchPhase)
  (device : Option String) (active : String → Option (List String))
  (failing : List (String × String × TaskStatus))

@[simp] theorem setStatus_status :
    (c.setStatus id status).status t = if t = id then some status else c.status t := rfl
@[simp] theorem setStatus_device : (c.setStatus id status).device = c.device := rfl
@[simp] theorem setStatus_active : (c.setStatus id status).active = c.active := rfl
@[simp] theorem setStatus_phase : (c.setStatus id status).phase = c.phase := rfl
@[simp] theorem setStatus_failing : (c.setStatus id status).failing = c.failing := rfl

@[simp] theorem setPhase_phase :
    (c.setPhase id phase).phase t = if t = id then phase else c.phase t := rfl
@[simp] theorem setPhase_status : (c.setPhase id phase).status = c.status := rfl
@[simp] theorem setPhase_device : (c.setPhase id phase).device = c.device := rfl
@[simp] theorem setPhase_active : (c.setPhase id phase).active = c.active := rfl
@[simp] theorem setPhase_failing : (c.setPhase id phase).failing = c.failing := rfl

@[simp] theorem setDevice_device :
    (c.setDevice id device).device t = if t = id then device else c.device t := rfl
@[simp] theorem setDevice_status : (c.setDevice id device).status = c.status := rfl
@[simp] theorem setDevice_active : (c.setDevice id device).active = c.active := rfl
@[simp] theorem setDevice_phase : (c.setDevice id device).phase = c.phase := rfl
@[simp] theorem setDevice_failing : (c.setDevice id device).failing = c.failing := rfl

@[simp] theorem setActive_status : (c.setActive active).status = c.status := rfl
@[simp] theorem setActive_device : (c.setActive active).device = c.device := rfl
@[simp] theorem setActive_active : (c.setActive active).active = active := rfl
@[simp] theorem setActive_phase : (c.setActive active).phase = c.phase := rfl
@[simp] theorem setActive_failing : (c.setActive active).failing = c.failing := rfl

@[simp] theorem setFailing_status : (c.setFailing failing).status = c.status := rfl
@[simp] theorem setFailing_device : (c.setFailing failing).device = c.device := rfl
@[simp] theorem setFailing_active : (c.setFailing failing).active = c.active := rfl
@[simp] theorem setFailing_phase : (c.setFailing failing).phase = c.phase := rfl
@[simp] theorem setFailing_failing : (c.setFailing failing).failing = failing := rfl

end Setters

/-- Writing the status a task has changes nothing. -/
theorem setStatus_self {c : Control} {id : String} {status : TaskStatus}
    (h : c.status id = some status) : c.setStatus id status = c := by
  have hfun : (fun t => if t = id then some status else c.status t) = c.status := by
    funext t
    split
    · next ht => rw [ht, h]
    · rfl
  rw [setStatus, hfun]

/-! ## The law, one write at a time -/

theorem Allowed.refl (status : TaskStatus) : Allowed status status :=
  ⟨fun _ => rfl, fun h => Or.inl h⟩

/-- A live status may become any status that is not a step back from a cancel. -/
theorem Allowed.of_live {old new : TaskStatus} (hlive : old.terminal = false)
    (hcancel : old = .cancelRequested → new = .cancelRequested ∨ new.terminal = true) :
    Allowed old new :=
  ⟨fun h => absurd (hlive.symm.trans h) (by decide), hcancel⟩

theorem StatusLaw.of_status_eq {c c' : Control} (h : c'.status = c.status) : StatusLaw c c' :=
  fun id old hold => ⟨old, by rw [h]; exact hold, Allowed.refl old⟩

theorem StatusLaw.of_update {c c' : Control} {id : String} {new : TaskStatus}
    (h : ∀ t, c'.status t = if t = id then some new else c.status t)
    (hallowed : ∀ old, c.status id = some old → Allowed old new) : StatusLaw c c' := by
  intro t old hold
  rw [h t]
  by_cases ht : t = id
  · subst ht
    exact ⟨new, if_pos rfl, hallowed old hold⟩
  · exact ⟨old, by rw [if_neg ht]; exact hold, Allowed.refl old⟩

/-! ## An orderly state stays orderly -/

/-- Writing one status keeps the order, unless it makes a mapped task terminal or moves a task
that is still to be claimed. -/
theorem Orderly.setStatus {c : Control} (h : Orderly c) {id : String} {new : TaskStatus}
    (hmapped : ∀ d, c.device id = some d → new.terminal = false)
    (hphase : c.phase id ≠ .created) : Orderly (c.setStatus id new) where
  mapped_live t d ht := by
    rw [setStatus_status]
    by_cases hid : t = id
    · subst hid
      exact ⟨new, if_pos rfl, hmapped d ht⟩
    · rw [if_neg hid]
      exact h.mapped_live t d ht
  mapped_phase := h.mapped_phase
  active_phase := h.active_phase
  failing_unmapped := h.failing_unmapped
  failing_terminal := h.failing_terminal
  created_queued t ht := by
    have hid : t ≠ id := fun he => hphase (he ▸ ht)
    rw [setStatus_status, if_neg hid]
    exact h.created_queued t ht

/-- A `create_task` that moves on keeps the order, unless it steps back or starts failing a task
that is still mapped. -/
theorem Orderly.setPhase {c : Control} (h : Orderly c) {id : String} {phase : DispatchPhase}
    (habsent : phase ≠ .absent) (hcreated : phase ≠ .created)
    (hfailing : phase = .failing → c.device id = none) : Orderly (c.setPhase id phase) where
  mapped_live := h.mapped_live
  mapped_phase t d ht := by
    rw [setPhase_phase]
    by_cases hid : t = id
    · subst hid
      rw [if_pos rfl]
      refine ⟨habsent, hcreated, fun hf => ?_⟩
      rw [setPhase_device, hfailing hf] at ht
      cases ht
    · rw [if_neg hid]
      exact h.mapped_phase t d ht
  active_phase d l t hl ht := by
    rw [setPhase_phase]
    by_cases hid : t = id
    · rw [if_pos hid]
      exact ⟨habsent, hcreated⟩
    · rw [if_neg hid]
      exact h.active_phase d l t hl ht
  failing_unmapped entry hentry := by
    obtain ⟨hnone, hphase⟩ := h.failing_unmapped entry hentry
    refine ⟨hnone, ?_⟩
    rw [setPhase_phase]
    by_cases hid : entry.1 = id
    · rw [if_pos hid]
      exact ⟨habsent, hcreated⟩
    · rw [if_neg hid]
      exact hphase
  failing_terminal := h.failing_terminal
  created_queued t ht := by
    rw [setPhase_phase] at ht
    by_cases hid : t = id
    · rw [if_pos hid] at ht
      exact absurd ht hcreated
    · rw [if_neg hid] at ht
      exact h.created_queued t ht

/-- Unmapping tasks and emptying active sets keeps the order. -/
theorem Orderly.unmap {c : Control} (h : Orderly c) {id : String}
    {active : String → Option (List String)} (hactive : ActiveSub active c.active) :
    Orderly ((c.setActive active).setDevice id none) where
  mapped_live t d ht := by
    rw [setDevice_device] at ht
    split at ht
    · cases ht
    · exact h.mapped_live t d ht
  mapped_phase t d ht := by
    rw [setDevice_device] at ht
    split at ht
    · cases ht
    · exact h.mapped_phase t d ht
  active_phase d l t hl ht := by
    obtain ⟨d', l', hl', ht'⟩ := hactive d l t hl ht
    exact h.active_phase d' l' t hl' ht'
  failing_unmapped entry hentry := by
    obtain ⟨hnone, hphase⟩ := h.failing_unmapped entry hentry
    refine ⟨?_, hphase⟩
    rw [setDevice_device, setActive_device, hnone, ite_self]
  failing_terminal := h.failing_terminal
  created_queued := h.created_queued

/-- A claim maps a task that was waiting in the queue. -/
theorem Orderly.claim {c : Control} (h : Orderly c) {id d : String}
    {active : String → Option (List String)} (hphase : c.phase id = .created)
    (hactive : ∀ d' l t, active d' = some l → t ∈ l → t = id ∨ ∃ l', c.active d' = some l' ∧ t ∈ l') :
    Orderly (((c.setActive active).setDevice id (some d)).setPhase id .claimed) := by
  have hclaimed : Orderly (c.setPhase id .claimed) :=
    h.setPhase (by decide) (by decide) nofun
  exact {
    mapped_live := fun t d' ht => by
      rw [setPhase_device, setDevice_device] at ht
      by_cases hid : t = id
      · rw [hid]
        exact ⟨.queued, h.created_queued id hphase, rfl⟩
      · rw [if_neg hid] at ht
        exact h.mapped_live t d' ht
    mapped_phase := fun t d' ht => by
      rw [setPhase_device, setDevice_device] at ht
      by_cases hid : t = id
      · rw [setPhase_phase, if_pos hid]
        decide
      · rw [if_neg hid] at ht
        exact hclaimed.mapped_phase t d' ht
    active_phase := fun d' l t hl ht => by
      rcases hactive d' l t hl ht with hid | ⟨l', hl', ht'⟩
      · rw [setPhase_phase, if_pos hid]
        decide
      · exact hclaimed.active_phase d' l' t hl' ht'
    failing_unmapped := fun entry hentry => by
      have hne : entry.1 ≠ id := fun he => (h.failing_unmapped entry hentry).2.2 (he ▸ hphase)
      obtain ⟨hnone, hrest⟩ := hclaimed.failing_unmapped entry hentry
      exact ⟨by rw [setPhase_device, setDevice_device, if_neg hne]; exact hnone, hrest⟩
    failing_terminal := h.failing_terminal
    created_queued := hclaimed.created_queued }

theorem Orderly.create {c : Control} (h : Orderly c) {id : String} (hphase : c.phase id = .absent)
    (hnone : c.status id = none) : Orderly ((c.setStatus id .queued).setPhase id .created) where
  mapped_live t d ht := by
    obtain ⟨status, hstatus, hlive⟩ := h.mapped_live t d ht
    have hid : t ≠ id := fun he => by rw [he, hnone] at hstatus; cases hstatus
    exact ⟨status, by rw [setPhase_status, setStatus_status, if_neg hid]; exact hstatus, hlive⟩
  mapped_phase t d ht := by
    have hid : t ≠ id := fun he => (h.mapped_phase t d ht).1 (he ▸ hphase)
    rw [setPhase_phase, if_neg hid]
    exact h.mapped_phase t d ht
  active_phase d l t hl ht := by
    have hid : t ≠ id := fun he => (h.active_phase d l t hl ht).1 (he ▸ hphase)
    rw [setPhase_phase, if_neg hid]
    exact h.active_phase d l t hl ht
  failing_unmapped entry hentry := by
    have hid : entry.1 ≠ id := fun he => (h.failing_unmapped entry hentry).2.1 (he ▸ hphase)
    rw [setPhase_phase, if_neg hid]
    exact h.failing_unmapped entry hentry
  failing_terminal := h.failing_terminal
  created_queued t ht := by
    rw [setPhase_phase] at ht
    rw [setPhase_status, setStatus_status]
    by_cases hid : t = id
    · rw [if_pos hid]
    · rw [if_neg hid] at ht ⊢
      exact h.created_queued t ht

theorem Orderly.eraseFailing {c : Control} (h : Orderly c) (i : Nat) :
    Orderly (c.setFailing (c.failing.eraseIdx i)) where
  mapped_live := h.mapped_live
  mapped_phase := h.mapped_phase
  active_phase := h.active_phase
  failing_unmapped entry hentry := h.failing_unmapped entry (List.mem_of_mem_eraseIdx hentry)
  failing_terminal entry hentry := h.failing_terminal entry (List.mem_of_mem_eraseIdx hentry)
  created_queued := h.created_queued

theorem Orderly.dropDevice {c : Control} (h : Orderly c) {d reason : String} {status : TaskStatus}
    (hterminal : status.terminal = true) : Orderly (c.dropDevice d reason status) where
  mapped_live t d' ht := by
    simp only [Control.dropDevice] at ht
    split at ht
    · cases ht
    · exact h.mapped_live t d' ht
  mapped_phase t d' ht := by
    simp only [Control.dropDevice] at ht
    split at ht
    · cases ht
    · exact h.mapped_phase t d' ht
  active_phase d' l t hl ht := by
    simp only [Control.dropDevice] at hl
    split at hl
    · cases hl
    · exact h.active_phase d' l t hl ht
  failing_unmapped entry hentry := by
    simp only [Control.dropDevice] at hentry ⊢
    rcases List.mem_append.mp hentry with hold | hnew
    · obtain ⟨hnone, hphase⟩ := h.failing_unmapped entry hold
      exact ⟨by rw [hnone, ite_self], hphase⟩
    · obtain ⟨t, ht, rfl⟩ := List.mem_map.mp hnew
      refine ⟨if_pos ht, ?_⟩
      cases hactive : c.active d with
      | none => rw [hactive] at ht; cases ht
      | some l => rw [hactive] at ht; exact h.active_phase d l t hactive ht
  failing_terminal entry hentry := by
    simp only [Control.dropDevice] at hentry
    rcases List.mem_append.mp hentry with hold | hnew
    · exact h.failing_terminal entry hold
    · obtain ⟨t, -, rfl⟩ := List.mem_map.mp hnew
      exact hterminal
  created_queued := h.created_queued

/-! ## One step -/

/-- **A guarded step keeps the order.** -/
theorem Step.orderly {c c' : Control} {label : ControlLabel} (h : Orderly c)
    (hok : LateWriteOk c label) (hstep : Step c label c') : Orderly c' := by
  cases hstep with
  | idle => exact h
  | create hphase hnone => exact h.create hphase hnone
  | claim hphase hactive => exact h.claim hphase hactive
  | @reject id hphase =>
    refine h.setPhase (by decide) (by decide) fun _ => ?_
    cases hd : c.device id with
    | none => rfl
    | some d => exact absurd hphase (h.mapped_phase id d hd).2.1
  | running hphase _ =>
    refine (h.setStatus (fun _ _ => rfl) ?_).setPhase (by decide) (by decide) nofun
    rw [hphase]
    decide
  | sent _ hdone =>
    rcases hdone with rfl | rfl <;> exact h.setPhase (by decide) (by decide) nofun
  | released _ hactive =>
    exact (h.unmap hactive).setPhase (by decide) (by decide) fun _ => if_pos rfl
  | @failed id _ hphase _ =>
    refine (h.setStatus (fun d hd => ?_) ?_).setPhase (by decide) (by decide) nofun
    · exact absurd hphase (h.mapped_phase id d hd).2.2
    · rw [hphase]
      decide
  | @cancel id d _ hdevice _ _ =>
    exact h.setStatus (fun _ _ => rfl) (h.mapped_phase id d hdevice).2.1
  | @approval id old new hold hswap =>
    refine h.setStatus (fun _ _ => ?_) fun hcreated => ?_
    · rcases hswap with ⟨-, rfl⟩ | ⟨-, rfl⟩ <;> rfl
    · rw [h.created_queued id hcreated] at hold
      rcases hswap with ⟨rfl, -⟩ | ⟨rfl, -⟩ <;> cases hold
  | @terminal id d _ _ _ hdevice _ _ hactive =>
    refine (h.unmap hactive).setStatus (fun d' hd' => ?_) (h.mapped_phase id d hdevice).2.1
    rw [setDevice_device, if_pos rfl] at hd'
    cases hd'
  | drop hterminal => exact h.dropDevice hterminal
  | forget => exact h.eraseFailing _
  | @fail i id reason old status hentry _ _ =>
    obtain ⟨hnone, -, hcreated⟩ := h.failing_unmapped _ (List.mem_of_getElem? hentry)
    refine (h.setStatus (fun d hd => ?_) hcreated).eraseFailing i
    rw [hnone] at hd
    cases hd

/-- **A guarded step keeps the law.** -/
theorem Step.statusLaw {c c' : Control} {label : ControlLabel} (h : Orderly c)
    (hok : LateWriteOk c label) (hstep : Step c label c') : StatusLaw c c' := by
  cases hstep with
  | idle => exact StatusLaw.of_status_eq rfl
  | @create id _ hnone =>
    exact StatusLaw.of_update (fun _ => rfl) fun old hold => by rw [hnone] at hold; cases hold
  | claim _ _ => exact StatusLaw.of_status_eq rfl
  | reject _ => exact StatusLaw.of_status_eq rfl
  | running _ _ =>
    refine StatusLaw.of_update (fun _ => rfl) fun old hold => ?_
    obtain ⟨hlive, hcancel⟩ := hok old hold
    exact Allowed.of_live hlive fun he => absurd he hcancel
  | sent _ _ => exact StatusLaw.of_status_eq rfl
  | released _ _ => exact StatusLaw.of_status_eq rfl
  | failed _ _ =>
    exact StatusLaw.of_update (fun _ => rfl) fun old hold =>
      ⟨fun hterminal => (hok old hold hterminal).symm, fun _ => Or.inr rfl⟩
  | @cancel id _ old _ hold hlive =>
    refine StatusLaw.of_update (fun _ => rfl) fun old' hold' => ?_
    rw [hold] at hold'
    rw [← Option.some.inj hold']
    exact Allowed.of_live hlive fun _ => Or.inl rfl
  | @approval id old new hold hswap =>
    refine StatusLaw.of_update (fun _ => rfl) fun old' hold' => ?_
    rw [hold] at hold'
    rw [← Option.some.inj hold']
    rcases hswap with ⟨rfl, -⟩ | ⟨rfl, -⟩ <;> exact Allowed.of_live rfl fun he => by cases he
  | @terminal id d old new _ hdevice hold hterminal _ =>
    refine StatusLaw.of_update (fun _ => rfl) fun old' hold' => ?_
    -- a mapped task is live, so a terminal message ends it for the first time
    obtain ⟨live, hlive, hnot⟩ := h.mapped_live id d hdevice
    rw [hlive] at hold'
    rw [← Option.some.inj hold']
    exact Allowed.of_live hnot fun _ => Or.inr hterminal
  | drop _ => exact StatusLaw.of_status_eq rfl
  | forget => exact StatusLaw.of_status_eq rfl
  | @fail i id reason old status hentry hold hlive =>
    refine StatusLaw.of_update (fun _ => rfl) fun old' hold' => ?_
    rw [hold] at hold'
    rw [← Option.some.inj hold']
    exact Allowed.of_live hlive fun _ =>
      Or.inr (h.failing_terminal _ (List.mem_of_getElem? hentry))

/-- An unguarded late write breaks the law: the guard is exact. -/
theorem Step.lateWriteOk {c c' : Control} {label : ControlLabel} (hstep : Step c label c')
    (hlaw : StatusLaw c c') : LateWriteOk c label := by
  cases hstep with
  | @running id _ _ _ =>
    intro old hold
    obtain ⟨new, hnew, hterminal, hcancel⟩ := hlaw id old hold
    rw [setPhase_status, setStatus_status, if_pos rfl] at hnew
    rw [← Option.some.inj hnew] at hterminal hcancel
    constructor
    · cases hlive : old.terminal with
      | false => rfl
      | true => rw [← hterminal hlive] at hlive; cases hlive
    · intro he
      rcases hcancel he with hc | hc <;> cases hc
  | @failed id _ _ _ =>
    intro old hold hlive
    obtain ⟨new, hnew, hterminal, -⟩ := hlaw id old hold
    rw [setPhase_status, setStatus_status, if_pos rfl] at hnew
    rw [← Option.some.inj hnew] at hterminal
    exact (hterminal hlive).symm
  | _ => trivial

end Control

end ThreadForge

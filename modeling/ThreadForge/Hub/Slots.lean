import ThreadForge.Hub.Lifecycle
import ThreadForge.Lib.SlotMaps

/-!
# The slots of the Workers

What the operations of the hub do to its two maps, to the connection table and to the stored
statuses, one constructor of `SlotStep` for each. `SlotStep` says everything a step can do to them,
so that the lifecycle (`SlotStep.control`) and the accounting of the slots are both read off it.

## Main results

* `SlotStep.accounts` — the two maps stay one assignment, of connected devices only.
* `SlotStep.served` — a task stays active only while somebody can still end it, unless its start
  reaches a Worker after its slot was taken away.
-/

namespace ThreadForge

/-! ## States and steps -/

/-- What the accounting of the slots sees of the hub. -/
structure Slots where
  control : Control
  connected : String → Bool
  /-- The device and the execution environment of each stored task. -/
  home : String → Option (String × String)

/-- The steps whose effect depends on who took them. -/
inductive SlotLabel
  | runningWrite (taskId : String)
  | failedWrite (taskId : String)
  /-- The `task.start` of `dispatch`, not stopped by anything `dispatch` raised. -/
  | start (taskId : String)
  | locked

/-- What the lifecycle sees of a label. -/
def SlotLabel.control : SlotLabel → ControlLabel
  | .runningWrite id => .runningWrite id
  | .failedWrite id => .failedWrite id
  | .start _ | .locked => .locked

namespace Slots

def withControl (σ : Slots) (c : Control) : Slots := { σ with control := c }

/-- A connection of `d` is made or taken away. -/
def setConnected (σ : Slots) (d : String) (up : Bool) : Slots :=
  { σ with connected := fun d' => if d' = d then up else σ.connected d' }

section Setters

variable (σ : Slots) (c : Control) (d : String) (up : Bool)

@[simp] theorem withControl_control : (σ.withControl c).control = c := rfl
@[simp] theorem withControl_connected : (σ.withControl c).connected = σ.connected := rfl
@[simp] theorem withControl_home : (σ.withControl c).home = σ.home := rfl
@[simp] theorem setConnected_control : (σ.setConnected d up).control = σ.control := rfl
@[simp] theorem setConnected_home : (σ.setConnected d up).home = σ.home := rfl

end Setters

end Slots

namespace Control

/-- A task is given to a device. -/
def claimSlot (c : Control) (id d : String) : Control :=
  (c.setActive (Function.update c.active d
    (some (HubState.addActive ((c.active d).getD []) id)))).setDevice id (some d)

/-- A task is taken from a device. -/
def releaseSlot (c : Control) (id d : String) : Control :=
  (c.setActive (SlotMaps.releaseHeld c.active id d)).setDevice id none

end Control

/-- What one step of the hub can do to the slots. At most `capacity` tasks run on a device. -/
inductive SlotStep (capacity : Nat) : Slots → SlotLabel → Slots → Prop
  | idle {σ} : SlotStep capacity σ .locked σ
  | create {σ : Slots} {id : String} {home : String × String} :
      σ.control.phase id = .absent → σ.control.status id = none →
      SlotStep capacity σ .locked { σ with
        control := (σ.control.setStatus id .queued).setPhase id .created
        home := fun t => if t = id then some home else σ.home t }
  | claim {σ : Slots} {id d e : String} : σ.control.phase id = .created →
      σ.home id = some (d, e) → σ.connected d = true →
      ((σ.control.active d).getD []).length < capacity →
      SlotStep capacity σ .locked
        (σ.withControl ((σ.control.claimSlot id d).setPhase id .claimed))
  | reject {σ : Slots} {id : String} : σ.control.phase id = .created →
      SlotStep capacity σ .locked (σ.withControl (σ.control.setPhase id .failing))
  | running {σ : Slots} {id : String} {old : TaskStatus} : σ.control.phase id = .claimed →
      σ.control.status id = some old →
      SlotStep capacity σ (.runningWrite id)
        (σ.withControl ((σ.control.setStatus id .running).setPhase id .started))
  | sent {σ : Slots} {id d e : String} : σ.control.phase id = .started →
      σ.home id = some (d, e) → σ.connected d = true →
      SlotStep capacity σ (.start id) (σ.withControl (σ.control.setPhase id .done))
  | unsent {σ : Slots} {id d e : String} : σ.control.phase id = .started →
      σ.home id = some (d, e) → σ.connected d = false →
      SlotStep capacity σ (.start id) (σ.withControl (σ.control.setPhase id .sendFailed))
  | unpublished {σ : Slots} {id : String} : σ.control.phase id = .started →
      SlotStep capacity σ .locked (σ.withControl (σ.control.setPhase id .sendFailed))
  | released {σ : Slots} {id d e : String} : σ.control.phase id = .sendFailed →
      σ.home id = some (d, e) →
      SlotStep capacity σ .locked
        (σ.withControl ((σ.control.releaseSlot id d).setPhase id .failing))
  | failed {σ : Slots} {id : String} {old : TaskStatus} : σ.control.phase id = .failing →
      σ.control.status id = some old →
      SlotStep capacity σ (.failedWrite id)
        (σ.withControl ((σ.control.setStatus id .failed).setPhase id .done))
  | cancel {σ : Slots} {id d : String} {old : TaskStatus} : σ.control.device id = some d →
      σ.control.status id = some old → old.terminal = false →
      SlotStep capacity σ .locked (σ.withControl (σ.control.setStatus id .cancelRequested))
  | approval {σ : Slots} {id : String} {old new : TaskStatus} : σ.control.status id = some old →
      (old = .running ∧ new = .waitingForApproval) ∨ (old = .waitingForApproval ∧ new = .running) →
      SlotStep capacity σ .locked (σ.withControl (σ.control.setStatus id new))
  | terminal {σ : Slots} {id d : String} {old new : TaskStatus} : σ.control.device id = some d →
      σ.control.status id = some old → new.terminal = true →
      SlotStep capacity σ .locked
        (σ.withControl ((σ.control.releaseSlot id d).setStatus id new))
  | join {σ : Slots} {d : String} : SlotStep capacity σ .locked (σ.setConnected d true)
  | drop {σ : Slots} {d reason : String} {status : TaskStatus} {up : Bool} :
      status.terminal = true →
      SlotStep capacity σ .locked
        ((σ.withControl (σ.control.dropDevice d reason status)).setConnected d up)
  | forget {σ : Slots} {i : Nat} {entry : String × String × TaskStatus} :
      σ.control.failing[i]? = some entry →
      (∀ old, σ.control.status entry.1 = some old → old.terminal = true) →
      SlotStep capacity σ .locked
        (σ.withControl (σ.control.setFailing (σ.control.failing.eraseIdx i)))
  | fail {σ : Slots} {i : Nat} {id reason : String} {old status : TaskStatus} :
      σ.control.failing[i]? = some (id, reason, status) → σ.control.status id = some old →
      old.terminal = false →
      SlotStep capacity σ .locked
        (σ.withControl ((σ.control.setStatus id status).setFailing (σ.control.failing.eraseIdx i)))

namespace Control

/-- A claim makes one task active. -/
theorem active_claimSlot (c : Control) (id d d' : String) (l : List String) (t : String)
    (hl : (c.claimSlot id d).active d' = some l) (ht : t ∈ l) :
    t = id ∨ ∃ l', c.active d' = some l' ∧ t ∈ l' := by
  simp only [claimSlot, setDevice_active, setActive_active, Function.update_apply] at hl
  split at hl
  · next hd =>
    subst hd
    rw [← Option.some.inj hl, HubState.addActive] at ht
    have hmem : t ∈ (c.active d').getD [] ∨ t = id := by
      split at ht
      · exact Or.inl ht
      · simpa using ht
    rcases hmem with hold | hid
    · cases hactive : c.active d' with
      | none =>
        rw [hactive] at hold
        cases hold
      | some l₀ =>
        rw [SlotMaps.getD_of_some hactive] at hold
        exact Or.inr ⟨l₀, rfl, hold⟩
    · exact Or.inl hid
  · exact Or.inr ⟨l, hl, ht⟩

/-- A release leaves no new task active. -/
theorem activeSub_releaseHeld (active : String → Option (List String)) (id d d' : String)
    (l : List String) (t : String) (hl : SlotMaps.releaseHeld active id d d' = some l)
    (ht : t ∈ l) : ∃ d' l', active d' = some l' ∧ t ∈ l' := by
  obtain ⟨⟨l₀, hl₀, ht₀⟩, -⟩ := SlotMaps.mem_releaseHeld.mp ⟨l, hl, ht⟩
  exact ⟨d', l₀, hl₀, ht₀⟩

end Control

/-- **Every step of the slots is a step of the lifecycle.** -/
theorem SlotStep.control {capacity : Nat} {σ σ' : Slots} {label : SlotLabel}
    (h : SlotStep capacity σ label σ') : Control.Step σ.control label.control σ'.control := by
  cases h with
  | idle => exact .idle
  | create hphase hnone => exact .create hphase hnone
  | claim hphase _ _ _ => exact .claim hphase (Control.active_claimSlot _ _ _)
  | reject hphase => exact .reject hphase
  | running hphase hold => exact .running hphase hold
  | sent hphase _ _ => exact .sent hphase (Or.inl rfl)
  | unsent hphase _ _ => exact .sent hphase (Or.inr rfl)
  | unpublished hphase => exact .sent hphase (Or.inr rfl)
  | released hphase _ => exact .released hphase (Control.activeSub_releaseHeld _ _ _)
  | failed hphase hold => exact .failed hphase hold
  | cancel hdevice hold hlive => exact .cancel hdevice hold hlive
  | approval hold hswap => exact .approval hold hswap
  | terminal hdevice hold hterminal =>
    exact .terminal hdevice hold hterminal (Control.activeSub_releaseHeld _ _ _)
  | join => exact .idle
  | drop hterminal => exact .drop hterminal
  | forget _ _ => exact .forget
  | fail hentry hold hlive => exact .fail hentry hold hlive

namespace Slots

/-! ## The accounting -/

/-- The two maps are one assignment of claimed tasks to connected devices of theirs. -/
structure Accounts (capacity : Nat) (σ : Slots) : Prop where
  agree : SlotMaps.Agree capacity σ.control.device σ.control.active
  connected : ∀ id d, σ.control.device id = some d → σ.connected d = true
  placed : ∀ id d, σ.control.device id = some d → ∃ e, σ.home id = some (d, e)
  claimed : ∀ id d, σ.control.device id = some d →
    σ.control.phase id ≠ .absent ∧ σ.control.phase id ≠ .created
  ending : ∀ entry ∈ σ.control.failing, entry.2.2.terminal = true

/-- The statuses of a task somebody has to end. -/
def IsActive (status : TaskStatus) : Prop :=
  status = .running ∨ status = .waitingForApproval ∨ status = .cancelRequested

instance (status : TaskStatus) : Decidable (IsActive status) := by
  unfold IsActive
  infer_instance

/-- A mapped task, or one that an operation in progress still ends. -/
def Attended (σ : Slots) (id : String) : Prop :=
  (∃ d, σ.control.device id = some d) ∨ (∃ entry ∈ σ.control.failing, entry.1 = id) ∨
    (σ.control.phase id ≠ .absent ∧ σ.control.phase id ≠ .done)

/-- Every active local task is attended. -/
def Served (σ : Slots) : Prop :=
  ∀ id d status, σ.home id = some (d, "local_worker") → σ.control.status id = some status →
    IsActive status → σ.Attended id

/-- The start of a task reaches its Worker while the task has its slot, or is left to be failed. -/
def StartInTime (σ : Slots) : SlotLabel → Prop
  | .start id => ∀ d status, σ.home id = some (d, "local_worker") → σ.connected d = true →
      σ.control.status id = some status → IsActive status →
      (∃ d', σ.control.device id = some d') ∨ ∃ entry ∈ σ.control.failing, entry.1 = id
  | _ => True

theorem not_active_of_terminal {status : TaskStatus} (h : status.terminal = true) :
    ¬ IsActive status := by
  rintro (rfl | rfl | rfl) <;> cases h

end Slots

open Slots

variable {capacity : Nat} {σ σ' : Slots} {label : SlotLabel}

/-! ## One step of the accounting -/

namespace Slots

/-- A task that waits to be claimed has no device. -/
theorem Accounts.unmapped (h : Accounts capacity σ) {id : String}
    (hphase : σ.control.phase id = .absent ∨ σ.control.phase id = .created) :
    σ.control.device id = none := by
  cases hd : σ.control.device id with
  | none => rfl
  | some d =>
    rcases hphase with hphase | hphase
    · exact absurd hphase (h.claimed id d hd).1
    · exact absurd hphase (h.claimed id d hd).2

/-- A status may be written anywhere. -/
theorem Accounts.setStatus (h : Accounts capacity σ) (id : String) (status : TaskStatus) :
    Accounts capacity (σ.withControl (σ.control.setStatus id status)) :=
  { h with }

/-- A `create_task` may move on anywhere, once it has claimed its task. -/
theorem Accounts.setPhase (h : Accounts capacity σ) (id : String) {phase : DispatchPhase}
    (habsent : phase ≠ .absent) (hcreated : phase ≠ .created) :
    Accounts capacity (σ.withControl (σ.control.setPhase id phase)) where
  agree := h.agree
  connected := h.connected
  placed := h.placed
  claimed t d ht := by
    rw [withControl_control, Control.setPhase_phase]
    by_cases hid : t = id
    · rw [if_pos hid]
      exact ⟨habsent, hcreated⟩
    · rw [if_neg hid]
      exact h.claimed t d ht
  ending := h.ending

theorem Accounts.eraseFailing (h : Accounts capacity σ) (i : Nat) :
    Accounts capacity
      (σ.withControl (σ.control.setFailing (σ.control.failing.eraseIdx i))) where
  agree := h.agree
  connected := h.connected
  placed := h.placed
  claimed := h.claimed
  ending entry hentry := h.ending entry (List.mem_of_mem_eraseIdx hentry)

/-- A task gives up the slot it has on its own device. -/
theorem Accounts.release (h : Accounts capacity σ) {id d : String}
    (hown : ∀ d', σ.control.device id = some d' → d' = d) :
    Accounts capacity (σ.withControl (σ.control.releaseSlot id d)) := by
  have hdevice : ∀ {t d'}, (σ.control.releaseSlot id d).device t = some d' →
      σ.control.device t = some d' := by
    intro t d' ht
    simp only [Control.releaseSlot, Control.setDevice_device] at ht
    split at ht
    · cases ht
    · exact ht
  exact {
    agree := h.agree.release hown
    connected := fun t d' ht => h.connected t d' (hdevice ht)
    placed := fun t d' ht => h.placed t d' (hdevice ht)
    claimed := fun t d' ht => h.claimed t d' (hdevice ht)
    ending := h.ending }

/-- A task in the queue takes a slot of its device. -/
theorem Accounts.claim (h : Accounts capacity σ) {id d e : String}
    (hphase : σ.control.phase id = .created) (hhome : σ.home id = some (d, e))
    (hup : σ.connected d = true) (hslot : ((σ.control.active d).getD []).length < capacity) :
    Accounts capacity (σ.withControl ((σ.control.claimSlot id d).setPhase id .claimed)) := by
  have hfree := h.unmapped (Or.inr hphase)
  have hnew : id ∉ (σ.control.active d).getD [] := by
    rw [h.agree.mem_getD, hfree]
    exact fun he => (by cases he)
  have hadd : HubState.addActive ((σ.control.active d).getD []) id =
      (σ.control.active d).getD [] ++ [id] := if_neg hnew
  have hdevice : ∀ {t d'}, (σ.control.claimSlot id d).device t = some d' →
      (t = id ∧ d' = d) ∨ (t ≠ id ∧ σ.control.device t = some d') := by
    intro t d' ht
    simp only [Control.claimSlot, Control.setDevice_device] at ht
    split at ht
    · next hid => exact Or.inl ⟨hid, (Option.some.inj ht).symm⟩
    · next hid => exact Or.inr ⟨hid, ht⟩
  refine ⟨?_, fun t d' ht => ?_, fun t d' ht => ?_, fun t d' ht => ?_, h.ending⟩
  · have hagree := h.agree.claim hfree hslot
    rw [← hadd] at hagree
    exact hagree
  · rcases hdevice ht with ⟨-, rfl⟩ | ⟨-, hold⟩
    · exact hup
    · exact h.connected t d' hold
  · rcases hdevice ht with ⟨rfl, rfl⟩ | ⟨-, hold⟩
    · exact ⟨e, hhome⟩
    · exact h.placed t d' hold
  · rw [withControl_control, Control.setPhase_phase]
    rcases hdevice ht with ⟨hid, -⟩ | ⟨hid, hold⟩
    · rw [if_pos hid]
      decide
    · rw [if_neg hid]
      exact h.claimed t d' hold

/-- A device loses all its tasks, whether its connection is replaced or taken away. -/
theorem Accounts.drop (h : Accounts capacity σ) {d reason : String} {status : TaskStatus}
    (hterminal : status.terminal = true) (up : Bool) :
    Accounts capacity
      ((σ.withControl (σ.control.dropDevice d reason status)).setConnected d up) := by
  have hdevice : ∀ {t d'}, (σ.control.dropDevice d reason status).device t = some d' →
      σ.control.device t = some d' ∧ d' ≠ d := by
    intro t d' ht
    simp only [Control.dropDevice] at ht
    split at ht
    · cases ht
    · next hmem =>
      refine ⟨ht, fun hd => hmem ?_⟩
      rw [h.agree.mem_getD, ← hd]
      exact ht
  refine ⟨h.agree.drop d, fun t d' ht => ?_, fun t d' ht => h.placed t d' (hdevice ht).1,
    fun t d' ht => h.claimed t d' (hdevice ht).1, fun entry hentry => ?_⟩
  · obtain ⟨hold, hne⟩ := hdevice ht
    show (if d' = d then up else σ.connected d') = true
    rw [if_neg hne]
    exact h.connected t d' hold
  · rcases List.mem_append.mp hentry with hold | hnew
    · exact h.ending entry hold
    · obtain ⟨t, -, rfl⟩ := List.mem_map.mp hnew
      exact hterminal

theorem Accounts.create (h : Accounts capacity σ) {id : String} {home : String × String}
    (hphase : σ.control.phase id = .absent) :
    Accounts capacity { σ with
      control := (σ.control.setStatus id .queued).setPhase id .created
      home := fun t => if t = id then some home else σ.home t } := by
  have hne : ∀ {t d}, σ.control.device t = some d → t ≠ id := by
    intro t d ht he
    rw [he, h.unmapped (Or.inl hphase)] at ht
    cases ht
  refine ⟨h.agree, h.connected, fun t d ht => ?_, fun t d ht => ?_, h.ending⟩
  · obtain ⟨e, he⟩ := h.placed t d ht
    exact ⟨e, (if_neg (hne ht)).trans he⟩
  · rw [Control.setPhase_phase, if_neg (hne ht)]
    exact h.claimed t d ht

end Slots

/-- **A step keeps the accounting.** -/
theorem SlotStep.accounts (h : Accounts capacity σ) (hstep : SlotStep capacity σ label σ') :
    Accounts capacity σ' := by
  cases hstep with
  | idle => exact h
  | create hphase _ => exact h.create hphase
  | claim hphase hhome hup hslot => exact h.claim hphase hhome hup hslot
  | reject _ | sent _ _ _ | unsent _ _ _ | unpublished _ =>
    exact h.setPhase _ (by decide) (by decide)
  | running _ _ | failed _ _ => exact (h.setStatus _ _).setPhase _ (by decide) (by decide)
  | @released id d e _ hhome =>
    refine (h.release fun d' hd' => ?_).setPhase _ (by decide) (by decide)
    obtain ⟨e', he'⟩ := h.placed id d' hd'
    rw [hhome] at he'
    exact congrArg Prod.fst (Option.some.inj he').symm
  | cancel _ _ _ | approval _ _ => exact h.setStatus _ _
  | terminal hdevice _ _ =>
    refine (h.release fun d' hd' => ?_).setStatus _ _
    rw [hdevice] at hd'
    exact (Option.some.inj hd').symm
  | @join d =>
    refine { h with connected := fun t d' ht => ?_ }
    show (if d' = d then true else σ.connected d') = true
    split
    · rfl
    · exact h.connected t d' ht
  | drop hterminal => exact h.drop hterminal _
  | forget _ _ => exact h.eraseFailing _
  | fail _ _ _ => exact (h.setStatus _ _).eraseFailing _

/-! ## One step of the service -/

namespace Slots

/-- What a step leaves alone, it leaves attended. -/
theorem Attended.mono {id : String} (h : σ.Attended id)
    (hdevice : σ'.control.device id = σ.control.device id)
    (hfailing : ∀ entry ∈ σ.control.failing, entry.1 = id → entry ∈ σ'.control.failing)
    (hphase : σ'.control.phase id = σ.control.phase id) : σ'.Attended id := by
  rcases h with ⟨d, hd⟩ | ⟨entry, hentry, hid⟩ | hphase'
  · exact Or.inl ⟨d, hdevice.trans hd⟩
  · exact Or.inr (Or.inl ⟨entry, hfailing entry hentry hid, hid⟩)
  · exact Or.inr (Or.inr (by rw [hphase]; exact hphase'))

/-- A `create_task` that has not returned attends to its task. -/
theorem attended_of_phase {id : String} (habsent : σ.control.phase id ≠ .absent)
    (hdone : σ.control.phase id ≠ .done) : σ.Attended id :=
  Or.inr (Or.inr ⟨habsent, hdone⟩)

/-- The entries of the other tasks stay in the list. -/
theorem mem_eraseIdx_of_ne {l : List (String × String × TaskStatus)} {i : Nat}
    {removed entry : String × String × TaskStatus} (hi : l[i]? = some removed)
    (hentry : entry ∈ l) (hne : entry.1 ≠ removed.1) : entry ∈ l.eraseIdx i := by
  obtain ⟨j, hj⟩ := List.mem_iff_getElem?.mp hentry
  refine List.mem_eraseIdx_iff_getElem?.mpr ⟨j, fun he => hne ?_, hj⟩
  rw [he, hi] at hj
  rw [Option.some.inj hj]

/-- A step about one task leaves the others as they were. -/
theorem Served.of_others (h : Served σ) (id : String)
    (hhome : ∀ t, t ≠ id → σ'.home t = σ.home t)
    (hstatus : ∀ t, t ≠ id → σ'.control.status t = σ.control.status t)
    (hdevice : ∀ t, t ≠ id → σ'.control.device t = σ.control.device t)
    (hfailing : ∀ entry ∈ σ.control.failing, entry.1 ≠ id → entry ∈ σ'.control.failing)
    (hphase : ∀ t, t ≠ id → σ'.control.phase t = σ.control.phase t)
    (hself : ∀ d status, σ'.home id = some (d, "local_worker") →
      σ'.control.status id = some status → IsActive status → σ'.Attended id) : Served σ' := by
  intro t d status ht hst hactive
  by_cases hid : t = id
  · subst hid
    exact hself d status ht hst hactive
  · rw [hhome t hid] at ht
    rw [hstatus t hid] at hst
    exact (h t d status ht hst hactive).mono (hdevice t hid)
      (fun entry hentry he => hfailing entry hentry (he ▸ hid)) (hphase t hid)

/-- A `create_task` that moves on attends to its task, unless it returns. -/
theorem Served.setPhase (h : Served σ) (id : String) {phase : DispatchPhase}
    (habsent : phase ≠ .absent) (hdone : phase ≠ .done) :
    Served (σ.withControl (σ.control.setPhase id phase)) := by
  refine h.of_others id (fun _ _ => rfl) (fun _ _ => rfl) (fun _ _ => rfl) (fun _ h _ => h)
    (fun t ht => if_neg ht) fun _ _ _ _ _ => ?_
  refine attended_of_phase ?_ ?_ <;>
    rw [withControl_control, Control.setPhase_phase, if_pos rfl]
  · exact habsent
  · exact hdone

/-- A status may be written where the task is attended, or if it is not an active one. -/
theorem Served.setStatus (h : Served σ) (id : String) {status : TaskStatus}
    (hself : ∀ d, σ.home id = some (d, "local_worker") → IsActive status → σ.Attended id) :
    Served (σ.withControl (σ.control.setStatus id status)) := by
  refine h.of_others id (fun _ _ => rfl) (fun t ht => if_neg ht) (fun _ _ => rfl) (fun _ h _ => h)
    (fun _ _ => rfl) fun d st hd hst hactive => ?_
  have hset : some status = some st := (if_pos rfl).symm.trans hst
  rw [← Option.some.inj hset] at hactive
  exact hself d hd hactive

/-- A task may be mapped or unmapped by a step that attends to it otherwise. -/
theorem Served.setDevice (h : Served σ) (id : String) (device : Option String)
    (active : String → Option (List String))
    (hself : ∀ status, σ.control.status id = some status → ¬ IsActive status ∨
      (σ.control.phase id ≠ .absent ∧ σ.control.phase id ≠ .done)) :
    Served (σ.withControl ((σ.control.setActive active).setDevice id device)) := by
  refine h.of_others id (fun _ _ => rfl) (fun _ _ => rfl) (fun t ht => if_neg ht) (fun _ h _ => h)
    (fun _ _ => rfl) fun _ st _ hst hactive => ?_
  rcases hself st hst with hidle | ⟨habsent, hdone⟩
  · exact absurd hactive hidle
  · exact attended_of_phase habsent hdone

/-- An entry may leave the list once its task is not active. -/
theorem Served.eraseFailing (h : Served σ) {i : Nat} {entry : String × String × TaskStatus}
    (hi : σ.control.failing[i]? = some entry)
    (hself : ∀ status, σ.control.status entry.1 = some status → ¬ IsActive status) :
    Served (σ.withControl (σ.control.setFailing (σ.control.failing.eraseIdx i))) := by
  refine h.of_others entry.1 (fun _ _ => rfl) (fun _ _ => rfl) (fun _ _ => rfl)
    (fun _ hother hne => mem_eraseIdx_of_ne hi hother hne) (fun _ _ => rfl)
    fun _ st _ hst hactive => ?_
  exact absurd hactive (hself st hst)

theorem Served.drop (h : Served σ) (d reason : String) (status : TaskStatus) (up : Bool) :
    Served ((σ.withControl (σ.control.dropDevice d reason status)).setConnected d up) := by
  intro t d' st ht hst hactive
  by_cases hmem : t ∈ (σ.control.active d).getD []
  · -- what the device ran is left to be failed
    refine Or.inr (Or.inl ⟨(t, reason, status), ?_, rfl⟩)
    exact List.mem_append_right _ (List.mem_map.mpr ⟨t, hmem, rfl⟩)
  · refine (h t d' st ht hst hactive).mono (if_neg hmem) (fun entry hentry _ => ?_) rfl
    exact List.mem_append_left _ hentry

end Slots

/-- **A step keeps the active tasks attended**, when a start is in time. -/
theorem SlotStep.served (h : Accounts capacity σ) (hserved : Served σ)
    (hok : StartInTime σ label) (hstep : SlotStep capacity σ label σ') : Served σ' := by
  cases hstep with
  | idle => exact hserved
  | @create id home hphase _ =>
    refine hserved.of_others id (fun t ht => if_neg ht) (fun t ht => if_neg ht) (fun _ _ => rfl)
      (fun _ h _ => h) (fun t ht => if_neg ht) fun _ st _ hst hactive => ?_
    have hqueued : some TaskStatus.queued = some st := (if_pos rfl).symm.trans hst
    rw [← Option.some.inj hqueued] at hactive
    exact absurd hactive (by decide)
  | @claim id d e hphase _ _ _ =>
    refine (hserved.setDevice id (some d) _ fun st _ => ?_).setPhase id (by decide) (by decide)
    rw [hphase]
    exact Or.inr (by decide)
  | reject _ | unsent _ _ _ | unpublished _ => exact hserved.setPhase _ (by decide) (by decide)
  | @running id _ hphase _ =>
    refine (hserved.setStatus id fun _ _ _ => ?_).setPhase id (by decide) (by decide)
    exact attended_of_phase (by rw [hphase]; decide) (by rw [hphase]; decide)
  | @sent id d e hphase hhome hup =>
    refine hserved.of_others id (fun _ _ => rfl) (fun _ _ => rfl) (fun _ _ => rfl)
      (fun _ h _ => h) (fun t ht => if_neg ht) fun d' st hd' hst hactive => ?_
    have hd : d' = d := by
      have heq : some (d', "local_worker") = some (d, e) := hd'.symm.trans hhome
      exact congrArg Prod.fst (Option.some.inj heq)
    rcases hok d' st hd' (hd ▸ hup) hst hactive with hmapped | hfailing
    · exact Or.inl hmapped
    · exact Or.inr (Or.inl hfailing)
  | @released id d _ hphase _ =>
    refine (hserved.setDevice id none _ fun st _ => ?_).setPhase id (by decide) (by decide)
    rw [hphase]
    exact Or.inr (by decide)
  | @failed id _ hphase _ =>
    refine hserved.of_others id (fun _ _ => rfl) (fun t ht => if_neg ht) (fun _ _ => rfl)
      (fun _ h _ => h) (fun t ht => if_neg ht) fun _ st _ hst hactive => ?_
    have hfailed : some TaskStatus.failed = some st := (if_pos rfl).symm.trans hst
    rw [← Option.some.inj hfailed] at hactive
    exact absurd hactive (by decide)
  | @cancel id d _ hdevice _ _ => exact hserved.setStatus id fun _ _ _ => Or.inl ⟨d, hdevice⟩
  | @approval id old new hold hswap =>
    refine hserved.setStatus id fun d hd _ => hserved id d old hd hold ?_
    rcases hswap with ⟨rfl, -⟩ | ⟨rfl, -⟩ <;> decide
  | @terminal id d _ new _ _ hterminal =>
    refine hserved.of_others id (fun _ _ => rfl) (fun t ht => if_neg ht) (fun t ht => if_neg ht)
      (fun _ h _ => h) (fun _ _ => rfl) fun _ st _ hst hactive => ?_
    have hset : some new = some st := (if_pos rfl).symm.trans hst
    rw [← Option.some.inj hset] at hactive
    exact absurd hactive (not_active_of_terminal hterminal)
  | join => exact hserved
  | drop _ => exact hserved.drop _ _ _ _
  | forget hentry hended =>
    exact hserved.eraseFailing hentry fun st hst => not_active_of_terminal (hended st hst)
  | @fail i id reason old status hentry _ _ =>
    have hterminal := h.ending _ (List.mem_of_getElem? hentry)
    refine Served.eraseFailing (σ := σ.withControl (σ.control.setStatus id status))
      (hserved.setStatus id fun _ _ hactive => ?_) hentry fun st hst => ?_
    · exact absurd hactive (not_active_of_terminal hterminal)
    · have hset : some status = some st := (if_pos rfl).symm.trans hst
      rw [← Option.some.inj hset]
      exact not_active_of_terminal hterminal

/-- A late start breaks the service: the guard is exact. -/
theorem SlotStep.startInTime (hserved : Served σ') (hstep : SlotStep capacity σ label σ') :
    StartInTime σ label := by
  cases hstep with
  | @sent id d e hphase hhome hup =>
    intro d' st hd' _ hst hactive
    rcases hserved id d' st hd' hst hactive with hmapped | hfailing | ⟨-, hdone⟩
    · exact Or.inl hmapped
    · exact Or.inr hfailing
    · exact absurd (if_pos rfl) hdone
  | @unsent id d e hphase hhome hdown =>
    intro d' st hd' hup _ _
    have heq : some (d', "local_worker") = some (d, e) := hd'.symm.trans hhome
    have hd : d' = d := congrArg Prod.fst (Option.some.inj heq)
    rw [hd, hdown] at hup
    cases hup
  | _ => trivial

/-! ## A task nobody attends to -/

namespace Slots

/-- A task in the state a step found it in. -/
structure SameTask (σ σ' : Slots) (id : String) : Prop where
  home : σ'.home id = σ.home id
  device : σ'.control.device id = σ.control.device id
  phase : σ'.control.phase id = σ.control.phase id
  failing : ∀ entry ∈ σ'.control.failing, entry.1 = id → entry ∈ σ.control.failing
  active : ∀ status, σ.control.status id = some status → IsActive status →
    ∃ status', σ'.control.status id = some status' ∧ IsActive status'

theorem SameTask.of_status {id : String} (home : σ'.home id = σ.home id)
    (device : σ'.control.device id = σ.control.device id)
    (phase : σ'.control.phase id = σ.control.phase id)
    (failing : ∀ entry ∈ σ'.control.failing, entry.1 = id → entry ∈ σ.control.failing)
    (status : σ'.control.status id = σ.control.status id) : SameTask σ σ' id :=
  ⟨home, device, phase, failing, fun st hst hactive => ⟨st, status.trans hst, hactive⟩⟩

theorem SameTask.attended {id : String} (h : SameTask σ σ' id) (hatt : σ'.Attended id) :
    σ.Attended id :=
  hatt.mono h.device.symm h.failing h.phase.symm

end Slots

/-- **A task nobody attends to is left alone.** Every step of the hub is about a task that is
mapped, left to be failed, or still being created; an approval may be asked of any, and leaves it
active. -/
theorem SlotStep.sameTask (h : Accounts capacity σ) (hstep : SlotStep capacity σ label σ')
    {id : String} (hstored : ∃ status, σ.control.status id = some status)
    (hid : ¬ σ.Attended id) : SameTask σ σ' id := by
  have hphase : ∀ {t}, σ.control.phase t ≠ .absent → σ.control.phase t ≠ .done → id ≠ t := by
    intro t habsent hdone he
    exact hid (he ▸ attended_of_phase habsent hdone)
  have hdevice : ∀ {t d}, σ.control.device t = some d → id ≠ t := by
    intro t d ht he
    exact hid (he ▸ Or.inl ⟨d, ht⟩)
  cases hstep with
  | idle | join => exact .of_status rfl rfl rfl (fun _ h _ => h) rfl
  | @create t home _ hnone =>
    have hne : id ≠ t := by
      rintro rfl
      obtain ⟨status, hst⟩ := hstored
      rw [hnone] at hst
      cases hst
    exact .of_status (if_neg hne) rfl (if_neg hne) (fun _ h _ => h) (if_neg hne)
  | @claim t d _ hcreated _ _ _ =>
    have hne : id ≠ t := hphase (by rw [hcreated]; decide) (by rw [hcreated]; decide)
    exact .of_status rfl (if_neg hne) (if_neg hne) (fun _ h _ => h) rfl
  | @reject t ht | @sent t _ _ ht _ _ | @unsent t _ _ ht _ _ | @unpublished t ht =>
    have hne : id ≠ t := hphase (by rw [ht]; decide) (by rw [ht]; decide)
    exact .of_status rfl rfl (if_neg hne) (fun _ h _ => h) rfl
  | @running t _ ht _ | @failed t _ ht _ =>
    have hne : id ≠ t := hphase (by rw [ht]; decide) (by rw [ht]; decide)
    exact .of_status rfl rfl (if_neg hne) (fun _ h _ => h) (if_neg hne)
  | @released t _ _ ht _ =>
    have hne : id ≠ t := hphase (by rw [ht]; decide) (by rw [ht]; decide)
    exact .of_status rfl (if_neg hne) (if_neg hne) (fun _ h _ => h) rfl
  | @cancel t d _ ht _ _ =>
    exact .of_status rfl rfl rfl (fun _ h _ => h) (if_neg (hdevice ht))
  | @terminal t d _ _ ht _ _ =>
    exact .of_status rfl (if_neg (hdevice ht)) rfl (fun _ h _ => h) (if_neg (hdevice ht))
  | @approval t old new hold hswap =>
    refine ⟨rfl, rfl, rfl, fun _ h _ => h, fun status hst hactive => ?_⟩
    by_cases he : id = t
    · refine ⟨new, if_pos he, ?_⟩
      rcases hswap with ⟨-, rfl⟩ | ⟨-, rfl⟩ <;> decide
    · exact ⟨status, (if_neg he).trans hst, hactive⟩
  | @drop d reason status up _ =>
    have hmem : id ∉ (σ.control.active d).getD [] := by
      intro hmem
      exact hid (Or.inl ⟨d, h.agree.mem_getD.mp hmem⟩)
    refine .of_status rfl (if_neg hmem) rfl (fun entry hentry he => ?_) rfl
    rcases List.mem_append.mp hentry with hold | hnew
    · exact hold
    · obtain ⟨t, ht, rfl⟩ := List.mem_map.mp hnew
      exact absurd (he ▸ ht) hmem
  | forget _ _ =>
    exact .of_status rfl rfl rfl (fun _ h _ => List.mem_of_mem_eraseIdx h) rfl
  | @fail i t reason old status hentry _ _ =>
    have hne : id ≠ t := by
      rintro rfl
      exact hid (Or.inr (Or.inl ⟨_, List.mem_of_getElem? hentry, rfl⟩))
    exact .of_status rfl rfl rfl (fun _ h _ => List.mem_of_mem_eraseIdx h) (if_neg hne)

/-- A service once broken stays broken. -/
theorem SlotStep.served_before (h : Accounts capacity σ) (hstep : SlotStep capacity σ label σ')
    (hserved : Served σ') : Served σ := by
  intro id d status hhome hst hactive
  by_contra hid
  have hsame := hstep.sameTask h ⟨status, hst⟩ hid
  obtain ⟨status', hst', hactive'⟩ := hsame.active status hst hactive
  exact hid (hsame.attended (hserved id d status' (hsame.home.trans hhome) hst' hactive'))

end ThreadForge

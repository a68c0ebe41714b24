import ThreadForge.Hub.System

/-!
# Slot accounting over whole runs

Every run of a freshly started hub, under any interleaving: the two maps of the hub are one
assignment of at most `worker_max_concurrent_tasks` tasks to each device. Once no operation is in
progress, every active local task is mapped to a device with a connection exactly when no
`task.start` was sent for a task whose slot had been taken away.

## Main results

* `HubState.slots_accounted_iff` — the two maps, and the condition under which nobody is stranded.
* `HubState.task_stranded` — a disconnect, and a new connection, between the claim of a slot and the
  `RUNNING` write leave a task running that no Worker will end.
-/

namespace ThreadForge

open Transition

namespace HubState

/-- Every call has returned: `create_task`, `connect`, `disconnect`, `revoke` and the handlers. -/
structure Quiet (s : HubState) : Prop where
  dispatched : ∀ id, s.dispatching id = .absent ∨ s.dispatching id = .done
  failed : s.failing = []
  handled : ∀ connectionId, s.handler connectionId = []

/-- `reconcile` left no local task of an earlier life active. -/
def Recovered (s : HubState) : Prop :=
  ∀ id task, s.tasks id = some task → task.executionEnvironment = "local_worker" →
    ¬ Slots.IsActive task.status

/-- Every active local task is mapped to a device that has a connection. -/
def AllServed (s : HubState) : Prop :=
  ∀ id task, s.tasks id = some task → task.executionEnvironment = "local_worker" →
    Slots.IsActive task.status →
      ∃ d connection, s.deviceByTask id = some d ∧ s.connections d = some connection

/-- Every `task.start` sent finds its task mapped, or left to be failed, or not active. -/
def StartsInTime (ms : List (Move HubState HubAction)) : Prop :=
  ∀ m ∈ ms, m.pre.slots.StartInTime m.act.slotLabel

variable {env : HubEnv} {s t : HubState}

/-! ## The start of a run -/

theorem Started.accounts (h : s.Started) :
    Slots.Accounts env.maxConcurrentTasks s.slots where
  agree := by
    have hdevice : s.slots.control.device = fun _ => none := funext h.unmapped
    have hactive : s.slots.control.active = fun _ => none := funext h.inactive
    rw [hdevice, hactive]
    exact .empty
  connected id d hd := by
    rw [show s.slots.control.device id = none from h.unmapped id] at hd
    cases hd
  placed id d hd := by
    rw [show s.slots.control.device id = none from h.unmapped id] at hd
    cases hd
  claimed id d hd := by
    rw [show s.slots.control.device id = none from h.unmapped id] at hd
    cases hd
  ending entry hentry := by
    rw [show s.slots.control.failing = [] from h.idle] at hentry
    cases hentry

/-- A stored task, as the accounting sees it. -/
theorem task_of_slots {id : String} {d e : String} {status : TaskStatus}
    (hhome : s.slots.home id = some (d, e)) (hstatus : s.slots.control.status id = some status) :
    ∃ task, s.tasks id = some task ∧ task.executionEnvironment = e ∧ task.status = status := by
  obtain ⟨task, htask, hhome⟩ := Option.map_eq_some_iff.mp hhome
  obtain ⟨task', htask', hstatus⟩ := Option.map_eq_some_iff.mp hstatus
  rw [htask] at htask'
  rw [← Option.some.inj htask'] at hstatus
  exact ⟨task, htask, congrArg Prod.snd hhome, hstatus⟩

theorem Recovered.served (h : s.Recovered) : s.slots.Served := by
  intro id d status hhome hstatus hactive
  obtain ⟨task, htask, hlocal, hst⟩ := task_of_slots hhome hstatus
  rw [← hst] at hactive
  exact absurd hactive (h id task htask hlocal)

/-! ## The end of a run -/

/-- In a quiet hub, an attended task is one that is mapped. -/
theorem Quiet.allServed_iff (h : t.Quiet)
    (haccounts : Slots.Accounts env.maxConcurrentTasks t.slots) :
    t.AllServed ↔ t.slots.Served := by
  constructor
  · intro hserved id d status hhome hstatus hactive
    obtain ⟨task, htask, hlocal, hst⟩ := task_of_slots hhome hstatus
    rw [← hst] at hactive
    obtain ⟨d', _, hdevice, -⟩ := hserved id task htask hlocal hactive
    exact Or.inl ⟨d', hdevice⟩
  · intro hserved id task htask hlocal hactive
    have hhome := slots_home htask
    rw [hlocal] at hhome
    rcases hserved id _ _ hhome (control_status htask) hactive with
      ⟨d, hdevice⟩ | ⟨entry, hentry, -⟩ | ⟨habsent, hdone⟩
    · have hup : (t.connections d).isSome = true := haccounts.connected id d hdevice
      obtain ⟨connection, hconnection⟩ := Option.isSome_iff_exists.mp hup
      exact ⟨d, connection, hdevice, hconnection⟩
    · rw [show t.slots.control.failing = [] from h.failed] at hentry
      cases hentry
    · rcases h.dispatched id with hphase | hphase
      · exact absurd hphase habsent
      · exact absurd hphase hdone

/-- The accounting holds in every state of every run. -/
theorem accounts_of_run {ms : List (Move HubState HubAction)} (hs : s.Started)
    (h : Run (HubStep env) s ms t) : Slots.Accounts env.maxConcurrentTasks t.slots := by
  refine h.preserves (P := fun u => Slots.Accounts env.maxConcurrentTasks u.slots)
    (fun m hm haccounts => ?_) hs.accounts
  exact (next_slots (h.step_of_mem hm)).accounts haccounts

/--
**Slot accounting.**

Every run of a freshly started and reconciled hub, with any number of tasks, devices and
connections, reaches states where the two maps are one assignment. In a quiet state every active
local task is mapped to a device with a connection if and only if each `task.start` of the run was
sent in time.
-/
theorem slots_accounted_iff {ms : List (Move HubState HubAction)} (hs : s.Started)
    (hrecovered : s.Recovered) (h : Run (HubStep env) s ms t) :
    SlotMaps.Agree env.maxConcurrentTasks t.deviceByTask t.activeByDevice ∧
      (t.Quiet → (t.AllServed ↔ StartsInTime ms)) := by
  have hkeep : ∀ (u : HubState) (action : HubAction) (u' : HubState),
      Slots.Accounts env.maxConcurrentTasks u.slots → HubStep env u action u' →
        Slots.Accounts env.maxConcurrentTasks u'.slots :=
    fun u action u' haccounts hstep => (next_slots hstep).accounts haccounts
  have haccounts := accounts_of_run hs h
  refine ⟨haccounts.agree, fun hquiet => ?_⟩
  rw [hquiet.allServed_iff haccounts]
  refine h.law_iff_of_exact (fun u => Slots.Accounts env.maxConcurrentTasks u.slots)
    (fun u => u.slots.Served) (fun u action => u.slots.StartInTime action.slotLabel)
    (fun u => u.slots.Served) hkeep ?_ (fun _ hserved => hserved) ?_ hs.accounts hrecovered.served
  · intro u action u' hu hserved hok hstep
    exact (next_slots hstep).served hu hserved hok
  · intro u action u' hu hstep hserved
    exact ⟨(next_slots hstep).startInTime hserved, (next_slots hstep).served_before hu hserved⟩

/-! ## Two runs of one task -/

theorem hub_recovered : OneTask.hub.Recovered := by
  intro id task htask
  cases htask

end HubState

namespace OneTask

/-- The connection of the Worker once it is back. -/
def reconnection : WorkerConnection := { connection with connectionId := 2 }

/-- The Worker is lost after the claim, the task is failed, and the Worker is back before `dispatch`
goes on: its `RUNNING` write brings the task back, and its start is sent. -/
def strand : List HubAction :=
  claim ++ [.disconnect connection, .failTask 0 "t1", .connect reconnection,
    .writeRunning "task_1" "t2", .sendStart "task_1" true]

end OneTask

namespace HubState

/-- A task that runs to its end: the accounting holds, and nobody is stranded. -/
theorem slots_accounted_complete :
    ∃ ms t, Run (HubStep OneTask.env) OneTask.hub ms t ∧ ms ≠ [] ∧
      SlotMaps.Agree OneTask.env.maxConcurrentTasks t.deviceByTask t.activeByDevice ∧
      (t.Quiet → (t.AllServed ↔ StartsInTime ms)) := by
  obtain ⟨t, ht⟩ : ∃ t, execute (next OneTask.env) OneTask.hub OneTask.complete = some t :=
    ⟨_, rfl⟩
  have hrun : Run (HubStep OneTask.env) OneTask.hub _ t := Run.of_execute (fun _ _ _ h => h) ht
  exact ⟨_, t, hrun, by decide, slots_accounted_iff OneTask.started hub_recovered hrun⟩

/-- **A task can be left running with nobody to end it.** -/
theorem task_stranded :
    ∃ s ms t, s.Started ∧ s.Recovered ∧ Run (HubStep OneTask.env) s ms t ∧ t.Quiet ∧
      ¬ t.AllServed := by
  obtain ⟨t, ht⟩ : ∃ t, execute (next OneTask.env) OneTask.hub OneTask.strand = some t :=
    ⟨_, rfl⟩
  refine ⟨OneTask.hub, _, t, OneTask.started, hub_recovered,
    Run.of_execute (fun _ _ _ h => h) ht, ?_, ?_⟩
  · rw [← Option.some.inj ht]
    refine ⟨fun id => ?_, rfl, fun _ => rfl⟩
    by_cases hid : id = "task_1"
    · subst hid
      exact Or.inr rfl
    · refine Or.inl ?_
      show Function.update _ "task_1" _ id = _
      rw [Function.update_of_ne hid]
      show Function.update _ "task_1" _ id = _
      rw [Function.update_of_ne hid]
      show Function.update _ "task_1" _ id = _
      rw [Function.update_of_ne hid]
      show Function.update _ "task_1" _ id = _
      rw [Function.update_of_ne hid]
      rfl
  · intro hserved
    rw [← Option.some.inj ht] at hserved
    obtain ⟨d, _, hdevice, -⟩ := hserved "task_1" _ rfl rfl (by decide)
    cases hdevice

end HubState

end ThreadForge

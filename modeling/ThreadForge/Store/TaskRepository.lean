import ThreadForge.Hub.TaskEdits
import ThreadForge.Lib.ReadModifyWrite
import Mathlib.Data.List.Induction

/-!
# `SqliteTaskRepository.update` under concurrency

The store serialises each statement on its lock: reading a payload takes it, and the write
transaction takes it again. `update` holds nothing between the two, so another call's write can
land there and is then overwritten by a record computed from the older payload.

## Layers

The bottom definitions follow the repository: a row is the task its payload decodes to, `compute`
is what `update` does between the two lock regions, `writeTask` is the upsert. The concurrent
system is the read–modify–write machine over them.
-/

namespace ThreadForge

open Transition ReadModifyWrite

/-! ## One call of `update` -/

/-- What `update` can raise before it writes. -/
inductive UpdateError
  | recordNotFound
  | recordCorrupted
  | staleGeneration
  | callback (e : PyError)
  deriving DecidableEq, Repr

/-- The rows of the `tasks` table, by `task_id`. -/
abbrev TaskTable := String → Option Task

/-- The arguments of one `update` call, with the clock reading it stamps the record with. -/
structure UpdateCall where
  fn : Task → Except PyError Task
  expectedGeneration : Option Int := none
  now : String

section Repository

variable (canonicalOwnerId : String → Option String)

/-- `_task_from_payload`: only the owner is checked, and respelled. -/
def taskFromPayload (payload : Task) : Except UpdateError Task :=
  match canonicalOwnerId payload.ownerId with
  | some ownerId => .ok { payload with ownerId := ownerId }
  | none => .error .recordCorrupted

/-- What `update` does with the payload it read, up to its write. -/
def UpdateCall.compute (call : UpdateCall) (row : Option Task) : Except UpdateError Task := do
  let payload ← match row with
    | some payload => .ok payload
    | none => .error .recordNotFound
  let task ← taskFromPayload canonicalOwnerId payload
  if call.expectedGeneration.any (fun expected => expected != task.generation) then
    .error .staleGeneration
  else
    match call.fn task with
    | .ok updated => .ok { updated with updatedAt := call.now }
    | .error e => .error (.callback e)

/-- `_write_task`: the upsert replaces every column of the row. -/
def writeTask (table : TaskTable) (task : Task) : TaskTable :=
  Function.update table task.taskId (some task)

variable {ι : Type*} (calls : ι → UpdateCall) (taskId : String)

/-- What call `i` writes when it read `row`: nothing when it raised. -/
def commitUpdate (i : ι) (row : Option Task) (table : TaskTable) : TaskTable :=
  match (calls i).compute canonicalOwnerId row with
  | .ok updated => writeTask table updated
  | .error _ => table

/-- A step of the concurrent calls on one task: a payload read, or a write transaction. -/
abbrev UpdateStep [DecidableEq ι] :
    State ι TaskTable (Option Task) → Action ι → State ι TaskTable (Option Task) → Prop :=
  Step (fun table => table taskId) (commitUpdate canonicalOwnerId calls)

/-- The table after the calls of `order`, each run alone. -/
abbrev serialUpdates (order : List ι) (table : TaskTable) : TaskTable :=
  serial (fun table => table taskId) (commitUpdate canonicalOwnerId calls) order table

/-- The stored task is what the finished calls give in some serial order. -/
def SerialOutcome (table : TaskTable) (t : State ι TaskTable (Option Task)) : Prop :=
  ∃ order : List ι, order.Nodup ∧ (∀ i, i ∈ order ↔ t.phase i = .finished) ∧
    t.cell taskId = serialUpdates canonicalOwnerId calls taskId order table taskId

/-- The call of `WorkerHub.cancel`. -/
def UpdateCall.IsCancel (call : UpdateCall) : Prop :=
  call.expectedGeneration = none ∧ ∃ now, call.fn = fun task => .ok (setCancelRequested now task)

/-- A call of `_handle_event` or `_flush_stream_events`. -/
def UpdateCall.IsAudit (txt : PyText) (call : UpdateCall) : Prop :=
  (∃ now event data, call.fn = appendRunIndex txt now event data) ∨
    ∃ now pending, call.fn = fun task => .ok (appendPendingStreamEvents txt now pending task)

/-- A row the repository can read back: its owner is spelled canonically. -/
def Readable (row : Option Task) : Prop :=
  ∃ task, row = some task ∧ task.taskId = taskId ∧
    canonicalOwnerId task.ownerId = some task.ownerId

/-- Where one call cancels a readable task and the others only append to the audit list, a
finished cancel is what the stored status says. -/
def CancelSurvives (txt : PyText) (table : TaskTable) (t : State ι TaskTable (Option Task)) :
    Prop :=
  Readable canonicalOwnerId taskId (table taskId) →
    ∀ i, (calls i).IsCancel → (∀ j, j ≠ i → (calls j).IsAudit txt) → t.phase i = .finished →
      ∃ task, t.cell taskId = some task ∧ task.status = .cancelRequested

end Repository

variable {canonicalOwnerId : String → Option String} {txt : PyText}

/-! ## What a call does to the stored row -/

/-- Reading a record back respells its owner and nothing else. -/
theorem taskFromPayload_ok {payload task : Task}
    (h : taskFromPayload canonicalOwnerId payload = .ok task) :
    ∃ ownerId, canonicalOwnerId payload.ownerId = some ownerId ∧
      task = { payload with ownerId := ownerId } := by
  rw [taskFromPayload] at h
  cases howner : canonicalOwnerId payload.ownerId with
  | none => rw [howner] at h; cases h
  | some ownerId => rw [howner] at h; exact ⟨ownerId, rfl, (Except.ok.inj h).symm⟩

/-- A successful computation read a row, decoded it and applied the callback. -/
theorem UpdateCall.compute_ok {call : UpdateCall} {row : Option Task} {updated : Task}
    (h : call.compute canonicalOwnerId row = .ok updated) :
    ∃ payload ownerId result, row = some payload ∧
      canonicalOwnerId payload.ownerId = some ownerId ∧
      call.fn { payload with ownerId := ownerId } = .ok result ∧
      updated = { result with updatedAt := call.now } := by
  cases row with
  | none => cases h
  | some payload =>
    cases htask : taskFromPayload canonicalOwnerId payload with
    | error e =>
      simp only [compute, htask, bind, Except.bind] at h
      cases h
    | ok task =>
      obtain ⟨ownerId, howner, rfl⟩ := taskFromPayload_ok htask
      simp only [compute, htask, bind, Except.bind] at h
      split at h
      · cases h
      · split at h
        · next result hfn =>
          exact ⟨payload, ownerId, result, rfl, howner, hfn, (Except.ok.inj h).symm⟩
        · cases h

section Rows

variable {ι : Type*} {calls : ι → UpdateCall} {taskId : String}

/-- An audit call keeps a readable row readable, with its status. -/
theorem commitUpdate_audit {i : ι} (haudit : (calls i).IsAudit txt) {table : TaskTable} {task : Task}
    (hrow : table taskId = some task) (hid : task.taskId = taskId)
    (howner : canonicalOwnerId task.ownerId = some task.ownerId) :
    ∃ task', commitUpdate canonicalOwnerId calls i (table taskId) table taskId = some task' ∧
      task'.taskId = taskId ∧ canonicalOwnerId task'.ownerId = some task'.ownerId ∧
      task'.status = task.status := by
  rw [commitUpdate]
  cases hcompute : (calls i).compute canonicalOwnerId (table taskId) with
  | error e => exact ⟨task, hrow, hid, howner, rfl⟩
  | ok updated =>
    obtain ⟨payload, ownerId, result, hpayload, hcanon, hfn, rfl⟩ := UpdateCall.compute_ok hcompute
    rw [hrow, Option.some.injEq] at hpayload
    subst hpayload
    rw [howner, Option.some.injEq] at hcanon
    subst hcanon
    have hframe : AuditFrame task result := by
      rcases haudit with ⟨now, event, data, hf⟩ | ⟨now, pending, hf⟩
      · rw [hf] at hfn
        exact appendRunIndex_frame hfn
      · rw [hf] at hfn
        rw [← Except.ok.inj hfn]
        exact appendPendingStreamEvents_frame now pending task
    have hid' : result.taskId = taskId := hframe.taskId.trans hid
    refine ⟨{ result with updatedAt := (calls i).now }, ?_, hid', ?_, hframe.status⟩
    · simp only [writeTask, hid', Function.update_self]
    · rw [hframe.ownerId]
      exact howner

/-- A cancel call leaves a readable row readable and marked `CANCEL_REQUESTED`. -/
theorem commitUpdate_cancel {i : ι} (hcancel : (calls i).IsCancel) {table : TaskTable} {task : Task}
    (hrow : table taskId = some task) (hid : task.taskId = taskId)
    (howner : canonicalOwnerId task.ownerId = some task.ownerId) :
    ∃ task', commitUpdate canonicalOwnerId calls i (table taskId) table taskId = some task' ∧
      task'.taskId = taskId ∧ canonicalOwnerId task'.ownerId = some task'.ownerId ∧
      task'.status = .cancelRequested := by
  obtain ⟨hgeneration, now, hfn⟩ := hcancel
  refine ⟨{ setCancelRequested now task with updatedAt := (calls i).now }, ?_, hid, howner, rfl⟩
  rw [commitUpdate, hrow]
  simp [UpdateCall.compute, taskFromPayload, howner, hgeneration, hfn, bind, Except.bind,
    writeTask, setCancelRequested, hid]

/-- After the calls of a serial order of audits and one cancel, the row is readable, and it says
`CANCEL_REQUESTED` when the cancel is among them. -/
theorem serialUpdates_cancel {i : ι} (hcancel : (calls i).IsCancel)
    (haudit : ∀ j, j ≠ i → (calls j).IsAudit txt) {table : TaskTable}
    (hrow : Readable canonicalOwnerId taskId (table taskId)) (order : List ι) :
    ∃ task, serialUpdates canonicalOwnerId calls taskId order table taskId = some task ∧
      task.taskId = taskId ∧ canonicalOwnerId task.ownerId = some task.ownerId ∧
      (i ∈ order → task.status = .cancelRequested) := by
  -- on the order, from its end: an audit keeps the status the earlier calls left
  induction order using List.reverseRecOn with
  | nil =>
    obtain ⟨task, hsome, hid, howner⟩ := hrow
    exact ⟨task, hsome, hid, howner, fun hi => by simp at hi⟩
  | append_singleton order j ih =>
    obtain ⟨task, hsome, hid, howner, hstatus⟩ := ih
    rw [serialUpdates, serial_snoc]
    by_cases hj : j = i
    · subst hj
      obtain ⟨task', h₁, h₂, h₃, h₄⟩ := commitUpdate_cancel hcancel hsome hid howner
      exact ⟨task', h₁, h₂, h₃, fun _ => h₄⟩
    · obtain ⟨task', h₁, h₂, h₃, h₄⟩ := commitUpdate_audit (haudit j hj) hsome hid howner
      refine ⟨task', h₁, h₂, h₃, fun hi => ?_⟩
      rcases List.mem_append.mp hi with hi | hi
      · rw [h₄]
        exact hstatus hi
      · rw [List.mem_singleton] at hi
        exact absurd hi.symm hj

end Rows

/-! ## The concurrent calls -/

section Concurrent

variable {ι : Type*} [DecidableEq ι] {calls : ι → UpdateCall} {taskId : String}

/--
**Updates whose payload is still current are serialisable.**

The condition is on the state before each write: the row still is the one the call read. Then the
stored task is the finished calls' in the order of their writes, in every state the run reaches,
and a finished cancel among audit appends is still the stored status.
-/
theorem update_serial_of_current (table : TaskTable)
    {ms : List (Move (State ι TaskTable (Option Task)) (Action ι))}
    {t : State ι TaskTable (Option Task)}
    (h : Run (UpdateStep canonicalOwnerId calls taskId) (initial table) ms t)
    (hcurrent : ∀ m ∈ ms, Fresh (fun table => table taskId) m.pre m.act) :
    SerialOutcome canonicalOwnerId calls taskId table t ∧
      CancelSurvives canonicalOwnerId calls taskId txt table t := by
  obtain ⟨hnodup, hmem⟩ := Run.stored_spec h
  have hcell := serial_of_fresh h hcurrent
  refine ⟨⟨stored ms, hnodup, hmem, by rw [hcell]⟩, ?_⟩
  intro hrow i hcancel haudit hfinished
  obtain ⟨task, hsome, -, -, hstatus⟩ :=
    serialUpdates_cancel hcancel haudit hrow (stored ms)
  exact ⟨task, by rw [hcell]; exact hsome, hstatus ((hmem i).mpr hfinished)⟩

end Concurrent

/-! ## Two callers

The API thread that cancels and the thread that appends a Worker event, on one running task. Where
they do not overlap the cancel stays; where the event's read comes before the cancel and its write
after it, the cancel is gone.
-/

namespace LostUpdate

/-- The API thread that cancels, and the thread that appends a Worker event. -/
inductive Caller
  | cancel
  | event
  deriving DecidableEq

/-- A running task of one owner. -/
def task : Task where
  taskId := "task_1"
  sessionId := "ses_1"
  workspaceId := "ws_1"
  ownerId := "owner"
  runId := "run_1"
  input := "fix the build"
  executionEnvironment := "local_worker"
  status := .running
  createdAt := "t0"
  updatedAt := "t0"

/-- `{"type": "tool.started"}`. -/
def event : PyDict := [("type", .str "tool.started")]

def calls : Caller → UpdateCall
  | .cancel => { fn := fun task => .ok (setCancelRequested "t1" task), now := "t1" }
  | .event => { fn := appendRunIndex .ascii "t2" event [], now := "t2" }

def table : TaskTable := Function.update (fun _ => none) "task_1" (some task)

/-- The event thread reads, cancel runs entirely, and the event thread writes its old record. -/
def schedule : List (Action Caller) :=
  [.look .event, .look .cancel, .store .cancel, .store .event]

theorem readable : Readable some "task_1" (table "task_1") := ⟨task, rfl, rfl, rfl⟩

/-- The same calls, one after the other. -/
def apart : List (Action Caller) := [.look .cancel, .store .cancel, .look .event, .store .event]

theorem isCancel_cancel : (calls .cancel).IsCancel := ⟨rfl, "t1", rfl⟩

theorem audits_besides_cancel (j : Caller) (hj : j ≠ .cancel) : (calls j).IsAudit .ascii := by
  cases j with
  | cancel => exact absurd rfl hj
  | event => exact Or.inl ⟨"t2", event, [], rfl⟩

end LostUpdate

/-- One after the other, the two calls leave the cancel standing. -/
theorem update_serial_of_current_apart :
    ∃ ms t, Run (UpdateStep some LostUpdate.calls "task_1") (initial LostUpdate.table) ms t ∧
      (∀ i, t.phase i = .finished) ∧
      SerialOutcome some LostUpdate.calls "task_1" LostUpdate.table t ∧
      CancelSurvives some LostUpdate.calls "task_1" .ascii LostUpdate.table t := by
  obtain ⟨t, ht⟩ : ∃ t, execute (next (fun table => table "task_1")
      (commitUpdate some LostUpdate.calls)) (initial LostUpdate.table) LostUpdate.apart = some t :=
    ⟨_, rfl⟩
  have hrun := Run.of_execute (fun _ _ _ => Step.of_next) ht
  refine ⟨_, t, hrun, ?_, update_serial_of_current LostUpdate.table hrun ?_⟩
  · rw [← Option.some.inj ht]
    rintro (_ | _) <;> rfl
  · exact List.forall_mem_cons.mpr ⟨trivial, List.forall_mem_cons.mpr ⟨rfl,
      List.forall_mem_cons.mpr ⟨trivial, List.forall_mem_cons.mpr ⟨rfl, List.forall_mem_nil _⟩⟩⟩⟩

/--
**A cancel can be lost.** Both calls finish, the stored task is still `RUNNING`, and neither serial
order gives that: the event thread wrote a record it had computed before the cancel.
-/
theorem update_loses_cancel :
    ∃ ms t, Run (UpdateStep some LostUpdate.calls "task_1") (initial LostUpdate.table) ms t ∧
      (∀ i, t.phase i = .finished) ∧
      ¬ SerialOutcome some LostUpdate.calls "task_1" LostUpdate.table t ∧
      ¬ CancelSurvives some LostUpdate.calls "task_1" .ascii LostUpdate.table t := by
  obtain ⟨t, ht⟩ : ∃ t, execute (next (fun table => table "task_1")
      (commitUpdate some LostUpdate.calls)) (initial LostUpdate.table) LostUpdate.schedule = some t :=
    ⟨_, rfl⟩
  have hrun := Run.of_execute (fun _ _ _ => Step.of_next) ht
  have hfinished : ∀ i, t.phase i = .finished := by
    rw [← Option.some.inj ht]
    rintro (_ | _) <;> rfl
  have hstatus : (t.cell "task_1").map Task.status = some .running := by
    rw [← Option.some.inj ht]
    rfl
  refine ⟨_, t, hrun, hfinished, ?_, ?_⟩
  · rintro ⟨order, -, hmem, hcell⟩
    obtain ⟨task, hsome, -, -, hcancelled⟩ :=
      serialUpdates_cancel LostUpdate.isCancel_cancel LostUpdate.audits_besides_cancel
        LostUpdate.readable order
    rw [hcell, hsome, Option.map_some, hcancelled ((hmem .cancel).mpr (hfinished .cancel))]
      at hstatus
    cases hstatus
  · intro hsurvives
    obtain ⟨task, hsome, hcancelled⟩ := hsurvives LostUpdate.readable .cancel LostUpdate.isCancel_cancel
      LostUpdate.audits_besides_cancel (hfinished .cancel)
    rw [hsome, Option.map_some, hcancelled] at hstatus
    cases hstatus

end ThreadForge

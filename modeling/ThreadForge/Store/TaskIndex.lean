import ThreadForge.Lib.Table
import ThreadForge.Store.TaskRepository
import Mathlib.Data.List.Sort

/-!
# The tasks and the index of their runs

`SqliteTaskRepository` over two tables: every write of a task also upserts a row of `runs`, by
`run_id`, in the same transaction. A row that is there keeps all but its status, its clock and its
payload, and deleting a task leaves the row.

## Main results

* `TaskIndex.mirrors_iff` — when the rows of `runs` are the runs of the stored tasks.

## What is a parameter

`canonicalOwnerId` is `canonical_owner_id`: the spelling of a UUID, which is never empty.
-/

namespace ThreadForge

open Transition

/-! ## Rows -/

/-- What `_upsert_run` writes about a task, in columns and as the payload. -/
structure RunRecord where
  runId : String
  taskId : String
  sessionId : String
  workspaceId : String
  ownerId : String
  status : TaskStatus
  createdAt : String
  updatedAt : String
  deriving DecidableEq, Repr

/-- A row of `runs`. -/
structure RunRow extends RunRecord where
  payload : RunRecord
  deriving DecidableEq, Repr

def runRecord (task : Task) : RunRecord where
  runId := task.runId
  taskId := task.taskId
  sessionId := task.sessionId
  workspaceId := task.workspaceId
  ownerId := task.ownerId
  status := task.status
  createdAt := task.createdAt
  updatedAt := task.updatedAt

def newRun (task : Task) : RunRow := ⟨runRecord task, runRecord task⟩

def runKey (row : RunRow) : String := row.runId

/-- `ON CONFLICT(run_id) DO UPDATE SET …` of `_upsert_run`. -/
def refreshRun (task : Task) (row : RunRow) : RunRow :=
  { row with status := task.status, updatedAt := task.updatedAt, payload := runRecord task }

theorem runKey_refreshRun (task : Task) (row : RunRow) :
    runKey (refreshRun task row) = runKey row := rfl

/-- `_upsert_run`. -/
def upsertRun (runs : Table runKey) (task : Task) : Table runKey :=
  if task.runId = "" then runs
  else runs.upsert (newRun task) (refreshRun task) fun row hkey =>
    (runKey_refreshRun task row).trans hkey

/-- The two tables. -/
structure TaskIndex where
  tasks : Table Task.taskId
  runs : Table runKey
  deriving DecidableEq

/-- What a call raises. -/
inductive TaskIndexError
  | collision (taskId : String)
  | update (e : UpdateError)
  | activeTaskExists (taskId : String)
  | valueError
  deriving DecidableEq, Repr

/-- `canonical_owner_id`. -/
structure OwnerIds where
  canonicalOwnerId : String → Option String
  canonical_ne_empty : ∀ value ownerId, canonicalOwnerId value = some ownerId → ownerId ≠ ""

theorem given_ne_empty (value ownerId : String)
    (h : (if value = "" then none else some value) = some ownerId) : ownerId ≠ "" := by
  split at h
  · cases h
  · next hne => rwa [← Option.some.inj h]

namespace TaskIndex

/-! ## Calls -/

/-- `create`. -/
def create (s : TaskIndex) (task : Task) : Except TaskIndexError TaskIndex :=
  if h : s.tasks.find? task.taskId = none then
    .ok { tasks := s.tasks.insertNew task h, runs := upsertRun s.runs task }
  else .error (.collision task.taskId)

/-- `_write_task`. -/
def writeTask (s : TaskIndex) (task : Task) : TaskIndex where
  tasks := s.tasks.upsert task (fun _ => task) fun _ _ => rfl
  runs := upsertRun s.runs task

/-- `update`. -/
def update (ids : OwnerIds) (s : TaskIndex) (taskId : String) (call : UpdateCall) :
    Except TaskIndexError TaskIndex :=
  match call.compute ids.canonicalOwnerId (s.tasks.find? taskId) with
  | .ok updated => .ok (s.writeTask updated)
  | .error e => .error (.update e)

/-- The loop of `delete_many`: the tasks of the owner, unless one of them is active. -/
def removable (ids : OwnerIds) (s : TaskIndex) (ownerId : String) :
    List String → Except TaskIndexError (List String)
  | [] => .ok []
  | taskId :: rest =>
    match s.tasks.find? taskId with
    | none => s.removable ids ownerId rest
    | some payload =>
      match taskFromPayload ids.canonicalOwnerId payload with
      | .error e => .error (.update e)
      | .ok task =>
        if task.ownerId ≠ ownerId then s.removable ids ownerId rest
        else if !task.status.terminal then .error (.activeTaskExists task.taskId)
        else do
          let removed ← s.removable ids ownerId rest
          .ok (task.taskId :: removed)

/-- The transaction of `delete_many`. -/
def deleteTasks (s : TaskIndex) (removed : List String) : TaskIndex :=
  { s with tasks := removed.foldl Table.delete s.tasks }

/-- `delete_many`. -/
def deleteMany (ids : OwnerIds) (s : TaskIndex) (taskIds : List String) (ownerId : String) :
    Except TaskIndexError TaskIndex :=
  match ids.canonicalOwnerId ownerId with
  | none => .error .valueError
  | some ownerId => do
    let removed ← s.removable ids ownerId taskIds
    .ok (s.deleteTasks removed)

/-- `list_stable`. -/
def listStable (s : TaskIndex) : List String :=
  (s.tasks.rows.insertionSort fun a b =>
    b.updatedAt < a.updatedAt ∨ (a.updatedAt = b.updatedAt ∧ b.taskId ≤ a.taskId)).map Task.taskId

/-- One turn of the loop of `assign_legacy_owner`. -/
def assignOwner (ids : OwnerIds) (ownerId : String) (s : TaskIndex) (taskId : String) : TaskIndex :=
  match s.tasks.find? taskId with
  | none => s
  | some payload =>
    match taskFromPayload ids.canonicalOwnerId payload with
    | .error _ => s
    | .ok task =>
      if task.ownerId ≠ "" then s
      else s.writeTask { task with ownerId := ownerId, schemaVersion := max task.schemaVersion 2 }

/-- `assign_legacy_owner`. -/
def assignLegacyOwner (ids : OwnerIds) (s : TaskIndex) (ownerId : String) :
    Except TaskIndexError TaskIndex :=
  match ids.canonicalOwnerId ownerId with
  | none => .error .valueError
  | some ownerId => .ok (s.listStable.foldl (assignOwner ids ownerId) s)

end TaskIndex

/-- One call. -/
inductive TaskIndexAction
  | create (task : Task)
  | update (taskId : String) (call : UpdateCall)
  | deleteMany (taskIds : List String) (ownerId : String)
  | assignLegacyOwner (ownerId : String)

/-- The callback keeps the ids of a task. -/
def UpdateCall.KeepsIds (call : UpdateCall) : Prop :=
  ∀ task result, call.fn task = .ok result → result.taskId = task.taskId ∧
    result.runId = task.runId ∧ result.sessionId = task.sessionId ∧
    result.workspaceId = task.workspaceId

namespace TaskIndex

def perform (ids : OwnerIds) (s : TaskIndex) : TaskIndexAction → Except TaskIndexError TaskIndex
  | .create task => s.create task
  | .update taskId call => s.update ids taskId call
  | .deleteMany taskIds ownerId => s.deleteMany ids taskIds ownerId
  | .assignLegacyOwner ownerId => s.assignLegacyOwner ids ownerId

/-- A call that raised left the tables as they were. -/
def orSame (s : TaskIndex) : Except TaskIndexError TaskIndex → TaskIndex
  | .ok t => t
  | .error _ => s

/-- The tables under calls with callbacks that keep the ids. -/
def Step (ids : OwnerIds) (s : TaskIndex) (action : TaskIndexAction) (t : TaskIndex) : Prop :=
  (∀ taskId call, action = .update taskId call → call.KeepsIds) ∧
    s.orSame (s.perform ids action) = t

/-! ## The index mirrors the tasks -/

/-- The row says what the stored task says. -/
structure Describes (row : RunRow) (task : Task) : Prop where
  taskId : row.taskId = task.taskId
  sessionId : row.sessionId = task.sessionId
  workspaceId : row.workspaceId = task.workspaceId
  ownerId : row.ownerId = task.ownerId
  status : row.status = task.status
  updatedAt : row.updatedAt = task.updatedAt

/-- The rows of `runs` are the stored tasks with a run, one row each. -/
structure Mirrors (s : TaskIndex) : Prop where
  /-- The run of a task has a row, which describes the task. -/
  row_of_task : ∀ taskId task, s.tasks.find? taskId = some task → task.runId ≠ "" →
    ∃ row, s.runs.find? task.runId = some row ∧ Describes row task
  /-- A row is the row of the task it names. -/
  task_of_row : ∀ runId row, s.runs.find? runId = some row →
    ∃ task, s.tasks.find? row.taskId = some task ∧ task.runId = runId ∧ runId ≠ ""

/-- A step that keeps the index: a created run is new, an updated task with a run keeps its owner
as it is spelled, and a deleted task has no run. -/
def Spares (ids : OwnerIds) (s : TaskIndex) : TaskIndexAction → Prop
  | .create task => s.tasks.find? task.taskId = none → task.runId ≠ "" →
    s.runs.find? task.runId = none
  | .update taskId call => ∀ stored owner result, s.tasks.find? taskId = some stored →
    stored.runId ≠ "" → ids.canonicalOwnerId stored.ownerId = some owner →
    (∀ expected, call.expectedGeneration = some expected → expected = stored.generation) →
    call.fn { stored with ownerId := owner } = .ok result → result.ownerId = stored.ownerId
  | .deleteMany taskIds ownerId => ∀ owner, ids.canonicalOwnerId ownerId = some owner →
    (∀ taskId ∈ taskIds, ∀ task, s.tasks.find? taskId = some task →
      ∃ taskOwner, ids.canonicalOwnerId task.ownerId = some taskOwner ∧
        (taskOwner = owner → task.status.terminal = true)) →
    ∀ taskId ∈ taskIds, ∀ task, s.tasks.find? taskId = some task →
      ids.canonicalOwnerId task.ownerId = some owner → task.runId = ""
  | .assignLegacyOwner _ => True

/-! ## What a write does to the tables -/

variable {ids : OwnerIds} {s t : TaskIndex} {task old : Task} {taskId ownerId : String}

theorem find?_upsertRun (runs : Table runKey) (task : Task) (runId : String) :
    (upsertRun runs task).find? runId =
      if task.runId ≠ "" ∧ runId = task.runId then
        some ((runs.find? runId).elim (newRun task) (refreshRun task))
      else runs.find? runId := by
  unfold upsertRun
  by_cases hrun : task.runId = ""
  · rw [if_pos hrun, if_neg fun h => h.1 hrun]
  · rw [if_neg hrun, Table.find?_upsert]
    by_cases hsame : runId = task.runId
    · subst hsame
      rw [if_pos (⟨hrun, rfl⟩ : task.runId ≠ "" ∧ task.runId = task.runId)]
      exact if_pos rfl
    · have hneither : ¬ (task.runId ≠ "" ∧ runId = task.runId) := fun h => hsame h.2
      rw [if_neg hneither]
      exact if_neg hsame

/-- The task is stored, and its run is written: what `create` and `_write_task` leave. -/
structure Put (s : TaskIndex) (task : Task) (t : TaskIndex) : Prop where
  tasks : ∀ taskId, t.tasks.find? taskId =
    if taskId = task.taskId then some task else s.tasks.find? taskId
  runs : t.runs = upsertRun s.runs task

theorem put_create (h : s.tasks.find? task.taskId = none) :
    Put s task { tasks := s.tasks.insertNew task h, runs := upsertRun s.runs task } where
  tasks _ := Table.find?_insertNew h
  runs := rfl

theorem put_writeTask : Put s task (s.writeTask task) where
  tasks taskId := by
    rw [writeTask, Table.find?_upsert]
    cases s.tasks.find? task.taskId <;> rfl
  runs := rfl

/-- The row of another run stays. -/
theorem Put.row_of_ne (h : Put s task t) {runId : String} (hne : runId ≠ task.runId) :
    t.runs.find? runId = s.runs.find? runId := by
  rw [h.runs, find?_upsertRun, if_neg fun hboth => hne hboth.2]

theorem Put.row_new (h : Put s task t) (hrun : task.runId ≠ "")
    (hfree : s.runs.find? task.runId = none) :
    t.runs.find? task.runId = some (newRun task) := by
  rw [h.runs, find?_upsertRun, if_pos ⟨hrun, rfl⟩, hfree]
  rfl

theorem Put.row_refreshed (h : Put s task t) (hrun : task.runId ≠ "") {row : RunRow}
    (hrow : s.runs.find? task.runId = some row) :
    t.runs.find? task.runId = some (refreshRun task row) := by
  rw [h.runs, find?_upsertRun, if_pos ⟨hrun, rfl⟩, hrow]
  rfl

/-- In a mirrored index no two tasks share a run. -/
theorem Mirrors.eq_of_run (hs : s.Mirrors) {taskId' : String} {task' : Task}
    (htask : s.tasks.find? taskId = some task) (htask' : s.tasks.find? taskId' = some task')
    (hrun : task.runId ≠ "") (hsame : task'.runId = task.runId) : taskId' = taskId := by
  obtain ⟨row, hrow, hdescribes⟩ := hs.row_of_task taskId task htask hrun
  obtain ⟨row', hrow', hdescribes'⟩ := hs.row_of_task taskId' task' htask' (hsame ▸ hrun)
  rw [hsame, hrow] at hrow'
  rw [← Table.key_of_find? htask, ← Table.key_of_find? htask', ← hdescribes.taskId,
    ← hdescribes'.taskId, Option.some.inj hrow']

/-! ## Each write and the mirror -/

/-- A stored task with a new run, or with none. -/
theorem mirrors_create (hs : s.Mirrors) (hput : Put s task t)
    (hnew : s.tasks.find? task.taskId = none) :
    t.Mirrors ↔ (task.runId ≠ "" → s.runs.find? task.runId = none) := by
  constructor
  · intro ht hrun
    by_contra hsome
    obtain ⟨row, hrow⟩ := Option.ne_none_iff_exists'.mp hsome
    obtain ⟨stored, hstored, -, -⟩ := hs.task_of_row _ row hrow
    have htask : t.tasks.find? task.taskId = some task := (hput.tasks _).trans (if_pos rfl)
    obtain ⟨row', hrow', hdescribes⟩ := ht.row_of_task _ task htask hrun
    -- the row keeps the task it named, and that one is stored already
    rw [hput.row_refreshed hrun hrow] at hrow'
    have hid : row.taskId = task.taskId := by
      rw [← hdescribes.taskId, ← Option.some.inj hrow']
      rfl
    rw [hid, hnew] at hstored
    cases hstored
  · intro hfree
    refine ⟨fun taskId other hother hrun => ?_, fun runId row hrow => ?_⟩
    · rw [hput.tasks] at hother
      by_cases hid : taskId = task.taskId
      · rw [if_pos hid] at hother
        obtain rfl := Option.some.inj hother
        exact ⟨_, hput.row_new hrun (hfree hrun), ⟨rfl, rfl, rfl, rfl, rfl, rfl⟩⟩
      · rw [if_neg hid] at hother
        obtain ⟨row, hrow, hdescribes⟩ := hs.row_of_task taskId other hother hrun
        have hne : other.runId ≠ task.runId := by
          intro hsame
          rw [hsame, hfree (hsame ▸ hrun)] at hrow
          cases hrow
        exact ⟨row, (hput.row_of_ne hne).trans hrow, hdescribes⟩
    · by_cases hsame : task.runId ≠ "" ∧ runId = task.runId
      · rw [hsame.2, hput.row_new hsame.1 (hfree hsame.1)] at hrow
        rw [← Option.some.inj hrow]
        exact ⟨task, (hput.tasks _).trans (if_pos rfl), hsame.2.symm, hsame.2 ▸ hsame.1⟩
      · rw [hput.runs, find?_upsertRun, if_neg hsame] at hrow
        obtain ⟨stored, hstored, hrest⟩ := hs.task_of_row runId row hrow
        have hid : row.taskId ≠ task.taskId := by
          intro hid
          rw [hid, hnew] at hstored
          cases hstored
        exact ⟨stored, (hput.tasks _).trans ((if_neg hid).trans hstored), hrest⟩

/-- A stored task written again under the same ids. -/
theorem mirrors_write (hs : s.Mirrors) (hput : Put s task t)
    (hold : s.tasks.find? task.taskId = some old) (hrunId : task.runId = old.runId)
    (hsession : task.sessionId = old.sessionId) (hworkspace : task.workspaceId = old.workspaceId) :
    t.Mirrors ↔ (old.runId ≠ "" → task.ownerId = old.ownerId) := by
  have htask : t.tasks.find? task.taskId = some task := (hput.tasks _).trans (if_pos rfl)
  constructor
  · intro ht hrun
    obtain ⟨row, hrow, hdescribes⟩ := hs.row_of_task _ old hold hrun
    obtain ⟨row', hrow', hdescribes'⟩ := ht.row_of_task _ task htask (hrunId ▸ hrun)
    rw [hput.row_refreshed (hrunId ▸ hrun) (hrunId ▸ hrow)] at hrow'
    rw [← hdescribes.ownerId, ← hdescribes'.ownerId, ← Option.some.inj hrow']
    rfl
  · intro howner
    refine ⟨fun taskId other hother hrun => ?_, fun runId row hrow => ?_⟩
    · rw [hput.tasks] at hother
      by_cases hid : taskId = task.taskId
      · rw [if_pos hid] at hother
        obtain rfl := Option.some.inj hother
        have hrun' : old.runId ≠ "" := hrunId ▸ hrun
        obtain ⟨row, hrow, hdescribes⟩ := hs.row_of_task _ old hold hrun'
        refine ⟨_, hput.row_refreshed hrun (hrunId ▸ hrow), ?_⟩
        exact {
          taskId := hdescribes.taskId.trans (Table.key_of_find? hold)
          sessionId := hdescribes.sessionId.trans hsession.symm
          workspaceId := hdescribes.workspaceId.trans hworkspace.symm
          ownerId := hdescribes.ownerId.trans (howner hrun').symm
          status := rfl
          updatedAt := rfl }
      · rw [if_neg hid] at hother
        obtain ⟨row, hrow, hdescribes⟩ := hs.row_of_task taskId other hother hrun
        have hne : other.runId ≠ task.runId := fun hsame =>
          hid (hs.eq_of_run hold hother (hrunId ▸ hsame ▸ hrun) (hsame.trans hrunId))
        exact ⟨row, (hput.row_of_ne hne).trans hrow, hdescribes⟩
    · by_cases hsame : task.runId ≠ "" ∧ runId = task.runId
      · obtain ⟨stored, hstored, hdescribes⟩ := hs.row_of_task _ old hold (hrunId ▸ hsame.1)
        rw [hsame.2, hput.row_refreshed hsame.1 (hrunId ▸ hstored)] at hrow
        refine ⟨task, ?_, hsame.2.symm, hsame.2 ▸ hsame.1⟩
        rw [← Option.some.inj hrow]
        show t.tasks.find? stored.taskId = some task
        rw [hdescribes.taskId, Table.key_of_find? hold]
        exact htask
      · rw [hput.runs, find?_upsertRun, if_neg hsame] at hrow
        obtain ⟨stored, hstored, hrun, hnonempty⟩ := hs.task_of_row runId row hrow
        have hid : row.taskId ≠ task.taskId := by
          intro hid
          rw [hid, hold] at hstored
          rw [← Option.some.inj hstored, ← hrunId] at hrun
          exact hsame ⟨hrun ▸ hnonempty, hrun.symm⟩
        exact ⟨stored, (hput.tasks _).trans ((if_neg hid).trans hstored), hrun, hnonempty⟩

/-- The rows of `tasks` after deletions. -/
theorem find?_deleteTasks (removed : List String) (tasks : Table Task.taskId) (taskId : String) :
    (removed.foldl Table.delete tasks).find? taskId =
      if taskId ∈ removed then none else tasks.find? taskId := by
  induction removed generalizing tasks with
  | nil => rw [if_neg List.not_mem_nil]; rfl
  | cons first rest ih =>
    rw [List.foldl_cons, ih, Table.find?_delete]
    by_cases hrest : taskId ∈ rest
    · rw [if_pos hrest, if_pos (List.mem_cons_of_mem _ hrest)]
    · rw [if_neg hrest]
      refine if_congr ?_ rfl rfl
      rw [List.mem_cons]
      exact ⟨Or.inl, fun h => h.resolve_right hrest⟩

/-- Deleted tasks without a run. -/
theorem mirrors_deleteTasks (hs : s.Mirrors) {removed : List String} :
    (s.deleteTasks removed).Mirrors ↔
      ∀ taskId ∈ removed, ∀ task, s.tasks.find? taskId = some task → task.runId = "" := by
  constructor
  · intro ht taskId hremoved task htask
    by_contra hrun
    obtain ⟨row, hrow, hdescribes⟩ := hs.row_of_task taskId task htask hrun
    obtain ⟨stored, hstored, -, -⟩ := ht.task_of_row _ row hrow
    rw [hdescribes.taskId, Table.key_of_find? htask] at hstored
    rw [deleteTasks, find?_deleteTasks, if_pos hremoved] at hstored
    cases hstored
  · intro hfree
    refine ⟨fun taskId task htask hrun => ?_, fun runId row hrow => ?_⟩
    · rw [deleteTasks, find?_deleteTasks] at htask
      by_cases hremoved : taskId ∈ removed
      · rw [if_pos hremoved] at htask
        cases htask
      · rw [if_neg hremoved] at htask
        exact hs.row_of_task taskId task htask hrun
    · obtain ⟨task, htask, hrun, hnonempty⟩ := hs.task_of_row runId row hrow
      refine ⟨task, ?_, hrun, hnonempty⟩
      rw [deleteTasks, find?_deleteTasks, if_neg]
      · exact htask
      · exact fun hremoved => hnonempty (hrun.symm.trans (hfree _ hremoved task htask))

/-! ## Each call and the mirror -/

/-- When `update` comes to its write. -/
theorem compute_eq_ok {canonicalOwnerId : String → Option String} {call : UpdateCall}
    {stored updated : Task} : call.compute canonicalOwnerId (some stored) = .ok updated ↔
      ∃ owner result, canonicalOwnerId stored.ownerId = some owner ∧
        (∀ expected, call.expectedGeneration = some expected → expected = stored.generation) ∧
        call.fn { stored with ownerId := owner } = .ok result ∧
        updated = { result with updatedAt := call.now } := by
  have hgeneration : call.expectedGeneration.any (fun e => e != stored.generation) = false ↔
      ∀ expected, call.expectedGeneration = some expected → expected = stored.generation := by
    cases call.expectedGeneration with
    | none => simp
    | some e => simp
  cases howner : canonicalOwnerId stored.ownerId with
  | none =>
    simp only [UpdateCall.compute, taskFromPayload, howner, bind, Except.bind]
    refine iff_of_false (fun h => (by cases h)) ?_
    rintro ⟨owner, -, hnone, -⟩
    cases hnone
  | some owner =>
    simp only [UpdateCall.compute, taskFromPayload, howner, bind, Except.bind]
    by_cases hstale : call.expectedGeneration.any (fun e => e != stored.generation) = true
    · rw [if_pos hstale]
      refine iff_of_false (fun h => (by cases h)) ?_
      rintro ⟨-, -, -, hgen, -⟩
      rw [hgeneration.mpr hgen] at hstale
      cases hstale
    · rw [if_neg hstale]
      have hgen := hgeneration.mp (Bool.not_eq_true _ ▸ hstale)
      cases hfn : call.fn { stored with ownerId := owner } with
      | error e =>
        refine iff_of_false (fun h => (by cases h)) ?_
        rintro ⟨other, result, hother, -, hresult, -⟩
        cases hother
        rw [hfn] at hresult
        cases hresult
      | ok result =>
        constructor
        · intro h
          exact ⟨owner, result, rfl, hgen, hfn, (Except.ok.inj h).symm⟩
        · rintro ⟨other, result', hother, -, hresult, rfl⟩
          cases hother
          rw [hfn] at hresult
          rw [Except.ok.inj hresult]

theorem mirrors_update {call : UpdateCall} (hs : s.Mirrors) (hkeeps : call.KeepsIds) :
    (s.orSame (s.update ids taskId call)).Mirrors ↔ s.Spares ids (.update taskId call) := by
  unfold update
  cases hcompute : call.compute ids.canonicalOwnerId (s.tasks.find? taskId) with
  | error e =>
    refine iff_of_true hs ?_
    intro stored owner result hstored _ howner hgen hfn
    rw [hstored, compute_eq_ok.mpr ⟨owner, result, howner, hgen, hfn, rfl⟩] at hcompute
    cases hcompute
  | ok updated =>
    cases hstored : s.tasks.find? taskId with
    | none =>
      rw [hstored] at hcompute
      cases hcompute
    | some stored =>
      rw [hstored] at hcompute
      obtain ⟨owner, result, howner, hgen, hfn, rfl⟩ := compute_eq_ok.mp hcompute
      obtain ⟨hid, hrun, hsession, hworkspace⟩ := hkeeps _ _ hfn
      have hstoredId : stored.taskId = taskId := Table.key_of_find? hstored
      have hkey : result.taskId = taskId := hid.trans hstoredId
      have hput : Put s { result with updatedAt := call.now }
          (s.writeTask { result with updatedAt := call.now }) := put_writeTask
      have hold : s.tasks.find? result.taskId = some stored := hkey ▸ hstored
      refine (mirrors_write hs hput hold hrun hsession hworkspace).trans ?_
      constructor
      · intro hkept stored' owner' result' hstored' hrun' howner' _ hfn'
        rw [hstored] at hstored'
        cases hstored'
        rw [howner] at howner'
        cases howner'
        rw [hfn] at hfn'
        cases hfn'
        exact hkept hrun'
      · exact fun hspared hrun' => hspared stored owner result hstored hrun' howner hgen hfn

/-- What `delete_many` removes, where it comes to its transaction. -/
theorem mem_of_removable {taskIds removed : List String}
    (h : s.removable ids ownerId taskIds = .ok removed) (taskId : String) :
    taskId ∈ removed ↔ taskId ∈ taskIds ∧ ∃ task, s.tasks.find? taskId = some task ∧
      ids.canonicalOwnerId task.ownerId = some ownerId := by
  induction taskIds generalizing removed with
  | nil =>
    cases h
    exact iff_of_false List.not_mem_nil fun h => absurd h.1 List.not_mem_nil
  | cons first rest ih =>
    -- a first id that is passed over
    have hpassed : ∀ {rest' : List String}, s.removable ids ownerId rest = .ok rest' →
        (∀ task, s.tasks.find? first = some task →
          ids.canonicalOwnerId task.ownerId ≠ some ownerId) →
        (taskId ∈ rest' ↔ taskId ∈ first :: rest ∧ ∃ task, s.tasks.find? taskId = some task ∧
          ids.canonicalOwnerId task.ownerId = some ownerId) := by
      intro rest' hrest hforeign
      rw [ih hrest, List.mem_cons]
      refine and_congr_left fun hmine => ⟨Or.inr, fun hin => hin.resolve_left ?_⟩
      rintro rfl
      obtain ⟨task, htask, howner⟩ := hmine
      exact hforeign task htask howner
    rw [removable] at h
    cases hfirst : s.tasks.find? first with
    | none =>
      simp only [hfirst] at h
      exact hpassed h fun task htask => (by rw [hfirst] at htask; cases htask)
    | some payload =>
      cases howner : ids.canonicalOwnerId payload.ownerId with
      | none =>
        simp only [hfirst, taskFromPayload, howner] at h
        cases h
      | some owner =>
        simp only [hfirst, taskFromPayload, howner] at h
        by_cases hmine : owner = ownerId
        · rw [if_neg (not_not.mpr hmine)] at h
          split at h
          · cases h
          · obtain ⟨removed', hremoved', hcons⟩ := Except.bind_eq_ok h
            cases hcons
            rw [List.mem_cons, List.mem_cons, ih hremoved', Table.key_of_find? hfirst]
            constructor
            · rintro (rfl | ⟨hin, hmine'⟩)
              · exact ⟨Or.inl rfl, payload, hfirst, hmine ▸ howner⟩
              · exact ⟨Or.inr hin, hmine'⟩
            · rintro ⟨rfl | hin, hmine'⟩
              · exact Or.inl rfl
              · exact Or.inr ⟨hin, hmine'⟩
        · rw [if_pos hmine] at h
          refine hpassed h fun task htask hcanon => hmine ?_
          rw [hfirst] at htask
          rw [← Option.some.inj htask, howner] at hcanon
          exact Option.some.inj hcanon

/-- When `delete_many` comes to its transaction: the listed tasks can be read, and none of the
owner's is active. -/
theorem removable_isOk (taskIds : List String) :
    (∃ removed, s.removable ids ownerId taskIds = .ok removed) ↔
      ∀ taskId ∈ taskIds, ∀ task, s.tasks.find? taskId = some task →
        ∃ taskOwner, ids.canonicalOwnerId task.ownerId = some taskOwner ∧
          (taskOwner = ownerId → task.status.terminal = true) := by
  induction taskIds with
  | nil => exact iff_of_true ⟨[], rfl⟩ (List.forall_mem_nil _)
  | cons first rest ih =>
    rw [List.forall_mem_cons, ← ih, removable]
    cases hfirst : s.tasks.find? first with
    | none => exact ⟨fun h => ⟨fun task htask => (by cases htask), h⟩, fun h => h.2⟩
    | some payload =>
      cases howner : ids.canonicalOwnerId payload.ownerId with
      | none =>
        simp only [taskFromPayload, howner]
        refine iff_of_false ?_ ?_
        · rintro ⟨removed, h⟩
          cases h
        · rintro ⟨h, -⟩
          obtain ⟨taskOwner, hnone, -⟩ := h payload rfl
          rw [howner] at hnone
          cases hnone
      | some owner =>
        have hhead : (∀ task, some payload = some task → ∃ taskOwner,
            ids.canonicalOwnerId task.ownerId = some taskOwner ∧
              (taskOwner = ownerId → task.status.terminal = true)) ↔
            (owner = ownerId → payload.status.terminal = true) := by
          constructor
          · intro h hmine
            obtain ⟨taskOwner, hsome, hterminal⟩ := h payload rfl
            rw [howner] at hsome
            exact hterminal ((Option.some.inj hsome).symm.trans hmine)
          · rintro hterminal task htask
            cases htask
            exact ⟨owner, howner, hterminal⟩
        rw [hhead]
        simp only [taskFromPayload, howner]
        by_cases hmine : owner = ownerId
        · rw [if_neg (not_not.mpr hmine)]
          by_cases hterminal : payload.status.terminal = true
          · have hnot : ¬ (!payload.status.terminal) = true := by
              rw [hterminal]
              exact Bool.false_ne_true
            rw [if_neg hnot]
            constructor
            · rintro ⟨removed, h⟩
              obtain ⟨removed', hremoved', -⟩ := Except.bind_eq_ok h
              exact ⟨fun _ => hterminal, removed', hremoved'⟩
            · rintro ⟨-, removed', hremoved'⟩
              exact ⟨payload.taskId :: removed', by rw [hremoved']; rfl⟩
          · have hactive : (!payload.status.terminal) = true := by
              rw [Bool.eq_false_iff.mpr hterminal]
              rfl
            rw [if_pos hactive]
            refine iff_of_false ?_ fun h => hterminal (h.1 hmine)
            rintro ⟨removed, h⟩
            cases h
        · rw [if_pos hmine]
          exact ⟨fun h => ⟨fun hsame => absurd hsame hmine, h⟩, fun h => h.2⟩

theorem mirrors_deleteMany {taskIds : List String} (hs : s.Mirrors) :
    (s.orSame (s.deleteMany ids taskIds ownerId)).Mirrors ↔
      s.Spares ids (.deleteMany taskIds ownerId) := by
  unfold deleteMany
  cases howner : ids.canonicalOwnerId ownerId with
  | none =>
    refine iff_of_true hs fun owner hsome => ?_
    rw [howner] at hsome
    cases hsome
  | some owner =>
    show (s.orSame (s.removable ids owner taskIds >>= fun removed =>
      .ok (s.deleteTasks removed))).Mirrors ↔ _
    cases hremoved : s.removable ids owner taskIds with
    | error e =>
      refine iff_of_true hs fun owner' hsome hreadable => ?_
      rw [howner] at hsome
      cases hsome
      obtain ⟨removed, hok⟩ := (removable_isOk taskIds).mpr hreadable
      rw [hremoved] at hok
      cases hok
    | ok removed =>
      refine (mirrors_deleteTasks hs).trans ?_
      constructor
      · intro hfree owner' hsome _ taskId hin task htask hmine
        rw [howner] at hsome
        cases hsome
        exact hfree taskId ((mem_of_removable hremoved taskId).mpr ⟨hin, task, htask, hmine⟩)
          task htask
      · intro hspared taskId hin task htask
        obtain ⟨hlisted, task', htask', hmine⟩ := (mem_of_removable hremoved taskId).mp hin
        rw [htask] at htask'
        cases htask'
        exact hspared owner howner ((removable_isOk taskIds).mp ⟨removed, hremoved⟩) taskId
          hlisted task htask hmine

/-- No stored task is without an owner when it is read. -/
theorem assignOwner_eq (s : TaskIndex) (taskId : String) :
    assignOwner ids ownerId s taskId = s := by
  unfold assignOwner
  cases s.tasks.find? taskId with
  | none => rfl
  | some payload =>
    cases howner : ids.canonicalOwnerId payload.ownerId with
    | none => simp only [taskFromPayload, howner]
    | some owner =>
      simp only [taskFromPayload, howner]
      exact if_pos (ids.canonical_ne_empty _ _ howner)

theorem assignLegacyOwner_eq : s.orSame (s.assignLegacyOwner ids ownerId) = s := by
  unfold assignLegacyOwner
  cases ids.canonicalOwnerId ownerId with
  | none => rfl
  | some owner =>
    show s.listStable.foldl (assignOwner ids owner) s = s
    induction s.listStable with
    | nil => rfl
    | cons first rest ih => rw [List.foldl_cons, assignOwner_eq, ih]

/-- **A call leaves the index a mirror exactly where it spares it.** -/
theorem mirrors_step {action : TaskIndexAction} (hs : s.Mirrors) (hstep : Step ids s action t) :
    t.Mirrors ↔ s.Spares ids action := by
  obtain ⟨hkeeps, rfl⟩ := hstep
  cases action with
  | create task =>
    show (s.orSame (s.create task)).Mirrors ↔ _
    unfold create
    by_cases hnew : s.tasks.find? task.taskId = none
    · rw [dif_pos hnew]
      refine (mirrors_create hs (put_create hnew) hnew).trans ?_
      exact ⟨fun h _ => h, fun h => h hnew⟩
    · rw [dif_neg hnew]
      exact iff_of_true hs fun h => absurd h hnew
  | update taskId call => exact mirrors_update hs (hkeeps taskId call rfl)
  | deleteMany taskIds ownerId => exact mirrors_deleteMany hs
  | assignLegacyOwner ownerId =>
    show (s.orSame (s.assignLegacyOwner ids ownerId)).Mirrors ↔ _
    rw [assignLegacyOwner_eq]
    exact iff_of_true hs trivial

/-! ## Every run -/

/-- **When the index mirrors the tasks.** In a run from mirrored tables, the index is a mirror
before and after each call exactly when each call spares it. -/
theorem mirrors_iff {ms : List (Move TaskIndex TaskIndexAction)} (h : Run (Step ids) s ms t)
    (hs : s.Mirrors) :
    (∀ m ∈ ms, m.pre.Mirrors ∧ m.post.Mirrors) ↔ ∀ m ∈ ms, m.pre.Spares ids m.act := by
  refine Run.moves_iff_of_exact Mirrors (fun s => s.Spares ids)
    (fun s t => s.Mirrors ∧ t.Mirrors) ?_ ?_ ?_ h hs
  · exact fun s action t hs hspares hstep => (mirrors_step hs hstep).mpr hspares
  · exact fun s action t hs hspares hstep => ⟨hs, (mirrors_step hs hstep).mpr hspares⟩
  · exact fun s action t hstep hlaw => (mirrors_step hlaw.1 hstep).mp hlaw.2

end TaskIndex

/-! ## A deleted task -/

namespace DeletedTask

def ids : OwnerIds where
  canonicalOwnerId value := if value = "" then none else some value
  canonical_ne_empty := given_ne_empty

def task : Task where
  taskId := "task_1"
  sessionId := "ses_1"
  workspaceId := "ws_1"
  ownerId := "user"
  runId := "run_1"
  input := "read README"
  createdAt := "2026-01-01T00:00:00Z"
  updatedAt := "2026-01-01T00:00:00Z"

/-- The task completes. -/
def complete : UpdateCall where
  fn task := .ok { task with status := .completed }
  now := "2026-01-01T00:01:00Z"

theorem complete_keepsIds : complete.KeepsIds := by
  intro task result h
  rw [← Except.ok.inj h]
  exact ⟨rfl, rfl, rfl, rfl⟩

def empty : TaskIndex where
  tasks := {}
  runs := {}

theorem empty_mirrors : empty.Mirrors where
  row_of_task _ _ h := by cases h
  task_of_row _ _ h := by cases h

def next (s : TaskIndex) (action : TaskIndexAction) : Option TaskIndex :=
  some (s.orSame (s.perform ids action))

def finished : List TaskIndexAction := [.create task, .update "task_1" complete]

theorem run_of_execute {s t : TaskIndex} {actions : List TaskIndexAction}
    (hkeeps : ∀ taskId call, .update taskId call ∈ actions → call.KeepsIds)
    (h : execute next s actions = some t) :
    Run (TaskIndex.Step ids) s (movesOf next s actions) t := by
  induction actions generalizing s with
  | nil =>
    rw [← Option.some.inj h]
    exact Run.nil
  | cons first rest ih =>
    refine Run.cons ⟨?_, rfl⟩ (ih ?_ h)
    · rintro taskId call rfl
      exact hkeeps taskId call List.mem_cons_self
    · exact fun taskId call hin => hkeeps taskId call (List.mem_cons_of_mem _ hin)

theorem finished_keeps : ∀ taskId call, .update taskId call ∈ finished → call.KeepsIds := by
  intro taskId call hin
  rcases List.mem_cons.mp hin with h | h
  · cases h
  · cases List.mem_singleton.mp h
    exact complete_keepsIds

end DeletedTask

namespace TaskIndex

open DeletedTask

/-- A task that runs and completes keeps the mirror. -/
theorem mirrors_iff_on_finished : ∃ t,
    Run (Step ids) empty (movesOf next empty finished) t ∧
      ((∀ m ∈ movesOf next empty finished, m.pre.Mirrors ∧ m.post.Mirrors) ↔
        ∀ m ∈ movesOf next empty finished, m.pre.Spares ids m.act) := by
  obtain ⟨t, ht⟩ : ∃ t, execute next empty finished = some t := ⟨_, rfl⟩
  have hrun := run_of_execute finished_keeps ht
  exact ⟨t, hrun, mirrors_iff hrun empty_mirrors⟩

/-- The row of a completed run stays when its task is deleted. -/
theorem not_mirrors : ¬ ∀ (ids : OwnerIds) (s : TaskIndex)
    (ms : List (Move TaskIndex TaskIndexAction))
    (t : TaskIndex), s.Mirrors → Run (Step ids) s ms t → t.Mirrors := by
  intro hclaim
  obtain ⟨t, ht⟩ : ∃ t, execute next empty (finished ++ [.deleteMany ["task_1"] "user"]) = some t :=
    ⟨_, rfl⟩
  have hkeeps : ∀ taskId call, .update taskId call ∈
      finished ++ [.deleteMany ["task_1"] "user"] → call.KeepsIds := by
    intro taskId call hin
    rcases List.mem_append.mp hin with h | h
    · exact finished_keeps taskId call h
    · cases List.mem_singleton.mp h
  have hmirrors := hclaim ids empty _ t empty_mirrors (run_of_execute hkeeps ht)
  obtain ⟨row, hrow⟩ : ∃ row, t.runs.find? "run_1" = some row := by
    rw [← Option.some.inj ht]
    exact ⟨_, rfl⟩
  obtain ⟨stored, hstored, -⟩ := hmirrors.task_of_row _ row hrow
  rw [← Option.some.inj ht] at hstored
  cases hstored

end TaskIndex

end ThreadForge

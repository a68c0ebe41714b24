import ThreadForge.Store.TaskRepository
import ThreadForge.Lib.Faults
import Mathlib.Data.List.AList
import Mathlib.Data.List.Sort

/-!
# The control store: SQLite rows and their JSON mirror

`SqliteTaskRepository` and `SqliteApprovalRepository` commit a record to SQLite and then write it to
a JSON file, one file for each record, or commit a deletion and then remove the files. A crash loses
what the calls in progress still had to do. At the next start `ControlPlaneMigrator.import_json`
reads every file and writes its record over the row.

A row and a file are the record their payload decodes to. The state also keeps, for the statement
only, what the calls have committed.
-/

namespace ThreadForge

open Transition Faults

/-! ## Records -/

/-- The primary key of a row, and the name of its file. -/
inductive RecordId
  | task (taskId : String)
  | approval (approvalId : String)
  deriving DecidableEq, Repr

/-- A record of either table. -/
inductive ControlRecord
  | task (task : Task)
  | approval (approval : Approval)
  deriving DecidableEq, Repr

def ControlRecord.id : ControlRecord → RecordId
  | .task t => .task t.taskId
  | .approval a => .approval a.approvalId

def ControlRecord.ownerId : ControlRecord → String
  | .task t => t.ownerId
  | .approval a => a.ownerId

/-- `payload["owner_id"] = owner_id`. -/
def ControlRecord.setOwner (ownerId : String) : ControlRecord → ControlRecord
  | .task t => .task { t with ownerId := ownerId }
  | .approval a => .approval { a with ownerId := ownerId }

@[simp] theorem ControlRecord.id_setOwner (ownerId : String) (record : ControlRecord) :
    (record.setOwner ownerId).id = record.id := by
  cases record <;> rfl

def RecordId.isTask : RecordId → Bool
  | .task _ => true
  | .approval _ => false

/-- The file's name without its suffix. -/
def RecordId.stem : RecordId → String
  | .task taskId => taskId
  | .approval approvalId => approvalId

abbrev RecordMap := AList fun _ : RecordId => ControlRecord

/-! ## Writes -/

/-- One change of a row, or of a file. -/
inductive StoreWrite
  | put (record : ControlRecord)
  | drop (id : RecordId)
  deriving DecidableEq, Repr

/-- What the change leaves under an id. -/
def StoreWrite.leaves (id : RecordId) (old : Option ControlRecord) :
    StoreWrite → Option ControlRecord
  | .put record => if id = record.id then some record else old
  | .drop dropped => if id = dropped then none else old

def writeRecord (records : RecordMap) : StoreWrite → RecordMap
  | .put record => records.insert record.id record
  | .drop id => records.erase id

def writeRecords (records : RecordMap) (ws : List StoreWrite) : RecordMap :=
  applyAll writeRecord records ws

/-- A call in progress. -/
inductive StoreCall
  /-- It has read what it needs, and has these statements to commit. -/
  | committing (ws : List StoreWrite)
  /-- It has committed, and has the files still to change in the same way. -/
  | mirroring (ws : List StoreWrite)
  deriving DecidableEq, Repr

/-- The two stores, the calls in progress, and what calls have committed. -/
structure ControlStore where
  rows : RecordMap
  files : RecordMap
  calls : List StoreCall := []
  committed : RecordId → Option ControlRecord

/-- The settings and the functions of other modules. -/
structure StoreEnv where
  /-- `canonical_owner_id`. -/
  canonicalOwnerId : String → Option String
  /-- The `owner_id` that `reconcile` passes to `import_json`. -/
  ownerId : Option String

/-- `_task_from_payload` and `_approval_from_payload`: the owner is checked, and respelled. -/
def StoreEnv.fromPayload (env : StoreEnv) (payload : ControlRecord) : Option ControlRecord :=
  (env.canonicalOwnerId payload.ownerId).map fun ownerId => payload.setOwner ownerId

/-- One file of `_read_all_json`: a record without an owner is claimed. -/
def StoreEnv.importRecord (env : StoreEnv) (payload : ControlRecord) : Option ControlRecord :=
  env.fromPayload (match env.ownerId with
    | some ownerId => if payload.ownerId = "" then payload.setOwner ownerId else payload
    | none => payload)

/-- One step: a part of a call, or the end of the process and the next start. -/
inductive StoreAction
  | create (record : ControlRecord)
  | updateTask (taskId : String) (call : UpdateCall)
  | updateApproval (approvalId : String) (fn : Approval → Except PyError Approval)
  | deleteTasks (taskIds : List String) (ownerId : String)
  | deleteApprovals (taskIds : List String) (ownerId : String)
  | commit (index : Nat)
  | mirror (index : Nat) (fails : Bool)
  /-- The process ends, and starts again; the import gets as far as `cut` writes. -/
  | restart (cut : Nat)

namespace ControlStore

/-- `COMMIT`. -/
def commit (s : ControlStore) (ws : List StoreWrite) : ControlStore :=
  { s with
    rows := writeRecords s.rows ws
    committed := fun id => ws.foldl (fun old w => w.leaves id old) (s.committed id) }

/-! ## Reading -/

def taskRow (s : ControlStore) (taskId : String) : Option Task :=
  match s.rows.lookup (.task taskId) with
  | some (.task task) => some task
  | _ => none

def approvalRow (s : ControlStore) (approvalId : String) : Option Approval :=
  match s.rows.lookup (.approval approvalId) with
  | some (.approval approval) => some approval
  | _ => none

/-- `SqliteApprovalRepository.update`, up to its write. -/
def computeApproval (env : StoreEnv) (fn : Approval → Except PyError Approval)
    (row : Option Approval) : Option Approval := do
  let payload ← row
  let ownerId ← env.canonicalOwnerId payload.ownerId
  (fn { payload with ownerId := ownerId }).toOption

/-- The loop of `delete_many`: the tasks of the owner, unless one of them is active. -/
def removableTasks (env : StoreEnv) (s : ControlStore) (ownerId : String) :
    List String → Option (List RecordId)
  | [] => some []
  | taskId :: rest =>
    match s.taskRow taskId with
    | none => s.removableTasks env ownerId rest
    | some payload => do
      let task ← (taskFromPayload env.canonicalOwnerId payload).toOption
      if task.ownerId ≠ ownerId then s.removableTasks env ownerId rest
      else if !task.status.terminal then none
      else
        let removed ← s.removableTasks env ownerId rest
        some (.task task.taskId :: removed)

/-- The loop of `delete_for_tasks`. -/
def removableApprovals (s : ControlStore) (ownerId : String) (taskIds : List String) :
    List RecordId :=
  taskIds.flatMap fun taskId => (s.rows.entries.filter fun entry => match entry.2 with
    | .task _ => false
    | .approval approval => approval.taskId = taskId ∧ approval.ownerId = ownerId).map Sigma.fst

/-! ## `import_json` -/

/-- `_JsonMirror.ids`, of the tasks and then of the approvals, with what their files hold. -/
def listed (s : ControlStore) : List (Sigma fun _ : RecordId => ControlRecord) :=
  (s.files.entries.filter fun entry => entry.1.isTask).insertionSort
      (fun a b => a.1.stem ≤ b.1.stem) ++
    (s.files.entries.filter fun entry => !entry.1.isTask).insertionSort
      (fun a b => a.1.stem ≤ b.1.stem)

/-- The records `import_json` writes: none when one of the files does not decode. -/
def importRecords (env : StoreEnv) (s : ControlStore) : List ControlRecord :=
  (s.listed.mapM fun entry => env.importRecord entry.2).getD []

/-- The rows written when the import got as far as `cut` writes: a record's row, then its file. -/
def importedRows (env : StoreEnv) (s : ControlStore) (cut : Nat) : List ControlRecord :=
  (s.importRecords env).take ((cut + 1) / 2)

def importedFiles (env : StoreEnv) (s : ControlStore) (cut : Nat) : List ControlRecord :=
  (s.importRecords env).take (cut / 2)

/-! ## Steps -/

/-- A call gets as far as its transaction. -/
def begin (s : ControlStore) (ws : List StoreWrite) : ControlStore :=
  { s with calls := s.calls ++ [.committing ws] }

/-- The state after a step, where the step can be taken. -/
def next (env : StoreEnv) (s : ControlStore) : StoreAction → Option ControlStore
  | .create record =>
    if s.rows.lookup record.id = none then
      some { s.commit [.put record] with calls := s.calls ++ [.mirroring [.put record]] }
    else some s
  | .updateTask taskId call =>
    match call.compute env.canonicalOwnerId (s.taskRow taskId) with
    | .ok updated => some (s.begin [.put (.task updated)])
    | .error _ => some s
  | .updateApproval approvalId fn =>
    match computeApproval env fn (s.approvalRow approvalId) with
    | some updated => some (s.begin [.put (.approval updated)])
    | none => some s
  | .deleteTasks taskIds ownerId =>
    match (env.canonicalOwnerId ownerId).bind fun ownerId =>
        s.removableTasks env ownerId taskIds with
    | some ids => some (s.begin (ids.map .drop))
    | none => some s
  | .deleteApprovals taskIds ownerId =>
    match env.canonicalOwnerId ownerId with
    | some ownerId => some (s.begin ((s.removableApprovals ownerId taskIds).map .drop))
    | none => some s
  | .commit index =>
    match s.calls[index]? with
    | some (.committing ws) => some { s.commit ws with calls := s.calls.set index (.mirroring ws) }
    | _ => none
  | .mirror index fails =>
    match s.calls[index]? with
    | some (.mirroring (w :: rest)) =>
      if fails then some { s with calls := s.calls.set index (.mirroring []) }
      else some { s with
        files := writeRecord s.files w
        calls := s.calls.set index (.mirroring rest) }
    | _ => none
  | .restart cut => some { s with
      rows := writeRecords s.rows ((s.importedRows env cut).map .put)
      files := writeRecords s.files ((s.importedFiles env cut).map .put)
      calls := [] }

/-- The control store as a transition system. -/
abbrev StoreStep (env : StoreEnv) (s : ControlStore) (action : StoreAction) (s' : ControlStore) :
    Prop :=
  next env s action = some s'

end ControlStore

end ThreadForge

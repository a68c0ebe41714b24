import ThreadForge.Domain.Entities
import ThreadForge.Hub.Devices
import ThreadForge.Lib.Effects
import ThreadForge.Lib.Faults
import ThreadForge.Lib.Table

/-!
# Deleting sessions

`SessionService.delete_sessions` checks the sessions and their tasks, and then deletes from four
stores one after the other: the approvals of the tasks, the directories of their runs, the tasks,
and the files of the sessions. Any step can raise, and a task can be created between two of them.

A run directory is the paths in it, the directory last; `rmtree` removes one path at a time. Owner
ids are canonical here, as the service canonicalises what it is given.

## Main results

* `SessionRecords.deletion_allOrNothing_iff` — when a deletion is all or nothing.
-/

namespace ThreadForge

open Faults

/-! ## The stores -/

/-- The fields of a session that its deletion reads. -/
structure SessionRecord where
  id : String
  ownerId : String
  deriving DecidableEq, Repr

/-- A path of a run directory: a path inside, or the directory itself. -/
structure RunPath where
  runId : String
  name : Option String
  deriving DecidableEq, Repr

/-- The four stores. -/
structure SessionRecords where
  sessions : Table SessionRecord.id
  tasks : Table Task.taskId
  approvals : Table Approval.approvalId
  files : List RunPath := []

/-- What `delete_sessions` raises. -/
inductive DeletionError
  | sessionNotFound (sessionId : String)
  | sessionCorrupted (sessionId : String)
  | persistenceUnavailable
  | activeTaskExists (taskId : String)
  /-- An exception of SQLite, or of the file system on the way of a mirror. -/
  | storage
  deriving DecidableEq, Repr

/-- What happens around the steps of one call: which of them raise, the tasks that others create
between them, and the order in which a set is gone through. -/
structure DeletionScript where
  loads : String → Option DeletionError := fun _ => none
  checkFails : Bool := false
  listingFails : Bool := false
  approvals : Fault := .none
  path : RunPath → Fault := fun _ => .none
  tasks : Fault := .none
  session : String → Fault := fun _ => .none
  afterCheck : List Task := []
  afterListing : List Task := []
  afterApprovals : List Task := []
  afterRuns : List Task := []
  /-- The run directory resolves to a path under the root. -/
  underRoot : String → Bool := fun _ => true
  order : List String → List String := List.eraseDups
  mem_order : ∀ l x, x ∈ order l ↔ x ∈ l
  nodup_order : ∀ l, (order l).Nodup

namespace SessionRecords

/-! ## Steps -/

/-- `create` of a task, where its id is free. -/
def createTask (tasks : Table Task.taskId) (task : Task) : Table Task.taskId :=
  if h : tasks.find? task.taskId = none then tasks.insertNew task h else tasks

/-- Other calls create tasks. -/
def arrive (s : SessionRecords) (tasks : List Task) : SessionRecords :=
  { s with tasks := tasks.foldl createTask s.tasks }

/-- `list_for_sessions`. -/
def listForSessions (s : SessionRecords) (sessionIds : List String) (ownerId : String) :
    List Task :=
  sessionIds.flatMap fun sessionId =>
    s.tasks.rows.filter fun task => task.sessionId = sessionId ∧ task.ownerId = ownerId

/-- One edit of one store: a deletion, or the tasks that others create. -/
inductive RecordEdit
  | approvals (taskIds : List String)
  | path (path : RunPath)
  | tasks (taskIds : List String)
  | session (sessionId : String)
  | arrive (tasks : List Task)
  deriving DecidableEq, Repr

/-- What it leaves. -/
def edit (ownerId : String) (s : SessionRecords) : RecordEdit → SessionRecords
  | .approvals taskIds => { s with
      approvals := s.approvals.keep fun approval =>
        !decide (approval.taskId ∈ taskIds ∧ approval.ownerId = ownerId) }
  | .path path => { s with files := s.files.filter fun other => other ≠ path }
  | .tasks taskIds => { s with tasks := s.tasks.keep fun task => !decide (task.taskId ∈ taskIds) }
  | .session sessionId => { s with sessions := s.sessions.delete sessionId }
  | .arrive tasks => s.arrive tasks

section Service

variable (script : DeletionScript) (ownerId : String)

/-- A deletion that goes through, or raises before it or after it. -/
def eraseOr (error : DeletionError) (deletion : RecordEdit) (fault : Fault) :
    Eff SessionRecords DeletionError Unit := do
  Eff.when (fault = .before) (Eff.raise error)
  Eff.modify fun s => s.edit ownerId deletion
  Eff.when (fault = .after) (Eff.raise error)

/-- `_load`. -/
def load (sessionId : String) : Eff SessionRecords DeletionError Unit := do
  let s ← Eff.get
  match s.sessions.find? sessionId with
  | none => Eff.raise (.sessionNotFound sessionId)
  | some session =>
    match script.loads sessionId with
    | some e => Eff.raise e
    | none => Eff.when (session.ownerId ≠ ownerId) (Eff.raise (.sessionNotFound sessionId))

/-- `ensure_sessions_deletable`. -/
def ensureSessionsDeletable (sessionIds : List String) : Eff SessionRecords DeletionError Unit := do
  let s ← Eff.get
  Eff.when (sessionIds ≠ []) do
    Eff.when (script.checkFails = true) (Eff.raise .storage)
    match (s.listForSessions sessionIds ownerId).find? fun task => !task.status.terminal with
    | some active => Eff.raise (.activeTaskExists active.taskId)
    | none => pure ()

/-- `delete_for_tasks`: the mirror raises only where there is a file to remove. -/
def deleteForTasks (taskIds : List String) : Eff SessionRecords DeletionError Unit := do
  let s ← Eff.get
  Eff.when (taskIds ≠ [])
    (eraseOr ownerId .storage (.approvals taskIds)
      (if script.approvals = .after ∧ s.approvals.rows.all (fun approval =>
          !decide (approval.taskId ∈ taskIds ∧ approval.ownerId = ownerId)) then .none
        else script.approvals))

/-- The paths under a run directory, the directory last. -/
def pathsOf (s : SessionRecords) (runId : String) : List RunPath :=
  (s.files.filter fun path => path.runId = runId ∧ path.name ≠ none) ++
    s.files.filter fun path => path.runId = runId ∧ path.name = none

/-- `rmtree` of one run directory. -/
def removeRun (runId : String) : Eff SessionRecords DeletionError Unit := do
  let s ← Eff.get
  if script.underRoot runId = true then
    Eff.forEach (s.pathsOf runId) fun path =>
      eraseOr ownerId .persistenceUnavailable (.path path) (script.path path)
  else Eff.raise .persistenceUnavailable

/-- `_delete_run_artifacts`. -/
def deleteRunArtifacts (runIds : List String) : Eff SessionRecords DeletionError Unit :=
  Eff.forEach (script.order runIds) (removeRun script ownerId)

/-- The loop of `delete_many`. -/
def checkRemovable : List String → Eff SessionRecords DeletionError (List String)
  | [] => pure []
  | taskId :: rest => do
    let s ← Eff.get
    match s.tasks.find? taskId with
    | none => checkRemovable rest
    | some task =>
      if task.ownerId ≠ ownerId then checkRemovable rest
      else if !task.status.terminal then Eff.raise (.activeTaskExists taskId)
      else do
        let removed ← checkRemovable rest
        pure (taskId :: removed)

/-- `delete_many`. -/
def deleteMany (taskIds : List String) : Eff SessionRecords DeletionError Unit :=
  Eff.when (taskIds ≠ []) do
    let removed ← checkRemovable ownerId (script.order taskIds)
    eraseOr ownerId .storage (.tasks removed)
      (if script.tasks = .after ∧ removed = [] then .none else script.tasks)

/-- `delete` of the session store. -/
def deleteSession (sessionId : String) : Eff SessionRecords DeletionError Unit := do
  let s ← Eff.get
  if isHexId "ses_" sessionId = true ∧ (s.sessions.find? sessionId).isSome = true then
    eraseOr ownerId .persistenceUnavailable (.session sessionId) (script.session sessionId)
  else Eff.raise (.sessionNotFound sessionId)

/-- `delete_sessions` once it has listed the tasks. -/
def deleteListed (uniqueIds : List String) (tasks : List Task) :
    Eff SessionRecords DeletionError Unit := do
  Eff.modify fun s => s.arrive script.afterListing
  deleteForTasks script ownerId (tasks.map Task.taskId)
  Eff.modify fun s => s.arrive script.afterApprovals
  deleteRunArtifacts script ownerId ((tasks.map Task.runId).filter (· ≠ ""))
  Eff.modify fun s => s.arrive script.afterRuns
  deleteMany script ownerId (tasks.map Task.taskId)
  Eff.forEach uniqueIds (deleteSession script ownerId)

/-- `delete_sessions`. -/
def deleteSessions (sessionIds : List String) : Eff SessionRecords DeletionError Unit := do
  let uniqueIds := sessionIds.eraseDups
  Eff.forEach uniqueIds (load script ownerId)
  ensureSessionsDeletable script ownerId uniqueIds
  Eff.modify fun s => s.arrive script.afterCheck
  Eff.when (script.listingFails = true) (Eff.raise .storage)
  let s ← Eff.get
  deleteListed script ownerId uniqueIds (s.listForSessions uniqueIds ownerId)

end Service

/-! ## All or nothing -/

/-- Everything that was there is there. -/
structure Remains (s t : SessionRecords) : Prop where
  sessions : ∀ session ∈ s.sessions.rows, session ∈ t.sessions.rows
  tasks : ∀ task ∈ s.tasks.rows, task ∈ t.tasks.rows
  approvals : ∀ approval ∈ s.approvals.rows, approval ∈ t.approvals.rows
  files : ∀ path ∈ s.files, path ∈ t.files

/-- The task is one of the owner in one of the sessions. -/
def Belongs (sessionIds : List String) (ownerId : String) (task : Task) : Prop :=
  task.sessionId ∈ sessionIds ∧ task.ownerId = ownerId

/-- Nothing of the owner's sessions is there, of the tasks that there were and those that came. -/
structure Cleared (sessionIds : List String) (ownerId : String) (known : List Task)
    (t : SessionRecords) : Prop where
  sessions : ∀ session ∈ t.sessions.rows, session.id ∈ sessionIds → session.ownerId ≠ ownerId
  tasks : ∀ task ∈ t.tasks.rows, ¬ Belongs sessionIds ownerId task
  approvals : ∀ task ∈ known, Belongs sessionIds ownerId task → ∀ approval ∈ t.approvals.rows,
    approval.taskId = task.taskId → approval.ownerId ≠ ownerId
  files : ∀ task ∈ known, Belongs sessionIds ownerId task → task.runId ≠ "" →
    ∀ path ∈ t.files, path.runId ≠ task.runId

section Conditions

variable (script : DeletionScript) (ownerId : String)

/-- Every task there is when `delete_many` begins. -/
def gathered (s : SessionRecords) : SessionRecords :=
  (((s.arrive script.afterCheck).arrive script.afterListing).arrive script.afterApprovals).arrive
    script.afterRuns

/-- A deletion that raises leaves everything there; one that returns leaves nothing. -/
def AllOrNothing (s : SessionRecords) (sessionIds : List String) : Prop :=
  ((∃ e, ((deleteSessions script ownerId sessionIds).run s).1 = .error e) →
    Remains s ((deleteSessions script ownerId sessionIds).run s).2) ∧
  (((deleteSessions script ownerId sessionIds).run s).1 = .ok () →
    Cleared sessionIds ownerId (gathered script s).tasks.rows
      ((deleteSessions script ownerId sessionIds).run s).2)

/-- The sessions can be read and are the owner's, their tasks can be read, and none is active. -/
def ChecksPass (s : SessionRecords) (sessionIds : List String) : Prop :=
  (∀ sessionId ∈ sessionIds, script.loads sessionId = none ∧
    ∃ session, s.sessions.find? sessionId = some session ∧ session.ownerId = ownerId) ∧
  (sessionIds ≠ [] → script.checkFails = false ∧
    ∀ task ∈ s.tasks.rows, Belongs sessionIds ownerId task → task.status.terminal = true) ∧
  script.listingFails = false

/-- The edits of `delete_for_tasks`. -/
def approvalsPlan (s : SessionRecords) (taskIds : List String) : List (RecordEdit × Fault) :=
  if taskIds = [] then []
  else [(.approvals taskIds, if script.approvals = .after ∧ s.approvals.rows.all (fun approval =>
    !decide (approval.taskId ∈ taskIds ∧ approval.ownerId = ownerId)) then .none
    else script.approvals)]

/-- The edits of `rmtree`. -/
def runPlan (s : SessionRecords) (runId : String) : List (RecordEdit × Fault) :=
  if script.underRoot runId = true then
    (s.pathsOf runId).map fun path => (.path path, script.path path)
  else [(.path ⟨runId, none⟩, .before)]

/-- The edits of `delete_many`: an active task stops it. -/
def tasksPlan (tasks : List Task) : List (RecordEdit × Fault) :=
  if tasks = [] then []
  else [(.tasks (script.order (tasks.map Task.taskId)),
    if ∀ task ∈ tasks, task.status.terminal = true then script.tasks else .before)]

/-- The edits of the loop over the sessions. -/
def sessionPlan (sessionId : String) : RecordEdit × Fault :=
  (.session sessionId,
    if isHexId "ses_" sessionId = true then script.session sessionId else .before)

/-- The edits before the tasks, of a deletion that lists these tasks. -/
def earlyPlan (s : SessionRecords) (tasks : List Task) : List (RecordEdit × Fault) :=
  (.arrive script.afterListing, .none) ::
  (approvalsPlan script ownerId s (tasks.map Task.taskId) ++
    (.arrive script.afterApprovals, .none) ::
    ((script.order ((tasks.map Task.runId).filter (· ≠ ""))).flatMap (runPlan script s) ++
      [(.arrive script.afterRuns, .none)]))

/-- The edits from the tasks on. -/
def latePlan (sessionIds : List String) (tasks : List Task) : List (RecordEdit × Fault) :=
  tasksPlan script tasks ++ sessionIds.map (sessionPlan script)

/-- The edits of a deletion that comes past its checks. -/
def plan (s : SessionRecords) (sessionIds : List String) (tasks : List Task) :
    List (RecordEdit × Fault) :=
  earlyPlan script ownerId s tasks ++ latePlan script sessionIds tasks

/-- The edit deletes nothing that was there. -/
def RecordEdit.Vacuous (s : SessionRecords) : RecordEdit → Prop
  | .approvals taskIds => ∀ approval ∈ s.approvals.rows, approval.taskId ∈ taskIds →
    approval.ownerId ≠ ownerId
  | .path removed => removed ∉ s.files
  | .tasks taskIds => ∀ task ∈ s.tasks.rows, task.taskId ∉ taskIds
  | .session sessionId => ∀ session ∈ s.sessions.rows, session.id ≠ sessionId
  | .arrive _ => True

/-- Past the checks: where a step raises, nothing was there for the steps up to it; where none
raises, no task came to the sessions after they were listed. -/
def Spares (s : SessionRecords) (sessionIds : List String) : Prop :=
  ChecksPass script ownerId s sessionIds.eraseDups →
  let listed := (s.arrive script.afterCheck).listForSessions sessionIds.eraseDups ownerId
  let steps := plan script ownerId s sessionIds.eraseDups listed
  ((∃ step ∈ steps, step.2 ≠ .none) → ∀ edit ∈ (attempt steps).1, edit.Vacuous ownerId s) ∧
  ((∀ step ∈ steps, step.2 = .none) → ∀ task ∈ (gathered script s).tasks.rows,
    Belongs sessionIds ownerId task → task ∈ listed)

end Conditions

/-! ## Programs that make a list of edits -/

section Edits

variable {script : DeletionScript} {ownerId : String} {s t : SessionRecords}

/-- The program makes the edits of the list, up to the first that raises. -/
structure Performs (ownerId : String) (m : Eff SessionRecords DeletionError Unit)
    (s : SessionRecords) (steps : List (RecordEdit × Fault)) : Prop where
  state : (m.run s).2 = applyAll (edit ownerId) s (attempt steps).1
  ok : (m.run s).1 = .ok () ↔ (attempt steps).2 = true

theorem Performs.pure : Performs ownerId (pure ()) s [] := ⟨rfl, iff_of_true rfl rfl⟩

theorem Performs.edit (change : RecordEdit) :
    Performs ownerId (Eff.modify fun s => s.edit ownerId change) s [(change, .none)] :=
  ⟨rfl, iff_of_true rfl rfl⟩

theorem performs_eraseOr (error : DeletionError) (deletion : RecordEdit) (fault : Fault) :
    Performs ownerId (eraseOr ownerId error deletion fault) s [(deletion, fault)] := by
  cases fault with
  | none => exact ⟨rfl, iff_of_true rfl rfl⟩
  | before => exact ⟨rfl, iff_of_false (fun h => (by cases h)) (fun h => (by cases h))⟩
  | after => exact ⟨rfl, iff_of_false (fun h => (by cases h)) (fun h => (by cases h))⟩

/-- A program that raises at once, as a step that raises before it takes effect. -/
theorem performs_raise (error : DeletionError) (deletion : RecordEdit) :
    Performs ownerId (Eff.raise error) s [(deletion, .before)] :=
  ⟨rfl, iff_of_false (fun h => (by cases h)) (fun h => (by cases h))⟩

/-- One program after the other makes the one list after the other. -/
theorem Performs.bind {m : Eff SessionRecords DeletionError Unit}
    {k : Unit → Eff SessionRecords DeletionError Unit} {steps rest : List (RecordEdit × Fault)}
    (hm : Performs ownerId m s steps)
    (hk : Performs ownerId (k ()) (applyAll (SessionRecords.edit ownerId) s (attempt steps).1)
      rest) :
    Performs ownerId (m >>= k) s (steps ++ rest) := by
  cases hrun : m.run s with
  | mk result t =>
    have hstate : t = applyAll (SessionRecords.edit ownerId) s (attempt steps).1 := by
      rw [← hm.state, hrun]
    cases result with
    | ok u =>
      have hok : (attempt steps).2 = true := hm.ok.mp (by rw [hrun])
      have happend := attempt_append_of_ok hok rest
      constructor
      · rw [Eff.run_bind_ok hrun, happend, applyAll_append, hstate]
        exact hk.state
      · rw [Eff.run_bind_ok hrun, happend, hstate]
        exact hk.ok
    | error e =>
      have hfailed : (attempt steps).2 = false := by
        rw [Bool.eq_false_iff, ne_eq, ← hm.ok, hrun]
        exact fun h => (by cases h)
      have happend := attempt_append_of_failed hfailed rest
      constructor
      · rw [Eff.run_bind_error hrun, happend, hstate]
      · rw [Eff.run_bind_error hrun, happend, hfailed]
        exact iff_of_false (fun h => (by cases h)) (fun h => (by cases h))

/-! ## Each stage -/

theorem Performs.get_bind {k : SessionRecords → Eff SessionRecords DeletionError Unit}
    {steps : List (RecordEdit × Fault)} (h : Performs ownerId (k s) s steps) :
    Performs ownerId (Eff.get >>= k) s steps :=
  ⟨h.state, h.ok⟩

theorem performs_deleteForTasks (taskIds : List String) :
    Performs ownerId (deleteForTasks script ownerId taskIds) s
      (approvalsPlan script ownerId s taskIds) := by
  refine Performs.get_bind ?_
  unfold approvalsPlan
  by_cases hempty : taskIds = []
  · rw [if_pos hempty, Eff.when_neg (not_not.mpr hempty)]
    exact Performs.pure
  · rw [if_neg hempty, Eff.when_pos hempty]
    exact performs_eraseOr _ _ _

/-- `rmtree` over the paths of a run. -/
theorem performs_paths (paths : List RunPath) (s : SessionRecords) :
    Performs ownerId (Eff.forEach paths fun path =>
      eraseOr ownerId .persistenceUnavailable (.path path) (script.path path)) s
      (paths.map fun path => (.path path, script.path path)) := by
  induction paths generalizing s with
  | nil => exact Performs.pure
  | cons path rest ih =>
    exact Performs.bind (performs_eraseOr _ _ _) (ih _)

theorem performs_removeRun (runId : String) :
    Performs ownerId (removeRun script ownerId runId) s (runPlan script s runId) := by
  refine Performs.get_bind ?_
  unfold runPlan
  by_cases hunder : script.underRoot runId = true
  · rw [if_pos hunder, if_pos hunder]
    exact performs_paths _ s
  · rw [if_neg hunder, if_neg hunder]
    exact performs_raise _ _

/-- The paths of a run are as they were, once those of other runs have been removed. -/
theorem pathsOf_applyAll {runId : String} {ws : List RecordEdit}
    (hother : ∀ w ∈ ws, ∃ path, w = .path path ∧ path.runId ≠ runId) (s : SessionRecords) :
    (applyAll (edit ownerId) s ws).pathsOf runId = s.pathsOf runId := by
  induction ws generalizing s with
  | nil => rfl
  | cons w rest ih =>
    obtain ⟨removed, rfl, hne⟩ := hother w List.mem_cons_self
    rw [applyAll_cons, ih (fun v hv => hother v (List.mem_cons_of_mem _ hv))]
    have hkept : ∀ p : RunPath → Bool, (∀ path, p path = true → path.runId = runId) →
        (s.files.filter fun other => other ≠ removed).filter p = s.files.filter p := by
      intro p hp
      rw [List.filter_filter]
      refine List.filter_congr fun path _ => ?_
      by_cases hpath : p path = true
      · have hnot : path ≠ removed := fun he => hne (he ▸ hp path hpath)
        rw [hpath, decide_eq_true hnot, Bool.and_self]
      · rw [Bool.not_eq_true] at hpath
        rw [hpath, Bool.false_and]
    show (s.files.filter _).filter _ ++ (s.files.filter _).filter _ = _
    rw [hkept _ fun path h => (of_decide_eq_true h).1,
      hkept _ fun path h => (of_decide_eq_true h).1]
    rfl

/-- The plan of a run names paths of the run. -/
theorem path_of_mem_runPlan {runId : String} {w : RecordEdit}
    (h : w ∈ (attempt (runPlan script s runId)).1) :
    ∃ path, w = .path path ∧ path.runId = runId := by
  obtain ⟨step, hstep, rfl⟩ := List.mem_map.mp (mem_of_mem_attempt h)
  unfold runPlan at hstep
  by_cases hunder : script.underRoot runId = true
  · rw [if_pos hunder] at hstep
    obtain ⟨path, hpath, rfl⟩ := List.mem_map.mp hstep
    refine ⟨path, rfl, ?_⟩
    rcases List.mem_append.mp hpath with hin | hin
    · exact (of_decide_eq_true (List.mem_filter.mp hin).2).1
    · exact (of_decide_eq_true (List.mem_filter.mp hin).2).1
  · rw [if_neg hunder] at hstep
    obtain rfl := List.mem_singleton.mp hstep
    exact ⟨_, rfl, rfl⟩

theorem performs_deleteRuns (runIds : List String) (hnodup : runIds.Nodup) (s : SessionRecords) :
    Performs ownerId (Eff.forEach runIds (removeRun script ownerId)) s
      (runIds.flatMap (runPlan script s)) := by
  induction runIds generalizing s with
  | nil => exact Performs.pure
  | cons runId rest ih =>
    obtain ⟨hnot, hrest⟩ := List.nodup_cons.mp hnodup
    rw [List.flatMap_cons]
    refine Performs.bind (performs_removeRun runId) ?_
    -- the later runs have their own paths
    have hsame : ∀ other ∈ rest, runPlan script s other = runPlan script
        (applyAll (edit ownerId) s (attempt (runPlan script s runId)).1) other := by
      intro other hother
      unfold runPlan
      rw [pathsOf_applyAll]
      intro w hw
      obtain ⟨path, rfl, hid⟩ := path_of_mem_runPlan hw
      exact ⟨path, rfl, fun he => hnot ((hid.symm.trans he) ▸ hother)⟩
    rw [List.flatMap_congr hsame]
    exact ih hrest _

theorem run_checkRemovable {taskIds : List String}
    (hstored : ∀ taskId ∈ taskIds, ∃ task, s.tasks.find? taskId = some task ∧
      task.ownerId = ownerId) :
    ((∀ taskId ∈ taskIds, ∀ task, s.tasks.find? taskId = some task →
        task.status.terminal = true) → (checkRemovable ownerId taskIds).run s = (.ok taskIds, s)) ∧
    ((¬ ∀ taskId ∈ taskIds, ∀ task, s.tasks.find? taskId = some task →
        task.status.terminal = true) →
      ∃ e, (checkRemovable ownerId taskIds).run s = (.error e, s)) := by
  induction taskIds with
  | nil => exact ⟨fun _ => rfl, fun h => absurd (List.forall_mem_nil _) h⟩
  | cons first rest ih =>
    obtain ⟨task, htask, howner⟩ := hstored first List.mem_cons_self
    obtain ⟨hgo, hstop⟩ := ih fun taskId hin => hstored taskId (List.mem_cons_of_mem _ hin)
    have hrun : (checkRemovable ownerId (first :: rest)).run s =
        (if !task.status.terminal then Eff.raise (.activeTaskExists first)
          else do
            let removed ← checkRemovable ownerId rest
            pure (first :: removed) : Eff SessionRecords DeletionError (List String)).run s := by
      rw [checkRemovable, Eff.run_get_bind, htask]
      simp only [howner, ne_eq, not_true_eq_false, if_false]
    rw [hrun]
    by_cases hterminal : task.status.terminal = true
    · rw [hterminal, if_neg (by decide)]
      constructor
      · intro hall
        rw [Eff.run_bind_ok (hgo fun taskId hin => hall taskId (List.mem_cons_of_mem _ hin))]
        rfl
      · intro hactive
        obtain ⟨e, he⟩ := hstop fun hall => hactive (List.forall_mem_cons.mpr
          ⟨fun other hother => by rw [htask] at hother; exact Option.some.inj hother ▸ hterminal,
            hall⟩)
        exact ⟨e, Eff.run_bind_error he⟩
    · rw [Bool.not_eq_true] at hterminal
      rw [hterminal, if_pos (by decide)]
      constructor
      · intro hall
        have hfirst := hall first List.mem_cons_self task htask
        rw [hterminal] at hfirst
        cases hfirst
      · exact fun _ => ⟨_, rfl⟩

/-- `delete_many` of stored tasks of the owner. -/
theorem performs_deleteMany {tasks : List Task}
    (hstored : ∀ task ∈ tasks, s.tasks.find? task.taskId = some task ∧ task.ownerId = ownerId) :
    Performs ownerId (deleteMany script ownerId (tasks.map Task.taskId)) s
      (tasksPlan script tasks) := by
  unfold deleteMany tasksPlan
  by_cases hempty : tasks = []
  · rw [if_pos hempty, Eff.when_neg (by rw [hempty]; exact not_not.mpr rfl)]
    exact Performs.pure
  have hids : tasks.map Task.taskId ≠ [] := fun h => hempty (List.map_eq_nil_iff.mp h)
  rw [if_neg hempty, Eff.when_pos hids]
  have hmem : ∀ taskId ∈ script.order (tasks.map Task.taskId), ∃ task ∈ tasks,
      task.taskId = taskId := by
    intro taskId hin
    obtain ⟨task, htask, hid⟩ := List.mem_map.mp ((script.mem_order _ _).mp hin)
    exact ⟨task, htask, hid⟩
  have hfound : ∀ taskId ∈ script.order (tasks.map Task.taskId),
      ∃ task, s.tasks.find? taskId = some task ∧ task.ownerId = ownerId := by
    intro taskId hin
    obtain ⟨task, htask, rfl⟩ := hmem taskId hin
    exact ⟨task, hstored task htask⟩
  have hactive : (∀ taskId ∈ script.order (tasks.map Task.taskId), ∀ task,
      s.tasks.find? taskId = some task → task.status.terminal = true) ↔
      ∀ task ∈ tasks, task.status.terminal = true := by
    constructor
    · intro hall task htask
      have hin : task.taskId ∈ script.order (tasks.map Task.taskId) :=
        (script.mem_order _ _).mpr (List.mem_map_of_mem htask)
      exact hall task.taskId hin task (hstored task htask).1
    · intro hall taskId hin task htask
      obtain ⟨listed, hlisted, rfl⟩ := hmem taskId hin
      rw [(hstored listed hlisted).1] at htask
      exact Option.some.inj htask ▸ hall listed hlisted
  obtain ⟨hgo, hstop⟩ := run_checkRemovable hfound
  by_cases hall : ∀ task ∈ tasks, task.status.terminal = true
  · rw [if_pos hall]
    have hnonempty : script.order (tasks.map Task.taskId) ≠ [] := by
      intro hnil
      obtain ⟨first, hfirst⟩ := List.exists_mem_of_ne_nil _ hids
      have hin := (script.mem_order _ _).mpr hfirst
      rw [hnil] at hin
      cases hin
    have hfault : (if script.tasks = .after ∧ script.order (tasks.map Task.taskId) = [] then .none
        else script.tasks) = script.tasks := if_neg fun h => hnonempty h.2
    have hrun := hgo (hactive.mpr hall)
    constructor
    · rw [Eff.run_bind_ok hrun, hfault]
      exact (performs_eraseOr _ _ _).state
    · rw [Eff.run_bind_ok hrun, hfault]
      exact (performs_eraseOr _ _ _).ok
  · rw [if_neg hall]
    obtain ⟨e, hrun⟩ := hstop fun h => hall (hactive.mp h)
    constructor
    · rw [Eff.run_bind_error hrun]
      rfl
    · rw [Eff.run_bind_error hrun]
      exact iff_of_false (fun h => (by cases h)) (fun h => (by cases h))

/-- The loop over the sessions, each of which is there. -/
theorem performs_deleteSessions (sessionIds : List String) (hnodup : sessionIds.Nodup)
    (s : SessionRecords) (hstored : ∀ id ∈ sessionIds, s.sessions.find? id ≠ none) :
    Performs ownerId (Eff.forEach sessionIds (deleteSession script ownerId)) s
      (sessionIds.map (sessionPlan script)) := by
  induction sessionIds generalizing s with
  | nil => exact Performs.pure
  | cons sessionId rest ih =>
    obtain ⟨hnot, hrest⟩ := List.nodup_cons.mp hnodup
    have hsome : (s.sessions.find? sessionId).isSome = true :=
      Option.isSome_iff_ne_none.mpr (hstored sessionId List.mem_cons_self)
    have hfirst : Performs ownerId (deleteSession script ownerId sessionId) s
        [sessionPlan script sessionId] := by
      refine Performs.get_bind ?_
      unfold sessionPlan
      by_cases hid : isHexId "ses_" sessionId = true
      · rw [if_pos ⟨hid, hsome⟩, if_pos hid]
        exact performs_eraseOr _ _ _
      · rw [if_neg fun h => hid h.1, if_neg hid]
        exact performs_raise _ _
    refine Performs.bind hfirst (ih hrest _ fun id hin => ?_)
    -- deleting the first session leaves the others
    have hne : id ≠ sessionId := fun he => hnot (he ▸ hin)
    have hkept : ∀ w ∈ (attempt [sessionPlan script sessionId]).1, w = .session sessionId := by
      intro w hw
      obtain ⟨step, hstep, rfl⟩ := List.mem_map.mp (mem_of_mem_attempt hw)
      rw [List.mem_singleton.mp hstep]
      rfl
    refine applyAll_invariant (fun s : SessionRecords => s.sessions.find? id ≠ none)
      (fun w hw s hs => ?_)
      (hstored id (List.mem_cons_of_mem _ hin))
    rw [hkept w hw]
    show (s.sessions.delete sessionId).find? id ≠ none
    rw [Table.find?_delete, if_neg hne]
    exact hs

/-! ## What an edit leaves alone -/

theorem mem_attempt_fst {steps : List (RecordEdit × Fault)} {w : RecordEdit}
    (h : w ∈ (attempt steps).1) : ∃ fault, (w, fault) ∈ steps := by
  obtain ⟨step, hstep, rfl⟩ := List.mem_map.mp (mem_of_mem_attempt h)
  exact ⟨step.2, hstep⟩

theorem sessions_applyAll {ws : List RecordEdit} (hws : ∀ w ∈ ws, ∀ id, w ≠ .session id) :
    (applyAll (edit ownerId) s ws).sessions = s.sessions := by
  refine applyAll_invariant (fun t : SessionRecords => t.sessions = s.sessions)
    (fun w hw t ht => ?_) rfl
  rw [← ht]
  cases w with
  | session id => exact absurd rfl (hws _ hw id)
  | _ => rfl

theorem files_applyAll {ws : List RecordEdit} (hws : ∀ w ∈ ws, ∀ path, w ≠ .path path) :
    (applyAll (edit ownerId) s ws).files = s.files := by
  refine applyAll_invariant (fun t : SessionRecords => t.files = s.files) (fun w hw t ht => ?_) rfl
  rw [← ht]
  cases w with
  | path removed => exact absurd rfl (hws _ hw removed)
  | _ => rfl

theorem tasks_applyAll {ws : List RecordEdit}
    (hws : ∀ w ∈ ws, (∀ ids, w ≠ .tasks ids) ∧ ∀ tasks, w ≠ .arrive tasks) :
    (applyAll (edit ownerId) s ws).tasks = s.tasks := by
  refine applyAll_invariant (fun t : SessionRecords => t.tasks = s.tasks) (fun w hw t ht => ?_) rfl
  rw [← ht]
  cases w with
  | tasks ids => exact absurd rfl ((hws _ hw).1 ids)
  | arrive tasks => exact absurd rfl ((hws _ hw).2 tasks)
  | _ => rfl

theorem runPlan_congr (h : t.files = s.files) (runId : String) :
    runPlan script t runId = runPlan script s runId := by
  unfold runPlan pathsOf
  rw [h]

/-- A stored task stays when others are created. -/
theorem find?_arrive {tasks : List Task} {taskId : String} {task : Task}
    (h : s.tasks.find? taskId = some task) : (s.arrive tasks).tasks.find? taskId = some task := by
  show (tasks.foldl createTask s.tasks).find? taskId = some task
  induction tasks generalizing s with
  | nil => exact h
  | cons first rest ih =>
    rw [List.foldl_cons]
    refine ih (s := { s with tasks := createTask s.tasks first }) ?_
    show (createTask s.tasks first).find? taskId = some task
    unfold createTask
    by_cases hfree : s.tasks.find? first.taskId = none
    · rw [dif_pos hfree, Table.find?_insertNew, if_neg]
      · exact h
      · rintro rfl
        rw [hfree] at h
        cases h
    · rw [dif_neg hfree]
      exact h

/-! ## The whole deletion -/

theorem mem_approvalsPlan {taskIds : List String} {w : RecordEdit} {fault : Fault}
    (h : (w, fault) ∈ approvalsPlan script ownerId s taskIds) : w = .approvals taskIds := by
  unfold approvalsPlan at h
  split at h
  · cases h
  · exact congrArg Prod.fst (List.mem_singleton.mp h)

theorem mem_runsPlan {runIds : List String} {w : RecordEdit} {fault : Fault}
    (h : (w, fault) ∈ runIds.flatMap (runPlan script s)) : ∃ path, w = .path path := by
  obtain ⟨runId, -, hin⟩ := List.mem_flatMap.mp h
  unfold runPlan at hin
  split at hin
  · obtain ⟨path, -, hpath⟩ := List.mem_map.mp hin
    exact ⟨path, (congrArg Prod.fst hpath).symm⟩
  · exact ⟨_, congrArg Prod.fst (List.mem_singleton.mp hin)⟩

theorem mem_tasksPlan {tasks : List Task} {w : RecordEdit} {fault : Fault}
    (h : (w, fault) ∈ tasksPlan script tasks) :
    w = .tasks (script.order (tasks.map Task.taskId)) := by
  unfold tasksPlan at h
  split at h
  · cases h
  · exact congrArg Prod.fst (List.mem_singleton.mp h)

theorem mem_sessionsPlan {sessionIds : List String} {w : RecordEdit} {fault : Fault}
    (h : (w, fault) ∈ sessionIds.map (sessionPlan script)) :
    ∃ id ∈ sessionIds, w = .session id := by
  obtain ⟨id, hid, hin⟩ := List.mem_map.mp h
  exact ⟨id, hid, (congrArg Prod.fst hin).symm⟩

/-- The listed tasks are stored, and are the owner's. -/
def Lists (ownerId : String) (tasks : List Task) (s : SessionRecords) : Prop :=
  ∀ task ∈ tasks, s.tasks.find? task.taskId = some task ∧ task.ownerId = ownerId

theorem Lists.arrive {tasks created : List Task} (h : Lists ownerId tasks s) :
    Lists ownerId tasks (s.arrive created) :=
  fun task htask => ⟨find?_arrive (h task htask).1, (h task htask).2⟩

theorem Lists.of_tasks {tasks : List Task} (h : Lists ownerId tasks s) (ht : t.tasks = s.tasks) :
    Lists ownerId tasks t := by
  intro task htask
  rw [ht]
  exact h task htask

/-- From `delete_many` on. -/
theorem performs_late {sessionIds : List String} {tasks : List Task} (hnodup : sessionIds.Nodup)
    (hsessions : ∀ id ∈ sessionIds, t.sessions.find? id ≠ none) (hlists : Lists ownerId tasks t) :
    Performs ownerId (do
      deleteMany script ownerId (tasks.map Task.taskId)
      Eff.forEach sessionIds (deleteSession script ownerId)) t
      (latePlan script sessionIds tasks) := by
  refine Performs.bind (performs_deleteMany hlists)
    (performs_deleteSessions sessionIds hnodup _ fun id hin => ?_)
  rw [sessions_applyAll]
  · exact hsessions id hin
  · intro w hw other he
    obtain ⟨fault, hmem⟩ := mem_attempt_fst hw
    rw [he] at hmem
    cases mem_tasksPlan hmem

/-- From the run directories on. -/
theorem performs_fromRuns {sessionIds : List String} {tasks : List Task} (hnodup : sessionIds.Nodup)
    (hfiles : t.files = s.files) (hsessions : ∀ id ∈ sessionIds, t.sessions.find? id ≠ none)
    (hlists : Lists ownerId tasks t) :
    Performs ownerId (do
      deleteRunArtifacts script ownerId ((tasks.map Task.runId).filter (· ≠ ""))
      Eff.modify fun s => s.arrive script.afterRuns
      deleteMany script ownerId (tasks.map Task.taskId)
      Eff.forEach sessionIds (deleteSession script ownerId)) t
      ((script.order ((tasks.map Task.runId).filter (· ≠ ""))).flatMap (runPlan script s) ++
        ([(.arrive script.afterRuns, .none)] ++ latePlan script sessionIds tasks)) := by
  have hplan : ∀ runId ∈ script.order ((tasks.map Task.runId).filter (· ≠ "")),
      runPlan script s runId = runPlan script t runId :=
    fun runId _ => (runPlan_congr hfiles _).symm
  rw [List.flatMap_congr hplan]
  refine Performs.bind (performs_deleteRuns _ (script.nodup_order _) t) ?_
  -- only paths have been removed
  have hpaths : ∀ w ∈ (attempt ((script.order ((tasks.map Task.runId).filter (· ≠ ""))).flatMap
      (runPlan script t))).1, ∃ path, w = .path path := by
    intro w hw
    obtain ⟨fault, hmem⟩ := mem_attempt_fst hw
    exact mem_runsPlan hmem
  refine Performs.bind (Performs.edit (.arrive script.afterRuns)) (performs_late hnodup ?_ ?_)
  · intro id hin
    show (applyAll (edit ownerId) t _).sessions.find? id ≠ none
    rw [sessions_applyAll fun w hw id he => ?_]
    · exact hsessions id hin
    · obtain ⟨path, rfl⟩ := hpaths w hw
      cases he
  · refine Lists.arrive (hlists.of_tasks (tasks_applyAll fun w hw => ?_))
    obtain ⟨path, rfl⟩ := hpaths w hw
    exact ⟨fun _ he => (by cases he), fun _ he => (by cases he)⟩

variable (script) in
/-- What `delete_sessions` does once it has listed the tasks. -/
theorem performs_deleteListed {sessionIds : List String} {tasks : List Task}
    (hnodup : sessionIds.Nodup) (hsessions : ∀ id ∈ sessionIds, s.sessions.find? id ≠ none)
    (hlists : Lists ownerId tasks s) :
    Performs ownerId (deleteListed script ownerId sessionIds tasks) s
      (plan script ownerId s sessionIds tasks) := by
  have hplan : plan script ownerId s sessionIds tasks =
      [(.arrive script.afterListing, .none)] ++
      (approvalsPlan script ownerId s (tasks.map Task.taskId) ++
      ([(.arrive script.afterApprovals, .none)] ++
      ((script.order ((tasks.map Task.runId).filter (· ≠ ""))).flatMap (runPlan script s) ++
      ([(.arrive script.afterRuns, .none)] ++ latePlan script sessionIds tasks)))) := by
    simp only [plan, earlyPlan, List.append_assoc, List.cons_append, List.nil_append]
  have happrovals : ∀ w ∈ (attempt (approvalsPlan script ownerId s (tasks.map Task.taskId))).1,
      ∃ ids, w = .approvals ids := by
    intro w hw
    obtain ⟨fault, hin⟩ := mem_attempt_fst hw
    exact ⟨_, mem_approvalsPlan hin⟩
  rw [hplan]
  refine Performs.bind (Performs.edit (.arrive script.afterListing)) ?_
  refine Performs.bind (performs_deleteForTasks _) ?_
  refine Performs.bind (Performs.edit (.arrive script.afterApprovals))
    (performs_fromRuns hnodup ?_ ?_ ?_)
  · show (applyAll (edit ownerId) (s.arrive script.afterListing) _).files = s.files
    rw [files_applyAll fun w hw path he => ?_]
    · rfl
    · obtain ⟨ids, rfl⟩ := happrovals w hw
      cases he
  · intro id hin
    show (applyAll (edit ownerId) (s.arrive script.afterListing) _).sessions.find? id ≠ none
    rw [sessions_applyAll fun w hw id he => ?_]
    · exact hsessions id hin
    · obtain ⟨ids, rfl⟩ := happrovals w hw
      cases he
  · refine Lists.arrive (Lists.of_tasks (s := s.arrive script.afterListing) hlists.arrive
      (tasks_applyAll fun w hw => ?_))
    obtain ⟨ids, rfl⟩ := happrovals w hw
    exact ⟨fun _ he => (by cases he), fun _ he => (by cases he)⟩

/-! ## The checks -/

theorem run_loads (sessionIds : List String) :
    ((∀ sessionId ∈ sessionIds, script.loads sessionId = none ∧
        ∃ session, s.sessions.find? sessionId = some session ∧ session.ownerId = ownerId) →
      (Eff.forEach sessionIds (load script ownerId)).run s = (.ok (), s)) ∧
    ((¬ ∀ sessionId ∈ sessionIds, script.loads sessionId = none ∧
        ∃ session, s.sessions.find? sessionId = some session ∧ session.ownerId = ownerId) →
      ∃ e, (Eff.forEach sessionIds (load script ownerId)).run s = (.error e, s)) := by
  induction sessionIds with
  | nil => exact ⟨fun _ => rfl, fun h => absurd (List.forall_mem_nil _) h⟩
  | cons first rest ih =>
    obtain ⟨hgo, hstop⟩ := ih
    -- the first session is read, or raises
    have hfirst : ((script.loads first = none ∧
          ∃ session, s.sessions.find? first = some session ∧ session.ownerId = ownerId) ∧
        (load script ownerId first).run s = (.ok (), s)) ∨
        ((¬ (script.loads first = none ∧
          ∃ session, s.sessions.find? first = some session ∧ session.ownerId = ownerId)) ∧
        ∃ e, (load script ownerId first).run s = (.error e, s)) := by
      unfold load
      rw [Eff.run_get_bind]
      cases hfound : s.sessions.find? first with
      | none => exact Or.inr ⟨fun ⟨_, _, h, _⟩ => (by cases h), _, rfl⟩
      | some session =>
        cases hloads : script.loads first with
        | some e => exact Or.inr ⟨fun ⟨h, _⟩ => (by cases h), e, rfl⟩
        | none =>
          by_cases howner : session.ownerId = ownerId
          · refine Or.inl ⟨⟨rfl, session, rfl, howner⟩, ?_⟩
            simp only [Eff.when_neg (not_not.mpr howner)]
            rfl
          · refine Or.inr ⟨?_, .sessionNotFound first, ?_⟩
            · rintro ⟨-, other, hother, hmine⟩
              exact howner (Option.some.inj hother ▸ hmine)
            · simp only [Eff.when_pos howner]
              rfl
    rcases hfirst with ⟨hok, hrun⟩ | ⟨hbad, e, hrun⟩
    · constructor
      · intro hall
        show (load script ownerId first >>= fun _ => _).run s = _
        rw [Eff.run_bind_ok hrun]
        exact hgo fun id hin => hall id (List.mem_cons_of_mem _ hin)
      · intro hnot
        obtain ⟨e, he⟩ := hstop fun hall => hnot (List.forall_mem_cons.mpr ⟨hok, hall⟩)
        refine ⟨e, ?_⟩
        show (load script ownerId first >>= fun _ => _).run s = _
        rw [Eff.run_bind_ok hrun]
        exact he
    · constructor
      · exact fun hall => absurd (hall first List.mem_cons_self) hbad
      · exact fun _ => ⟨e, Eff.run_bind_error hrun⟩

/-- The tasks a listing gives. -/
theorem mem_listForSessions {sessionIds : List String} {task : Task} :
    task ∈ s.listForSessions sessionIds ownerId ↔
      task ∈ s.tasks.rows ∧ Belongs sessionIds ownerId task := by
  unfold listForSessions Belongs
  rw [List.mem_flatMap]
  constructor
  · rintro ⟨sessionId, hid, hin⟩
    obtain ⟨hrow, hcond⟩ := List.mem_filter.mp hin
    obtain ⟨hsession, howner⟩ := of_decide_eq_true hcond
    exact ⟨hrow, hsession ▸ hid, howner⟩
  · rintro ⟨hrow, hid, howner⟩
    exact ⟨task.sessionId, hid, List.mem_filter.mpr ⟨hrow, decide_eq_true ⟨rfl, howner⟩⟩⟩

theorem run_ensureSessionsDeletable (sessionIds : List String) :
    ((sessionIds ≠ [] → script.checkFails = false ∧ ∀ task ∈ s.tasks.rows,
        Belongs sessionIds ownerId task → task.status.terminal = true) →
      (ensureSessionsDeletable script ownerId sessionIds).run s = (.ok (), s)) ∧
    ((¬ (sessionIds ≠ [] → script.checkFails = false ∧ ∀ task ∈ s.tasks.rows,
        Belongs sessionIds ownerId task → task.status.terminal = true)) →
      ∃ e, (ensureSessionsDeletable script ownerId sessionIds).run s = (.error e, s)) := by
  unfold ensureSessionsDeletable
  rw [Eff.run_get_bind]
  by_cases hempty : sessionIds = []
  · rw [Eff.when_neg (not_not.mpr hempty)]
    exact ⟨fun _ => rfl, fun h => absurd (fun hne => absurd hempty hne) h⟩
  rw [Eff.when_pos hempty]
  cases hfails : script.checkFails with
  | true =>
    rw [Eff.when_pos rfl]
    exact ⟨fun h => (by cases (h hempty).1), fun _ => ⟨.storage, rfl⟩⟩
  | false =>
    rw [Eff.when_neg (by decide), Eff.run_pure_bind]
    cases hactive : (s.listForSessions sessionIds ownerId).find? fun task =>
        !task.status.terminal with
    | none =>
      rw [List.find?_eq_none] at hactive
      refine ⟨fun _ => rfl, fun h => absurd (fun _ => ⟨rfl, fun task htask hbelongs => ?_⟩) h⟩
      simpa using hactive task (mem_listForSessions.mpr ⟨htask, hbelongs⟩)
    | some active =>
      obtain ⟨hrow, hbelongs⟩ := mem_listForSessions.mp (List.mem_of_find?_eq_some hactive)
      have hstatus : (!active.status.terminal) = true := by simpa using List.find?_some hactive
      refine ⟨fun h => ?_, fun _ => ⟨.activeTaskExists active.taskId, rfl⟩⟩
      rw [(h hempty).2 active hrow hbelongs] at hstatus
      cases hstatus

/-! ## What is there after a list of edits -/

/-- The edit deletes the approval. -/
def RecordEdit.DropsApproval (ownerId : String) (approval : Approval) : RecordEdit → Prop
  | .approvals taskIds => approval.taskId ∈ taskIds ∧ approval.ownerId = ownerId
  | _ => False

/-- The edit deletes the task. -/
def RecordEdit.DropsTask (task : Task) : RecordEdit → Prop
  | .tasks taskIds => task.taskId ∈ taskIds
  | _ => False

/-- The edit deletes the session. -/
def RecordEdit.DropsSession (session : SessionRecord) : RecordEdit → Prop
  | .session sessionId => session.id = sessionId
  | _ => False

theorem mem_approvals_applyAll {ws : List RecordEdit} {approval : Approval} :
    approval ∈ (applyAll (edit ownerId) s ws).approvals.rows ↔
      approval ∈ s.approvals.rows ∧ ∀ w ∈ ws, ¬ w.DropsApproval ownerId approval := by
  refine applyAll_iff_of_removes (P := fun s : SessionRecords => approval ∈ s.approvals.rows)
    fun w _ s => ?_
  cases w with
  | approvals taskIds =>
    show approval ∈ (s.approvals.keep _).rows ↔ _
    rw [Table.mem_keep, Bool.not_eq_true', decide_eq_false_iff_not]
    rfl
  | _ => exact ⟨fun h => ⟨h, fun hdrops => hdrops⟩, And.left⟩

theorem mem_files_applyAll {ws : List RecordEdit} {path : RunPath} :
    path ∈ (applyAll (edit ownerId) s ws).files ↔
      path ∈ s.files ∧ ∀ w ∈ ws, w ≠ .path path := by
  refine applyAll_iff_of_removes (P := fun s : SessionRecords => path ∈ s.files) fun w _ s => ?_
  cases w with
  | path removed =>
    show path ∈ s.files.filter _ ↔ _
    rw [List.mem_filter, decide_eq_true_eq, RecordEdit.path.injEq, ne_comm]
  | _ => exact ⟨fun h => ⟨h, fun he => (by cases he)⟩, And.left⟩

theorem mem_sessions_applyAll {ws : List RecordEdit} {session : SessionRecord} :
    session ∈ (applyAll (edit ownerId) s ws).sessions.rows ↔
      session ∈ s.sessions.rows ∧ ∀ w ∈ ws, ¬ w.DropsSession session := by
  refine applyAll_iff_of_removes (P := fun s : SessionRecords => session ∈ s.sessions.rows)
    fun w _ s => ?_
  cases w with
  | session sessionId =>
    show session ∈ (s.sessions.keep _).rows ↔ _
    rw [Table.mem_keep, decide_eq_true_eq]
    rfl
  | _ => exact ⟨fun h => ⟨h, fun hdrops => hdrops⟩, And.left⟩

/-- Where no task comes in between. -/
theorem mem_tasks_applyAll {ws : List RecordEdit} {task : Task}
    (hws : ∀ w ∈ ws, ∀ tasks, w ≠ .arrive tasks) :
    task ∈ (applyAll (edit ownerId) s ws).tasks.rows ↔
      task ∈ s.tasks.rows ∧ ∀ w ∈ ws, ¬ w.DropsTask task := by
  refine applyAll_iff_of_removes (P := fun s : SessionRecords => task ∈ s.tasks.rows)
    fun w hw s => ?_
  cases w with
  | tasks taskIds =>
    show task ∈ (s.tasks.keep _).rows ↔ _
    rw [Table.mem_keep, Bool.not_eq_true', decide_eq_false_iff_not]
    rfl
  | arrive tasks => exact absurd rfl (hws _ hw tasks)
  | _ => exact ⟨fun h => ⟨h, fun hdrops => hdrops⟩, And.left⟩

theorem mem_tasks_arrive {tasks : List Task} {task : Task} (h : task ∈ s.tasks.rows) :
    task ∈ (s.arrive tasks).tasks.rows :=
  Table.mem_iff_find?.mpr (find?_arrive (Table.mem_iff_find?.mp h))

/-- A task stays as long as no edit deletes it. -/
theorem tasks_stay {ws : List RecordEdit} {task : Task} (h : task ∈ s.tasks.rows)
    (hws : ∀ w ∈ ws, ¬ w.DropsTask task) : task ∈ (applyAll (edit ownerId) s ws).tasks.rows := by
  refine applyAll_invariant (fun s : SessionRecords => task ∈ s.tasks.rows) (fun w hw s hs => ?_) h
  cases w with
  | tasks taskIds =>
    show task ∈ (s.tasks.keep _).rows
    rw [Table.mem_keep, Bool.not_eq_true', decide_eq_false_iff_not]
    exact ⟨hs, hws _ hw⟩
  | arrive tasks => exact mem_tasks_arrive hs
  | _ => exact hs

/-! ## A deletion that raises -/

/-- After edits of which none deletes a task before one that creates some, everything remains
exactly where no edit deleted anything. -/
theorem remains_iff_vacuous {early late : List RecordEdit}
    (hearly : ∀ w ∈ early, ∀ taskIds, w ≠ .tasks taskIds)
    (hlate : ∀ w ∈ late, ∀ tasks, w ≠ .arrive tasks) :
    Remains s (applyAll (edit ownerId) s (early ++ late)) ↔
      ∀ w ∈ early ++ late, w.Vacuous ownerId s := by
  constructor
  · intro h w hw
    cases w with
    | approvals taskIds =>
      intro approval hrow hid howner
      exact (mem_approvals_applyAll.mp (h.approvals approval hrow)).2 _ hw ⟨hid, howner⟩
    | path removed =>
      intro hin
      exact (mem_files_applyAll.mp (h.files removed hin)).2 _ hw rfl
    | tasks taskIds =>
      intro task hrow hid
      have hkept := h.tasks task hrow
      rw [applyAll_append, mem_tasks_applyAll hlate] at hkept
      rcases List.mem_append.mp hw with hin | hin
      · exact hearly _ hin taskIds rfl
      · exact hkept.2 _ hin hid
    | session sessionId =>
      intro session hrow hid
      exact (mem_sessions_applyAll.mp (h.sessions session hrow)).2 _ hw hid
    | arrive tasks => trivial
  · intro h
    constructor
    · intro session hrow
      refine mem_sessions_applyAll.mpr ⟨hrow, fun w hw hdrops => ?_⟩
      cases w with
      | session sessionId => exact h _ hw session hrow hdrops
      | _ => exact hdrops
    · intro task hrow
      refine tasks_stay hrow fun w hw hdrops => ?_
      cases w with
      | tasks taskIds => exact h _ hw task hrow hdrops
      | _ => exact hdrops
    · intro approval hrow
      refine mem_approvals_applyAll.mpr ⟨hrow, fun w hw hdrops => ?_⟩
      cases w with
      | approvals taskIds => exact h _ hw approval hrow hdrops.1 hdrops.2
      | _ => exact hdrops
    · intro path hin
      refine mem_files_applyAll.mpr ⟨hin, fun w hw he => ?_⟩
      subst he
      exact h _ hw hin

theorem early_spares_tasks {tasks : List Task} {w : RecordEdit}
    (h : w ∈ (earlyPlan script ownerId s tasks).map Prod.fst) (taskIds : List String) :
    w ≠ .tasks taskIds := by
  rintro rfl
  obtain ⟨step, hstep, he⟩ := List.mem_map.mp h
  obtain ⟨w, fault⟩ := step
  obtain rfl : w = .tasks taskIds := he
  unfold earlyPlan at hstep
  rcases List.mem_cons.mp hstep with he | hstep
  · cases he
  rcases List.mem_append.mp hstep with hin | hstep
  · cases mem_approvalsPlan hin
  rcases List.mem_cons.mp hstep with he | hstep
  · cases he
  rcases List.mem_append.mp hstep with hin | hstep
  · obtain ⟨path, he⟩ := mem_runsPlan hin
    cases he
  · cases List.mem_singleton.mp hstep

theorem late_creates_none {sessionIds : List String} {tasks : List Task} {w : RecordEdit}
    (h : w ∈ (latePlan script sessionIds tasks).map Prod.fst) (created : List Task) :
    w ≠ .arrive created := by
  rintro rfl
  obtain ⟨step, hstep, he⟩ := List.mem_map.mp h
  obtain ⟨w, fault⟩ := step
  obtain rfl : w = .arrive created := he
  rcases List.mem_append.mp hstep with hin | hin
  · cases mem_tasksPlan hin
  · obtain ⟨id, -, he⟩ := mem_sessionsPlan hin
    cases he

/-- What takes effect of one list of steps and then another is some of the one and then some of
the other. -/
theorem attempt_split (early late : List (RecordEdit × Fault)) :
    ∃ first rest, (attempt (early ++ late)).1 = first ++ rest ∧
      (∀ w ∈ first, w ∈ early.map Prod.fst) ∧ ∀ w ∈ rest, w ∈ late.map Prod.fst := by
  cases hok : (attempt early).2 with
  | true =>
    rw [attempt_append_of_ok hok]
    exact ⟨_, _, rfl, fun w hw => mem_of_mem_attempt hw, fun w hw => mem_of_mem_attempt hw⟩
  | false =>
    rw [attempt_append_of_failed hok]
    exact ⟨_, [], (List.append_nil _).symm, fun w hw => mem_of_mem_attempt hw, nofun⟩

/-- Past the checks, everything remains exactly where the edits made deleted nothing. -/
theorem remains_iff_attempt {sessionIds : List String} {tasks created : List Task} :
    Remains s (applyAll (edit ownerId) (s.arrive created)
        (attempt (plan script ownerId s sessionIds tasks)).1) ↔
      ∀ w ∈ (attempt (plan script ownerId s sessionIds tasks)).1, w.Vacuous ownerId s := by
  obtain ⟨first, rest, hdone, hfirst, hrest⟩ :=
    attempt_split (earlyPlan script ownerId s tasks) (latePlan script sessionIds tasks)
  have hplan : (attempt (plan script ownerId s sessionIds tasks)).1 = first ++ rest := hdone
  rw [hplan]
  -- the tasks that came after the check are one more edit, before all the others
  have harrive : applyAll (edit ownerId) (s.arrive created) (first ++ rest) =
      applyAll (edit ownerId) s ((.arrive created :: first) ++ rest) := rfl
  rw [harrive, remains_iff_vacuous]
  · rw [List.cons_append, List.forall_mem_cons]
    exact and_iff_right trivial
  · intro w hw taskIds
    rcases List.mem_cons.mp hw with rfl | hin
    · exact fun he => (by cases he)
    · exact early_spares_tasks (hfirst w hin) taskIds
  · exact fun w hw => late_creates_none (hrest w hw)

/-! ## A deletion that returns -/

theorem arrive_congr {tasks : List Task} (h : t.tasks = s.tasks) :
    (t.arrive tasks).tasks = (s.arrive tasks).tasks := by
  unfold arrive
  rw [h]

/-- The tasks there are once the edits before the tasks have been made. -/
theorem tasks_of_early {tasks : List Task} :
    (applyAll (edit ownerId) (s.arrive script.afterCheck)
      ((earlyPlan script ownerId s tasks).map Prod.fst)).tasks = (gathered script s).tasks := by
  have happrovals : ∀ t : SessionRecords, (applyAll (edit ownerId) t
      ((approvalsPlan script ownerId s (tasks.map Task.taskId)).map Prod.fst)).tasks = t.tasks := by
    intro t
    refine tasks_applyAll fun w hw => ?_
    obtain ⟨step, hstep, rfl⟩ := List.mem_map.mp hw
    rw [mem_approvalsPlan hstep]
    exact ⟨fun _ he => (by cases he), fun _ he => (by cases he)⟩
  have hruns : ∀ t : SessionRecords, (applyAll (edit ownerId) t
      (((script.order ((tasks.map Task.runId).filter (· ≠ ""))).flatMap
        (runPlan script s)).map Prod.fst)).tasks = t.tasks := by
    intro t
    refine tasks_applyAll fun w hw => ?_
    obtain ⟨step, hstep, rfl⟩ := List.mem_map.mp hw
    obtain ⟨path, he⟩ := mem_runsPlan hstep
    rw [he]
    exact ⟨fun _ he => (by cases he), fun _ he => (by cases he)⟩
  unfold earlyPlan
  rw [List.map_cons, List.map_append, List.map_cons, List.map_append, applyAll_cons,
    applyAll_append, applyAll_cons, applyAll_append]
  refine arrive_congr ((hruns _).trans (arrive_congr ((happrovals _).trans ?_)))
  rfl

/-- The tasks there are when nothing raises: those that were not listed. -/
theorem mem_tasks_of_plan {sessionIds : List String} {tasks : List Task} {task : Task} :
    task ∈ (applyAll (edit ownerId) (s.arrive script.afterCheck)
        ((plan script ownerId s sessionIds tasks).map Prod.fst)).tasks.rows ↔
      task ∈ (gathered script s).tasks.rows ∧ task.taskId ∉ tasks.map Task.taskId := by
  unfold plan
  rw [List.map_append, applyAll_append, mem_tasks_applyAll fun w hw => late_creates_none hw,
    tasks_of_early]
  refine and_congr_right fun _ => ?_
  constructor
  · intro hkept hin
    have hnonempty : tasks ≠ [] := by
      rintro rfl
      cases hin
    refine hkept (.tasks (script.order (tasks.map Task.taskId))) ?_
      ((script.mem_order _ _).mpr hin)
    rw [latePlan, tasksPlan, if_neg hnonempty]
    exact List.mem_cons_self
  · intro hnot w hw hdrops
    cases w with
    | tasks taskIds =>
      obtain ⟨step, hstep, he⟩ := List.mem_map.mp hw
      obtain ⟨w, fault⟩ := step
      obtain rfl : w = .tasks taskIds := he
      rcases List.mem_append.mp hstep with hin | hin
      · obtain rfl : taskIds = _ := RecordEdit.tasks.inj (mem_tasksPlan hin)
        exact hnot ((script.mem_order _ _).mp hdrops)
      · obtain ⟨id, -, he⟩ := mem_sessionsPlan hin
        cases he
    | _ => exact hdrops

/-- The plan names the approvals of the listed tasks. -/
theorem approvals_mem_plan {sessionIds : List String} {tasks : List Task} (h : tasks ≠ []) :
    RecordEdit.approvals (tasks.map Task.taskId) ∈
      (plan script ownerId s sessionIds tasks).map Prod.fst := by
  have hids : tasks.map Task.taskId ≠ [] := fun he => h (List.map_eq_nil_iff.mp he)
  rw [plan, earlyPlan, approvalsPlan, if_neg hids]
  exact List.mem_cons_of_mem _ List.mem_cons_self

/-- It names the paths of their runs, unless it raises there. -/
theorem path_mem_plan {sessionIds : List String} {tasks : List Task} {task : Task} {path : RunPath}
    (hnone : ∀ step ∈ plan script ownerId s sessionIds tasks, step.2 = .none)
    (htask : task ∈ tasks) (hrun : task.runId ≠ "") (hpath : path ∈ s.files)
    (hid : path.runId = task.runId) :
    RecordEdit.path path ∈ (plan script ownerId s sessionIds tasks).map Prod.fst := by
  have hin : task.runId ∈ script.order ((tasks.map Task.runId).filter (· ≠ "")) :=
    (script.mem_order _ _).mpr (List.mem_filter.mpr
      ⟨List.mem_map_of_mem htask, decide_eq_true hrun⟩)
  have hplan : ∀ step ∈ runPlan script s task.runId,
      step ∈ plan script ownerId s sessionIds tasks := by
    intro step hstep
    refine List.mem_append_left _ (List.mem_cons_of_mem _ (List.mem_append_right _
      (List.mem_cons_of_mem _ (List.mem_append_left _ ?_))))
    exact List.mem_flatMap.mpr ⟨_, hin, hstep⟩
  have hunder : script.underRoot task.runId = true := by
    by_contra hnot
    have hfault := hnone (.path ⟨task.runId, none⟩, .before) (hplan _ (by
      rw [runPlan, if_neg hnot]
      exact List.mem_cons_self))
    cases hfault
  refine List.mem_map.mpr ⟨(.path path, script.path path), hplan _ ?_, rfl⟩
  rw [runPlan, if_pos hunder]
  refine List.mem_map_of_mem ?_
  -- the directory comes last
  by_cases hname : path.name = none
  · exact List.mem_append_right _ (List.mem_filter.mpr ⟨hpath, decide_eq_true ⟨hid, hname⟩⟩)
  · exact List.mem_append_left _ (List.mem_filter.mpr ⟨hpath, decide_eq_true ⟨hid, hname⟩⟩)

theorem session_mem_plan {sessionIds : List String} {tasks : List Task} {id : String}
    (h : id ∈ sessionIds) :
    RecordEdit.session id ∈ (plan script ownerId s sessionIds tasks).map Prod.fst :=
  List.mem_map.mpr ⟨sessionPlan script id, List.mem_append_right _ (List.mem_append_right _
    (List.mem_map_of_mem h)), rfl⟩

/-- Where nothing raises, nothing is left exactly where every task of the sessions was listed. -/
theorem cleared_iff_listed {sessionIds uniqueIds : List String} {tasks : List Task}
    (hunique : ∀ id ∈ sessionIds, id ∈ uniqueIds)
    (hlisted : ∀ task, task ∈ tasks ↔
      task ∈ (s.arrive script.afterCheck).tasks.rows ∧ Belongs sessionIds ownerId task)
    (hnone : ∀ step ∈ plan script ownerId s uniqueIds tasks, step.2 = .none) :
    Cleared sessionIds ownerId (gathered script s).tasks.rows
        (applyAll (edit ownerId) (s.arrive script.afterCheck)
          ((plan script ownerId s uniqueIds tasks).map Prod.fst)) ↔
      ∀ task ∈ (gathered script s).tasks.rows, Belongs sessionIds ownerId task →
        task ∈ tasks := by
  constructor
  · intro h task hrow hbelongs
    by_contra hnot
    refine h.tasks task (mem_tasks_of_plan.mpr ⟨hrow, fun hin => hnot ?_⟩) hbelongs
    -- the listed task of this id is this one
    obtain ⟨listed, hin, hid⟩ := List.mem_map.mp hin
    have hstays : listed ∈ (gathered script s).tasks.rows :=
      mem_tasks_arrive (mem_tasks_arrive (mem_tasks_arrive ((hlisted listed).mp hin).1))
    exact Table.eq_of_key hstays hrow hid ▸ hin
  · intro hall
    constructor
    · intro session hrow hin howner
      exact (mem_sessions_applyAll.mp hrow).2 _ (session_mem_plan (hunique _ hin)) rfl
    · intro task hrow hbelongs
      obtain ⟨hgathered, hnot⟩ := mem_tasks_of_plan.mp hrow
      exact hnot (List.mem_map_of_mem (hall task hgathered hbelongs))
    · intro task hrow hbelongs approval happroval hid howner
      have hin := hall task hrow hbelongs
      refine (mem_approvals_applyAll.mp happroval).2 _
        (approvals_mem_plan (List.ne_nil_of_mem hin)) ⟨?_, howner⟩
      exact hid ▸ List.mem_map_of_mem hin
    · intro task hrow hbelongs hrun path hpath hid
      obtain ⟨hfile, hkept⟩ := mem_files_applyAll.mp hpath
      exact hkept _ (path_mem_plan hnone (hall task hrow hbelongs) hrun hfile hid) rfl

/-! ## The whole call -/

/-- The sessions are read, the check is made, and the listing is. -/
theorem run_deleteSessions_of_pass {sessionIds : List String}
    (h : ChecksPass script ownerId s sessionIds.eraseDups) :
    (deleteSessions script ownerId sessionIds).run s =
      (deleteListed script ownerId sessionIds.eraseDups
        ((s.arrive script.afterCheck).listForSessions sessionIds.eraseDups ownerId)).run
        (s.arrive script.afterCheck) := by
  obtain ⟨hloads, hcheck, hlisting⟩ := h
  have hlists : script.listingFails ≠ true := by
    rw [hlisting]
    decide
  unfold deleteSessions
  rw [Eff.run_bind_ok ((run_loads _).1 hloads),
    Eff.run_bind_ok ((run_ensureSessionsDeletable _).1 hcheck), Eff.run_modify_bind,
    Eff.when_neg hlists, Eff.run_pure_bind, Eff.run_get_bind]

/-- Where a check raises, nothing has been deleted. -/
theorem run_deleteSessions_of_fail {sessionIds : List String}
    (h : ¬ ChecksPass script ownerId s sessionIds.eraseDups) :
    ∃ e, ((deleteSessions script ownerId sessionIds).run s).1 = .error e ∧
      Remains s ((deleteSessions script ownerId sessionIds).run s).2 := by
  have hself : Remains s s := ⟨fun _ h => h, fun _ h => h, fun _ h => h, fun _ h => h⟩
  unfold deleteSessions
  by_cases hloads : ∀ sessionId ∈ sessionIds.eraseDups, script.loads sessionId = none ∧
      ∃ session, s.sessions.find? sessionId = some session ∧ session.ownerId = ownerId
  swap
  · obtain ⟨e, he⟩ := (run_loads _).2 hloads
    rw [Eff.run_bind_error he]
    exact ⟨e, rfl, hself⟩
  rw [Eff.run_bind_ok ((run_loads _).1 hloads)]
  by_cases hcheck : sessionIds.eraseDups ≠ [] → script.checkFails = false ∧
      ∀ task ∈ s.tasks.rows, Belongs sessionIds.eraseDups ownerId task →
        task.status.terminal = true
  swap
  · obtain ⟨e, he⟩ := (run_ensureSessionsDeletable _).2 hcheck
    rw [Eff.run_bind_error he]
    exact ⟨e, rfl, hself⟩
  rw [Eff.run_bind_ok ((run_ensureSessionsDeletable _).1 hcheck), Eff.run_modify_bind]
  have hlisting : script.listingFails = true := by
    rw [← Bool.not_eq_false]
    exact fun hlists => h ⟨hloads, hcheck, hlists⟩
  rw [Eff.when_pos hlisting]
  exact ⟨.storage, rfl, fun _ h => h, fun _ h => mem_tasks_arrive h, fun _ h => h, fun _ h => h⟩

theorem belongs_eraseDups {sessionIds : List String} {task : Task} :
    Belongs sessionIds.eraseDups ownerId task ↔ Belongs sessionIds ownerId task :=
  and_congr_left' List.mem_eraseDups

/-- Deleting sessions is all or nothing exactly where a deletion that raises past its checks had
nothing to delete until then, and where no task comes to the sessions of one that returns. -/
theorem deletion_allOrNothing_iff (script : DeletionScript) (ownerId : String) (s : SessionRecords)
    (sessionIds : List String) :
    AllOrNothing script ownerId s sessionIds ↔ Spares script ownerId s sessionIds := by
  by_cases hchecks : ChecksPass script ownerId s sessionIds.eraseDups
  swap
  · obtain ⟨e, herror, hremains⟩ := run_deleteSessions_of_fail hchecks
    refine iff_of_true ⟨fun _ => hremains, fun hok => ?_⟩ fun h => absurd h hchecks
    rw [herror] at hok
    cases hok
  generalize hlist : (s.arrive script.afterCheck).listForSessions sessionIds.eraseDups ownerId =
    listed
  have hlisted : ∀ task, task ∈ listed ↔
      task ∈ (s.arrive script.afterCheck).tasks.rows ∧ Belongs sessionIds ownerId task := by
    intro task
    rw [← hlist, mem_listForSessions, belongs_eraseDups]
  have hlists : Lists ownerId listed (s.arrive script.afterCheck) := fun task htask =>
    ⟨Table.mem_iff_find?.mp ((hlisted task).mp htask).1, ((hlisted task).mp htask).2.2⟩
  have hsessions : ∀ id ∈ sessionIds.eraseDups,
      (s.arrive script.afterCheck).sessions.find? id ≠ none := by
    intro id hin
    obtain ⟨session, hfound, -⟩ := (hchecks.1 id hin).2
    show s.sessions.find? id ≠ none
    rw [hfound]
    exact Option.some_ne_none _
  have hperforms := performs_deleteListed script (List.nodup_eraseDups sessionIds) hsessions hlists
  -- creating tasks changes neither the approvals nor the run directories
  have hplan : plan script ownerId (s.arrive script.afterCheck) sessionIds.eraseDups listed =
      plan script ownerId s sessionIds.eraseDups listed := rfl
  rw [hplan] at hperforms
  unfold AllOrNothing Spares
  rw [run_deleteSessions_of_pass hchecks, hlist, hperforms.state, hperforms.ok, attempt_ok_iff]
  have hraises : (∃ e, ((deleteListed script ownerId sessionIds.eraseDups listed).run
      (s.arrive script.afterCheck)).1 = .error e) ↔
      ∃ step ∈ plan script ownerId s sessionIds.eraseDups listed, step.2 ≠ .none := by
    have hnot : (¬ ((deleteListed script ownerId sessionIds.eraseDups listed).run
        (s.arrive script.afterCheck)).1 = .ok ()) ↔
        ∃ step ∈ plan script ownerId s sessionIds.eraseDups listed, step.2 ≠ .none := by
      rw [hperforms.ok, attempt_ok_iff, not_forall]
      simp only [not_forall, exists_prop]
    rw [← hnot]
    constructor
    · rintro ⟨e, he⟩ hok
      rw [he] at hok
      cases hok
    · intro hne
      cases hresult : ((deleteListed script ownerId sessionIds.eraseDups listed).run
          (s.arrive script.afterCheck)).1 with
      | ok u => exact absurd hresult hne
      | error e => exact ⟨e, rfl⟩
  rw [hraises, remains_iff_attempt, forall_prop_of_true hchecks]
  refine and_congr_right fun _ => forall_congr' fun hnone => ?_
  rw [attempt_of_ok hnone]
  exact cleared_iff_listed (fun _ => List.mem_eraseDups.mpr) hlisted hnone

end Edits

/-! ## A directory that cannot be removed -/

namespace LockedRun

/-- A finished task with a run directory and a decided approval. -/
def task : Task where
  taskId := "task_1"
  sessionId := "ses_00000000000000000000000000000001"
  workspaceId := "ws_1"
  ownerId := "user"
  runId := "run_1"
  input := "hello"
  status := .completed
  createdAt := "2026-01-01T00:00:00Z"
  updatedAt := "2026-01-01T00:01:00Z"

def approval : Approval where
  approvalId := "appr_1"
  taskId := "task_1"
  runId := "run_1"
  ownerId := "user"
  toolCallId := "call_1"
  toolName := "write_file"
  argsDigest := "00"
  argsPreview := []
  status := .approved
  createdAt := "2026-01-01T00:00:30Z"

def records : SessionRecords where
  sessions := { rows := [⟨"ses_00000000000000000000000000000001", "user"⟩] }
  tasks := { rows := [task] }
  approvals := { rows := [approval] }
  files := [⟨"run_1", some "trace.jsonl"⟩, ⟨"run_1", none⟩]

/-- The file system refuses to remove a file of the run. -/
def script : DeletionScript where
  path := fun path => if path.name = some "trace.jsonl" then .before else .none
  mem_order := fun _ _ => List.mem_eraseDups
  nodup_order := List.nodup_eraseDups

end LockedRun

/-- The approvals are gone when the run directory cannot be removed. -/
theorem not_allOrNothing : ¬ ∀ (script : DeletionScript) (ownerId : String) (s : SessionRecords)
    (sessionIds : List String), AllOrNothing script ownerId s sessionIds := by
  intro hclaim
  have hremains := (hclaim LockedRun.script "user" LockedRun.records
    ["ses_00000000000000000000000000000001"]).1 ⟨.persistenceUnavailable, by decide +kernel⟩
  have happroval := hremains.approvals LockedRun.approval List.mem_cons_self
  revert happroval
  decide +kernel

end SessionRecords

end ThreadForge

import ThreadForge.Hub.Devices
import ThreadForge.Lib.Faults
import Mathlib.Data.List.Dedup

/-!
# Deleting a session or a workspace

`_delete_entity` of the Worker against the threads of the runs. It looks for runs of the entity
once, under the lock, and then deletes run directories, session files and the workspace one after
the other. The lists of the message may name what belongs to other entities.

## Interleaving

What the other threads do before each step is a list of moves. `_start_task` is among them, although
the loop that receives messages starts no run while it deletes.

## What is left out

A run directory is a directory, and its deletion is one step. `start` says nothing about updates.

## Main results

* `deletion_safe_iff` : when a deletion leaves the active runs alone and all or nothing is deleted
-/

namespace ThreadForge

open Faults

/-! ## The objects -/

/-- What a deletion removes. -/
inductive WorkerObject
  | runDir (runId : String)
  | session (sessionId : String)
  | workspace (workspaceId : String)
  deriving DecidableEq, Repr

def WorkerObject.isWorkspace : WorkerObject → Bool
  | .workspace _ => true
  | _ => false

/-- `ActiveRun`, with the run id of its task. -/
structure LocalRun where
  taskId : String
  sessionId : String
  workspaceId : String
  runId : String
  deriving DecidableEq, Repr

/-- The object belongs to the run. -/
def LocalRun.owns (run : LocalRun) : WorkerObject → Prop
  | .runDir id => run.runId = id
  | .session id => run.sessionId = id
  | .workspace id => run.workspaceId = id

/-- A session file. -/
structure LocalSession where
  sessionId : String
  workspaceId : String
  deriving DecidableEq, Repr

/-- The data of the Worker: `stored` is what `workspaces.json` has registered and `config` what
`self.config` has. `seen` are the runs that were active at some moment of the deletion. -/
structure WorkerData where
  active : List LocalRun := []
  seen : List LocalRun := []
  sessions : List LocalSession := []
  runDirs : List String := []
  stored : List String := []
  config : List String := []
  deriving Repr

namespace WorkerData

/-- The object exists. -/
def has (s : WorkerData) : WorkerObject → Prop
  | .runDir id => id ∈ s.runDirs
  | .session id => ∃ item ∈ s.sessions, item.sessionId = id
  | .workspace id => id ∈ s.stored

instance (s : WorkerData) : (o : WorkerObject) → Decidable (s.has o)
  | .runDir id => inferInstanceAs (Decidable (id ∈ s.runDirs))
  | .session id => inferInstanceAs (Decidable (∃ item ∈ s.sessions, item.sessionId = id))
  | .workspace id => inferInstanceAs (Decidable (id ∈ s.stored))

/-! ## The other threads -/

/-- `_start_task`: a run of a workspace that is not registered is refused. -/
def start (s : WorkerData) (run : LocalRun) : WorkerData :=
  if run.workspaceId ∈ s.config then
    { s with
      active := s.active.filter (fun other => other.taskId ≠ run.taskId) ++ [run]
      seen := s.seen ++ [run] }
  else s

/-- An active run stores its session and makes its run directory. -/
def save (s : WorkerData) (run : LocalRun) : WorkerData :=
  { s with
    sessions :=
      if s.has (.session run.sessionId) then s.sessions
      else s.sessions ++ [⟨run.sessionId, run.workspaceId⟩]
    runDirs := if s.has (.runDir run.runId) then s.runDirs else s.runDirs ++ [run.runId] }

/-- The end of a run. -/
def finish (s : WorkerData) (taskId : String) : WorkerData :=
  { s with active := s.active.filter fun other => other.taskId ≠ taskId }

end WorkerData

/-- What another thread does. -/
inductive WorkerMove
  | start (run : LocalRun)
  | save (run : LocalRun)
  | finish (taskId : String)
  deriving DecidableEq, Repr

namespace WorkerData

/-- One move. Only an active run saves. -/
def move (s : WorkerData) : WorkerMove → WorkerData
  | .start run => s.start run
  | .save run => if run ∈ s.active then s.save run else s
  | .finish taskId => s.finish taskId

def moves (s : WorkerData) (ms : List WorkerMove) : WorkerData := ms.foldl move s

/-! ## The deletion -/

/-- An object is removed. `remove_workspace` changes the configuration in memory first. -/
def remove (s : WorkerData) (fault : Fault) : WorkerObject → WorkerData
  | .runDir id =>
    if fault.takesEffect then { s with runDirs := s.runDirs.filter fun other => other ≠ id } else s
  | .session id =>
    if fault.takesEffect then
      { s with sessions := s.sessions.filter fun item => item.sessionId ≠ id }
    else s
  | .workspace id =>
    { s with
      config := s.config.filter fun other => other ≠ id
      stored := if fault.takesEffect then s.stored.filter fun other => other ≠ id else s.stored }

/-- The object is there for the code that deletes it. -/
def present (s : WorkerData) : WorkerObject → Prop
  | .workspace id => id ∈ s.config
  | o => s.has o

instance (s : WorkerData) : (o : WorkerObject) → Decidable (s.present o)
  | .runDir id => inferInstanceAs (Decidable (id ∈ s.runDirs))
  | .session id => inferInstanceAs (Decidable (∃ item ∈ s.sessions, item.sessionId = id))
  | .workspace id => inferInstanceAs (Decidable (id ∈ s.config))

end WorkerData

/-- The tables of CPython, and the order in which it goes through a set. -/
structure DeletionEnv where
  txt : PyText
  setOrder : List String → List String
  mem_setOrder : ∀ items item, item ∈ setOrder items ↔ item ∈ items
  nodup_setOrder : ∀ items, (setOrder items).Nodup

/-- What happens around one deletion: the moves of the other threads, whether the configuration and
the session files can be read, and how each removal ends. -/
structure EntityScript where
  beforeCheck : List WorkerMove := []
  beforeListing : List WorkerMove := []
  beforeStep : Nat → List WorkerMove := fun _ => []
  configReadable : Bool := true
  sessionsReadable : Bool := true
  faults : WorkerObject → Fault := fun _ => .none

/-- How a deletion ends: the reply, the data, and what was removed. -/
structure DeletionEnd where
  completed : Bool
  error : String := ""
  data : WorkerData
  removed : List WorkerObject := []

section Source

variable (env : DeletionEnv) (message : PyDict) (script : EntityScript)

/-- `message.get(key, [])`, as a list of texts. -/
def requestedIds (key : String) : Option (List String) :=
  match message.getD key (.list []) with
  | .list items => some (items.map fun item => item.text env.txt)
  | _ => none

/-- The two lists of the message, where they pass the checks. -/
def requestedLists : Option (List String × List String) := do
  let sessions ← requestedIds env message "session_ids"
  let runs ← requestedIds env message "run_ids"
  if message.textOf env.txt "request_id" ≠ "" ∧ sessions.length ≤ 1000 ∧ runs.length ≤ 1000 ∧
      (∀ id ∈ sessions, isHexId "ses_" id = true) ∧ (∀ id ∈ runs, isHexId "run_" id = true) then
    some (sessions, runs)
  else none

/-- A run of the entity is active. -/
def entityBusy (s : WorkerData) : Bool :=
  s.active.any fun run =>
    (message.textOf env.txt "entity_type" = "session" &&
      run.sessionId = message.textOf env.txt "entity_id") ||
    (message.textOf env.txt "entity_type" = "workspace" &&
      run.workspaceId = message.textOf env.txt "entity_id")

/-- The sessions that go with the entity. -/
def entitySessions (s : WorkerData) : Option (List String) :=
  let entityId := message.textOf env.txt "entity_id"
  if message.textOf env.txt "entity_type" = "session" then
    if isHexId "ses_" entityId then some [entityId] else none
  else if message.textOf env.txt "entity_type" = "workspace" then
    if entityId ∉ s.config ∨ script.sessionsReadable = false then none
    else some ((s.sessions.filter fun item =>
      isHexId "ses_" item.sessionId && item.workspaceId = entityId).map LocalSession.sessionId)
  else none

/-- The workspace, where it is the entity. -/
def entityWorkspace : List WorkerObject :=
  if message.textOf env.txt "entity_type" = "workspace" then
    [.workspace (message.textOf env.txt "entity_id")]
  else []

/-- What is to be deleted, with the data at that moment, or the error. -/
def deletionPlan (s : WorkerData) : Except (String × WorkerData) (List WorkerObject × WorkerData) :=
  let checked := s.moves script.beforeCheck
  match requestedLists env message with
  | none => .error ("delete_failed", checked)
  | some (sessions, runs) =>
    if script.configReadable = false then .error ("delete_failed", checked)
    else
      let loaded := { checked with config := checked.stored }
      if entityBusy env message loaded then .error ("entity_busy", loaded)
      else
        let listed := loaded.moves script.beforeListing
        match entitySessions env message script listed with
        | none => .error ("delete_failed", listed)
        | some more =>
          .ok ((env.setOrder runs).map .runDir ++
              ((env.setOrder (sessions ++ more)).map .session ++ entityWorkspace env message),
            listed)

/-- The removals, one after the other: what is removed, whether none of them raised, and the data
after them. -/
def deleteObjects : Nat → List WorkerObject → WorkerData →
    (List WorkerObject × Bool) × WorkerData
  | _, [], s => (([], true), s)
  | n, o :: rest, s =>
    let s := s.moves (script.beforeStep n)
    if s.present o then
      let after := s.remove (script.faults o) o
      let gone := if (script.faults o).takesEffect then [o] else []
      if script.faults o = .none then
        let next := deleteObjects (n + 1) rest after
        ((gone ++ next.1.1, next.1.2), next.2)
      else ((gone, false), after)
    else if o.isWorkspace then (([], false), s)
    else deleteObjects (n + 1) rest s

/-- `_delete_entity`. -/
def deleteEntity (s : WorkerData) : DeletionEnd :=
  match deletionPlan env message script { s with seen := s.active } with
  | .error (error, data) => { completed := false, error := error, data := data }
  | .ok (objects, data) =>
    let result := deleteObjects script 0 objects data
    { completed := result.1.2
      error := if result.1.2 then "" else "delete_failed"
      data := result.2
      removed := result.1.1 }

end Source

/-! ## Statements -/

/-- Nothing that belongs to a run that was active at some moment of the deletion is removed; and
after a failure everything is there that was there before, the registrations in memory too. -/
structure DeletionSafe (s : WorkerData) (ended : DeletionEnd) : Prop where
  untouched : ∀ o ∈ ended.removed, ∀ run ∈ ended.data.seen, ¬run.owns o
  objects : ended.completed = false → ∀ o, s.has o → ended.data.has o
  registrations : ended.completed = false → ∀ id, id ∈ s.stored → id ∈ s.config →
    id ∈ ended.data.config

section Condition

variable (script : EntityScript)

/-- The objects that are there when their turn comes, were nothing removed. -/
def objectsThere : Nat → List WorkerObject → WorkerData → List WorkerObject
  | _, [], _ => []
  | n, o :: rest, s =>
    let s := s.moves (script.beforeStep n)
    if s.has o then o :: objectsThere (n + 1) rest s else objectsThere (n + 1) rest s

/-- The runs that are active at some moment until the last turn has come. -/
def runsSeen : Nat → List WorkerObject → WorkerData → List LocalRun
  | _, [], s => s.seen
  | n, _ :: rest, s => runsSeen (n + 1) rest (s.moves (script.beforeStep n))

end Condition

/-- The request is refused; or the first removal raises before it takes effect, and is not that of a
workspace that was registered in memory; or no removal raises, and no object that is there when its
turn comes belongs to a run that is active at some moment. -/
def SafeToDelete (env : DeletionEnv) (message : PyDict) (script : EntityScript)
    (s : WorkerData) : Prop :=
  ∀ objects data,
    deletionPlan env message script { s with seen := s.active } = .ok (objects, data) →
    (∀ o, (objectsThere script 0 objects data).head? = some o →
      script.faults o = .before ∧ ∀ id, o = .workspace id → id ∈ s.stored → id ∉ s.config) ∨
    (∀ o ∈ objectsThere script 0 objects data,
      script.faults o = .none ∧ ∀ run ∈ runsSeen script 0 objects data, ¬run.owns o)

/-! ## What moves change -/

namespace WorkerData

variable {s u : WorkerData} {o : WorkerObject}

/-- The runs that are active are among those seen. -/
def Noted (s : WorkerData) : Prop := ∀ run ∈ s.active, run ∈ s.seen

/-- No run that was seen owns the object. -/
def Unowned (s : WorkerData) (o : WorkerObject) : Prop := ∀ run ∈ s.seen, ¬run.owns o

theorem has_save (s : WorkerData) (run : LocalRun) (o : WorkerObject) :
    (s.save run).has o ↔ s.has o ∨ (run.owns o ∧ o.isWorkspace = false) := by
  cases o with
  | runDir id =>
    show id ∈ (if s.has (.runDir run.runId) then s.runDirs else s.runDirs ++ [run.runId]) ↔
      id ∈ s.runDirs ∨ (run.runId = id ∧ false = false)
    split
    · next hthere =>
      refine ⟨Or.inl, ?_⟩
      rintro (h | ⟨rfl, -⟩)
      · exact h
      · exact hthere
    · rw [List.mem_append, List.mem_singleton, eq_comm, and_iff_left rfl]
  | session id =>
    show (∃ item ∈ (if s.has (.session run.sessionId) then s.sessions
        else s.sessions ++ [⟨run.sessionId, run.workspaceId⟩]), item.sessionId = id) ↔
      (∃ item ∈ s.sessions, item.sessionId = id) ∨ (run.sessionId = id ∧ false = false)
    split
    · next hthere =>
      refine ⟨Or.inl, ?_⟩
      rintro (h | ⟨rfl, -⟩)
      · exact h
      · exact hthere
    · constructor
      · rintro ⟨item, hitem, rfl⟩
        rcases List.mem_append.mp hitem with hold | hnew
        · exact Or.inl ⟨item, hold, rfl⟩
        · rw [List.mem_singleton.mp hnew]
          exact Or.inr ⟨rfl, rfl⟩
      · rintro (⟨item, hitem, heq⟩ | ⟨heq, -⟩)
        · exact ⟨item, List.mem_append_left _ hitem, heq⟩
        · exact ⟨_, List.mem_append_right _ (List.mem_singleton.mpr rfl), heq⟩
  | workspace id =>
    show id ∈ s.stored ↔ id ∈ s.stored ∨ (run.workspaceId = id ∧ true = false)
    simp

theorem has_start (s : WorkerData) (run : LocalRun) (o : WorkerObject) :
    (s.start run).has o ↔ s.has o := by
  unfold start
  split
  · cases o <;> rfl
  · rfl

/-- An object that a move adds belongs to an active run. -/
theorem has_move (s : WorkerData) (m : WorkerMove) (o : WorkerObject) :
    (s.move m).has o ↔
      s.has o ∨ ∃ run, m = .save run ∧ run ∈ s.active ∧ run.owns o ∧ o.isWorkspace = false := by
  cases m with
  | start run =>
    have hsame : (s.move (.start run)).has o ↔ s.has o := has_start s run o
    rw [hsame]
    exact ⟨Or.inl, fun h => h.elim id fun ⟨_, heq, _⟩ => by cases heq⟩
  | save run =>
    show (if run ∈ s.active then s.save run else s).has o ↔ _
    by_cases hactive : run ∈ s.active
    · rw [if_pos hactive, has_save]
      constructor
      · exact Or.imp_right fun h => ⟨run, rfl, hactive, h⟩
      · rintro (h | ⟨other, heq, -, h⟩)
        · exact Or.inl h
        · cases heq
          exact Or.inr h
    · rw [if_neg hactive]
      constructor
      · exact Or.inl
      · rintro (h | ⟨other, heq, hother, -⟩)
        · exact h
        · cases heq
          exact absurd hother hactive
  | finish taskId =>
    have hsame : (s.move (.finish taskId)).has o ↔ s.has o := by
      cases o <;> rfl
    rw [hsame]
    exact ⟨Or.inl, fun h => h.elim id fun ⟨_, heq, _⟩ => by cases heq⟩

/-- What a move leaves as it is. -/
theorem move_registrations (s : WorkerData) (m : WorkerMove) :
    (s.move m).config = s.config ∧ (s.move m).stored = s.stored := by
  cases m with
  | start run =>
    show (s.start run).config = s.config ∧ (s.start run).stored = s.stored
    unfold start
    split <;> exact ⟨rfl, rfl⟩
  | save run =>
    show (if run ∈ s.active then s.save run else s).config = s.config ∧
      (if run ∈ s.active then s.save run else s).stored = s.stored
    split <;> exact ⟨rfl, rfl⟩
  | finish taskId => exact ⟨rfl, rfl⟩

theorem seen_move (s : WorkerData) (m : WorkerMove) : s.seen ⊆ (s.move m).seen := by
  cases m with
  | start run =>
    show s.seen ⊆ (s.start run).seen
    unfold start
    split
    · exact List.subset_append_left _ _
    · exact List.Subset.refl _
  | save run =>
    show s.seen ⊆ (if run ∈ s.active then s.save run else s).seen
    split <;> exact List.Subset.refl _
  | finish taskId => exact List.Subset.refl _

theorem Noted.move (h : Noted s) (m : WorkerMove) : Noted (s.move m) := by
  cases m with
  | start run =>
    show Noted (s.start run)
    unfold start
    split
    · intro other hother
      rcases List.mem_append.mp hother with hold | hnew
      · exact List.mem_append_left _ (h other (List.mem_of_mem_filter hold))
      · exact List.mem_append_right _ hnew
    · exact h
  | save run =>
    show Noted (if run ∈ s.active then s.save run else s)
    split
    · exact h
    · exact h
  | finish taskId => exact fun other hother => h other (List.mem_of_mem_filter hother)

theorem Unowned.of_subset (h : Unowned u o) (hseen : s.seen ⊆ u.seen) : Unowned s o :=
  fun run hrun => h run (hseen hrun)

/-- What nobody owns is there after a move if it was before. -/
theorem has_move_of_unowned {m : WorkerMove} (hnoted : Noted s) (h : Unowned s o) :
    (s.move m).has o ↔ s.has o := by
  rw [has_move]
  exact ⟨fun hhas => hhas.elim id fun ⟨run, _, hrun, howns, _⟩ =>
    absurd howns (h run (hnoted run hrun)), Or.inl⟩

/-! ## Several moves -/

theorem moves_cons (s : WorkerData) (m : WorkerMove) (ms : List WorkerMove) :
    s.moves (m :: ms) = (s.move m).moves ms := rfl

theorem moves_registrations (s : WorkerData) (ms : List WorkerMove) :
    (s.moves ms).config = s.config ∧ (s.moves ms).stored = s.stored := by
  induction ms generalizing s with
  | nil => exact ⟨rfl, rfl⟩
  | cons m ms ih =>
    obtain ⟨hconfig, hstored⟩ := move_registrations s m
    rw [moves_cons]
    exact ⟨(ih _).1.trans hconfig, (ih _).2.trans hstored⟩

theorem seen_moves (s : WorkerData) (ms : List WorkerMove) : s.seen ⊆ (s.moves ms).seen := by
  induction ms generalizing s with
  | nil => exact List.Subset.refl _
  | cons m ms ih => exact List.Subset.trans (seen_move s m) (ih _)

theorem Noted.moves (h : Noted s) (ms : List WorkerMove) : Noted (s.moves ms) := by
  induction ms generalizing s with
  | nil => exact h
  | cons m ms ih => exact ih (h.move m)

theorem has_moves (ms : List WorkerMove) (h : s.has o) : (s.moves ms).has o := by
  induction ms generalizing s with
  | nil => exact h
  | cons m ms ih => exact ih ((has_move s m o).mpr (Or.inl h))

theorem has_of_moves {ms : List WorkerMove} (hnoted : Noted s) (h : Unowned (s.moves ms) o)
    (hhas : (s.moves ms).has o) : s.has o := by
  induction ms generalizing s with
  | nil => exact hhas
  | cons m ms ih =>
    have hmove := ih (hnoted.move m) h hhas
    have hs : Unowned s o := h.of_subset (seen_moves s (m :: ms))
    exact (has_move_of_unowned hnoted hs).mp hmove

/-! ## What a removal changes -/

theorem remove_runs (s : WorkerData) (f : Fault) (o : WorkerObject) :
    (s.remove f o).active = s.active ∧ (s.remove f o).seen = s.seen := by
  cases hf : f.takesEffect <;> cases o <;> simp [remove, hf]

theorem remove_config {o : WorkerObject} (h : o.isWorkspace = false) (s : WorkerData) (f : Fault) :
    (s.remove f o).config = s.config ∧ (s.remove f o).stored = s.stored := by
  cases hf : f.takesEffect <;> cases o <;> simp_all [remove, WorkerObject.isWorkspace]

theorem has_remove (s : WorkerData) (f : Fault) (o other : WorkerObject) :
    (s.remove f o).has other ↔ s.has other ∧ ¬(f.takesEffect = true ∧ other = o) := by
  cases hf : f.takesEffect with
  | false =>
    have hsame : (s.remove f o).has other ↔ s.has other := by
      cases o <;> cases other <;> simp [remove, has, hf]
    rw [hsame]
    simp
  | true =>
    rw [and_iff_right rfl]
    cases o with
    | runDir id => cases other <;> simp [remove, has, hf]
    | workspace id => cases other <;> simp [remove, has, hf]
    | session id =>
      cases other with
      | session other =>
        simp only [remove, has, hf, if_true, List.mem_filter, decide_eq_true_eq,
          WorkerObject.session.injEq]
        constructor
        · rintro ⟨item, ⟨hitem, hne⟩, rfl⟩
          exact ⟨⟨item, hitem, rfl⟩, hne⟩
        · rintro ⟨⟨item, hitem, rfl⟩, hne⟩
          exact ⟨item, ⟨hitem, hne⟩, rfl⟩
      | runDir other => simp [remove, has, hf]
      | workspace other => simp [remove, has, hf]

/-! ## The run without removals -/

/-- The data of a deletion, against what it would be had nothing been removed yet: they agree on the
objects whose turn is to come, and a workspace among these is registered. -/
structure Tracks (s u : WorkerData) (pending : List WorkerObject) : Prop where
  active : s.active = u.active
  seen : s.seen = u.seen
  config : s.config = u.config
  has : ∀ o ∈ pending, s.has o ↔ u.has o
  served : ∀ id, .workspace id ∈ pending → id ∈ s.config ∧ s.has (.workspace id)

variable {pending : List WorkerObject}

theorem Tracks.move (h : Tracks s u pending) (m : WorkerMove) :
    Tracks (s.move m) (u.move m) pending where
  active := by
    cases m with
    | start run =>
      show (s.start run).active = (u.start run).active
      unfold start
      rw [h.config]
      split
      · exact congrArg (fun runs : List LocalRun =>
          runs.filter (fun other => decide (other.taskId ≠ run.taskId)) ++ [run]) h.active
      · exact h.active
    | save run =>
      show (if run ∈ s.active then s.save run else s).active =
        (if run ∈ u.active then u.save run else u).active
      rw [h.active]
      split
      · exact h.active
      · exact h.active
    | finish taskId =>
      exact congrArg (fun runs : List LocalRun =>
        runs.filter fun other => decide (other.taskId ≠ taskId)) h.active
  seen := by
    cases m with
    | start run =>
      show (s.start run).seen = (u.start run).seen
      unfold start
      rw [h.config]
      split
      · exact congrArg (fun runs => runs ++ [run]) h.seen
      · exact h.seen
    | save run =>
      show (if run ∈ s.active then s.save run else s).seen =
        (if run ∈ u.active then u.save run else u).seen
      rw [h.active]
      split
      · exact h.seen
      · exact h.seen
    | finish taskId => exact h.seen
  config := by
    rw [(move_registrations s m).1, (move_registrations u m).1]
    exact h.config
  has o ho := by
    rw [has_move, has_move, h.has o ho, h.active]
  served id hid := by
    rw [(move_registrations s m).1]
    exact ⟨(h.served id hid).1, (has_move s m _).mpr (Or.inl (h.served id hid).2)⟩

theorem Tracks.moves (h : Tracks s u pending) (ms : List WorkerMove) :
    Tracks (s.moves ms) (u.moves ms) pending := by
  induction ms generalizing s u with
  | nil => exact h
  | cons m ms ih => exact ih (h.move m)

/-- What is there without removals is what the code finds. -/
theorem Tracks.present_iff (h : Tracks s u (o :: pending)) : s.present o ↔ u.has o := by
  cases o with
  | runDir id => exact h.has _ List.mem_cons_self
  | session id => exact h.has _ List.mem_cons_self
  | workspace id =>
    obtain ⟨hconfig, hhas⟩ := h.served id List.mem_cons_self
    exact iff_of_true hconfig ((h.has _ List.mem_cons_self).mp hhas)

/-- The removal of one object is nothing to the others. -/
theorem Tracks.remove (h : Tracks s u (o :: pending)) (ho : o.isWorkspace = false)
    (hnot : o ∉ pending) (f : Fault) : Tracks (s.remove f o) u pending where
  active := (remove_runs s f o).1.trans h.active
  seen := (remove_runs s f o).2.trans h.seen
  config := (remove_config ho s f).1.trans h.config
  has other hother := by
    rw [has_remove, h.has other (List.mem_cons_of_mem _ hother), and_iff_left]
    rintro ⟨-, rfl⟩
    exact hnot hother
  served id hid := by
    obtain ⟨hconfig, hhas⟩ := h.served id (List.mem_cons_of_mem _ hid)
    rw [(remove_config ho s f).1, has_remove]
    exact ⟨hconfig, hhas, fun heq => hnot (heq.2 ▸ hid)⟩

end WorkerData

/-! ## The removals -/

section Run

open WorkerData

variable {script : EntityScript} {s u : WorkerData} {o : WorkerObject}

/-- The order of the removals: a workspace comes last, and nothing comes twice. -/
structure Removals (objects : List WorkerObject) : Prop where
  nodup : objects.Nodup
  last : objects.Pairwise fun o _ => o.isWorkspace = false

theorem Removals.tail {rest : List WorkerObject} (h : Removals (o :: rest)) : Removals rest :=
  ⟨(List.nodup_cons.mp h.nodup).2, (List.pairwise_cons.mp h.last).2⟩

theorem Removals.eq_nil {rest : List WorkerObject} (h : Removals (o :: rest))
    (ho : o.isWorkspace = true) : rest = [] := by
  cases rest with
  | nil => rfl
  | cons other rest =>
    have hno := (List.pairwise_cons.mp h.last).1 other List.mem_cons_self
    rw [ho] at hno
    cases hno

/-- The removals that take effect are those of the objects that are there, up to the first that
raises. -/
theorem deleteObjects_eq (script : EntityScript) (objects : List WorkerObject) (n : Nat)
    (htracks : Tracks s u objects) (horder : Removals objects) :
    (deleteObjects script n objects s).1 =
        attempt ((objectsThere script n objects u).map fun o => (o, script.faults o)) ∧
      ((deleteObjects script n objects s).1.2 = true →
        (deleteObjects script n objects s).2.seen = runsSeen script n objects u) := by
  induction objects generalizing n s u with
  | nil => exact ⟨rfl, fun _ => htracks.seen⟩
  | cons o rest ih =>
    have hmoved := htracks.moves (script.beforeStep n)
    have hnot : o ∉ rest := (List.nodup_cons.mp horder.nodup).1
    by_cases hthere : (u.moves (script.beforeStep n)).has o
    · have hpresent := hmoved.present_iff.mpr hthere
      unfold deleteObjects objectsThere runsSeen
      dsimp only
      rw [if_pos hpresent, if_pos hthere, List.map_cons]
      cases hfault : script.faults o with
      | none =>
        rw [if_pos rfl, attempt_none]
        by_cases ho : o.isWorkspace = true
        · -- nothing comes after a workspace
          obtain rfl := horder.eq_nil ho
          refine ⟨rfl, fun _ => ?_⟩
          exact (remove_runs _ _ _).2.trans hmoved.seen
        · have ih' := ih (n + 1) (hmoved.remove (Bool.eq_false_iff.mpr ho) hnot .none) horder.tail
          rw [← ih'.1]
          exact ⟨rfl, ih'.2⟩
      | before => exact ⟨rfl, fun h => by cases h⟩
      | after => exact ⟨rfl, fun h => by cases h⟩
    · have hpresent : ¬(s.moves (script.beforeStep n)).present o :=
        fun h => hthere (hmoved.present_iff.mp h)
      have ho : o.isWorkspace = false := by
        cases o with
        | runDir id => rfl
        | session id => rfl
        | workspace id => exact absurd (hmoved.served id List.mem_cons_self).1 hpresent
      have hrest : Tracks (s.moves (script.beforeStep n)) (u.moves (script.beforeStep n)) rest :=
        ⟨hmoved.active, hmoved.seen, hmoved.config,
          fun other hother => hmoved.has other (List.mem_cons_of_mem _ hother),
          fun id hid => hmoved.served id (List.mem_cons_of_mem _ hid)⟩
      unfold deleteObjects objectsThere runsSeen
      dsimp only
      rw [if_neg hpresent, if_neg hthere, if_neg (by rw [ho]; decide)]
      exact ih (n + 1) hrest horder.tail

/-- One turn: the object is not there, or is missed, or is removed, or its removal raises. -/
theorem deleteObjects_cases (script : EntityScript) (n : Nat) (o : WorkerObject)
    (rest : List WorkerObject) (s : WorkerData) :
    deleteObjects script n (o :: rest) s =
        deleteObjects script (n + 1) rest (s.moves (script.beforeStep n)) ∨
      deleteObjects script n (o :: rest) s = (([], false), s.moves (script.beforeStep n)) ∨
      (s.moves (script.beforeStep n)).present o ∧
        (deleteObjects script n (o :: rest) s =
            ((o :: (deleteObjects script (n + 1) rest
                ((s.moves (script.beforeStep n)).remove .none o)).1.1,
              (deleteObjects script (n + 1) rest
                ((s.moves (script.beforeStep n)).remove .none o)).1.2),
              (deleteObjects script (n + 1) rest
                ((s.moves (script.beforeStep n)).remove .none o)).2) ∨
          deleteObjects script n (o :: rest) s =
            ((if (script.faults o).takesEffect then [o] else [], false),
              (s.moves (script.beforeStep n)).remove (script.faults o) o)) := by
  rw [deleteObjects]
  dsimp only
  by_cases hpresent : (s.moves (script.beforeStep n)).present o
  · refine Or.inr (Or.inr ⟨hpresent, ?_⟩)
    rw [if_pos hpresent]
    cases hfault : script.faults o with
    | none => exact Or.inl rfl
    | before => exact Or.inr rfl
    | after => exact Or.inr rfl
  · rw [if_neg hpresent]
    by_cases ho : o.isWorkspace = true
    · exact Or.inr (Or.inl (if_pos ho))
    · exact Or.inl (if_neg ho)

theorem seen_deleteObjects (script : EntityScript) (objects : List WorkerObject) (n : Nat)
    (s : WorkerData) :
    s.seen ⊆ (deleteObjects script n objects s).2.seen := by
  induction objects generalizing n s with
  | nil => exact List.Subset.refl _
  | cons o rest ih =>
    have hmoves := seen_moves s (script.beforeStep n)
    rcases deleteObjects_cases script n o rest s with heq | heq | ⟨-, heq | heq⟩ <;> rw [heq]
    · exact List.Subset.trans hmoves (ih _ _)
    · exact hmoves
    · refine List.Subset.trans ?_ (ih _ _)
      rw [(remove_runs _ _ _).2]
      exact hmoves
    · show s.seen ⊆ (WorkerData.remove _ _ _).seen
      rw [(remove_runs _ _ _).2]
      exact hmoves

/-- What nobody owns is not made by the deletion or during it. -/
theorem has_of_deleteObjects (objects : List WorkerObject) (n : Nat) (hnoted : Noted s)
    (h : Unowned (deleteObjects script n objects s).2 o)
    (hhas : (deleteObjects script n objects s).2.has o) : s.has o := by
  induction objects generalizing n s with
  | nil => exact hhas
  | cons first rest ih =>
    have hmoved : Noted (s.moves (script.beforeStep n)) := hnoted.moves _
    have hback : (s.moves (script.beforeStep n)).has o → s.has o :=
      has_of_moves hnoted (h.of_subset ?_)
    · rcases deleteObjects_cases script n first rest s with heq | heq | ⟨-, heq | heq⟩ <;>
        rw [heq] at h hhas
      · exact hback (ih _ hmoved h hhas)
      · exact hback hhas
      · have hnext : Noted ((s.moves (script.beforeStep n)).remove .none first) := by
          unfold Noted
          rw [(remove_runs _ _ _).1, (remove_runs _ _ _).2]
          exact hmoved
        exact hback ((has_remove _ _ _ _).mp (ih _ hnext h hhas)).1
      · exact hback ((has_remove _ _ _ _).mp hhas).1
    · -- the runs seen before the turn are seen at the end
      rcases deleteObjects_cases script n first rest s with heq | heq | ⟨-, heq | heq⟩ <;> rw [heq]
      · exact seen_deleteObjects _ _ _ _
      · exact List.Subset.refl _
      · have hseen := seen_deleteObjects script rest (n + 1)
          ((s.moves (script.beforeStep n)).remove .none first)
        rw [(remove_runs _ _ _).2] at hseen
        exact hseen
      · show (s.moves (script.beforeStep n)).seen ⊆ (WorkerData.remove _ _ _).seen
        rw [(remove_runs _ _ _).2]
        exact List.Subset.refl _

/-- Each registration in memory is one of the file. -/
def Backed (s : WorkerData) : Prop := ∀ id ∈ s.config, id ∈ s.stored

theorem Backed.moves (h : Backed s) (ms : List WorkerMove) : Backed (s.moves ms) := by
  obtain ⟨hconfig, hstored⟩ := moves_registrations s ms
  unfold Backed
  rw [hconfig, hstored]
  exact h

theorem Backed.remove (h : Backed s) (f : Fault) (first : WorkerObject) :
    Backed (s.remove f first) := by
  by_cases hfirst : first.isWorkspace = true
  · cases first with
    | runDir id => cases hfirst
    | session id => cases hfirst
    | workspace id =>
      intro other hother
      obtain ⟨hold, hne⟩ := List.mem_filter.mp hother
      show other ∈ if f.takesEffect then _ else s.stored
      split
      · exact List.mem_filter.mpr ⟨h other hold, hne⟩
      · exact h other hold
  · obtain ⟨hconfig, hstored⟩ := remove_config (Bool.eq_false_iff.mpr hfirst) s f
    unfold Backed
    rw [hconfig, hstored]
    exact h

theorem Backed.has (h : Backed s) (hpresent : s.present o) : s.has o := by
  cases o with
  | runDir id => exact hpresent
  | session id => exact hpresent
  | workspace id => exact h id hpresent

theorem WorkerData.Noted.remove (h : Noted s) (f : Fault) (first : WorkerObject) :
    Noted (s.remove f first) := by
  unfold Noted
  rw [(remove_runs _ _ _).1, (remove_runs _ _ _).2]
  exact h

/-- **What nobody owns and the deletion removes was there before and is gone.** -/
theorem gone_of_removed (objects : List WorkerObject) (n : Nat) (hnoted : Noted s)
    (hbacked : Backed s) (h : Unowned (deleteObjects script n objects s).2 o)
    (hmem : o ∈ (deleteObjects script n objects s).1.1) :
    s.has o ∧ ¬(deleteObjects script n objects s).2.has o := by
  induction objects generalizing n s with
  | nil => cases hmem
  | cons first rest ih =>
    have hnoted' := hnoted.moves (script.beforeStep n)
    have hbacked' := hbacked.moves (script.beforeStep n)
    have hwhole := has_of_deleteObjects (first :: rest) n hnoted h
    rcases deleteObjects_cases script n first rest s with heq | heq | ⟨hpresent, heq | heq⟩ <;>
      rw [heq] at h hmem ⊢
    · obtain ⟨hthere, hgone⟩ := ih _ hnoted' hbacked' h hmem
      exact ⟨has_of_moves hnoted (h.of_subset (seen_deleteObjects _ _ _ _)) hthere, hgone⟩
    · cases hmem
    · have hseen := seen_deleteObjects script rest (n + 1)
        ((s.moves (script.beforeStep n)).remove .none first)
      rw [(remove_runs _ _ _).2] at hseen
      have hback := has_of_moves hnoted (h.of_subset hseen)
      rcases List.mem_cons.mp hmem with rfl | hrest
      · refine ⟨hback (hbacked'.has hpresent), fun hlast => ?_⟩
        have hafter := has_of_deleteObjects rest (n + 1) (hnoted'.remove .none o) h hlast
        exact ((has_remove _ _ _ _).mp hafter).2 ⟨rfl, rfl⟩
      · obtain ⟨hthere, hgone⟩ := ih _ (hnoted'.remove _ _) (hbacked'.remove _ _) h hrest
        exact ⟨hback ((has_remove _ _ _ _).mp hthere).1, hgone⟩
    · have hseen : Unowned (s.moves (script.beforeStep n)) o := by
        refine h.of_subset ?_
        show _ ⊆ (WorkerData.remove _ _ _).seen
        rw [(remove_runs _ _ _).2]
        exact List.Subset.refl _
      dsimp only at hmem
      split at hmem
      · next heffect =>
        rw [List.mem_singleton.mp hmem] at hseen ⊢
        exact ⟨has_of_moves hnoted hseen (hbacked'.has hpresent),
          fun hlast => ((has_remove _ _ _ _).mp hlast).2 ⟨heffect, rfl⟩⟩
      · cases hmem

/-- A deletion whose first removal raises before it takes effect removes nothing; a workspace is
gone from the memory all the same. -/
theorem deleteObjects_stopped (objects : List WorkerObject) (n : Nat)
    (htracks : Tracks s u objects)
    (hhead : (objectsThere script n objects u).head? = some o)
    (hbefore : script.faults o = .before) :
    ∃ v, deleteObjects script n objects s = (([], false), v) ∧
      (∀ other, s.has other → v.has other) ∧
      (∀ id ∈ s.config, id ∈ v.config ∨ o = .workspace id) ∧
      ∀ id, o = .workspace id → id ∉ v.config := by
  induction objects generalizing n s u with
  | nil => cases hhead
  | cons first rest ih =>
    have hmoved := htracks.moves (script.beforeStep n)
    have hconfig := (moves_registrations s (script.beforeStep n)).1
    unfold objectsThere at hhead
    dsimp only at hhead
    by_cases hthere : (u.moves (script.beforeStep n)).has first
    · rw [if_pos hthere] at hhead
      obtain rfl : first = o := Option.some.inj hhead
      refine ⟨(s.moves (script.beforeStep n)).remove .before first, ?_, fun other hother => ?_,
        ?_, ?_⟩
      · rw [deleteObjects]
        dsimp only
        rw [if_pos (hmoved.present_iff.mpr hthere), hbefore]
        rfl
      · refine (has_remove _ _ _ _).mpr ⟨has_moves _ hother, fun heq => ?_⟩
        exact Bool.false_ne_true heq.1
      · intro id hid
        rw [← hconfig] at hid
        cases first with
        | runDir other => exact Or.inl hid
        | session other => exact Or.inl hid
        | workspace other =>
          by_cases heq : id = other
          · exact Or.inr (by rw [heq])
          · exact Or.inl (List.mem_filter.mpr ⟨hid, decide_eq_true heq⟩)
      · rintro id rfl hid
        exact of_decide_eq_true (List.mem_filter.mp hid).2 rfl
    · rw [if_neg hthere] at hhead
      have hpresent : ¬(s.moves (script.beforeStep n)).present first :=
        fun h => hthere (hmoved.present_iff.mp h)
      have hfirst : first.isWorkspace = false := by
        cases first with
        | runDir id => rfl
        | session id => rfl
        | workspace id => exact absurd (hmoved.served id List.mem_cons_self).1 hpresent
      have hrest : Tracks (s.moves (script.beforeStep n)) (u.moves (script.beforeStep n)) rest :=
        ⟨hmoved.active, hmoved.seen, hmoved.config,
          fun other hother => hmoved.has other (List.mem_cons_of_mem _ hother),
          fun id hid => hmoved.served id (List.mem_cons_of_mem _ hid)⟩
      obtain ⟨v, heq, hkeeps, hregistered, hdropped⟩ := ih (n + 1) hrest hhead
      refine ⟨v, ?_, fun other hother => hkeeps other (has_moves _ hother), ?_, hdropped⟩
      · rw [deleteObjects]
        dsimp only
        rw [if_neg hpresent, if_neg (by rw [hfirst]; decide)]
        exact heq
      · rw [hconfig] at hregistered
        exact hregistered

end Run

/-! ## The plan -/

section Plan

open WorkerData

variable {env : DeletionEnv} {message : PyDict} {script : EntityScript} {s data : WorkerData}
  {objects : List WorkerObject} {error : String}

/-- What the steps before the first removal leave. -/
structure Planned (s data : WorkerData) : Prop where
  noted : Noted data
  seen : s.seen ⊆ data.seen
  has : ∀ o, s.has o → data.has o
  back : ∀ o, Unowned data o → data.has o → s.has o
  stored : data.stored = s.stored

theorem Planned.moves (h : Planned s data) (ms : List WorkerMove) : Planned s (data.moves ms) where
  noted := h.noted.moves ms
  seen := List.Subset.trans h.seen (seen_moves _ _)
  has o ho := has_moves ms (h.has o ho)
  back o hunowned ho :=
    h.back o (hunowned.of_subset (seen_moves _ _)) (has_of_moves h.noted hunowned ho)
  stored := (moves_registrations _ _).2.trans h.stored

/-- The configuration is loaded. -/
theorem Planned.load (h : Planned s data) : Planned s { data with config := data.stored } where
  noted := h.noted
  seen := h.seen
  has o ho := by
    have := h.has o ho
    cases o <;> exact this
  back o hunowned ho := h.back o hunowned (by cases o <;> exact ho)
  stored := h.stored

theorem planned_start (s : WorkerData) :
    Planned { s with seen := s.active } { s with seen := s.active } where
  noted _ h := h
  seen := List.Subset.refl _
  has _ h := h
  back _ _ h := h
  stored := rfl

/-- The run directories come first, and the workspace comes last. -/
theorem removals_plan (env : DeletionEnv) (message : PyDict) (runs sessions : List String) :
    Removals ((env.setOrder runs).map .runDir ++
      ((env.setOrder sessions).map .session ++ entityWorkspace env message)) := by
  have hworkspace : (entityWorkspace env message).Nodup ∧
      (entityWorkspace env message).Pairwise fun o _ => o.isWorkspace = false := by
    unfold entityWorkspace
    split
    · exact ⟨List.nodup_singleton _, List.pairwise_singleton _ _⟩
    · exact ⟨List.nodup_nil, List.Pairwise.nil⟩
  have hkind : ∀ o ∈ entityWorkspace env message, o.isWorkspace = true := by
    intro o ho
    unfold entityWorkspace at ho
    split at ho
    · rw [List.mem_singleton.mp ho]
      rfl
    · cases ho
  constructor
  · refine List.Nodup.append ((env.nodup_setOrder runs).map fun a b h => ?_)
      (List.Nodup.append ((env.nodup_setOrder sessions).map fun a b h => ?_) hworkspace.1 ?_) ?_
    · exact WorkerObject.runDir.inj h
    · exact WorkerObject.session.inj h
    · intro o hsession hlast
      obtain ⟨id, -, rfl⟩ := List.mem_map.mp hsession
      cases hkind _ hlast
    · intro o hrun hlater
      obtain ⟨id, -, rfl⟩ := List.mem_map.mp hrun
      rcases List.mem_append.mp hlater with hsession | hlast
      · obtain ⟨other, -, heq⟩ := List.mem_map.mp hsession
        cases heq
      · cases hkind _ hlast
  · refine List.pairwise_append.mpr ⟨?_, List.pairwise_append.mpr ⟨?_, hworkspace.2, ?_⟩, ?_⟩
    · exact List.pairwise_map.mpr (List.pairwise_of_forall fun _ _ => rfl)
    · exact List.pairwise_map.mpr (List.pairwise_of_forall fun _ _ => rfl)
    · intro o hsession _ _
      obtain ⟨id, -, rfl⟩ := List.mem_map.mp hsession
      rfl
    · intro o hrun _ _
      obtain ⟨id, -, rfl⟩ := List.mem_map.mp hrun
      rfl

theorem deletionPlan_ok (hs : Planned s s)
    (h : deletionPlan env message script s = .ok (objects, data)) :
    Planned s data ∧ Removals objects ∧ data.config = data.stored ∧
      ∀ id, .workspace id ∈ objects → id ∈ data.config := by
  unfold deletionPlan at h
  dsimp only at h
  split at h
  · cases h
  · next sessions runs _ =>
    split at h
    · cases h
    · split at h
      · cases h
      · split at h
        · cases h
        · next more hmore =>
          obtain ⟨rfl, rfl⟩ := Prod.mk.inj (Except.ok.inj h)
          have hloaded := ((hs.moves script.beforeCheck).load).moves script.beforeListing
          refine ⟨hloaded, removals_plan env message runs (sessions ++ more), ?_, ?_⟩
          · have hboth := moves_registrations
              ({ s.moves script.beforeCheck with config := (s.moves script.beforeCheck).stored })
              script.beforeListing
            exact hboth.1.trans hboth.2.symm
          · intro id hid
            have hlast : WorkerObject.workspace id ∈ entityWorkspace env message := by
              rcases List.mem_append.mp hid with hrun | hlater
              · obtain ⟨other, -, heq⟩ := List.mem_map.mp hrun
                cases heq
              · rcases List.mem_append.mp hlater with hsession | hlast
                · obtain ⟨other, -, heq⟩ := List.mem_map.mp hsession
                  cases heq
                · exact hlast
            unfold entityWorkspace at hlast
            split at hlast
            · next htype =>
              obtain rfl := WorkerObject.workspace.inj (List.mem_singleton.mp hlast)
              -- the plan of a workspace that is not registered is an error
              unfold entitySessions at hmore
              dsimp only at hmore
              rw [if_neg (by rw [htype]; decide), if_pos htype] at hmore
              split at hmore
              · cases hmore
              · next hregistered => exact not_not.mp fun hno => hregistered (Or.inl hno)
            · cases hlast

theorem deletionPlan_error (hs : Planned s s)
    (h : deletionPlan env message script s = .error (error, data)) :
    (∀ o, s.has o → data.has o) ∧ ∀ id, id ∈ s.stored → id ∈ s.config → id ∈ data.config := by
  have hchecked := hs.moves script.beforeCheck
  have hconfig := (moves_registrations s script.beforeCheck).1
  unfold deletionPlan at h
  dsimp only at h
  split at h
  · obtain ⟨-, rfl⟩ := Prod.mk.inj (Except.error.inj h)
    exact ⟨hchecked.has, fun id _ hid => hconfig ▸ hid⟩
  · split at h
    · obtain ⟨-, rfl⟩ := Prod.mk.inj (Except.error.inj h)
      exact ⟨hchecked.has, fun id _ hid => hconfig ▸ hid⟩
    · split at h
      · obtain ⟨-, rfl⟩ := Prod.mk.inj (Except.error.inj h)
        exact ⟨hchecked.load.has, fun id hid _ => by
          show id ∈ (s.moves script.beforeCheck).stored
          rwa [hchecked.stored]⟩
      · split at h
        · obtain ⟨-, rfl⟩ := Prod.mk.inj (Except.error.inj h)
          refine ⟨(hchecked.load.moves script.beforeListing).has, fun id hid _ => ?_⟩
          rw [(moves_registrations _ _).1]
          show id ∈ (s.moves script.beforeCheck).stored
          rwa [hchecked.stored]
        · cases h

end Plan

/-! ## The deletion as a whole -/

open WorkerData in
/-- **A deletion leaves the active runs alone, and deletes all or nothing, exactly if it is refused,
or stops before anything is removed, or no removal raises and no object that it finds belongs to a
run that is active at some moment.** -/
theorem deletion_safe_iff (env : DeletionEnv) (message : PyDict) (script : EntityScript)
    (s : WorkerData) :
    DeletionSafe s (deleteEntity env message script s) ↔ SafeToDelete env message script s := by
  have hstart := planned_start s
  rcases hplan : deletionPlan env message script { s with seen := s.active } with
    ⟨error, data⟩ | ⟨objects, data⟩
  · -- nothing is removed
    obtain ⟨hhas, hregistered⟩ := deletionPlan_error hstart hplan
    refine iff_of_true ?_ fun objects data h => ?_
    · unfold deleteEntity
      rw [hplan]
      exact ⟨fun o ho => absurd ho List.not_mem_nil,
        fun _ o ho => hhas o (by cases o <;> exact ho), fun _ => hregistered⟩
    · rw [hplan] at h
      cases h
  obtain ⟨hplanned, horder, hconfig, hserved⟩ := deletionPlan_ok hstart hplan
  have htracks : Tracks data data objects :=
    ⟨rfl, rfl, rfl, fun _ _ => Iff.rfl, fun id hid => ⟨hserved id hid, by
      show id ∈ data.stored
      rw [← hconfig]
      exact hserved id hid⟩⟩
  have hbacked : Backed data := fun id hid => hconfig ▸ hid
  obtain ⟨hattempt, hseen⟩ := deleteObjects_eq script objects 0 htracks horder
  have hended : deleteEntity env message script s =
      { completed := (deleteObjects script 0 objects data).1.2
        error := if (deleteObjects script 0 objects data).1.2 then "" else "delete_failed"
        data := (deleteObjects script 0 objects data).2
        removed := (deleteObjects script 0 objects data).1.1 } := by
    unfold deleteEntity
    rw [hplan]
  rw [hended]
  have hcondition : SafeToDelete env message script s ↔
      (∀ o, (objectsThere script 0 objects data).head? = some o →
        script.faults o = .before ∧ ∀ id, o = .workspace id → id ∈ s.stored → id ∉ s.config) ∨
      (∀ o ∈ objectsThere script 0 objects data,
        script.faults o = .none ∧ ∀ run ∈ runsSeen script 0 objects data, ¬run.owns o) := by
    refine ⟨fun h => h objects data hplan, fun h objects' data' hplan' => ?_⟩
    obtain ⟨rfl, rfl⟩ := Prod.mk.inj (Except.ok.inj (hplan.symm.trans hplan'))
    exact h
  rw [hcondition]
  have hbefore : ∀ o, s.has o → data.has o := fun o ho => hplanned.has o (by cases o <;> exact ho)
  have hregistered : ∀ id, id ∈ s.stored → id ∈ data.config := by
    intro id hid
    rw [hconfig, hplanned.stored]
    exact hid
  constructor
  · intro hsafe
    by_cases hall : ∀ o ∈ objectsThere script 0 objects data, script.faults o = .none
    · -- all goes through
      have hok : attempt ((objectsThere script 0 objects data).map fun o => (o, script.faults o)) =
          (_, true) := attempt_of_ok fun w hw => by
        obtain ⟨o, ho, rfl⟩ := List.mem_map.mp hw
        exact hall o ho
      rw [hok] at hattempt
      refine Or.inr fun o ho => ⟨hall o ho, ?_⟩
      rw [← hseen (congrArg Prod.snd hattempt)]
      refine hsafe.untouched o ?_
      show o ∈ (deleteObjects script 0 objects data).1.1
      rw [hattempt, List.map_map]
      exact List.mem_map.mpr ⟨o, ho, rfl⟩
    · have hfailed : (deleteObjects script 0 objects data).1.2 = false := by
        refine Bool.eq_false_iff.mpr fun hok => hall fun o ho => ?_
        rw [hattempt] at hok
        exact (attempt_ok_iff _).mp hok _ (List.mem_map.mpr ⟨o, ho, rfl⟩)
      refine Or.inl fun o hhead => ?_
      obtain ⟨rest, hthere⟩ : ∃ rest, objectsThere script 0 objects data = o :: rest :=
        List.head?_eq_some_iff.mp hhead
      by_cases hfault : script.faults o = .before
      · refine ⟨hfault, fun id ho hstored hmemory => ?_⟩
        obtain ⟨v, heq, -, -, hdropped⟩ := deleteObjects_stopped objects 0 htracks hhead hfault
        have hkept := hsafe.registrations hfailed id hstored hmemory
        dsimp only at hkept
        rw [heq] at hkept
        exact hdropped id ho hkept
      · -- something is removed before the failure
        exfalso
        have hmem : o ∈ (deleteObjects script 0 objects data).1.1 := by
          rw [hattempt, hthere, List.map_cons]
          cases heffect : script.faults o with
          | none => exact List.mem_cons_self
          | before => exact absurd heffect hfault
          | after => exact List.mem_cons_self
        have hunowned : Unowned (deleteObjects script 0 objects data).2 o :=
          fun run hrun => hsafe.untouched o hmem run hrun
        obtain ⟨hhas, hgone⟩ := gone_of_removed objects 0 hplanned.noted hbacked hunowned hmem
        have hold := hplanned.back o
          (hunowned.of_subset (seen_deleteObjects script objects 0 data)) hhas
        exact hgone (hsafe.objects hfailed o (by cases o <;> exact hold))
  · rintro (hstop | hgo)
    · rcases hthere : objectsThere script 0 objects data with _ | ⟨o, rest⟩
      · -- nothing is there
        rw [hthere, List.map_nil, attempt_nil] at hattempt
        refine ⟨fun o ho => ?_, fun hno => ?_, fun hno => ?_⟩
        · dsimp only at ho
          rw [hattempt] at ho
          cases ho
        · dsimp only at hno
          rw [hattempt] at hno
          cases hno
        · dsimp only at hno
          rw [hattempt] at hno
          cases hno
      · have hhead : (objectsThere script 0 objects data).head? = some o := by
          rw [hthere]
          rfl
        obtain ⟨hfault, hmemory⟩ := hstop o hhead
        obtain ⟨v, heq, hkeeps, hconfigs, -⟩ := deleteObjects_stopped objects 0 htracks hhead hfault
        rw [heq]
        refine ⟨fun o ho => absurd ho List.not_mem_nil,
          fun _ other hother => hkeeps other (hbefore other hother), fun _ id hstored hid => ?_⟩
        rcases hconfigs id (hregistered id hstored) with hkept | hworkspace
        · exact hkept
        · exact absurd hid (hmemory id hworkspace hstored)
    · have hok : attempt ((objectsThere script 0 objects data).map fun o => (o, script.faults o)) =
          (_, true) := attempt_of_ok fun w hw => by
        obtain ⟨o, ho, rfl⟩ := List.mem_map.mp hw
        exact (hgo o ho).1
      rw [hok] at hattempt
      have hcompleted : (deleteObjects script 0 objects data).1.2 = true :=
        congrArg Prod.snd hattempt
      refine ⟨fun o ho => ?_, fun hno => ?_, fun hno => ?_⟩
      · dsimp only at ho ⊢
        rw [hattempt, List.map_map] at ho
        obtain ⟨other, hother, rfl⟩ := List.mem_map.mp ho
        rw [hseen hcompleted]
        exact (hgo other hother).2
      · dsimp only at hno
        rw [hcompleted] at hno
        cases hno
      · dsimp only at hno
        rw [hcompleted] at hno
        cases hno

/-! ## The lists of the message -/

/-- Sets in the order of their lists. -/
def plainDeletionEnv : DeletionEnv where
  txt := .ascii
  setOrder := List.dedup
  mem_setOrder _ _ := List.mem_dedup
  nodup_setOrder := List.nodup_dedup

/-- A session with nothing in it, and one with a run. -/
def deletionData : WorkerData where
  active := [⟨"task", "ses_00000000000000000000000000000002", "ws", "run"⟩]
  sessions := [⟨"ses_00000000000000000000000000000001", "ws"⟩,
    ⟨"ses_00000000000000000000000000000002", "ws"⟩]
  stored := ["ws"]
  config := ["ws"]

/-- The deletion of the first session, with the second in its list. -/
def deletionMessage : PyDict := [
  ("request_id", .str "r"), ("entity_type", .str "session"),
  ("entity_id", .str "ses_00000000000000000000000000000001"),
  ("session_ids", .list [.str "ses_00000000000000000000000000000002"])]

/-- The session of the active run is deleted with the other one. -/
theorem listed_session_deleted :
    ¬DeletionSafe deletionData (deleteEntity plainDeletionEnv deletionMessage {} deletionData) := by
  intro hsafe
  have huntouched := hsafe.untouched (.session "ses_00000000000000000000000000000002")
    (by decide +kernel) ⟨"task", "ses_00000000000000000000000000000002", "ws", "run"⟩
    (by decide +kernel)
  exact huntouched rfl

end ThreadForge

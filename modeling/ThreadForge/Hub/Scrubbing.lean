import ThreadForge.Hub.SessionMerge
import ThreadForge.Store.TaskIndex

/-!
# Scrubbing what the server still holds of a local session

Once a Worker has shown that it keeps a session, the hub takes the texts out of its own copies: out
of the session, and out of the tasks of the session. It finds the tasks by `list_for_session`, which
returns no more than 100.

## Main results

* `Scrubbing.clean_iff` — after a call that scrubs, nothing is left exactly where every task with a
  text was among the 100 tasks that were updated last.
* `Scrubbing.not_clean` — a session of 101 tasks keeps a text.
-/

namespace ThreadForge

open Channel

/-! ## The tasks of a session -/

namespace TaskIndex

variable (ids : OwnerIds)

/-- `ORDER BY updated_at DESC, task_id DESC`. -/
def Later (a b : Task) : Prop :=
  b.updatedAt < a.updatedAt ∨ (a.updatedAt = b.updatedAt ∧ b.taskId ≤ a.taskId)

instance : DecidableRel Later := fun _ _ => inferInstanceAs (Decidable (_ ∨ _))

/-- The rows of a session and an owner, the latest first. -/
def sessionRows (s : TaskIndex) (sessionId ownerId : String) : List Task :=
  (s.tasks.rows.filter fun row => row.sessionId = sessionId ∧ row.ownerId = ownerId).insertionSort
    Later

/-- The tasks the payloads decode to. -/
def readRows : List Task → Except TaskIndexError (List Task)
  | [] => .ok []
  | row :: rest => match taskFromPayload ids.canonicalOwnerId row with
    | .error e => .error (.update e)
    | .ok task => do
      let tasks ← readRows rest
      .ok (task :: tasks)

/-- `list_for_session`. -/
def listForSession (s : TaskIndex) (sessionId ownerId : String) (limit : Nat) :
    Except TaskIndexError (List Task × Nat) :=
  match ids.canonicalOwnerId ownerId with
  | none => .error .valueError
  | some ownerId => do
    let rows := s.sessionRows sessionId ownerId
    let tasks ← readRows ids (rows.take limit)
    .ok (tasks, rows.length)

/-- A local task with an input or an answer. -/
def HoldsText (task : Task) : Prop :=
  task.executionEnvironment = "local_worker" ∧
    (task.input ≠ "" ∨ task.finalAnswer.getD "" ≠ "")

instance (task : Task) : Decidable (HoldsText task) := inferInstanceAs (Decidable (_ ∧ _))

/-- The loop of `_scrub_local_task_content`. -/
def clearTasks (now : String) (s : TaskIndex) : List Task → Except TaskIndexError TaskIndex
  | [] => .ok s
  | task :: rest =>
    if HoldsText task then do
      let s ← s.update ids task.taskId
        { fn := fun task => .ok (HubState.clearLocalTaskContent now task), now }
      clearTasks now s rest
    else clearTasks now s rest

/-- `_scrub_local_task_content`. -/
def scrubLocalTaskContent (now : String) (s : TaskIndex) (sessionId ownerId : String) :
    Except TaskIndexError TaskIndex := do
  let (tasks, _) ← s.listForSession ids sessionId ownerId 100
  s.clearTasks ids now tasks

end TaskIndex

/-! ## The calls that scrub -/

/-- The sessions and the tasks of the server. -/
structure Central where
  sessions : SessionStore
  index : TaskIndex

/-- What the calls raise. -/
inductive CentralError
  | hub (e : HubError)
  | index (e : TaskIndexError)

/-- A call that scrubs a session that is stored. -/
inductive ScrubCall
  /-- `_merge_local_session_summary` on the connection of a device. -/
  | mergeSummary (device : Device) (summary : SessionSummary)
  /-- `_update_local_session_count` with `session_persisted`. -/
  | updateCount (task : Task) (messageTotal : PyValue)

namespace ScrubCall

def sessionId : ScrubCall → String
  | .mergeSummary _ summary => summary.sessionId
  | .updateCount task _ => task.sessionId

def ownerId : ScrubCall → String
  | .mergeSummary device _ => device.ownerId
  | .updateCount task _ => task.ownerId

/-- The session the call saves. -/
def saved (txt : PyText) (devices : DeviceStore) (now : String) (current : PyDict) :
    ScrubCall → Except HubError PyDict
  | .mergeSummary device summary => mergedSession txt devices device summary current
  | .updateCount task messageTotal =>
    (countedSession task messageTotal true now current).map Prod.snd

end ScrubCall

namespace Scrubbing

section Laws

variable (txt : PyText) (ids : OwnerIds) (devices : DeviceStore)

/-- A call on a session that is stored: the session is saved, then the tasks are scrubbed. -/
def perform (now : String) (s : Central) (current : PyDict) (call : ScrubCall) :
    Except CentralError Central :=
  match call.saved txt devices now current with
  | .error e => .error (.hub e)
  | .ok session =>
    match s.index.scrubLocalTaskContent ids now call.sessionId call.ownerId with
    | .error e => .error (.index e)
    | .ok index => .ok { sessions := s.sessions.save session, index }

/-- A session without the content that belongs to the Worker. -/
structure SessionClean (session : PyDict) : Prop where
  history : pyEq (session.getD "history" .none) (.list []) = true
  memory : pyEq (session.getD "memory" .none) defaultMemoryState = true
  others : ∀ key ∈ scrubbedKeys, session.get? key = none

/-- Nothing of a session is stored on the server any more. -/
structure Clean (s : Central) (sessionId : String) : Prop where
  session : ∀ session, s.sessions.records sessionId = some session → SessionClean session
  tasks : ∀ task ∈ s.index.tasks.rows, task.sessionId = sessionId →
    task.executionEnvironment = "local_worker" → task.input = "" ∧ task.finalAnswer.getD "" = ""

/-- Every task of the session with a text is among the 100 of the owner that were updated last. -/
def AllListed (s : TaskIndex) (sessionId ownerId : String) : Prop :=
  ∀ owner, ids.canonicalOwnerId ownerId = some owner →
    ∀ task ∈ s.tasks.rows, task.sessionId = sessionId → TaskIndex.HoldsText task →
      task ∈ (s.sessionRows sessionId owner).take 100

/-! ## The session -/

variable {txt ids devices} {now sessionId ownerId : String} {s t : Central} {call : ScrubCall}
  {current session : PyDict} {index index' : TaskIndex} {task row old : Task}

theorem get?_popKey_self (session : PyDict) (key : String) :
    (popKey session key).get? key = none := by
  induction session with
  | nil => rfl
  | cons entry rest ih =>
    by_cases hkey : entry.1 = key
    · rw [popKey, List.filter_cons_of_neg (by simpa using hkey)]
      exact ih
    · rw [popKey, List.filter_cons_of_pos (by simpa using hkey), PyDict.get?_cons,
        if_neg (Ne.symm hkey)]
      exact ih

/-- What the scrub leaves of a session is clean. -/
theorem sessionClean_scrubbed (session : PyDict) :
    SessionClean (scrubLocalSessionContent session).2 := by
  have hscrubbed : (scrubLocalSessionContent session).2 = popKey (popKey (popKey
      ((session.set "history" (.list [])).set "memory" defaultMemoryState) "checkpoints")
        "runtime_identity") "resume_state" := rfl
  rw [hscrubbed]
  refine ⟨?_, ?_, fun key hkey => ?_⟩
  · rw [PyDict.getD, get?_popKey _ (by decide), get?_popKey _ (by decide),
      get?_popKey _ (by decide), PyDict.get?_set, if_neg (by decide), PyDict.get?_set, if_pos rfl]
    rfl
  · rw [PyDict.getD, get?_popKey _ (by decide), get?_popKey _ (by decide),
      get?_popKey _ (by decide), PyDict.get?_set, if_pos rfl]
    decide
  · simp only [scrubbedKeys, List.mem_cons, List.not_mem_nil, or_false] at hkey
    rcases hkey with rfl | rfl | rfl
    · rw [get?_popKey _ (by decide), get?_popKey _ (by decide), get?_popKey_self]
    · rw [get?_popKey _ (by decide), get?_popKey_self]
    · exact get?_popKey_self _ _

/-- A session that the scrub found nothing in is clean as it is. -/
theorem sessionClean_of_not_changed (h : ¬(scrubLocalSessionContent session).1 = true) :
    SessionClean session := by
  rw [scrubLocalSessionContent, Bool.not_eq_true, Bool.or_eq_false_iff, Bool.or_eq_false_iff] at h
  obtain ⟨⟨hhistory, hmemory⟩, hothers⟩ := h
  refine ⟨by simpa using hhistory, by simpa using hmemory, fun key hkey => ?_⟩
  rw [List.any_eq_false] at hothers
  simpa using hothers key hkey

/-- The session that a merge keeps: it is scrubbed, or nothing was there to scrub. -/
theorem sessionClean_kept (changed : Bool) (changes : PyDict) :
    SessionClean (
      if changed = true ∨
          (scrubLocalSessionContent (if changed = true then updated current changes else current)).1
            = true then
        (scrubLocalSessionContent (if changed = true then updated current changes else current)).2
      else current) := by
  by_cases hchanged : changed = true
  · rw [if_pos (Or.inl hchanged)]
    exact sessionClean_scrubbed _
  · rw [if_neg hchanged]
    by_cases hscrub : (scrubLocalSessionContent current).1 = true
    · rw [if_pos (Or.inr hscrub)]
      exact sessionClean_scrubbed _
    · rw [if_neg (not_or.mpr ⟨hchanged, hscrub⟩)]
      exact sessionClean_of_not_changed hscrub

theorem sessionClean_merged {device : Device} {summary : SessionSummary}
    (h : mergedSession txt devices device summary current = .ok session) :
    SessionClean session := by
  unfold mergedSession at h
  split at h
  · cases h
  obtain ⟨adopted, -, h⟩ := Except.bind_eq_ok h
  rw [← Except.ok.inj h]
  exact sessionClean_kept _ _

theorem countedSession_eq {messageTotal : PyValue}
    (h : (countedSession task messageTotal true now current).map Prod.snd = .ok session) :
    session = (scrubLocalSessionContent
      ((current.set "local_message_total" messageTotal).set "updated_at" (.str now))).2 := by
  unfold countedSession at h
  split at h
  · cases h
  · exact (Except.ok.inj h).symm

/-- **The saved session is clean**, and is saved under its name. -/
theorem saved_clean (h : call.saved txt devices now current = .ok session) :
    SessionClean session ∧ session.get? "id" = current.get? "id" := by
  cases call with
  | mergeSummary device summary =>
    exact ⟨sessionClean_merged h, (mergedSession_bound h).2.1⟩
  | updateCount task messageTotal =>
    rw [countedSession_eq h]
    refine ⟨sessionClean_scrubbed _, (sameSession_scrub _).id.trans ?_⟩
    rw [PyDict.get?_set, if_neg (by decide), PyDict.get?_set, if_neg (by decide)]

/-! ## The tasks -/

/-- A task of the list has a text, and this id. -/
def Named (tasks : List Task) (taskId : String) : Prop :=
  ∃ task ∈ tasks, TaskIndex.HoldsText task ∧ task.taskId = taskId

/-- A row whose texts are cleared, as it is written back. -/
def ClearedFrom (ids : OwnerIds) (now : String) (old row : Task) : Prop :=
  ∃ owner, ids.canonicalOwnerId old.ownerId = some owner ∧
    row = { HubState.clearLocalTaskContent now old with ownerId := owner, updatedAt := now }

/-- The rows after the loop: those that were named are cleared, and no other has changed. -/
structure Clears (ids : OwnerIds) (now : String) (named : String → Prop)
    (index index' : TaskIndex) : Prop where
  cleared : ∀ taskId, named taskId → ∃ old row, index.tasks.find? taskId = some old ∧
    index'.tasks.find? taskId = some row ∧ ClearedFrom ids now old row
  kept : ∀ taskId, ¬ named taskId → index'.tasks.find? taskId = index.tasks.find? taskId

theorem update_clears
    (h : index.update ids task.taskId
      { fn := fun task => .ok (HubState.clearLocalTaskContent now task), now } = .ok index') :
    ∃ old owner, index.tasks.find? task.taskId = some old ∧
      ids.canonicalOwnerId old.ownerId = some owner ∧
      ∀ taskId, index'.tasks.find? taskId = if taskId = task.taskId then
        some { HubState.clearLocalTaskContent now old with ownerId := owner, updatedAt := now }
        else index.tasks.find? taskId := by
  unfold TaskIndex.update at h
  split at h
  · next updated hupdated =>
    obtain ⟨old, owner, result, hold, howner, hresult, rfl⟩ := UpdateCall.compute_ok hupdated
    refine ⟨old, owner, hold, howner, fun taskId => ?_⟩
    obtain rfl := Except.ok.inj hresult
    have hid : old.taskId = task.taskId := Table.key_of_find? hold
    rw [← Except.ok.inj h, TaskIndex.put_writeTask.tasks, ← hid]
    rfl
  · cases h

theorem Named.cons {tasks : List Task} {taskId : String} (h : Named tasks taskId) (task : Task) :
    Named (task :: tasks) taskId := by
  obtain ⟨named, hin, hrest⟩ := h
  exact ⟨named, List.mem_cons_of_mem _ hin, hrest⟩

theorem Named.split {tasks : List Task} {taskId : String} (h : Named (task :: tasks) taskId) :
    TaskIndex.HoldsText task ∧ task.taskId = taskId ∨ Named tasks taskId := by
  obtain ⟨named, hin, htext, hid⟩ := h
  rcases List.mem_cons.mp hin with rfl | hrest
  · exact Or.inl ⟨htext, hid⟩
  · exact Or.inr ⟨named, hrest, htext, hid⟩

/-- **The loop clears the tasks of its list that have a text**, and no others. -/
theorem clears_clearTasks : ∀ {tasks : List Task} {index : TaskIndex},
    (tasks.map Task.taskId).Nodup → index.clearTasks ids now tasks = .ok index' →
      Clears ids now (Named tasks) index index'
  | [], index, _, h => by
    rw [← Except.ok.inj h]
    refine ⟨fun taskId hnamed => ?_, fun _ _ => rfl⟩
    obtain ⟨task, htask, -⟩ := hnamed
    cases htask
  | task :: rest, index, hnodup, h => by
    rw [List.map_cons, List.nodup_cons] at hnodup
    rw [TaskIndex.clearTasks] at h
    split at h
    · next htext =>
      obtain ⟨middle, hmiddle, hrest⟩ := Except.bind_eq_ok h
      obtain ⟨old, owner, hold, howner, hfind⟩ := update_clears hmiddle
      have hclears := clears_clearTasks hnodup.2 hrest
      have hself : ¬ Named rest task.taskId := by
        rintro ⟨named, hin, -, hid⟩
        exact hnodup.1 (List.mem_map.mpr ⟨named, hin, hid⟩)
      refine ⟨fun taskId hnamed => ?_, fun taskId hnot => ?_⟩
      · rcases hnamed.split with ⟨-, rfl⟩ | hlater
        · refine ⟨old, _, hold, ?_, owner, howner, rfl⟩
          rw [hclears.kept _ hself, hfind, if_pos rfl]
        · have hne : taskId ≠ task.taskId := by
            rintro rfl
            exact hself hlater
          obtain ⟨old', row, hold', hrow, hcleared⟩ := hclears.cleared taskId hlater
          rw [hfind, if_neg hne] at hold'
          exact ⟨old', row, hold', hrow, hcleared⟩
      · have hne : taskId ≠ task.taskId := by
          rintro rfl
          exact hnot ⟨task, List.mem_cons_self, htext, rfl⟩
        rw [hclears.kept taskId fun hnamed => hnot (hnamed.cons task), hfind, if_neg hne]
    · next hempty =>
      have hclears := clears_clearTasks hnodup.2 h
      refine ⟨fun taskId hnamed => ?_, fun taskId hnot => ?_⟩
      · rcases hnamed.split with ⟨htext, -⟩ | hlater
        · exact absurd htext hempty
        · exact hclears.cleared taskId hlater
      · exact hclears.kept taskId fun hnamed => hnot (hnamed.cons task)

/-- A decoded row differs from the row in the spelling of its owner. -/
theorem readRows_ok : ∀ {rows tasks : List Task}, TaskIndex.readRows ids rows = .ok tasks →
    tasks.map Task.taskId = rows.map Task.taskId ∧
      ∀ taskId, Named tasks taskId ↔ Named rows taskId
  | [], tasks, h => by
    rw [← Except.ok.inj h]
    exact ⟨rfl, fun _ => Iff.rfl⟩
  | row :: rest, tasks, h => by
    rw [TaskIndex.readRows] at h
    split at h
    · cases h
    next task htask =>
    obtain ⟨others, hothers, h⟩ := Except.bind_eq_ok h
    obtain ⟨hids, hnamed⟩ := readRows_ok hothers
    obtain ⟨owner, -, rfl⟩ := taskFromPayload_ok htask
    rw [← Except.ok.inj h]
    refine ⟨by rw [List.map_cons, List.map_cons, hids], fun taskId => ?_⟩
    refine ⟨fun hin => ?_, fun hin => ?_⟩
    · rcases hin.split with ⟨htext, hid⟩ | hlater
      · exact ⟨row, List.mem_cons_self, htext, hid⟩
      · exact ((hnamed taskId).mp hlater).cons row
    · rcases hin.split with ⟨htext, hid⟩ | hlater
      · exact ⟨_, List.mem_cons_self, htext, hid⟩
      · exact ((hnamed taskId).mpr hlater).cons _

theorem nodup_sessionRows (index : TaskIndex) (sessionId ownerId : String) :
    ((index.sessionRows sessionId ownerId).map Task.taskId).Nodup := by
  have hperm := (List.perm_insertionSort TaskIndex.Later (index.tasks.rows.filter fun row =>
    row.sessionId = sessionId ∧ row.ownerId = ownerId)).map Task.taskId
  refine hperm.nodup_iff.mpr ?_
  exact index.tasks.nodup.sublist ((List.filter_sublist).map _)

theorem mem_sessionRows {sessionId ownerId : String} : task ∈ index.sessionRows sessionId ownerId ↔
    task ∈ index.tasks.rows ∧ task.sessionId = sessionId ∧ task.ownerId = ownerId := by
  rw [TaskIndex.sessionRows, (List.perm_insertionSort _ _).mem_iff, List.mem_filter,
    decide_eq_true_eq]

/-- **The scrub of the tasks**: the first 100 of the listing are cleared of their texts. -/
theorem clears_scrub (h : index.scrubLocalTaskContent ids now sessionId ownerId = .ok index') :
    ∃ owner, ids.canonicalOwnerId ownerId = some owner ∧
      Clears ids now (Named ((index.sessionRows sessionId owner).take 100)) index index' := by
  unfold TaskIndex.scrubLocalTaskContent at h
  obtain ⟨⟨tasks, total⟩, hlist, hclear⟩ := Except.bind_eq_ok h
  unfold TaskIndex.listForSession at hlist
  split at hlist
  · cases hlist
  next owner howner =>
  obtain ⟨read, hread, hresult⟩ := Except.bind_eq_ok hlist
  obtain ⟨rfl, -⟩ := Prod.mk.inj (Except.ok.inj hresult)
  obtain ⟨hids, hnamed⟩ := readRows_ok hread
  have hnodup : (read.map Task.taskId).Nodup := by
    rw [hids]
    exact (nodup_sessionRows index sessionId owner).sublist ((List.take_sublist _ _).map _)
  have hclears := clears_clearTasks hnodup hclear
  refine ⟨owner, howner, fun taskId hin => ?_, fun taskId hnot => ?_⟩
  · exact hclears.cleared taskId ((hnamed taskId).mpr hin)
  · exact hclears.kept taskId fun hin => hnot ((hnamed taskId).mp hin)

/-! ## Both -/

/-- No local task of the session has a text any more. -/
theorem tasksClean_iff
    (h : index.scrubLocalTaskContent ids now sessionId ownerId = .ok index') :
    (∀ task ∈ index'.tasks.rows, task.sessionId = sessionId →
      task.executionEnvironment = "local_worker" →
        task.input = "" ∧ task.finalAnswer.getD "" = "") ↔
      AllListed ids index sessionId ownerId := by
  obtain ⟨owner, howner, hclears⟩ := clears_scrub h
  constructor
  · intro hclean other hother task hin hsession htext
    obtain rfl := Option.some.inj (howner.symm.trans hother)
    by_contra hnot
    -- the row is not named: rows with one id are one row
    have hunnamed : ¬ Named ((index.sessionRows sessionId owner).take 100) task.taskId := by
      rintro ⟨row, hrow, -, hid⟩
      have hrow' := (mem_sessionRows.mp (List.mem_of_mem_take hrow)).1
      rw [index.tasks.eq_of_key hrow' hin hid] at hrow
      exact hnot hrow
    have hfind := hclears.kept _ hunnamed
    rw [Table.mem_iff_find?.mp hin, ← Table.mem_iff_find?] at hfind
    obtain ⟨hinput, hanswer⟩ := hclean task hfind hsession htext.1
    rcases htext.2 with hyes | hyes
    · exact hyes hinput
    · exact hyes hanswer
  · intro hlisted row hrow hsession hlocal
    have hfind := Table.mem_iff_find?.mp hrow
    by_cases hnamed : Named ((index.sessionRows sessionId owner).take 100) row.taskId
    · obtain ⟨old, row', -, hrow', owner', -, hcleared⟩ := hclears.cleared _ hnamed
      obtain rfl := Option.some.inj (hfind.symm.trans hrow')
      rw [hcleared]
      exact ⟨rfl, rfl⟩
    · rw [hclears.kept _ hnamed, ← Table.mem_iff_find?] at hfind
      by_contra hnot
      refine hnamed ⟨row, hlisted owner howner row hfind hsession ⟨hlocal, ?_⟩, ⟨hlocal, ?_⟩, rfl⟩
      · exact not_and_or.mp hnot
      · exact not_and_or.mp hnot

/-- A call that leaves nothing has seen every task. -/
theorem allListed_of_clean {current : PyDict}
    (h : perform txt ids devices now s current call = .ok t)
    (hall : Clean t call.sessionId) : AllListed ids s.index call.sessionId call.ownerId := by
  unfold perform at h
  split at h
  · cases h
  split at h
  · cases h
  next index hscrub =>
  obtain rfl := Except.ok.inj h
  exact (tasksClean_iff hscrub).mp hall.tasks

/-- **Nothing of the session is left on the server** exactly where each of its local tasks with a
text was among the 100 tasks of the owner in the session that were updated last. -/
theorem clean_iff (txt : PyText) (ids : OwnerIds) (devices : DeviceStore) (now : String)
    (s t : Central) (current : PyDict) (call : ScrubCall)
    (hcurrent : s.sessions.records call.sessionId = some current)
    (h : perform txt ids devices now s current call = .ok t) :
    Clean t call.sessionId ↔ AllListed ids s.index call.sessionId call.ownerId := by
  refine ⟨allListed_of_clean h, fun hlisted => ?_⟩
  unfold perform at h
  split at h
  · cases h
  next session hsaved =>
  split at h
  · cases h
  next index hscrub =>
  obtain rfl := Except.ok.inj h
  obtain ⟨hclean, hid⟩ := saved_clean hsaved
  refine ⟨fun session' hsession' => ?_, (tasksClean_iff hscrub).mpr hlisted⟩
  have hname : sessionName session = some call.sessionId := by
    rw [sessionName_eq_some, hid]
    exact s.sessions.keyed _ _ hcurrent
  have hstored : (s.sessions.save session).records call.sessionId = some session := if_pos hname
  rw [← Option.some.inj (hstored.symm.trans hsession')]
  exact hclean

/-- A session of no more than 100 tasks, all of one owner, is listed as a whole. -/
theorem allListed_of_few {owner : String} (howner : ids.canonicalOwnerId ownerId = some owner)
    (hfew : (index.sessionRows sessionId owner).length ≤ 100)
    (hown : ∀ task ∈ index.tasks.rows, task.sessionId = sessionId → task.ownerId = owner) :
    AllListed ids index sessionId ownerId := by
  intro other hother task hin hsession _
  obtain rfl := Option.some.inj (howner.symm.trans hother)
  rw [List.take_of_length_le hfew]
  exact mem_sessionRows.mpr ⟨hin, hsession, hown task hin hsession⟩

/-- Where the owners are spelled canonically, the loop does not raise. -/
theorem exists_clearTasks : ∀ {tasks : List Task} {index : TaskIndex},
    (∀ taskId row, index.tasks.find? taskId = some row →
      ids.canonicalOwnerId row.ownerId = some row.ownerId) →
    (∀ task ∈ tasks, index.tasks.find? task.taskId ≠ none) →
    ∃ index', index.clearTasks ids now tasks = .ok index'
  | [], index, _, _ => ⟨index, rfl⟩
  | task :: rest, index, howners, hthere => by
    have hrest : ∀ later ∈ rest, index.tasks.find? later.taskId ≠ none :=
      fun later hin => hthere later (List.mem_cons_of_mem _ hin)
    rw [TaskIndex.clearTasks]
    by_cases htext : TaskIndex.HoldsText task
    · obtain ⟨old, hold⟩ := Option.ne_none_iff_exists'.mp (hthere task List.mem_cons_self)
      let call : UpdateCall := {
        fn := fun task => .ok (HubState.clearLocalTaskContent now task)
        now := now }
      have hupdate : ∃ middle, index.update ids task.taskId call = .ok middle := by
        let cleared : Task := { HubState.clearLocalTaskContent now old with updatedAt := now }
        refine ⟨index.writeTask cleared, ?_⟩
        unfold TaskIndex.update UpdateCall.compute taskFromPayload
        rw [hold]
        simp only [bind, Except.bind, howners _ _ hold]
        rfl
      obtain ⟨middle, hmiddle⟩ := hupdate
      obtain ⟨old', owner, hold', howner, hfind⟩ := update_clears hmiddle
      have hsame : owner = old'.ownerId :=
        Option.some.inj (howner.symm.trans (howners _ _ hold'))
      rw [if_pos htext, hmiddle]
      refine exists_clearTasks (fun taskId row hrow => ?_) fun later hin hnone => ?_
      · rw [hfind] at hrow
        split at hrow
        · rw [← Option.some.inj hrow, hsame]
          exact howners task.taskId old' hold'
        · exact howners taskId row hrow
      · rw [hfind] at hnone
        split at hnone
        · cases hnone
        · exact hrest later hin hnone
    · rw [if_neg htext]
      exact exists_clearTasks howners hrest

theorem readRows_of_canonical : ∀ {rows : List Task},
    (∀ row ∈ rows, ids.canonicalOwnerId row.ownerId = some row.ownerId) →
    TaskIndex.readRows ids rows = .ok rows
  | [], _ => rfl
  | row :: rest, h => by
    rw [TaskIndex.readRows, taskFromPayload, h row List.mem_cons_self]
    dsimp only
    rw [readRows_of_canonical fun other hin => h other (List.mem_cons_of_mem _ hin)]
    rfl

theorem exists_scrub (howner : ids.canonicalOwnerId ownerId = some ownerId)
    (howners : ∀ row ∈ index.tasks.rows, ids.canonicalOwnerId row.ownerId = some row.ownerId) :
    ∃ index', index.scrubLocalTaskContent ids now sessionId ownerId = .ok index' := by
  have hrows : ∀ row ∈ (index.sessionRows sessionId ownerId).take 100, row ∈ index.tasks.rows :=
    fun row hin => (mem_sessionRows.mp (List.mem_of_mem_take hin)).1
  have hclear : ∃ index',
      index.clearTasks ids now ((index.sessionRows sessionId ownerId).take 100) = .ok index' := by
    refine exists_clearTasks (fun taskId row hrow => howners row (Table.find?_eq_some.mp hrow).1)
      fun row hin hnone => ?_
    rw [Table.mem_iff_find?.mp (hrows row hin)] at hnone
    cases hnone
  obtain ⟨index', hclear⟩ := hclear
  refine ⟨index', ?_⟩
  unfold TaskIndex.scrubLocalTaskContent TaskIndex.listForSession
  rw [howner]
  dsimp only
  rw [readRows_of_canonical fun row hin => howners row (hrows row hin)]
  exact hclear

end Laws

/-! ## A session of 101 tasks -/

namespace ManyTasks

def ids : OwnerIds where
  canonicalOwnerId value := if value = "" then none else some value
  canonical_ne_empty := given_ne_empty

/-- A task that was uploaded with its input. -/
def task (n : Nat) : Task where
  taskId := String.ofList (List.replicate n 'x')
  sessionId := "session_1"
  workspaceId := "ws_1"
  ownerId := "user_1"
  runId := ""
  input := "Fix the build."
  executionEnvironment := "local_worker"
  deviceId := "dev_1"
  createdAt := "2026-01-01T00:00:00Z"
  updatedAt := "2026-01-01T00:00:00Z"

def index (count : Nat) : TaskIndex where
  tasks := {
    rows := (List.range count).map task
    nodup := by
      rw [List.map_map]
      refine List.nodup_range.map fun m n h => ?_
      have hlength := congrArg (List.length ∘ String.toList) h
      simpa [task] using hlength }
  runs := { rows := [], nodup := List.nodup_nil }

def current : PyDict :=
  [("id", .str "session_1"), ("owner_id", .str "user_1"), ("workspace_id", .str "ws_1"),
    ("device_id", .str "dev_1"), ("execution_environment", .str "local_worker"),
    ("history", .list [])]

/-- The server with so many tasks of the session. -/
def central (count : Nat) : Central where
  sessions := (SessionStore.mk (fun _ => none) fun _ _ h => by cases h).save current
  index := index count

/-- The Worker has finished a task, and has the session on its disk. -/
def call : ScrubCall := .updateCount (task 0) (.int 2)

def devices : DeviceStore := ⟨fun _ => none, DeviceStore.none_keyed⟩

theorem exists_perform (count : Nat) :
    ∃ t, perform .ascii ids devices "2026-01-02T00:00:00Z" (central count) current call
      = .ok t := by
  have hindex : ∃ index', (index count).scrubLocalTaskContent ids "2026-01-02T00:00:00Z"
      call.sessionId call.ownerId = .ok index' := by
    refine exists_scrub (by decide) fun row hin => ?_
    obtain ⟨n, -, rfl⟩ := List.mem_map.mp hin
    show ids.canonicalOwnerId "user_1" = some "user_1"
    decide
  obtain ⟨index', hindex⟩ := hindex
  unfold perform
  rw [show call.saved .ascii devices "2026-01-02T00:00:00Z" current
    = .ok (scrubLocalSessionContent ((current.set "local_message_total" (.int 2)).set "updated_at"
      (.str "2026-01-02T00:00:00Z"))).2 from rfl]
  dsimp only
  rw [show (central count).index = index count from rfl, hindex]
  exact ⟨_, rfl⟩

theorem records_central (count : Nat) :
    (central count).sessions.records call.sessionId = some current := by
  show (if sessionName current = some call.sessionId then some current else none) = some current
  exact if_pos rfl

end ManyTasks

open ManyTasks in
/-- One task is cleared with its session. -/
theorem clean_iff_one :
    ∃ t, perform .ascii ids devices "2026-01-02T00:00:00Z" (central 1) current call = .ok t ∧
      Clean t call.sessionId := by
  obtain ⟨t, ht⟩ := exists_perform 1
  refine ⟨t, ht, (clean_iff .ascii ids devices "2026-01-02T00:00:00Z" (central 1) t current call
    (records_central 1) ht).mpr ?_⟩
  have howner : ids.canonicalOwnerId call.ownerId = some "user_1" := by decide
  refine allListed_of_few howner (by decide +kernel) fun task hin _ => ?_
  obtain ⟨n, -, rfl⟩ := List.mem_map.mp hin
  rfl

open ManyTasks in
/-- **A session of 101 tasks keeps a text**: no listing shows them all. -/
theorem not_clean : ¬ ∀ (txt : PyText) (ids : OwnerIds) (devices : DeviceStore) (now : String)
    (s t : Central) (current : PyDict) (call : ScrubCall),
    s.sessions.records call.sessionId = some current →
    perform txt ids devices now s current call = .ok t → Clean t call.sessionId := by
  intro hclaim
  obtain ⟨t, ht⟩ := exists_perform 101
  have hclean := hclaim _ _ _ _ _ _ _ _ (records_central 101) ht
  have hlisted := allListed_of_clean ht hclean
  have hsubset : (index 101).tasks.rows ⊆
      ((index 101).sessionRows call.sessionId "user_1").take 100 := by
    intro row hin
    refine hlisted "user_1" (by decide) row hin ?_ ?_
    · obtain ⟨n, -, rfl⟩ := List.mem_map.mp hin
      rfl
    · obtain ⟨n, -, rfl⟩ := List.mem_map.mp hin
      exact ⟨rfl, Or.inl (show ("Fix the build." : String) ≠ "" by decide)⟩
  have hlength := (List.subperm_of_subset
    (List.Nodup.of_map Task.taskId (index 101).tasks.nodup) hsubset).length_le
  have hrows : (index 101).tasks.rows.length = 101 := by
    show ((List.range 101).map task).length = 101
    rw [List.length_map, List.length_range]
  rw [hrows] at hlength
  exact absurd (hlength.trans (List.length_take_le _ _)) (by decide)

end Scrubbing

end ThreadForge

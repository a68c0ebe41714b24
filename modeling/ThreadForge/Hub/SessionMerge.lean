import ThreadForge.Hub.Devices
import ThreadForge.Hub.StreamPersistence
import ThreadForge.Lib.Effects
import ThreadForge.Lib.JsonSize
import ThreadForge.Pico.ToolExecutor

/-!
# What a session summary changes

`_merge_session_summary`: a summary that a Worker sends is merged into the session that is stored,
or refused, and what a session of a local Worker may not hold is taken out of it. A session keeps
its id and its owner, and is one of the device then.

## Main results

* `Channel.mergedSession_bound` — a merge keeps the session of an owner, and leaves it with the
  device.
-/

namespace ThreadForge

open Eff HubState Transition

/-- `raise WorkerProtocolError(message)`. -/
def protocolError {α : Type} (message : String) : Except HubError α := .error (.protocol message)

/-! ## Sessions -/

/-- What `_parse_session_summary` returns. -/
structure SessionSummary where
  sessionId : String
  workspaceId : String
  title : String
  createdAt : String
  updatedAt : String
  displayNameSource : String
  displayNameUpdatedAt : String
  firstRequestAt : String
  messageTotal : PyValue

/-- The files of the session store. A file has the name of the session in it. -/
structure SessionStore where
  records : String → Option PyDict
  keyed : ∀ sessionId session, records sessionId = some session →
    session.get? "id" = some (.str sessionId)

/-- The name `SessionStore.save` writes a session under. -/
def sessionName (session : PyDict) : Option String :=
  match session.get? "id" with
  | some (.str sessionId) => some sessionId
  | _ => none

theorem sessionName_eq_some {session : PyDict} {sessionId : String} :
    sessionName session = some sessionId ↔ session.get? "id" = some (.str sessionId) := by
  unfold sessionName
  split
  · next text h => rw [h, Option.some.injEq, Option.some.injEq, PyValue.str.injEq]
  · next hno =>
    constructor
    · intro h
      cases h
    · intro h
      exact absurd h (hno sessionId)

/-- `SessionStore.save`. -/
def SessionStore.save (store : SessionStore) (session : PyDict) : SessionStore where
  records sessionId :=
    if sessionName session = some sessionId then some session else store.records sessionId
  keyed sessionId other h := by
    split at h
    · next hname =>
      rw [← Option.some.inj h]
      exact sessionName_eq_some.mp hname
    · exact store.keyed sessionId other h

/-- `default_memory_state`. -/
def defaultMemoryState : PyValue :=
  .dict [("working", .dict [("task_summary", .str ""), ("recent_files", .list []),
      ("listed_dirs", .list [])]),
    ("episodic_notes", .list []), ("file_summaries", .dict []), ("task", .str ""),
    ("files", .list []), ("notes", .list []), ("next_note_index", .int 0)]

/-! ## Requests -/

/-- `PendingWorkerRequest`; its future is kept by the hub. Times are nanoseconds of the monotonic
clock. -/
structure PendingRequest where
  ownerId : String
  deviceId : String
  subjectId : String := ""
  createdAt : Nat := 0
  deriving DecidableEq, Repr

theorem PyDict.getD_none_eq_str {d : PyDict} {key text : String} :
    d.getD key .none = .str text ↔ d.get? key = some (.str text) := by
  unfold PyDict.getD
  cases h : d.get? key with
  | none =>
    constructor
    · intro hnone
      cases hnone
    · intro hnone
      cases hnone
  | some value =>
    rw [Option.getD_some, Option.some.injEq]

namespace Channel

/-! ## Sessions of the Worker -/

/-- `dict.update`. -/
def updated (session changes : PyDict) : PyDict :=
  changes.foldl (fun session change => session.set change.1 change.2) session

/-- `session.pop(key, None)`. -/
def popKey (session : PyDict) (key : String) : PyDict := session.filter fun entry => entry.1 ≠ key

def scrubbedKeys : List String := ["checkpoints", "runtime_identity", "resume_state"]

/-- `_scrub_local_session_content`: whether anything was there, and the session without it. -/
def scrubLocalSessionContent (session : PyDict) : Bool × PyDict :=
  (!pyEq (session.getD "history" .none) (.list []) ||
      !pyEq (session.getD "memory" .none) defaultMemoryState ||
      scrubbedKeys.any fun key => (session.get? key).isSome,
    scrubbedKeys.foldl popKey
      ((session.set "history" (.list [])).set "memory" defaultMemoryState))

/-- The root a session of a local Worker is stored with. -/
def workerRoot (deviceId workspaceId : String) : String :=
  "worker://" ++ deviceId ++ "/" ++ workspaceId

/-- What a summary changes in a session of another device, once that device is gone. -/
def adoption (txt : PyText) (store : DeviceStore) (device : Device) (summary : SessionSummary)
    (current : PyDict) : Except HubError PyDict :=
  if current.getD "device_id" .none = .str device.deviceId then .ok []
  else match store.get? (current.textOf txt "device_id") with
    | none => .ok [("device_id", .str device.deviceId),
        ("workspace_root", .str (workerRoot device.deviceId summary.workspaceId))]
    | some _ => protocolError "local session is still bound to another registered device"

/-- The title a summary gives, unless the user has named the session. -/
def titleChanges (txt : PyText) (summary : SessionSummary) (current : PyDict) : PyDict :=
  if (current.getD "display_name_source" (.str "auto")).text txt = "user" then []
  else ("title", .str summary.title) ::
    (if summary.displayNameUpdatedAt = "" then []
      else [("display_name_source", .str summary.displayNameSource),
        ("display_name_updated_at", .str summary.displayNameUpdatedAt)])

/-- `_merge_local_session_summary` for a session the control plane knows: the session to keep. -/
def mergedSession (txt : PyText) (store : DeviceStore) (device : Device)
    (summary : SessionSummary) (current : PyDict) : Except HubError PyDict :=
  if current.getD "owner_id" .none ≠ .str device.ownerId ∨
      current.getD "execution_environment" .none ≠ .str "local_worker" ∨
      current.getD "workspace_id" .none ≠ .str summary.workspaceId then
    protocolError "local session identity conflicts with control-plane data"
  else do
    let adopted ← adoption txt store device summary current
    let changes : PyDict :=
      [("local_message_total", summary.messageTotal), ("local_updated_at", .str summary.updatedAt)]
        ++ adopted
        ++ (if summary.firstRequestAt = "" then []
            else [("first_request_at", .str summary.firstRequestAt)])
        ++ titleChanges txt summary current
    let changed := changes.any fun change => !pyEq (current.getD change.1 .none) change.2
    let current' := if changed then updated current changes else current
    let scrubbed := scrubLocalSessionContent current'
    pure (if changed ∨ scrubbed.1 then scrubbed.2 else current)

/-- The session a summary creates. -/
def createdSession (device : Device) (summary : SessionSummary) (now : String) : PyDict :=
  [("id", .str summary.sessionId),
    ("created_at", .str (if summary.createdAt = "" then now else summary.createdAt)),
    ("workspace_root", .str (workerRoot device.deviceId summary.workspaceId)),
    ("workspace_id", .str summary.workspaceId),
    ("execution_environment", .str "local_worker"),
    ("device_id", .str device.deviceId),
    ("owner_id", .str device.ownerId),
    ("title", .str (if summary.title = "" then
        "Session " ++ pyDrop summary.sessionId (summary.sessionId.length - 8)
      else summary.title)),
    ("display_name_source", .str summary.displayNameSource),
    ("display_name_updated_at", .str (if summary.displayNameUpdatedAt ≠ "" then
        summary.displayNameUpdatedAt
      else if summary.createdAt ≠ "" then summary.createdAt else now)),
    ("first_request_at", .str summary.firstRequestAt),
    ("history", .list []),
    ("memory", defaultMemoryState),
    ("local_message_total", summary.messageTotal),
    ("local_updated_at", .str summary.updatedAt)]

/-! ## Tasks -/

/-- `_update_local_session_count`, for the session; `session_persisted` scrubs it. -/
def countedSession (task : Task) (messageTotal : PyValue) (persisted : Bool) (now : String)
    (current : PyDict) : Except HubError (Unit × PyDict) :=
  if current.getD "owner_id" .none ≠ .str task.ownerId ∨
      current.getD "workspace_id" .none ≠ .str task.workspaceId ∨
      current.getD "device_id" .none ≠ .str task.deviceId then
    protocolError "Worker returned an invalid session identity"
  else
    let counted := (current.set "local_message_total" messageTotal).set "updated_at" (.str now)
    .ok ((), if persisted then (scrubLocalSessionContent counted).2 else counted)

/-! ## Replies -/

/-- The session a rename leaves. -/
def renamedSession (request : PendingRequest) (displayName now : String) (session : PyDict) :
    Except HubError (Unit × PyDict) :=
  if session.getD "owner_id" .none ≠ .str request.ownerId ∨
      session.getD "device_id" .none ≠ .str request.deviceId then
    protocolError "renamed session ownership changed"
  else .ok ((), (((session.set "title" (.str (pyClip displayName 200))).set
    "display_name_source" (.str "user")).set "display_name_updated_at" (.str now)).set
      "updated_at" (.str now))

/-! ## What a device owns -/

/-- The session is bound to the device and belongs to its owner. -/
def Bound (deviceId ownerId : String) (session : PyDict) : Prop :=
  session.get? "owner_id" = some (.str ownerId) ∧ session.get? "device_id" = some (.str deviceId)

variable {deviceId ownerId : String}

/-! ## Sessions -/

/-- The session a change leaves is the one it was made to. -/
structure SameSession (session session' : PyDict) : Prop where
  id : session'.get? "id" = session.get? "id"
  owner : session'.get? "owner_id" = session.get? "owner_id"
  device : session'.get? "device_id" = session.get? "device_id"

theorem SameSession.set {session : PyDict} {key : String} {value : PyValue}
    (hid : key ≠ "id") (howner : key ≠ "owner_id") (hdevice : key ≠ "device_id") :
    SameSession session (session.set key value) := by
  refine ⟨?_, ?_, ?_⟩
  · rw [PyDict.get?_set, if_neg (Ne.symm hid)]
  · rw [PyDict.get?_set, if_neg (Ne.symm howner)]
  · rw [PyDict.get?_set, if_neg (Ne.symm hdevice)]

theorem SameSession.trans {a b d : PyDict} (h : SameSession a b) (h' : SameSession b d) :
    SameSession a d :=
  ⟨h'.id.trans h.id, h'.owner.trans h.owner, h'.device.trans h.device⟩

theorem get?_popKey (session : PyDict) {key key' : String} (h : key' ≠ key) :
    (popKey session key).get? key' = session.get? key' := by
  induction session with
  | nil => rfl
  | cons entry rest ih =>
    obtain ⟨k, v⟩ := entry
    by_cases hk : k = key
    · rw [popKey, List.filter_cons_of_neg (by simpa using hk), PyDict.get?_cons, if_neg (hk ▸ h)]
      exact ih
    · rw [popKey, List.filter_cons_of_pos (by simpa using hk), PyDict.get?_cons, PyDict.get?_cons]
      by_cases hkey : key' = k
      · rw [if_pos hkey, if_pos hkey]
      · rw [if_neg hkey, if_neg hkey]
        exact ih

theorem SameSession.popKey {session : PyDict} {key : String}
    (hid : key ≠ "id") (howner : key ≠ "owner_id") (hdevice : key ≠ "device_id") :
    SameSession session (popKey session key) :=
  ⟨get?_popKey session (Ne.symm hid), get?_popKey session (Ne.symm howner),
    get?_popKey session (Ne.symm hdevice)⟩

theorem sameSession_scrub (session : PyDict) :
    SameSession session (scrubLocalSessionContent session).2 := by
  have hset : SameSession session
      ((session.set "history" (.list [])).set "memory" defaultMemoryState) :=
    (SameSession.set (by decide) (by decide) (by decide)).trans
      (.set (by decide) (by decide) (by decide))
  refine hset.trans ?_
  exact ((SameSession.popKey (by decide) (by decide) (by decide)).trans
    (.popKey (by decide) (by decide) (by decide))).trans
      (.popKey (by decide) (by decide) (by decide))

theorem SameSession.bound {session session' : PyDict} (h : SameSession session session')
    (hbound : Bound deviceId ownerId session) : Bound deviceId ownerId session' :=
  ⟨h.owner.trans hbound.1, h.device.trans hbound.2⟩

/-! ## Merging a summary -/

theorem updated_cons (d : PyDict) (change : String × PyValue) (changes : PyDict) :
    updated d (change :: changes) = updated (d.set change.1 change.2) changes := rfl

theorem get?_updated_of_eq {key : String} {value : PyValue} :
    ∀ {changes d : PyDict}, (∀ change ∈ changes, change.1 = key → change.2 = value) →
      d.get? key = some value → (updated d changes).get? key = some value
  | [], _, _, h => h
  | (k, v) :: changes, d, hall, h => by
    rw [updated_cons]
    refine get?_updated_of_eq (fun change hmem => hall change (List.mem_cons_of_mem _ hmem)) ?_
    rw [PyDict.get?_set]
    split
    · next hk => rw [hall (k, v) List.mem_cons_self hk.symm]
    · exact h

theorem get?_updated_of_mem {key : String} {value : PyValue} :
    ∀ {changes d : PyDict}, (∀ change ∈ changes, change.1 = key → change.2 = value) →
      (key, value) ∈ changes → (updated d changes).get? key = some value
  | change :: changes, d, hall, hmem => by
    have hrest := fun change hmem => hall change (List.mem_cons_of_mem _ hmem)
    rw [updated_cons]
    rcases List.mem_cons.mp hmem with rfl | hmem
    · refine get?_updated_of_eq hrest ?_
      rw [PyDict.get?_set, if_pos rfl]
    · exact get?_updated_of_mem hrest hmem

theorem get?_updated_of_not_mem {key : String} :
    ∀ {changes d : PyDict}, (∀ change ∈ changes, change.1 ≠ key) →
      (updated d changes).get? key = d.get? key
  | [], _, _ => rfl
  | change :: changes, d, hall => by
    rw [updated_cons]
    refine (get?_updated_of_not_mem
      (fun change hmem => hall change (List.mem_cons_of_mem _ hmem))).trans ?_
    rw [PyDict.get?_set, if_neg (Ne.symm (hall change List.mem_cons_self))]

theorem eq_of_pyEq_str {value : PyValue} {text : String} (h : pyEq value (.str text) = true) :
    value = .str text := by
  have hscalar : pyEq value (.str text) = scalarEq value (.str text) := by
    cases value <;> rfl
  have hnumber : scalarEq.number? (.str text) = none := rfl
  rw [hscalar, scalarEq, hnumber] at h
  cases hvalue : scalarEq.number? value with
  | some x =>
    rw [hvalue] at h
    cases h
  | none =>
    rw [hvalue, Bool.and_eq_true] at h
    exact beq_iff_eq.mp h.1

variable {txt : PyText} {store : DeviceStore} {device : Device} {summary : SessionSummary}
  {current session : PyDict}

/-- The keys a summary changes. -/
theorem adoption_keys {changes : PyDict}
    (h : adoption txt store device summary current = .ok changes)
    {change : String × PyValue} (hmem : change ∈ changes) :
    change = ("device_id", .str device.deviceId) ∨ change.1 = "workspace_root" := by
  unfold adoption at h
  split at h
  · rw [← Except.ok.inj h] at hmem
    cases hmem
  split at h
  · rw [← Except.ok.inj h] at hmem
    simp only [List.mem_cons, List.not_mem_nil, or_false] at hmem
    rcases hmem with rfl | rfl
    · exact Or.inl rfl
    · exact Or.inr rfl
  · cases h

/-- A session of another device is adopted, or the summary is refused. -/
theorem adoption_device {changes : PyDict}
    (h : adoption txt store device summary current = .ok changes) :
    current.getD "device_id" .none = .str device.deviceId ∨
      ("device_id", .str device.deviceId) ∈ changes := by
  unfold adoption at h
  split at h
  · next hsame => exact Or.inl hsame
  split at h
  · rw [← Except.ok.inj h]
    exact Or.inr List.mem_cons_self
  · cases h

theorem titleChanges_keys {change : String × PyValue}
    (h : change ∈ titleChanges txt summary current) :
    change.1 = "title" ∨ change.1 = "display_name_source" ∨
      change.1 = "display_name_updated_at" := by
  unfold titleChanges at h
  split at h
  · cases h
  rcases List.mem_cons.mp h with rfl | h
  · exact Or.inl rfl
  split at h
  · cases h
  · simp only [List.mem_cons, List.not_mem_nil, or_false] at h
    rcases h with rfl | rfl
    · exact Or.inr (Or.inl rfl)
    · exact Or.inr (Or.inr rfl)

/-- **A merge keeps the session of an owner, and leaves it with the device.** -/
theorem mergedSession_bound (h : mergedSession txt store device summary current = .ok session) :
    current.get? "owner_id" = some (.str device.ownerId) ∧
      session.get? "id" = current.get? "id" ∧ Bound device.deviceId device.ownerId session := by
  unfold mergedSession at h
  split at h
  · cases h
  next hidentity =>
  have howner : current.getD "owner_id" .none = .str device.ownerId :=
    Decidable.byContradiction fun hne => hidentity (Or.inl hne)
  rw [PyDict.getD_none_eq_str] at howner
  obtain ⟨adopted, hadopted, h⟩ := Except.bind_eq_ok h
  -- what is known of the keys of the changes
  let changes : PyDict :=
    [("local_message_total", summary.messageTotal), ("local_updated_at", .str summary.updatedAt)]
      ++ adopted
      ++ (if summary.firstRequestAt = "" then []
          else [("first_request_at", .str summary.firstRequestAt)])
      ++ titleChanges txt summary current
  have hkeys : ∀ change ∈ changes, change.1 ≠ "id" ∧ change.1 ≠ "owner_id" ∧
      (change.1 = "device_id" → change.2 = .str device.deviceId) := by
    intro change hmem
    simp only [changes, List.mem_append] at hmem
    rcases hmem with ((hmem | hmem) | hmem) | hmem
    · simp only [List.mem_cons, List.not_mem_nil, or_false] at hmem
      rcases hmem with rfl | rfl <;> exact ⟨by simp, by simp, by simp⟩
    · rcases adoption_keys hadopted hmem with rfl | hkey
      · exact ⟨by simp, by simp, fun _ => rfl⟩
      · rw [hkey]
        exact ⟨by simp, by simp, by simp⟩
    · split at hmem
      · cases hmem
      · rw [List.mem_singleton] at hmem
        subst hmem
        exact ⟨by simp, by simp, by simp⟩
    · rcases titleChanges_keys hmem with hkey | hkey | hkey <;>
        rw [hkey] <;> exact ⟨by simp, by simp, by simp⟩
  have hupdated : Bound device.deviceId device.ownerId (updated current changes) := by
    refine ⟨?_, ?_⟩
    · rw [get?_updated_of_not_mem fun change hmem => (hkeys change hmem).2.1]
      exact howner
    · rcases adoption_device hadopted with hsame | hadopt
      · exact get?_updated_of_eq (fun change hmem => (hkeys change hmem).2.2)
          (PyDict.getD_none_eq_str.mp hsame)
      · refine get?_updated_of_mem (fun change hmem => (hkeys change hmem).2.2) ?_
        simp only [changes, List.mem_append]
        exact Or.inl (Or.inl (Or.inr hadopt))
  have hid : (updated current changes).get? "id" = current.get? "id" :=
    get?_updated_of_not_mem fun change hmem => (hkeys change hmem).1
  let changed : Bool := changes.any fun change => !pyEq (current.getD change.1 .none) change.2
  have hresult : (if changed = true ∨
        (scrubLocalSessionContent (if changed = true then updated current changes else current)).1
      then (scrubLocalSessionContent
        (if changed = true then updated current changes else current)).2
      else current) = session := Except.ok.inj h
  by_cases hchanged : changed = true
  · rw [if_pos (Or.inl hchanged), if_pos hchanged] at hresult
    have hscrub := sameSession_scrub (updated current changes)
    rw [← hresult]
    exact ⟨howner, hscrub.id.trans hid, hscrub.bound hupdated⟩
  · -- an adoption would have been a change
    have hbound : Bound device.deviceId device.ownerId current := by
      refine ⟨howner, ?_⟩
      rcases adoption_device hadopted with hsame | hadopt
      · exact PyDict.getD_none_eq_str.mp hsame
      · have hmem : ("device_id", PyValue.str device.deviceId) ∈ changes := by
          simp only [changes, List.mem_append]
          exact Or.inl (Or.inl (Or.inr hadopt))
        have heq : pyEq (current.getD "device_id" .none) (.str device.deviceId) = true := by
          by_contra hne
          exact hchanged (List.any_eq_true.mpr ⟨_, hmem, by simpa using hne⟩)
        exact PyDict.getD_none_eq_str.mp (eq_of_pyEq_str heq)
    have hscrub := sameSession_scrub current
    rw [if_neg hchanged] at hresult
    by_cases hscrubbed : (scrubLocalSessionContent current).1 = true
    · rw [if_pos (Or.inr hscrubbed)] at hresult
      rw [← hresult]
      exact ⟨howner, hscrub.id, hscrub.bound hbound⟩
    · rw [if_neg (not_or.mpr ⟨hchanged, hscrubbed⟩)] at hresult
      rw [← hresult]
      exact ⟨howner, rfl, hbound⟩

end Channel

end ThreadForge

import ThreadForge.Hub.Devices

/-!
# The names of workspaces

A Worker reports its workspaces again and again, each time under the names it knows. Each report
rebuilds the list of the device, and keeps the name of a workspace where a user has given one.

## Main results

* `DeviceStore.names_kept` — after any calls, the workspaces are those of the last report, and the
  name a user gave last stands for as long as every report lists the workspace.
-/

namespace ThreadForge

namespace DeviceStore

/-! ## Runs -/

/-- A call on the record of a device. -/
inductive NameCall
  | updatePresence (presence : Presence) (now : String)
  | setWorkspaceDisplayName (ownerId workspaceId displayName now : String)

/-- A name as `set_workspace_display_name` takes it, and when it was given. -/
structure GivenName where
  name : String
  updatedAt : String
  deriving DecidableEq, Repr

section Runs

variable (txt : PyText) (deviceId : String)

/-- What a call returns. -/
def callResult (store : DeviceStore) : NameCall → Except Refusal (Device × DeviceStore)
  | .updatePresence presence now => store.updatePresence deviceId presence now
  | .setWorkspaceDisplayName ownerId workspaceId displayName now =>
    store.setWorkspaceDisplayName txt deviceId ownerId workspaceId displayName now

/-- A call that raises leaves the store. -/
def call (store : DeviceStore) (c : NameCall) : DeviceStore :=
  match store.callResult txt deviceId c with
  | .ok (_, store') => store'
  | .error _ => store

def runCalls (store : DeviceStore) (calls : List NameCall) : DeviceStore :=
  calls.foldl (call txt deviceId) store

/-- The calls that did not raise. -/
def accepted (store : DeviceStore) : List NameCall → List NameCall
  | [] => []
  | c :: rest => match store.callResult txt deviceId c with
    | .ok (_, store') => c :: accepted store' rest
    | .error _ => accepted store rest

/-- The ids of the last report. -/
def reportedIds (ids : List String) : NameCall → List String
  | .updatePresence presence _ => presence.workspaces.map WorkerWorkspace.workspaceId
  | .setWorkspaceDisplayName .. => ids

/-- The name a user gave a workspace last, unless a report has left the workspace out since. -/
def standing (workspaceId : String) (given : Option GivenName) : NameCall → Option GivenName
  | .updatePresence presence _ =>
    if workspaceId ∈ presence.workspaces.map WorkerWorkspace.workspaceId then given else none
  | .setWorkspaceDisplayName _ named displayName now =>
    if named = workspaceId then some ⟨pyClip (pyStrip txt displayName) 200, now⟩ else given

/-- The name that stands after these calls. -/
def standingName (workspaceId : String) (calls : List NameCall) : Option GivenName :=
  calls.foldl (standing txt workspaceId) none

end Runs

/-! ## One call -/

variable {txt : PyText} {deviceId workspaceId : String} {store store' : DeviceStore}
  {device device' : Device} {given : GivenName} {now : String}

/-- The workspace is stored under the name, as one that a user has given. -/
structure Bears (device : Device) (workspaceId : String) (given : GivenName) : Prop where
  listed : workspaceId ∈ device.workspaces.map WorkerWorkspace.workspaceId
  name : ∀ workspace ∈ device.workspaces, workspace.workspaceId = workspaceId →
    workspace.name = given.name ∧ workspace.displayNameSource = "user" ∧
      workspace.displayNameUpdatedAt = given.updatedAt

theorem workspaceId_mergeWorkspace (existing : List WorkerWorkspace) (now : String)
    (workspace : WorkerWorkspace) :
    (mergeWorkspace existing now workspace).workspaceId = workspace.workspaceId := by
  unfold mergeWorkspace
  split
  · rfl
  · rfl

theorem ids_present (device : Device) (presence : Presence) (now : String) :
    (present device presence now).workspaces.map WorkerWorkspace.workspaceId
      = presence.workspaces.map WorkerWorkspace.workspaceId := by
  show (presence.workspaces.map _).map _ = _
  rw [List.map_map]
  exact List.map_congr_left fun workspace _ => workspaceId_mergeWorkspace _ _ workspace

/-- **A report** that lists a workspace leaves the name a user gave it. -/
theorem Bears.present (h : Bears device workspaceId given) {presence : Presence}
    (hlisted : workspaceId ∈ presence.workspaces.map WorkerWorkspace.workspaceId) :
    Bears (present device presence now) workspaceId given := by
  refine ⟨by rwa [ids_present], fun workspace hin hid => ?_⟩
  obtain ⟨reported, -, rfl⟩ := List.mem_map.mp hin
  rw [workspaceId_mergeWorkspace] at hid
  unfold mergeWorkspace
  cases hfind : device.workspaces.reverse.find? fun old =>
      old.workspaceId = reported.workspaceId with
  | none =>
    -- the workspace is stored, so it is found
    obtain ⟨old, hold, holdId⟩ := List.mem_map.mp h.listed
    have hnone := List.find?_eq_none.mp hfind old (List.mem_reverse.mpr hold)
    exact absurd (decide_eq_true (holdId.trans hid.symm)) hnone
  | some old =>
    have hold : old ∈ device.workspaces := List.mem_reverse.mp (List.mem_of_find?_eq_some hfind)
    have holdId : old.workspaceId = reported.workspaceId := by
      simpa using List.find?_some hfind
    obtain ⟨hname, hsource, hupdated⟩ := h.name old hold (holdId.trans hid)
    dsimp only
    rw [if_pos hsource, if_pos (Or.inl hsource)]
    exact ⟨hname, hsource, hupdated⟩

/-- What `set_workspace_display_name` makes of the workspaces. -/
def renamed (txt : PyText) (workspaceId displayName now : String)
    (workspaces : List WorkerWorkspace) : List WorkerWorkspace :=
  workspaces.map fun workspace =>
    if workspace.workspaceId = workspaceId then { workspace with
      name := pyClip (pyStrip txt displayName) 200
      displayNameSource := "user"
      displayNameUpdatedAt := now }
    else workspace

theorem ids_renamed (displayName : String) (workspaces : List WorkerWorkspace) :
    (renamed txt workspaceId displayName now workspaces).map WorkerWorkspace.workspaceId
      = workspaces.map WorkerWorkspace.workspaceId := by
  rw [renamed, List.map_map]
  refine List.map_congr_left fun workspace _ => ?_
  show (if _ then _ else _ : WorkerWorkspace).workspaceId = _
  split
  · rfl
  · rfl

theorem updatePresence_eq {presence : Presence}
    (h : store.updatePresence deviceId presence now = .ok (device', store')) :
    ∃ device, store.get? deviceId = some device ∧ device' = present device presence now ∧
      (presence.workspaces.map WorkerWorkspace.workspaceId).Nodup := by
  rw [updatePresence] at h
  split at h
  · cases h
  next hwell =>
  split at h
  · cases h
  next device hdevice =>
  refine ⟨device, hdevice, (Prod.mk.inj (Except.ok.inj h)).1.symm, ?_⟩
  rw [wellFormedWorkspaces, Bool.not_eq_true', Bool.not_eq_false, Bool.and_eq_true] at hwell
  exact of_decide_eq_true hwell.2

theorem setWorkspaceDisplayName_eq {ownerId displayName : String}
    (h : store.setWorkspaceDisplayName txt deviceId ownerId workspaceId displayName now
      = .ok (device', store')) :
    ∃ device, store.get? deviceId = some device ∧
      workspaceId ∈ device.workspaces.map WorkerWorkspace.workspaceId ∧
      device'.workspaces = renamed txt workspaceId displayName now device.workspaces := by
  rw [setWorkspaceDisplayName] at h
  split at h
  · cases h
  next device hdevice =>
  split at h
  · cases h
  next hany =>
  rw [Bool.not_eq_true', Bool.not_eq_false, List.any_eq_true] at hany
  obtain ⟨workspace, hin, hid⟩ := hany
  refine ⟨device, (getForOwner?_eq_some.mp hdevice).1, ?_, ?_⟩
  · exact List.mem_map.mpr ⟨workspace, hin, of_decide_eq_true hid⟩
  · rw [← (Prod.mk.inj (Except.ok.inj h)).1]
    rfl

/-- A workspace that is given a name bears it. -/
theorem bears_renamed {displayName : String}
    (hlisted : workspaceId ∈ device.workspaces.map WorkerWorkspace.workspaceId)
    (hworkspaces : device'.workspaces
      = renamed txt workspaceId displayName now device.workspaces) :
    Bears device' workspaceId ⟨pyClip (pyStrip txt displayName) 200, now⟩ := by
  refine ⟨by rwa [hworkspaces, ids_renamed], fun workspace hin hid => ?_⟩
  rw [hworkspaces] at hin
  obtain ⟨old, -, rfl⟩ := List.mem_map.mp hin
  by_cases hold : old.workspaceId = workspaceId
  · rw [if_pos hold]
    exact ⟨rfl, rfl, rfl⟩
  · rw [if_neg hold] at hid
    exact absurd hid hold

/-- The names of the other workspaces stay. -/
theorem Bears.renamed {named displayName : String} (h : Bears device workspaceId given)
    (hne : named ≠ workspaceId)
    (hworkspaces : device'.workspaces = renamed txt named displayName now device.workspaces) :
    Bears device' workspaceId given := by
  refine ⟨by rw [hworkspaces, ids_renamed]; exact h.listed, fun workspace hin hid => ?_⟩
  rw [hworkspaces] at hin
  obtain ⟨old, hold, rfl⟩ := List.mem_map.mp hin
  by_cases holdId : old.workspaceId = named
  · rw [if_pos holdId] at hid
    exact absurd (holdId.symm.trans hid) hne
  · rw [if_neg holdId] at hid ⊢
    exact h.name old hold hid

/-! ## All calls -/

/-- What is known of a stored device: its ids, without duplicates, and the names that stand. -/
structure NamesInv (device : Device) (ids : List String) (named : String → Option GivenName) :
    Prop where
  listed : device.workspaces.map WorkerWorkspace.workspaceId = ids
  nodup : ids.Nodup
  bears : ∀ workspaceId given, named workspaceId = some given → Bears device workspaceId given

/-- **One call** that did not raise. -/
theorem NamesInv.step {ids : List String} {named : String → Option GivenName} {c : NameCall}
    (h : NamesInv device ids named) (hget : store.get? deviceId = some device)
    (hcall : store.callResult txt deviceId c = .ok (device', store')) :
    store'.get? deviceId = some device' ∧
      NamesInv device' (reportedIds ids c)
        (fun workspaceId => standing txt workspaceId (named workspaceId) c) := by
  cases c with
  | updatePresence presence now =>
    obtain ⟨old, hold, rfl, hnodup⟩ := updatePresence_eq hcall
    obtain rfl : device = old := Option.some.inj (hget.symm.trans hold)
    refine ⟨(updatePresence_wrote hcall).get?, ids_present _ _ _, hnodup, ?_⟩
    intro workspaceId given hgiven
    rw [standing] at hgiven
    split at hgiven
    · next hlisted => exact (h.bears workspaceId given hgiven).present hlisted
    · cases hgiven
  | setWorkspaceDisplayName ownerId workspaceId displayName now =>
    obtain ⟨old, hold, hlisted, hworkspaces⟩ := setWorkspaceDisplayName_eq hcall
    obtain rfl : device = old := Option.some.inj (hget.symm.trans hold)
    refine ⟨(setWorkspaceDisplayName_wrote hcall).get?, ?_, h.nodup, ?_⟩
    · rw [hworkspaces, ids_renamed, h.listed]
      rfl
    · intro other given hgiven
      rw [standing] at hgiven
      split at hgiven
      · next hsame =>
        rw [← Option.some.inj hgiven, ← hsame]
        exact bears_renamed hlisted hworkspaces
      · next hne => exact (h.bears other given hgiven).renamed hne hworkspaces

theorem NamesInv.run {ids : List String} {named : String → Option GivenName}
    (calls : List NameCall) (hget : store.get? deviceId = some device)
    (h : NamesInv device ids named) :
    ∃ device', (runCalls txt deviceId store calls).get? deviceId = some device' ∧
      NamesInv device' ((accepted txt deviceId store calls).foldl reportedIds ids)
        (fun workspaceId => (accepted txt deviceId store calls).foldl (standing txt workspaceId)
          (named workspaceId)) := by
  induction calls generalizing store device ids named with
  | nil => exact ⟨device, hget, h⟩
  | cons c rest ih =>
    rw [runCalls, List.foldl_cons, accepted, call]
    cases hcall : store.callResult txt deviceId c with
    | error refusal => exact ih hget h
    | ok result =>
      obtain ⟨hget', h'⟩ := h.step hget hcall
      exact ih hget' h'

/-- **The name a user has given stands.** After any calls the ids are those of the last report,
without duplicates; and a workspace that was given a name, and that every report has listed since,
is stored under the last such name, as one of the user, with the time it was given. -/
theorem names_kept (txt : PyText) (deviceId : String) (store : DeviceStore) (start : Device)
    (calls : List NameCall) (hstart : store.get? deviceId = some start)
    (hnodup : (start.workspaces.map WorkerWorkspace.workspaceId).Nodup) :
    ∃ device, (runCalls txt deviceId store calls).get? deviceId = some device ∧
      device.workspaces.map WorkerWorkspace.workspaceId
        = (accepted txt deviceId store calls).foldl reportedIds
          (start.workspaces.map WorkerWorkspace.workspaceId) ∧
      (device.workspaces.map WorkerWorkspace.workspaceId).Nodup ∧
      ∀ workspaceId given,
        standingName txt workspaceId (accepted txt deviceId store calls) = some given →
        Bears device workspaceId given := by
  have hinv : NamesInv start (start.workspaces.map WorkerWorkspace.workspaceId) fun _ => none :=
    ⟨rfl, hnodup, fun _ _ hgiven => by cases hgiven⟩
  obtain ⟨device, hget, h⟩ := hinv.run calls hstart
  refine ⟨device, hget, h.listed, ?_, h.bears⟩
  rw [h.listed]
  exact h.nodup

/-- A device that reports a workspace, twice around a rename. -/
def reportedTwice : List NameCall :=
  let presence : Presence := {
    model := "", modelProvider := "", modelConfigured := false, version := "",
    protocolVersion := 1, platform := "", architecture := "", capabilities := []
    workspaces := [{ workspaceId := "ws_1", name := "repo" }] }
  [.updatePresence presence "t1", .setWorkspaceDisplayName "user_1" "ws_1" " My code " "t2",
    .updatePresence presence "t3"]

/-- A device that was just paired. -/
def pairedDevice : Device where
  deviceId := "dev_00000000000000000000000000000000"
  ownerId := "user_1"

/-- The name is kept over the second report. -/
theorem names_kept_twice :
    ∃ device, (runCalls .ascii pairedDevice.deviceId
        (write ⟨fun _ => none, fun _ _ h => by cases h⟩ pairedDevice) reportedTwice).get?
          pairedDevice.deviceId = some device ∧
      Bears device "ws_1" ⟨"My code", "t2"⟩ := by
  obtain ⟨device, hget, -, -, hbears⟩ := names_kept .ascii pairedDevice.deviceId
    (write ⟨fun _ => none, fun _ _ h => by cases h⟩ pairedDevice) pairedDevice reportedTwice
    (by decide +kernel) List.nodup_nil
  exact ⟨device, hget, hbears "ws_1" _ (by decide +kernel)⟩

end DeviceStore

end ThreadForge

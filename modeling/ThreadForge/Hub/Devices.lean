import ThreadForge.Lib.PyString
import Mathlib.Logic.Function.Basic

/-!
# The device store

`device_store.py`: one record for each paired device, in a file of the device's name. The Worker hub
writes to it from the messages it handles, always under the device of the connection.

Owner ids are canonical: the store canonicalises what it is given, and the hub is only ever given
the owner of an authenticated actor.
-/

namespace ThreadForge

/-! ## Identifiers -/

/-- `c` is one of `[a-f0-9]`. -/
def isHexDigit (c : Char) : Bool := ('a' ≤ c && c ≤ 'f') || ('0' ≤ c && c ≤ '9')

/-- `re.fullmatch` of `pre[a-f0-9]{32}`. -/
def isHexId (pre text : String) : Bool :=
  let cs := text.toList
  pre.toList.isPrefixOf cs && (cs.drop pre.length).length = 32 &&
    (cs.drop pre.length).all isHexDigit

/-! ## Records -/

/-- `WorkerWorkspace`. -/
structure WorkerWorkspace where
  workspaceId : String
  name : String
  isGit : Bool := false
  displayNameSource : String := "auto"
  displayNameUpdatedAt : String := ""
  deriving DecidableEq, Repr

/-- `Device`. -/
structure Device where
  deviceId : String
  ownerId : String
  name : String := ""
  tokenDigest : String := ""
  createdAt : String := ""
  lastSeenAt : String := ""
  displayNameSource : String := "auto"
  displayNameUpdatedAt : String := ""
  model : String := ""
  modelProvider : String := ""
  modelConfigured : Bool := false
  version : String := ""
  protocolVersion : Int := 0
  platform : String := ""
  architecture : String := ""
  capabilities : List String := []
  orchestrationBackend : String := ""
  modelCapabilities : PyDict := []
  updateStatus : PyDict := []
  workspaces : List WorkerWorkspace := []
  machineFingerprint : String := ""
  deriving DecidableEq, Repr

instance : Inhabited Device := ⟨{ deviceId := "", ownerId := "" }⟩

/-- The files of the store. A file has the name of the device in it. -/
structure DeviceStore where
  records : String → Option Device
  keyed : ∀ deviceId device, records deviceId = some device → device.deviceId = deviceId

namespace DeviceStore

theorem none_keyed (deviceId : String) (device : Device) (h : none = some device) :
    device.deviceId = deviceId := by
  cases h

/-- `DeviceStore.get`, where it finds the device. -/
def get? (store : DeviceStore) (deviceId : String) : Option Device :=
  if isHexId "dev_" deviceId then store.records deviceId else none

/-- `get_for_owner`, where it finds the device. -/
def getForOwner? (store : DeviceStore) (deviceId ownerId : String) : Option Device :=
  (store.get? deviceId).filter fun device => device.ownerId = ownerId

/-- `write_json_atomic` of a device, under its own name. -/
def write (store : DeviceStore) (device : Device) : DeviceStore where
  records := Function.update store.records device.deviceId (some device)
  keyed deviceId other h := by
    by_cases hid : deviceId = device.deviceId
    · subst hid
      rw [Function.update_self] at h
      rw [← Option.some.inj h]
    · rw [Function.update_of_ne hid] at h
      exact store.keyed deviceId other h

/-- `unlink` of a device's file. -/
def unlink (store : DeviceStore) (deviceId : String) : DeviceStore where
  records := Function.update store.records deviceId none
  keyed id device h := by
    by_cases hid : id = deviceId
    · rw [hid, Function.update_self] at h
      cases h
    · rw [Function.update_of_ne hid] at h
      exact store.keyed id device h

/-! ## Presence -/

/-- What a Worker says of itself. What it does not say stays as it is. -/
structure Presence where
  model : String
  modelProvider : String
  modelConfigured : Bool
  version : String
  protocolVersion : Int
  platform : String
  architecture : String
  capabilities : List String
  workspaces : List WorkerWorkspace
  orchestrationBackend : Option String := none
  modelCapabilities : Option PyDict := none
  updateStatus : Option PyDict := none

/-- A workspace as it is stored: a name the user has given is kept. -/
def mergeWorkspace (existing : List WorkerWorkspace) (now : String) (workspace : WorkerWorkspace) :
    WorkerWorkspace :=
  match existing.reverse.find? fun old => old.workspaceId = workspace.workspaceId with
  | none => { workspace with displayNameSource := "auto", displayNameUpdatedAt := now }
  | some old => { workspace with
      name := if old.displayNameSource = "user" then old.name else workspace.name
      displayNameSource := old.displayNameSource
      displayNameUpdatedAt :=
        if old.displayNameSource = "user" ∨ old.name = workspace.name then old.displayNameUpdatedAt
        else now }

/-- The record of a device after `update_presence`. -/
def present (device : Device) (presence : Presence) (now : String) : Device :=
  { device with
    lastSeenAt := now
    model := pyClip presence.model 200
    modelProvider := pyClip presence.modelProvider 40
    modelConfigured := presence.modelConfigured
    version := pyClip presence.version 32
    protocolVersion := presence.protocolVersion
    platform := pyClip presence.platform 32
    architecture := pyClip presence.architecture 32
    capabilities := presence.capabilities
    orchestrationBackend := match presence.orchestrationBackend with
      | some backend => pyClip backend 64
      | none => device.orchestrationBackend
    modelCapabilities := presence.modelCapabilities.getD device.modelCapabilities
    updateStatus := presence.updateStatus.getD device.updateStatus
    workspaces := presence.workspaces.map (mergeWorkspace device.workspaces now) }

/-- What the store raises. -/
inductive Refusal
  | valueError
  | deviceNotFound (id : String)
  deriving DecidableEq, Repr

/-- The workspaces of a presence are at most a hundred, under different ids. -/
def wellFormedWorkspaces (workspaces : List WorkerWorkspace) : Bool :=
  workspaces.length ≤ 100 && decide (workspaces.map WorkerWorkspace.workspaceId).Nodup

/-- `update_presence`. -/
def updatePresence (store : DeviceStore) (deviceId : String) (presence : Presence) (now : String) :
    Except Refusal (Device × DeviceStore) :=
  if !wellFormedWorkspaces presence.workspaces then .error .valueError
  else match store.get? deviceId with
    | none => .error (.deviceNotFound deviceId)
    | some device =>
      let device := present device presence now
      .ok (device, store.write device)

/-- `set_workspace_display_name`. -/
def setWorkspaceDisplayName (txt : PyText) (store : DeviceStore)
    (deviceId ownerId workspaceId displayName now : String) :
    Except Refusal (Device × DeviceStore) :=
  match store.getForOwner? deviceId ownerId with
  | none => .error (.deviceNotFound deviceId)
  | some device =>
    if !device.workspaces.any fun workspace => workspace.workspaceId = workspaceId then
      .error (.deviceNotFound workspaceId)
    else
      let device := { device with
        workspaces := device.workspaces.map fun workspace =>
          if workspace.workspaceId = workspaceId then { workspace with
            name := pyClip (pyStrip txt displayName) 200
            displayNameSource := "user"
            displayNameUpdatedAt := now }
          else workspace }
      .ok (device, store.write device)

/-- `update_worker_status`. -/
def updateWorkerStatus (store : DeviceStore) (deviceId : String) (updateStatus : PyDict) :
    Except Refusal (Device × DeviceStore) :=
  match store.get? deviceId with
  | none => .error (.deviceNotFound deviceId)
  | some device =>
    let device := { device with updateStatus := updateStatus }
    .ok (device, store.write device)

/-! ## What a write leaves -/

variable {txt : PyText} {store store' : DeviceStore} {deviceId ownerId : String} {device : Device}

/-- A write under one name: the other files are as they were, and the file it wrote holds the device
of the same owner it returned. -/
structure WroteOnly (deviceId : String) (store : DeviceStore) (device : Device)
    (store' : DeviceStore) : Prop where
  before : ∃ old, store.get? deviceId = some old ∧ device.ownerId = old.ownerId
  name : device.deviceId = deviceId
  stored : store'.records deviceId = some device
  others : ∀ id, id ≠ deviceId → store'.records id = store.records id

theorem isHexId_of_get? (h : store.get? deviceId = some device) :
    isHexId "dev_" deviceId = true := by
  rw [get?] at h
  split at h
  · next hid => exact hid
  · cases h

theorem get?_records (h : store.get? deviceId = some device) :
    store.records deviceId = some device := by
  rw [get?, if_pos (isHexId_of_get? h)] at h
  exact h

theorem deviceId_of_get? (h : store.get? deviceId = some device) : device.deviceId = deviceId :=
  store.keyed deviceId device (get?_records h)

theorem getForOwner?_eq_some : store.getForOwner? deviceId ownerId = some device ↔
    store.get? deviceId = some device ∧ device.ownerId = ownerId := by
  rw [getForOwner?, Option.filter_eq_some_iff, decide_eq_true_eq]

theorem WroteOnly.get? (h : WroteOnly deviceId store device store') :
    store'.get? deviceId = some device := by
  obtain ⟨old, hold, -⟩ := h.before
  rw [DeviceStore.get?, if_pos (isHexId_of_get? hold), h.stored]

/-- Every write of the hub goes through `write`, with a record read under the same name. -/
theorem wroteOnly_write {old : Device} (hold : store.get? deviceId = some old)
    (hname : device.deviceId = old.deviceId) (howner : device.ownerId = old.ownerId) :
    WroteOnly deviceId store device (store.write device) := by
  have hid : device.deviceId = deviceId := hname.trans (deviceId_of_get? hold)
  refine ⟨⟨old, hold, howner⟩, hid, ?_, fun id hne => ?_⟩
  · show Function.update store.records device.deviceId (some device) deviceId = _
    rw [hid, Function.update_self]
  · show Function.update store.records device.deviceId (some device) id = _
    rw [hid, Function.update_of_ne hne]

theorem updatePresence_wrote {presence : Presence} {now : String}
    (h : store.updatePresence deviceId presence now = .ok (device, store')) :
    WroteOnly deviceId store device store' := by
  rw [updatePresence] at h
  split at h
  · cases h
  split at h
  · cases h
  next old hold =>
  rw [← (Prod.mk.inj (Except.ok.inj h)).1, ← (Prod.mk.inj (Except.ok.inj h)).2]
  exact wroteOnly_write hold rfl rfl

theorem setWorkspaceDisplayName_wrote {workspaceId displayName now : String}
    (h : store.setWorkspaceDisplayName txt deviceId ownerId workspaceId displayName now
      = .ok (device, store')) : WroteOnly deviceId store device store' := by
  rw [setWorkspaceDisplayName] at h
  split at h
  · cases h
  next old hold =>
  split at h
  · cases h
  rw [← (Prod.mk.inj (Except.ok.inj h)).1, ← (Prod.mk.inj (Except.ok.inj h)).2]
  exact wroteOnly_write (getForOwner?_eq_some.mp hold).1 rfl rfl

end DeviceStore

end ThreadForge

import ThreadForge.Hub.Devices
import ThreadForge.Lib.Transition

/-!
# Pairing a machine again

`pair_or_reuse` looks under the store's lock for the device of a machine, edits the copy it found
outside of it, and writes the copy back under the lock later; where it found none it creates a
device. The other writers of the store read, edit and write one record under the lock, and `revoke`
unlinks one.

A step is one lock region. The state also keeps, for the statement only, the ids that have been
revoked.

## Main results

* `PairingState.identity_stable_iff` — when a machine keeps its one device, and the device what the
  other writers wrote.
-/

namespace ThreadForge

open Transition

/-! ## Renaming -/

/-- What `rename` raises. -/
inductive RenameRefusal
  | valueError
  | deviceNotFound (id : String)
  | renameConflict
  deriving DecidableEq, Repr

namespace DeviceStore

/-- `rename`. -/
def rename (txt : PyText) (store : DeviceStore) (deviceId ownerId displayName : String)
    (expectedUpdatedAt : Option String) (now : String) :
    Except RenameRefusal (Device × DeviceStore) :=
  let displayName := pyStrip txt displayName
  if displayName = "" ∨ 200 < displayName.length then .error .valueError
  else match store.getForOwner? deviceId ownerId with
    | none => .error (.deviceNotFound deviceId)
    | some device =>
      if expectedUpdatedAt.any fun e => e ≠ "" ∧ e ≠ device.displayNameUpdatedAt then
        .error .renameConflict
      else
        let device := { device with
          name := displayName
          displayNameSource := "user"
          displayNameUpdatedAt := now }
        .ok (device, store.write device)

/-- A call that raised wrote nothing. -/
def orSame {ε : Type} (store : DeviceStore) : Except ε (Device × DeviceStore) → DeviceStore
  | .ok written => written.2
  | .error _ => store

/-- What the scan of `find_by_fingerprint` can return: the directory has no order, so any device of
the owner with the fingerprint. -/
def Finds (store : DeviceStore) (ownerId fingerprint : String) : Option Device → Prop
  | some device => fingerprint ≠ "" ∧ store.records device.deviceId = some device ∧
    device.ownerId = ownerId ∧ device.machineFingerprint = fingerprint
  | none => fingerprint = "" ∨ ∀ deviceId device, store.records deviceId = some device →
    device.ownerId = ownerId → device.machineFingerprint ≠ fingerprint

end DeviceStore

/-! ## Pairing -/

/-- A call of `pair_or_reuse` after its scan. -/
structure Pairing where
  ownerId : String
  name : String
  fingerprint : String
  found : Option Device

section Records

variable (txt : PyText)

/-- The copy `pair_or_reuse` writes back. -/
def reauthorized (name digest now : String) (device : Device) : Device :=
  { device with
    tokenDigest := digest
    name := pyStrip txt (if name = "" then device.name else name)
    lastSeenAt := now }

@[simp] theorem reauthorized_deviceId (name digest now : String) (device : Device) :
    (reauthorized txt name digest now device).deviceId = device.deviceId := by
  unfold reauthorized
  rfl

@[simp] theorem reauthorized_ownerId (name digest now : String) (device : Device) :
    (reauthorized txt name digest now device).ownerId = device.ownerId := by
  unfold reauthorized
  rfl

@[simp] theorem reauthorized_machineFingerprint (name digest now : String) (device : Device) :
    (reauthorized txt name digest now device).machineFingerprint = device.machineFingerprint := by
  unfold reauthorized
  rfl

/-- The part of a record that no pairing writes. -/
def Device.masked (device : Device) : Device :=
  { device with tokenDigest := "", name := "", lastSeenAt := "" }

@[simp] theorem Device.masked_ownerId (device : Device) : device.masked.ownerId = device.ownerId :=
  rfl

@[simp] theorem Device.masked_machineFingerprint (device : Device) :
    device.masked.machineFingerprint = device.machineFingerprint := rfl

/-- The record `create` writes. -/
def newDevice (pairing : Pairing) (deviceId digest now : String) : Device where
  deviceId := deviceId
  ownerId := pairing.ownerId
  name := pyStrip txt pairing.name
  tokenDigest := digest
  createdAt := now
  displayNameSource := "user"
  displayNameUpdatedAt := now
  machineFingerprint := pyStrip txt pairing.fingerprint

end Records

/-- The store and the calls in progress. -/
structure PairingState where
  store : DeviceStore
  pairings : List Pairing := []
  /-- The devices that `revoke` has checked and not yet unlinked. -/
  revoking : List String := []
  revoked : List String := []

/-- One lock region, or the check of `revoke` before it. -/
inductive PairingAction
  | scan (ownerId name fingerprint : String) (found : Option Device)
  | writeBack (index : Nat) (digest now : String)
  | create (index : Nat) (deviceId digest now : String)
  | updatePresence (deviceId : String) (presence : DeviceStore.Presence) (now : String)
  | setWorkspaceDisplayName (deviceId ownerId workspaceId displayName now : String)
  | updateWorkerStatus (deviceId : String) (updateStatus : PyDict)
  | rename (deviceId ownerId displayName : String) (expectedUpdatedAt : Option String)
      (now : String)
  | checkRevoked (deviceId ownerId : String)
  | unlink (index : Nat)

namespace PairingState

/-- The store under pairings and its other writers. The id of a created device has never been
drawn before. -/
def Step (txt : PyText) (s : PairingState) : PairingAction → PairingState → Prop
  | .scan ownerId name fingerprint found, t =>
    s.store.Finds ownerId (pyStrip txt fingerprint) found ∧
      t = { s with pairings := s.pairings ++ [⟨ownerId, name, fingerprint, found⟩] }
  | .writeBack index digest now, t => ∃ pairing device, s.pairings[index]? = some pairing ∧
    pairing.found = some device ∧ t = { s with
      store := s.store.write (reauthorized txt pairing.name digest now device)
      pairings := s.pairings.eraseIdx index }
  | .create index deviceId digest now, t => ∃ pairing, s.pairings[index]? = some pairing ∧
    pairing.found = none ∧ isHexId "dev_" deviceId = true ∧ s.store.records deviceId = none ∧
      deviceId ∉ s.revoked ∧ t = { s with
        store := s.store.write (newDevice txt pairing deviceId digest now)
        pairings := s.pairings.eraseIdx index }
  | .updatePresence deviceId presence now, t =>
    t = { s with store := s.store.orSame (s.store.updatePresence deviceId presence now) }
  | .setWorkspaceDisplayName deviceId ownerId workspaceId displayName now, t =>
    t = { s with
      store := s.store.orSame
        (s.store.setWorkspaceDisplayName txt deviceId ownerId workspaceId displayName now) }
  | .updateWorkerStatus deviceId updateStatus, t =>
    t = { s with store := s.store.orSame (s.store.updateWorkerStatus deviceId updateStatus) }
  | .rename deviceId ownerId displayName expectedUpdatedAt now, t =>
    t = { s with
      store := s.store.orSame
        (s.store.rename txt deviceId ownerId displayName expectedUpdatedAt now) }
  | .checkRevoked deviceId ownerId, t =>
    t = if (s.store.getForOwner? deviceId ownerId).isSome then
      { s with revoking := s.revoking ++ [deviceId] } else s
  | .unlink index, t => ∃ deviceId, s.revoking[index]? = some deviceId ∧ t = { s with
    store := s.store.unlink deviceId
    revoking := s.revoking.eraseIdx index
    revoked := deviceId :: s.revoked }

/-! ## The identity of a machine -/

/-- An owner has one device for a machine. -/
def Unique (store : DeviceStore) : Prop :=
  ∀ deviceId deviceId' device device', store.records deviceId = some device →
    store.records deviceId' = some device' → device.ownerId = device'.ownerId →
    device.machineFingerprint = device'.machineFingerprint → device.machineFingerprint ≠ "" →
    deviceId = deviceId'

/-- A revoked device is not stored. -/
def Gone (s : PairingState) : Prop := ∀ deviceId ∈ s.revoked, s.store.records deviceId = none

/-- One device for a machine, and none that has been revoked. -/
structure Stable (s : PairingState) : Prop where
  unique : Unique s.store
  gone : s.Gone

/-- A lawful move: it ends stable, and a copy written back is the edit of the record that was
stored, so nothing is lost that was written since the scan. -/
structure Lawful (txt : PyText) (m : Move PairingState PairingAction) : Prop where
  stable : m.post.Stable
  kept : ∀ index digest now pairing device stored, m.act = .writeBack index digest now →
    m.pre.pairings[index]? = some pairing → pairing.found = some device →
    m.pre.store.records device.deviceId = some stored →
    m.post.store.records device.deviceId = some (reauthorized txt pairing.name digest now stored)

/-- The two records are the same but for what a pairing under this name writes. -/
structure SameBut (txt : PyText) (name : String) (device stored : Device) : Prop where
  rest : device.masked = stored.masked
  name : name = "" → pyStrip txt device.name = pyStrip txt stored.name

/-- A device is created where the owner has none for the machine, and a copy is written back where
its device is still stored, as it was read. -/
def Spares (txt : PyText) (s : PairingState) : PairingAction → Prop
  | .writeBack index _ _ => ∀ pairing device, s.pairings[index]? = some pairing →
    pairing.found = some device → ∃ stored, s.store.records device.deviceId = some stored ∧
      SameBut txt pairing.name device stored
  | .create index _ _ _ => ∀ pairing, s.pairings[index]? = some pairing →
    pyStrip txt pairing.fingerprint ≠ "" → ∀ deviceId device,
      s.store.records deviceId = some device → device.ownerId = pairing.ownerId →
      device.machineFingerprint ≠ pyStrip txt pairing.fingerprint
  | _ => True

/-! ## The other writers -/

variable {txt : PyText} {s t : PairingState} {store : DeviceStore}

/-- A record read and written back in one region, under the same owner and fingerprint. -/
def Rewrites (store store' : DeviceStore) : Prop :=
  ∃ old device, store.records device.deviceId = some old ∧ device.ownerId = old.ownerId ∧
    device.machineFingerprint = old.machineFingerprint ∧ store' = store.write device

theorem rewrites_of_get? {deviceId : String} {old device : Device}
    (hold : store.get? deviceId = some old) (hid : device.deviceId = old.deviceId)
    (howner : device.ownerId = old.ownerId)
    (hmachine : device.machineFingerprint = old.machineFingerprint) :
    Rewrites store (store.write device) := by
  have hname : device.deviceId = deviceId := hid.trans (DeviceStore.deviceId_of_get? hold)
  exact ⟨old, device, hname ▸ DeviceStore.get?_records hold, howner, hmachine, rfl⟩

theorem updatePresence_rewrites (deviceId : String) (presence : DeviceStore.Presence)
    (now : String) : store.orSame (store.updatePresence deviceId presence now) = store ∨
      Rewrites store (store.orSame (store.updatePresence deviceId presence now)) := by
  unfold DeviceStore.updatePresence
  split
  · exact Or.inl rfl
  split
  · exact Or.inl rfl
  · next old hold => exact Or.inr (rewrites_of_get? hold rfl rfl rfl)

theorem setWorkspaceDisplayName_rewrites (deviceId ownerId workspaceId displayName now : String) :
    store.orSame (store.setWorkspaceDisplayName txt deviceId ownerId workspaceId displayName now)
      = store ∨
    Rewrites store (store.orSame
      (store.setWorkspaceDisplayName txt deviceId ownerId workspaceId displayName now)) := by
  unfold DeviceStore.setWorkspaceDisplayName
  split
  · exact Or.inl rfl
  next old hold =>
  split
  · exact Or.inl rfl
  · exact Or.inr (rewrites_of_get? (DeviceStore.getForOwner?_eq_some.mp hold).1 rfl rfl rfl)

theorem updateWorkerStatus_rewrites (deviceId : String) (updateStatus : PyDict) :
    store.orSame (store.updateWorkerStatus deviceId updateStatus) = store ∨
      Rewrites store (store.orSame (store.updateWorkerStatus deviceId updateStatus)) := by
  unfold DeviceStore.updateWorkerStatus
  split
  · exact Or.inl rfl
  · next old hold => exact Or.inr (rewrites_of_get? hold rfl rfl rfl)

theorem rename_rewrites (deviceId ownerId displayName : String)
    (expectedUpdatedAt : Option String) (now : String) :
    store.orSame (store.rename txt deviceId ownerId displayName expectedUpdatedAt now) = store ∨
    Rewrites store
      (store.orSame (store.rename txt deviceId ownerId displayName expectedUpdatedAt now)) := by
  unfold DeviceStore.rename
  dsimp only
  split
  · exact Or.inl rfl
  split
  · exact Or.inl rfl
  next old hold =>
  split
  · exact Or.inl rfl
  · exact Or.inr (rewrites_of_get? (DeviceStore.getForOwner?_eq_some.mp hold).1 rfl rfl rfl)

/-! ## What a write does to the stable store -/

theorem records_write (device : Device) (deviceId : String) :
    (store.write device).records deviceId =
      if deviceId = device.deviceId then some device else store.records deviceId := by
  show Function.update store.records device.deviceId (some device) deviceId = _
  rw [Function.update_apply]

theorem records_unlink (deviceId id : String) :
    (store.unlink deviceId).records id = if id = deviceId then none else store.records id := by
  show Function.update store.records deviceId none id = _
  rw [Function.update_apply]

/-- A rewritten record has the owner and the machine it had. -/
theorem Rewrites.unique {store' : DeviceStore} (h : Rewrites store store') (hs : Unique store) :
    Unique store' := by
  obtain ⟨old, device, hold, howner, hmachine, rfl⟩ := h
  -- every record now has the owner and the machine of the record that was there
  have hbefore : ∀ {id : String} {d : Device}, (store.write device).records id = some d →
      ∃ d', store.records id = some d' ∧ d'.ownerId = d.ownerId ∧
        d'.machineFingerprint = d.machineFingerprint := by
    intro id d hd
    rw [records_write] at hd
    by_cases hid : id = device.deviceId
    · rw [if_pos hid] at hd
      rw [← Option.some.inj hd]
      exact ⟨old, hid ▸ hold, howner.symm, hmachine.symm⟩
    · rw [if_neg hid] at hd
      exact ⟨d, hd, rfl, rfl⟩
  intro id id' d d' hd hd' hsame hsame' hnonempty
  obtain ⟨e, he, heowner, hemachine⟩ := hbefore hd
  obtain ⟨e', he', heowner', hemachine'⟩ := hbefore hd'
  exact hs id id' e e' he he' (heowner.trans (hsame.trans heowner'.symm))
    (hemachine.trans (hsame'.trans hemachine'.symm)) (hemachine ▸ hnonempty)

theorem Rewrites.stored {store' : DeviceStore} (h : Rewrites store store') {deviceId : String} :
    store'.records deviceId = none ↔ store.records deviceId = none := by
  obtain ⟨old, device, hold, -, -, rfl⟩ := h
  rw [records_write]
  by_cases hid : deviceId = device.deviceId
  · rw [if_pos hid, hid, hold]
    exact iff_of_false (fun h => (by cases h)) fun h => (by cases h)
  · rw [if_neg hid]

theorem Rewrites.stable {store' : DeviceStore} (h : Rewrites s.store store') (hs : s.Stable)
    {pairings : List Pairing} {revoking : List String} :
    Stable { s with store := store', pairings := pairings, revoking := revoking } :=
  ⟨h.unique hs.unique, fun deviceId hin => h.stored.mpr (hs.gone deviceId hin)⟩

/-- The device a pairing found is stored, or it has been revoked since. -/
def Traced (s : PairingState) : Prop :=
  ∀ pairing ∈ s.pairings, ∀ device, pairing.found = some device →
    s.store.records device.deviceId = none → device.deviceId ∈ s.revoked

/-- A step that keeps what is stored, and starts no pairing. -/
theorem Traced.of_stored (hs : s.Traced)
    (hstored : ∀ deviceId, t.store.records deviceId = none → s.store.records deviceId = none)
    (hpairings : ∀ pairing ∈ t.pairings, pairing ∈ s.pairings) (hrevoked : s.revoked = t.revoked) :
    t.Traced := by
  intro pairing hin device hfound hnone
  rw [← hrevoked]
  exact hs pairing (hpairings pairing hin) device hfound (hstored _ hnone)

theorem stored_of_write {device : Device} {deviceId : String}
    (h : (store.write device).records deviceId = none) : store.records deviceId = none := by
  rw [records_write] at h
  split at h
  · cases h
  · exact h

theorem Traced.step {action : PairingAction} (hs : s.Traced) (hstep : Step txt s action t) :
    t.Traced := by
  -- a writer that reads its record again keeps what is stored
  have hrewrites : ∀ store', (store' = s.store ∨ Rewrites s.store store') →
      Traced { s with store := store' } := by
    rintro store' (rfl | h)
    · exact hs
    · exact hs.of_stored (fun _ hnone => h.stored.mp hnone) (fun _ hin => hin) rfl
  cases action with
  | scan ownerId name fingerprint found =>
    obtain ⟨hfinds, rfl⟩ := hstep
    intro pairing hin device hfound hnone
    rcases List.mem_append.mp hin with hin | hin
    · exact hs pairing hin device hfound hnone
    · rw [List.mem_singleton.mp hin] at hfound
      obtain rfl : found = some device := hfound
      have hstored : s.store.records device.deviceId = some device := hfinds.2.1
      rw [show s.store.records device.deviceId = none from hnone] at hstored
      cases hstored
  | writeBack index digest now =>
    obtain ⟨pairing, device, -, -, rfl⟩ := hstep
    exact hs.of_stored (fun _ => stored_of_write) (fun _ => List.mem_of_mem_eraseIdx) rfl
  | create index deviceId digest now =>
    obtain ⟨pairing, -, -, -, -, -, rfl⟩ := hstep
    exact hs.of_stored (fun _ => stored_of_write) (fun _ => List.mem_of_mem_eraseIdx) rfl
  | updatePresence deviceId presence now =>
    rw [show t = _ from hstep]
    exact hrewrites _ (updatePresence_rewrites deviceId presence now)
  | setWorkspaceDisplayName deviceId ownerId workspaceId displayName now =>
    rw [show t = _ from hstep]
    exact hrewrites _
      (setWorkspaceDisplayName_rewrites deviceId ownerId workspaceId displayName now)
  | updateWorkerStatus deviceId updateStatus =>
    rw [show t = _ from hstep]
    exact hrewrites _ (updateWorkerStatus_rewrites deviceId updateStatus)
  | rename deviceId ownerId displayName expectedUpdatedAt now =>
    rw [show t = _ from hstep]
    exact hrewrites _ (rename_rewrites deviceId ownerId displayName expectedUpdatedAt now)
  | checkRevoked deviceId ownerId =>
    rw [show t = _ from hstep]
    split
    · exact hs
    · exact hs
  | unlink index =>
    obtain ⟨deviceId, -, rfl⟩ := hstep
    intro pairing hin device hfound hnone
    rw [records_unlink] at hnone
    by_cases hid : device.deviceId = deviceId
    · exact hid ▸ List.mem_cons_self
    · rw [if_neg hid] at hnone
      exact List.mem_cons_of_mem _ (hs pairing hin device hfound hnone)

/-! ## The two writes of a pairing -/

/-- A pairing's edit reads nothing but the name of what it overwrites. -/
theorem reauthorized_eq_masked (name digest now : String) (device : Device) :
    reauthorized txt name digest now device = { device.masked with
      tokenDigest := digest
      name := pyStrip txt (if name = "" then device.name else name)
      lastSeenAt := now } := by
  unfold reauthorized
  rfl

theorem masked_reauthorized (txt : PyText) (name digest now : String) (device : Device) :
    (reauthorized txt name digest now device).masked = device.masked := by
  unfold reauthorized
  rfl

theorem sameBut_iff {name digest now : String} {device stored : Device} :
    SameBut txt name device stored ↔
      reauthorized txt name digest now device = reauthorized txt name digest now stored := by
  constructor
  · intro h
    have hname : pyStrip txt (if name = "" then device.name else name)
        = pyStrip txt (if name = "" then stored.name else name) := by
      by_cases hempty : name = ""
      · rw [if_pos hempty, if_pos hempty]
        exact h.name hempty
      · rw [if_neg hempty, if_neg hempty]
    rw [reauthorized_eq_masked, reauthorized_eq_masked, hname, h.rest]
  · intro h
    constructor
    · rw [← masked_reauthorized txt name digest now device, h, masked_reauthorized]
    · intro hempty
      have hname := congrArg Device.name h
      simp only [reauthorized, if_pos hempty] at hname
      exact hname

theorem records_writeBack (txt : PyText) (store : DeviceStore) (name digest now : String)
    (device : Device) : (store.write (reauthorized txt name digest now device)).records
      device.deviceId = some (reauthorized txt name digest now device) := by
  rw [records_write, reauthorized_deviceId]
  exact if_pos rfl

/-- A copy is written back lawfully exactly where it is the edit of what is stored. -/
theorem lawful_writeBack_iff {index : Nat} {digest now : String} (hbase : s.Traced) (hs : s.Stable)
    (hstep : Step txt s (.writeBack index digest now) t) :
    Lawful txt ⟨s, .writeBack index digest now, t⟩ ↔
      s.Spares txt (.writeBack index digest now) := by
  obtain ⟨pairing, device, hpairing, hfound, rfl⟩ := hstep
  constructor
  · intro hlawful pairing' device' hpairing' hfound'
    rw [hpairing] at hpairing'
    obtain rfl := Option.some.inj hpairing'
    rw [hfound] at hfound'
    obtain rfl := Option.some.inj hfound'
    have hpost := records_writeBack txt s.store pairing.name digest now device
    cases hstored : s.store.records device.deviceId with
    | none =>
      -- the device was revoked after the scan, and is stored again
      have hrevoked := hbase pairing (List.mem_of_getElem? hpairing) device hfound hstored
      have hgone := hlawful.stable.gone device.deviceId hrevoked
      rw [show (s.store.write _).records device.deviceId = none from hgone] at hpost
      cases hpost
    | some stored =>
      have hkept := hlawful.kept index digest now pairing device stored rfl hpairing hfound hstored
      rw [show (s.store.write _).records device.deviceId = some _ from hkept] at hpost
      exact ⟨stored, rfl, sameBut_iff.mpr (Option.some.inj hpost).symm⟩
  · intro hspares
    obtain ⟨stored, hstored, hsame⟩ := hspares pairing device hpairing hfound
    have hedit : reauthorized txt pairing.name digest now device
        = reauthorized txt pairing.name digest now stored := sameBut_iff.mp hsame
    have howner : device.ownerId = stored.ownerId := by
      rw [← device.masked_ownerId, hsame.rest, stored.masked_ownerId]
    have hmachine : device.machineFingerprint = stored.machineFingerprint := by
      rw [← device.masked_machineFingerprint, hsame.rest, stored.masked_machineFingerprint]
    have hrewrites : Rewrites s.store
        (s.store.write (reauthorized txt pairing.name digest now device)) := by
      refine ⟨stored, reauthorized txt pairing.name digest now device, ?_, ?_, ?_, rfl⟩
      · rw [reauthorized_deviceId, hstored]
      · rw [reauthorized_ownerId, howner]
      · rw [reauthorized_machineFingerprint, hmachine]
    refine ⟨hrewrites.stable hs, ?_⟩
    intro index' digest' now' pairing' device' stored' hact hpairing' hfound' hstored'
    cases hact
    rw [hpairing] at hpairing'
    obtain rfl := Option.some.inj hpairing'
    rw [hfound] at hfound'
    obtain rfl := Option.some.inj hfound'
    rw [hstored] at hstored'
    obtain rfl := Option.some.inj hstored'
    rw [← hedit]
    exact records_writeBack txt s.store pairing.name digest now device

/-- A device is created lawfully exactly where the owner has none for the machine. -/
theorem lawful_create_iff {index : Nat} {deviceId digest now : String} (hs : s.Stable)
    (hstep : Step txt s (.create index deviceId digest now) t) :
    Lawful txt ⟨s, .create index deviceId digest now, t⟩ ↔
      s.Spares txt (.create index deviceId digest now) := by
  obtain ⟨pairing, hpairing, -, -, hfresh, hnew, rfl⟩ := hstep
  have hrecords : ∀ id, (s.store.write (newDevice txt pairing deviceId digest now)).records id =
      if id = deviceId then some (newDevice txt pairing deviceId digest now)
      else s.store.records id := records_write _
  constructor
  · intro hlawful pairing' hpairing' hnonempty id device hstored howner hmachine
    rw [hpairing] at hpairing'
    obtain rfl := Option.some.inj hpairing'
    have hother : id ≠ deviceId := by
      rintro rfl
      rw [hfresh] at hstored
      cases hstored
    have hstored' := (hrecords id).trans ((if_neg hother).trans hstored)
    have hcreated := (hrecords deviceId).trans (if_pos rfl)
    exact hother (hlawful.stable.unique id deviceId device _ hstored' hcreated howner hmachine
      (hmachine ▸ hnonempty))
  · intro hspares
    refine ⟨⟨?_, fun id hin => ?_⟩, fun _ _ _ _ _ _ hact => (by cases hact)⟩
    · -- the new device is no second one of its machine
      have hfree := hspares pairing hpairing
      intro id id' device device' hstored hstored' howner hmachine hnonempty
      rw [hrecords] at hstored hstored'
      by_cases hid : id = deviceId <;> by_cases hid' : id' = deviceId
      · exact hid.trans hid'.symm
      · rw [if_pos hid] at hstored
        rw [if_neg hid'] at hstored'
        obtain rfl := Option.some.inj hstored
        exact absurd hmachine.symm (hfree hnonempty id' device' hstored' howner.symm)
      · rw [if_neg hid] at hstored
        rw [if_pos hid'] at hstored'
        obtain rfl := Option.some.inj hstored'
        exact absurd hmachine
          (hfree (fun he => hnonempty (hmachine.trans he)) id device hstored howner)
      · rw [if_neg hid] at hstored
        rw [if_neg hid'] at hstored'
        exact hs.unique id id' device device' hstored hstored' howner hmachine hnonempty
    · have hother : id ≠ deviceId := fun he => hnew (he ▸ hin)
      exact (hrecords id).trans ((if_neg hother).trans (hs.gone id hin))

/-! ## Every step -/

theorem stable_unlink {deviceId : String} {revoking : List String} (hs : s.Stable) :
    Stable { s with
      store := s.store.unlink deviceId
      revoking := revoking
      revoked := deviceId :: s.revoked } := by
  refine ⟨fun id id' device device' hstored hstored' => ?_, fun id hin => ?_⟩
  · have hbefore : ∀ {id : String} {d : Device}, (s.store.unlink deviceId).records id = some d →
        s.store.records id = some d := by
      intro id d hd
      rw [records_unlink] at hd
      split at hd
      · cases hd
      · exact hd
    exact hs.unique id id' device device' (hbefore hstored) (hbefore hstored')
  · show (s.store.unlink deviceId).records id = none
    rw [records_unlink]
    split
    · rfl
    · next hne => exact hs.gone id ((List.mem_cons.mp hin).resolve_left hne)

/-- **A step is lawful exactly where it spares the devices.** -/
theorem lawful_step_iff {action : PairingAction} (hbase : s.Traced) (hs : s.Stable)
    (hstep : Step txt s action t) : Lawful txt ⟨s, action, t⟩ ↔ s.Spares txt action := by
  -- the other writers always keep the store stable
  have hrewrites : ∀ store', (store' = s.store ∨ Rewrites s.store store') →
      Stable { s with store := store' } := by
    rintro store' (rfl | h)
    · exact hs
    · exact h.stable hs
  cases action with
  | scan ownerId name fingerprint found =>
    obtain ⟨-, rfl⟩ := hstep
    exact iff_of_true ⟨⟨hs.unique, hs.gone⟩, fun _ _ _ _ _ _ hact => (by cases hact)⟩ trivial
  | writeBack index digest now => exact lawful_writeBack_iff hbase hs hstep
  | create index deviceId digest now => exact lawful_create_iff hs hstep
  | updatePresence deviceId presence now =>
    rw [show t = _ from hstep]
    exact iff_of_true ⟨hrewrites _ (updatePresence_rewrites deviceId presence now),
      fun _ _ _ _ _ _ hact => (by cases hact)⟩ trivial
  | setWorkspaceDisplayName deviceId ownerId workspaceId displayName now =>
    rw [show t = _ from hstep]
    exact iff_of_true ⟨hrewrites _
      (setWorkspaceDisplayName_rewrites deviceId ownerId workspaceId displayName now),
      fun _ _ _ _ _ _ hact => (by cases hact)⟩ trivial
  | updateWorkerStatus deviceId updateStatus =>
    rw [show t = _ from hstep]
    exact iff_of_true ⟨hrewrites _ (updateWorkerStatus_rewrites deviceId updateStatus),
      fun _ _ _ _ _ _ hact => (by cases hact)⟩ trivial
  | rename deviceId ownerId displayName expectedUpdatedAt now =>
    rw [show t = _ from hstep]
    exact iff_of_true ⟨hrewrites _
      (rename_rewrites deviceId ownerId displayName expectedUpdatedAt now),
      fun _ _ _ _ _ _ hact => (by cases hact)⟩ trivial
  | checkRevoked deviceId ownerId =>
    rw [show t = _ from hstep]
    refine iff_of_true ⟨?_, fun _ _ _ _ _ _ hact => (by cases hact)⟩ trivial
    show Stable (if _ then _ else _)
    split
    · exact ⟨hs.unique, hs.gone⟩
    · exact hs
  | unlink index =>
    obtain ⟨deviceId, -, rfl⟩ := hstep
    exact iff_of_true ⟨stable_unlink hs, fun _ _ _ _ _ _ hact => (by cases hact)⟩ trivial

/-- **When the identity of a machine is stable.** In a run from a stable store with no call in
progress, every move is lawful exactly when each device is created where its owner has none for
the machine, and each copy written back is still what is stored, but for what a pairing writes. -/
theorem identity_stable_iff {ms : List (Move PairingState PairingAction)}
    (h : Run (Step txt) s ms t) (hs : s.Stable) (hidle : s.pairings = []) :
    (∀ m ∈ ms, Lawful txt m) ↔ ∀ m ∈ ms, m.pre.Spares txt m.act := by
  have htraced : s.Traced := fun pairing hin => (by rw [hidle] at hin; cases hin)
  refine Run.forall_moves_iff Traced Stable (Spares txt) (Lawful txt) ?_ ?_ ?_ h htraced hs
  · exact fun s action t hbase hstep => hbase.step hstep
  · exact fun s action t hbase hs hstep => lawful_step_iff hbase hs hstep
  · exact fun s action t hbase hs hstep hspares =>
      ((lawful_step_iff hbase hs hstep).mpr hspares).stable

end PairingState

/-! ## A machine that is paired again -/

namespace PairedAgain

def deviceId : String := "dev_0123456789abcdef0123456789abcdef"

def pairing (found : Option Device) : Pairing := ⟨"user", "laptop", "fp-1", found⟩

def device : Device :=
  newDevice PyText.ascii (pairing none) deviceId "digest-1" "2026-01-01T00:00:00Z"

def empty : DeviceStore where
  records _ := none
  keyed := DeviceStore.none_keyed

/-- The machine is paired. -/
def paired : PairingState := { store := empty.write device }

/-- It is paired again, up to the scan. -/
def scanned : PairingState := { paired with pairings := [pairing (some device)] }

/-- The device is revoked meanwhile. -/
def unlinked : PairingState where
  store := paired.store.unlink deviceId
  pairings := [pairing (some device)]
  revoked := [deviceId]

def firstPairing : List (Move PairingState PairingAction) := [
  ⟨{ store := empty }, .scan "user" "laptop" "fp-1" none,
    { store := empty, pairings := [pairing none] }⟩,
  ⟨{ store := empty, pairings := [pairing none] },
    .create 0 deviceId "digest-1" "2026-01-01T00:00:00Z", paired⟩,
  ⟨paired, .scan "user" "laptop" "fp-1" (some device), scanned⟩]

theorem run_firstPairing :
    Run (PairingState.Step PyText.ascii) { store := empty } firstPairing scanned := by
  have hscan : PairingState.Step PyText.ascii { store := empty }
      (.scan "user" "laptop" "fp-1" none) { store := empty, pairings := [pairing none] } :=
    ⟨Or.inr fun _ _ h => (by cases h), rfl⟩
  have hcreate : PairingState.Step PyText.ascii { store := empty, pairings := [pairing none] }
      (.create 0 deviceId "digest-1" "2026-01-01T00:00:00Z") paired :=
    ⟨pairing none, rfl, rfl, by decide, rfl, List.not_mem_nil, rfl⟩
  have hagain : PairingState.Step PyText.ascii paired
      (.scan "user" "laptop" "fp-1" (some device)) scanned :=
    ⟨⟨by decide, (PairingState.records_write _ _).trans (if_pos rfl), rfl, rfl⟩, rfl⟩
  exact Run.cons hscan (Run.cons hcreate (Run.single hagain))

theorem stable_empty : PairingState.Stable { store := empty } where
  unique _ _ _ _ h := by cases h
  gone _ h := by cases h

end PairedAgain

namespace PairingState

open PairedAgain

/-- A machine that is paired keeps its identity up to the next scan. -/
theorem identity_stable_iff_on_firstPairing :
    (∀ m ∈ firstPairing, Lawful PyText.ascii m) ↔
      ∀ m ∈ firstPairing, m.pre.Spares PyText.ascii m.act :=
  identity_stable_iff run_firstPairing stable_empty rfl

/-- A device that is revoked after the scan of a pairing is stored again by its write. -/
theorem not_identity_stable : ¬ ∀ (txt : PyText) (s t : PairingState)
    (ms : List (Move PairingState PairingAction)), Run (Step txt) s ms t → s.Stable →
      s.pairings = [] → ∀ m ∈ ms, Lawful txt m := by
  intro hclaim
  have hcheck : Step PyText.ascii scanned (.checkRevoked deviceId "user")
      { scanned with revoking := [deviceId] } := by
    show _ = if _ then _ else _
    rw [if_pos (by decide)]
    rfl
  have hunlink : Step PyText.ascii { scanned with revoking := [deviceId] } (.unlink 0) unlinked :=
    ⟨deviceId, rfl, rfl⟩
  have hwrite : Step PyText.ascii unlinked (.writeBack 0 "digest-2" "2026-01-01T00:01:00Z")
      { unlinked with
        store := unlinked.store.write
          (reauthorized PyText.ascii "laptop" "digest-2" "2026-01-01T00:01:00Z" device)
        pairings := [] } := ⟨pairing (some device), device, rfl, rfl, rfl⟩
  have hrun := run_firstPairing.append (Run.cons hcheck (Run.cons hunlink (Run.single hwrite)))
  have hlawful := hclaim _ _ _ _ hrun stable_empty rfl _
    (List.mem_append_right _ (List.mem_cons_of_mem _
      (List.mem_cons_of_mem _ List.mem_cons_self)))
  have hgone := hlawful.stable.gone deviceId List.mem_cons_self
  have hstored := records_writeBack PyText.ascii unlinked.store "laptop" "digest-2"
    "2026-01-01T00:01:00Z" device
  rw [show device.deviceId = deviceId from rfl] at hstored
  rw [show (unlinked.store.write _).records deviceId = none from hgone] at hstored
  cases hstored

end PairingState

end ThreadForge

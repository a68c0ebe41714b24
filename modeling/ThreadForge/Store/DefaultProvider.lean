import ThreadForge.Store.Providers
import ThreadForge.Lib.Transition

/-!
# The default provider of a device

The providers of an owner are bound to Worker devices, and on each device one of them is the
default. Only `activate_provider` looks at the other defaults; a provider also comes to a device
when it is created there, and when it is bound to it.

## Main results

* `ProviderTable.singleDefault_of_atMostOne` — a single default is the active provider.
* `ProviderTable.single_default_iff` — when the devices keep a single default.
-/

namespace ThreadForge

open Transition

namespace ProviderTable

variable {env : ProviderEnv} {s t : ProviderTable} {providerId ownerId deviceId : String}

/-! ## One default on a device -/

/-- On each device of an owner at most one of the providers is the default. -/
def AtMostOneDefault (rows : List Provider) : Prop :=
  ∀ p ∈ rows, ∀ q ∈ rows, p.isDefault = true → q.isDefault = true → p.ownerId = q.ownerId →
    p.deviceId = q.deviceId → p.deviceId ≠ "" → p.providerId = q.providerId

/-- That, and the default is the active provider of the device. -/
structure SingleDefault (s : ProviderTable) : Prop where
  atMostOne : AtMostOneDefault s.rows
  active : ∀ p ∈ s.rows, p.isDefault = true → p.deviceId ≠ "" →
    s.getActiveProvider p.ownerId p.deviceId = some p

/-- No provider on the device but this one is its default. -/
def NoOtherDefault (s : ProviderTable) (providerId ownerId deviceId : String) : Prop :=
  ∀ q ∈ s.rows, q.ownerId = ownerId → q.deviceId = deviceId → q.isDefault = true →
    q.providerId = providerId

/-- The providers that are on the device or come to it bring at most one default. -/
def RoomOn (s : ProviderTable) (ownerId deviceId : String) (ids : List String) : Prop :=
  deviceId = "" ∨ ∀ p ∈ s.rows, ∀ q ∈ s.rows, p.isDefault = true → q.isDefault = true →
    p.ownerId = ownerId → q.ownerId = ownerId → (p.deviceId = deviceId ∨ p.providerId ∈ ids) →
    (q.deviceId = deviceId ∨ q.providerId ∈ ids) → p.providerId = q.providerId

/-- The steps that bring no second default to a device. -/
def Spares (env : ProviderEnv) (s : ProviderTable) : ProviderAction → Prop
  | .create providerId ownerId deviceId payload => ∀ owner provider, env.owner ownerId = .ok owner →
    validateProviderPayload env.txt providerId owner deviceId payload = .ok provider →
    s.find? provider.providerId = none → provider.isDefault = true →
    provider.deviceId ≠ "" →
    s.NoOtherDefault provider.providerId provider.ownerId provider.deviceId
  | .activate providerId ownerId deviceId => ∀ owner provider, env.owner ownerId = .ok owner →
    s.get? providerId owner = some provider → provider.deviceId ≠ "" →
    deviceId = "" ∨ deviceId = provider.deviceId ∨
      s.NoOtherDefault providerId owner provider.deviceId
  | .bind providerId ownerId deviceId => ∀ owner, env.owner ownerId = .ok owner →
    s.RoomOn owner deviceId [providerId]
  | .migrateUnbound ownerId devices => ∀ owner deviceId, env.owner ownerId = .ok owner →
    devices = [deviceId] →
    s.RoomOn owner deviceId ((s.listUnbound owner).map Provider.providerId)
  | .migrateOrphaned ownerId devices deviceExists => ∀ owner deviceId rest,
    env.owner ownerId = .ok owner → devices = deviceId :: rest →
    s.RoomOn owner deviceId (((s.list owner "").filter fun p =>
      p.deviceId ≠ "" ∧ deviceExists p.deviceId = false).map Provider.providerId)
  | .revokeDevice ownerId deviceId devices => ∀ owner, env.owner ownerId = .ok owner →
    s.RoomOn owner ((devices.filter (· ≠ deviceId)).headD "")
      ((s.list owner deviceId).map Provider.providerId)
  | .update .. | .recordModels .. | .delete .. => True

/-- **The active provider of a device.** -/
theorem singleDefault_of_atMostOne (h : AtMostOneDefault s.rows) : s.SingleDefault := by
  refine ⟨h, fun p hp hdefault hdevice => ?_⟩
  have hlisted : p ∈ s.list p.ownerId p.deviceId := mem_list.mpr ⟨hp, rfl, Or.inr rfl⟩
  have hsome : ((s.list p.ownerId p.deviceId).find? Provider.isDefault).isSome = true :=
    List.find?_isSome.mpr ⟨p, hlisted, hdefault⟩
  obtain ⟨q, hq⟩ := Option.isSome_iff_exists.mp hsome
  obtain ⟨hin, howner, hqdevice⟩ := mem_list.mp (List.mem_of_find?_eq_some hq)
  have hqdefault : q.isDefault = true := by simpa using List.find?_some hq
  have hsame := h q hin p hp hqdefault hdefault howner
    (hqdevice.resolve_left hdevice) (hqdevice.resolve_left hdevice ▸ hdevice)
  rw [getActiveProvider, hq, Table.eq_of_key hin hp hsame]

/-! ## Each edit of the rows -/

theorem atMostOne_map {rows : List Provider} {fn : Provider → Provider}
    (hid : ∀ p, (fn p).providerId = p.providerId) (howner : ∀ p, (fn p).ownerId = p.ownerId)
    (hdevice : ∀ p, (fn p).deviceId = p.deviceId) (hdefault : ∀ p, (fn p).isDefault = p.isDefault)
    (h : AtMostOneDefault rows) : AtMostOneDefault (rows.map fn) := by
  intro p' hp' q' hq'
  obtain ⟨p, hp, rfl⟩ := List.mem_map.mp hp'
  obtain ⟨q, hq, rfl⟩ := List.mem_map.mp hq'
  simp only [hid, howner, hdevice, hdefault]
  exact h p hp q hq

theorem atMostOne_append {p : Provider} (h : AtMostOneDefault s.rows) :
    AtMostOneDefault (s.rows ++ [p]) ↔ (p.isDefault = true → p.deviceId ≠ "" →
      s.NoOtherDefault p.providerId p.ownerId p.deviceId) := by
  constructor
  · intro hall hdefault hdevice q hq howner hqdevice hqdefault
    exact hall q (List.mem_append_left _ hq) p (List.mem_append_right _ (List.mem_singleton_self p))
      hqdefault hdefault howner hqdevice (hqdevice ▸ hdevice)
  · intro hfree q hq r hr hqdefault hrdefault howner hsame hdevice
    rcases List.mem_append.mp hq with hq | hq <;> rcases List.mem_append.mp hr with hr | hr
    · exact h q hq r hr hqdefault hrdefault howner hsame hdevice
    · rw [List.mem_singleton.mp hr] at hrdefault howner hsame ⊢
      exact hfree hrdefault (hsame ▸ hdevice) q hq howner hsame hqdefault
    · rw [List.mem_singleton.mp hq] at hqdefault howner hsame hdevice ⊢
      exact (hfree hqdefault hdevice r hr howner.symm hsame.symm hrdefault).symm
    · rw [List.mem_singleton.mp hq, List.mem_singleton.mp hr]

@[simp] theorem moved_providerId (ids : List String) (p : Provider) :
    (moved ownerId deviceId ids p).providerId = p.providerId := by
  unfold moved
  split <;> rfl

@[simp] theorem moved_ownerId (ids : List String) (p : Provider) :
    (moved ownerId deviceId ids p).ownerId = p.ownerId := by
  unfold moved
  split <;> rfl

@[simp] theorem moved_isDefault (ids : List String) (p : Provider) :
    (moved ownerId deviceId ids p).isDefault = p.isDefault := by
  unfold moved
  split <;> rfl

theorem moved_deviceId (ids : List String) (p : Provider) :
    (moved ownerId deviceId ids p).deviceId
      = if p.ownerId = ownerId ∧ p.providerId ∈ ids then deviceId else p.deviceId := by
  unfold moved
  split <;> rfl

/-- The providers of the owner that are on the device once the listed ones have come. -/
theorem moved_deviceId_eq {ids : List String} {p : Provider} (howner : p.ownerId = ownerId) :
    (moved ownerId deviceId ids p).deviceId = deviceId ↔
      p.deviceId = deviceId ∨ p.providerId ∈ ids := by
  rw [moved_deviceId]
  by_cases hid : p.providerId ∈ ids
  · rw [if_pos ⟨howner, hid⟩]
    exact iff_of_true rfl (Or.inr hid)
  · rw [if_neg fun h => hid h.2]
    exact ⟨Or.inl, fun h => h.resolve_right hid⟩

theorem atMostOne_moved {ids : List String} (h : AtMostOneDefault s.rows) :
    AtMostOneDefault (s.rows.map (moved ownerId deviceId ids)) ↔ s.RoomOn ownerId deviceId ids := by
  constructor
  · intro hall
    by_cases hdevice : deviceId = ""
    · exact Or.inl hdevice
    refine Or.inr fun p hp q hq hpdefault hqdefault hpowner hqowner hpcomes hqcomes => ?_
    have hpon := (moved_deviceId_eq hpowner).mpr hpcomes
    have hqon := (moved_deviceId_eq hqowner).mpr hqcomes
    have hsame := hall _ (List.mem_map_of_mem hp) _ (List.mem_map_of_mem hq)
    simp only [moved_providerId, moved_ownerId, moved_isDefault, hpon, hqon] at hsame
    exact hsame hpdefault hqdefault (hpowner.trans hqowner.symm) trivial hdevice
  · intro hroom p' hp' q' hq'
    obtain ⟨p, hp, rfl⟩ := List.mem_map.mp hp'
    obtain ⟨q, hq, rfl⟩ := List.mem_map.mp hq'
    simp only [moved_providerId, moved_ownerId, moved_isDefault]
    intro hpdefault hqdefault howner hsame hdevice
    by_cases hon : p.ownerId = ownerId ∧ (moved ownerId deviceId ids p).deviceId = deviceId
    · rcases hroom with hnone | hroom
      · exact absurd (hon.2.trans hnone) hdevice
      have hqowner : q.ownerId = ownerId := howner ▸ hon.1
      exact hroom p hp q hq hpdefault hqdefault hon.1 hqowner ((moved_deviceId_eq hon.1).mp hon.2)
        ((moved_deviceId_eq hqowner).mp (hsame ▸ hon.2))
    · -- neither of the two comes to the device
      have hstays : ∀ r : Provider, r.ownerId = p.ownerId →
          (moved ownerId deviceId ids r).deviceId = (moved ownerId deviceId ids p).deviceId →
          (moved ownerId deviceId ids r).deviceId = r.deviceId := by
        intro r hr hrsame
        rw [moved_deviceId, if_neg]
        rintro ⟨hrowner, hid⟩
        refine hon ⟨hr ▸ hrowner, ?_⟩
        rw [← hrsame]
        exact (moved_deviceId_eq hrowner).mpr (Or.inr hid)
      have hpsame := hstays p rfl rfl
      have hqsame := hstays q howner.symm hsame.symm
      exact h p hp q hq hpdefault hqdefault howner (hpsame ▸ hqsame ▸ hsame) (hpsame ▸ hdevice)

@[simp] theorem activated_providerId (p : Provider) :
    (activated providerId ownerId deviceId p).providerId = p.providerId := by
  unfold activated
  split
  · rfl
  · split <;> rfl

@[simp] theorem activated_ownerId (p : Provider) :
    (activated providerId ownerId deviceId p).ownerId = p.ownerId := by
  unfold activated
  split
  · rfl
  · split <;> rfl

@[simp] theorem activated_deviceId (p : Provider) :
    (activated providerId ownerId deviceId p).deviceId = p.deviceId := by
  unfold activated
  split
  · rfl
  · split <;> rfl

/-- The defaults after an activation: the activated provider, and those it did not list. -/
theorem activated_isDefault {p : Provider} :
    (activated providerId ownerId deviceId p).isDefault = true ↔
      IsRow providerId ownerId p ∨ (p.isDefault = true ∧
        ¬ (p.ownerId = ownerId ∧ (deviceId = "" ∨ p.deviceId = deviceId))) := by
  unfold activated
  by_cases hrow : IsRow providerId ownerId p
  · rw [if_pos hrow]
    exact iff_of_true rfl (Or.inl hrow)
  rw [if_neg hrow]
  by_cases hlisted : p.ownerId = ownerId ∧ (deviceId = "" ∨ p.deviceId = deviceId)
  · rw [if_pos hlisted]
    exact iff_of_false Bool.false_ne_true fun h => h.elim hrow fun h => h.2 hlisted
  · rw [if_neg hlisted]
    exact ⟨fun h => Or.inr ⟨h, hlisted⟩, fun h => (h.resolve_left hrow).1⟩

theorem atMostOne_activated {p : Provider} (h : AtMostOneDefault s.rows) (hp : p ∈ s.rows)
    (hrow : IsRow providerId ownerId p) :
    AtMostOneDefault (s.rows.map (activated providerId ownerId deviceId)) ↔
      (p.deviceId ≠ "" → deviceId = "" ∨ deviceId = p.deviceId ∨
        s.NoOtherDefault providerId ownerId p.deviceId) := by
  constructor
  · intro hall hdevice
    by_cases hscope : deviceId = "" ∨ p.deviceId = deviceId
    · exact hscope.imp_right fun heq => Or.inl heq.symm
    refine Or.inr (Or.inr fun q hq howner hqdevice hqdefault => ?_)
    have hsame := hall _ (List.mem_map_of_mem hq) _ (List.mem_map_of_mem hp)
    simp only [activated_providerId, activated_ownerId, activated_deviceId,
      activated_isDefault] at hsame
    have hkept : ¬ (q.ownerId = ownerId ∧ (deviceId = "" ∨ q.deviceId = deviceId)) :=
      fun hlisted => hscope (hqdevice ▸ hlisted.2)
    exact (hsame (Or.inr ⟨hqdefault, hkept⟩) (Or.inl hrow) (howner.trans hrow.2.symm) hqdevice
      (hqdevice ▸ hdevice)).trans hrow.1
  · intro hspared q' hq' r' hr'
    obtain ⟨q, hq, rfl⟩ := List.mem_map.mp hq'
    obtain ⟨r, hr, rfl⟩ := List.mem_map.mp hr'
    simp only [activated_providerId, activated_ownerId, activated_deviceId, activated_isDefault]
    intro hqdefault hrdefault howner hsame hdevice
    -- a default that stays beside the activated provider on its device has its id
    have hbeside : ∀ x ∈ s.rows, x.isDefault = true → x.ownerId = ownerId →
        x.deviceId = p.deviceId → x.deviceId ≠ "" →
        ¬ (x.ownerId = ownerId ∧ (deviceId = "" ∨ x.deviceId = deviceId)) →
        x.providerId = providerId := by
      intro x hx hxdefault hxowner hxdevice hxnonempty hkept
      rcases hspared (hxdevice ▸ hxnonempty) with hall | hsame | hfree
      · exact absurd ⟨hxowner, Or.inl hall⟩ hkept
      · exact absurd ⟨hxowner, Or.inr (hxdevice.trans hsame.symm)⟩ hkept
      · exact hfree x hx hxowner hxdevice hxdefault
    rcases hqdefault with hqrow | ⟨hqdefault, hqkept⟩ <;>
      rcases hrdefault with hrrow | ⟨hrdefault, hrkept⟩
    · exact hqrow.1.trans hrrow.1.symm
    · have hqp := Table.eq_of_key hq hp (hqrow.1.trans hrow.1.symm)
      exact hqrow.1.trans (hbeside r hr hrdefault (howner.symm.trans hqrow.2)
        (hsame.symm.trans (congrArg _ hqp)) (hsame ▸ hdevice) hrkept).symm
    · have hrp := Table.eq_of_key hr hp (hrrow.1.trans hrow.1.symm)
      exact (hbeside q hq hqdefault (howner.trans hrrow.2) (hsame.trans (congrArg _ hrp)) hdevice
        hqkept).trans hrrow.1.symm
    · exact h q hq r hr hqdefault hrdefault howner hsame hdevice

/-! ## Each step -/

theorem rows_bindDevice (providerId ownerId deviceId : String) :
    (s.orSame (s.bindDevice providerId ownerId deviceId)).rows
      = s.rows.map (moved ownerId deviceId [providerId]) := by
  rw [bindDevice, orSame_changeRow]
  refine List.map_congr_left fun p _ => if_congr ?_ rfl rfl
  rw [List.mem_singleton]
  exact And.comm

theorem rows_delete_sublist (providerId ownerId : String) :
    (s.orSame (s.delete providerId ownerId)).rows.Sublist s.rows := by
  unfold delete
  split
  · exact List.filter_sublist
  · exact List.Sublist.refl _

theorem AtMostOneDefault.sublist {rows rest : List Provider} (h : AtMostOneDefault rows)
    (hrest : rest.Sublist rows) : AtMostOneDefault rest :=
  fun p hp q hq => h p (hrest.subset hp) q (hrest.subset hq)

/-- A change of one row that keeps its keys, its device and its default. -/
theorem atMostOne_changeRow {fn : Provider → Provider} {hid : ∀ p, (fn p).providerId = p.providerId}
    (howner : ∀ p, (fn p).ownerId = p.ownerId) (hdevice : ∀ p, (fn p).deviceId = p.deviceId)
    (hdefault : ∀ p, (fn p).isDefault = p.isDefault) (h : AtMostOneDefault s.rows) :
    AtMostOneDefault (s.orSame (s.changeRow providerId ownerId fn hid)).rows := by
  rw [orSame_changeRow]
  refine atMostOne_map ?_ ?_ ?_ ?_ h <;> intro p <;> split <;>
    simp only [hid, howner, hdevice, hdefault]

/-- A call for an owner: the owner id may be refused. -/
theorem forall_owner {ownerId : String} {f : String → Except ProviderError ProviderTable}
    {P : String → Prop} (h : AtMostOneDefault s.rows)
    (hf : ∀ owner, env.owner ownerId = .ok owner →
      (AtMostOneDefault (s.orSame (f owner)).rows ↔ P owner)) :
    AtMostOneDefault (s.orSame (env.owner ownerId >>= f)).rows ↔
      ∀ owner, env.owner ownerId = .ok owner → P owner := by
  cases howner : env.owner ownerId with
  | error e => exact iff_of_true h fun owner hok => (by cases hok)
  | ok owner =>
    show AtMostOneDefault (s.orSame (f owner)).rows ↔ _
    rw [hf owner howner]
    constructor
    · rintro hP other hother
      cases hother
      exact hP
    · exact fun hP => hP owner rfl

theorem atMostOne_create {owner : String} {payload : PyDict} (h : AtMostOneDefault s.rows) :
    AtMostOneDefault (s.orSame (do
      let provider ← validateProviderPayload env.txt providerId owner deviceId payload
      s.create provider)).rows ↔
    ∀ provider, validateProviderPayload env.txt providerId owner deviceId payload = .ok provider →
      s.find? provider.providerId = none → provider.isDefault = true →
      provider.deviceId ≠ "" →
      s.NoOtherDefault provider.providerId provider.ownerId provider.deviceId := by
  cases hvalid : validateProviderPayload env.txt providerId owner deviceId payload with
  | error e => exact iff_of_true h fun provider hok => (by cases hok)
  | ok provider =>
    show AtMostOneDefault (s.orSame (s.create provider)).rows ↔ _
    unfold create
    by_cases hfree : s.find? provider.providerId = none
    · rw [dif_pos hfree]
      show AtMostOneDefault (s.rows ++ [provider]) ↔ _
      rw [atMostOne_append h]
      constructor
      · rintro hspared other hother -
        cases hother
        exact hspared
      · exact fun hspared => hspared provider rfl hfree
    · rw [dif_neg hfree]
      refine iff_of_true h fun other hother hother_free => ?_
      cases hother
      exact absurd hother_free hfree

theorem atMostOne_activate {owner : String} (h : AtMostOneDefault s.rows) :
    AtMostOneDefault (s.orSame (s.activateProvider providerId owner deviceId)).rows ↔
    ∀ provider, s.get? providerId owner = some provider → provider.deviceId ≠ "" →
      deviceId = "" ∨ deviceId = provider.deviceId ∨
        s.NoOtherDefault providerId owner provider.deviceId := by
  cases hfound : s.get? providerId owner with
  | none =>
    rw [activateProvider, hfound]
    exact iff_of_true h fun provider hsome => (by cases hsome)
  | some provider =>
    obtain ⟨hin, hrow⟩ := get?_eq_some.mp hfound
    rw [rows_activateProvider hfound, atMostOne_activated h hin hrow]
    constructor
    · rintro hspared other hother
      cases hother
      exact hspared
    · exact fun hspared => hspared provider rfl

theorem atMostOne_migrateUnbound {owner : String} {devices : List String}
    (h : AtMostOneDefault s.rows) :
    AtMostOneDefault (s.migrateUnbound owner devices).rows ↔ ∀ deviceId, devices = [deviceId] →
      s.RoomOn owner deviceId ((s.listUnbound owner).map Provider.providerId) := by
  unfold migrateUnbound
  split
  · next deviceId =>
    rw [rows_bindEach, atMostOne_moved h]
    constructor
    · intro hroom other hother
      rw [← List.head_eq_of_cons_eq hother]
      exact hroom
    · exact fun hroom => hroom deviceId rfl
  · next hnone => exact iff_of_true h fun deviceId hone => absurd hone (hnone deviceId)

theorem atMostOne_migrateOrphaned {owner : String} {devices : List String}
    {deviceExists : String → Bool} (h : AtMostOneDefault s.rows) :
    AtMostOneDefault (s.migrateOrphaned owner devices deviceExists).rows ↔
      ∀ deviceId rest, devices = deviceId :: rest → s.RoomOn owner deviceId
        (((s.list owner "").filter fun p =>
          p.deviceId ≠ "" ∧ deviceExists p.deviceId = false).map Provider.providerId) := by
  unfold migrateOrphaned
  split
  · rw [rows_bindEach, atMostOne_moved h]
    exact iff_of_true (Or.inl rfl) fun deviceId rest hcons => (by cases hcons)
  · next target rest =>
    rw [rows_bindEach, atMostOne_moved h]
    constructor
    · intro hroom other rest' hother
      rw [← List.head_eq_of_cons_eq hother]
      exact hroom
    · exact fun hroom => hroom target rest rfl

/-- **A step leaves one default exactly where it brings no second one.** -/
theorem atMostOne_step {action : ProviderAction} (h : AtMostOneDefault s.rows)
    (hstep : Step env s action t) : AtMostOneDefault t.rows ↔ s.Spares env action := by
  subst hstep
  cases action with
  | create providerId ownerId deviceId payload =>
    refine (forall_owner h fun owner _ => atMostOne_create h).trans ?_
    exact ⟨fun hall owner provider howner => hall owner howner provider,
      fun hall owner howner provider => hall owner provider howner⟩
  | update providerId ownerId patch =>
    refine (forall_owner h fun owner _ => iff_of_true ?_ trivial).trans
      (iff_of_true (fun _ _ => trivial) trivial)
    exact atMostOne_changeRow (fun _ => rfl) (fun _ => rfl) (fun _ => rfl) h
  | recordModels providerId ownerId models error now =>
    refine (forall_owner h fun owner _ => iff_of_true ?_ trivial).trans
      (iff_of_true (fun _ _ => trivial) trivial)
    exact atMostOne_changeRow (fun _ => rfl) (fun _ => rfl) (fun _ => rfl) h
  | activate providerId ownerId deviceId =>
    refine (forall_owner h fun owner _ => atMostOne_activate h).trans ?_
    exact ⟨fun hall owner provider howner => hall owner howner provider,
      fun hall owner howner provider => hall owner provider howner⟩
  | bind providerId ownerId deviceId =>
    refine forall_owner h fun owner _ => ?_
    rw [rows_bindDevice]
    exact atMostOne_moved h
  | delete providerId ownerId =>
    refine (forall_owner h fun owner _ => iff_of_true ?_ trivial).trans
      (iff_of_true (fun _ _ => trivial) trivial)
    exact h.sublist (rows_delete_sublist providerId owner)
  | migrateUnbound ownerId devices =>
    refine (forall_owner (f := fun owner => .ok (s.migrateUnbound owner devices)) h
      fun owner _ => atMostOne_migrateUnbound h).trans ?_
    exact ⟨fun hall owner deviceId howner => hall owner howner deviceId,
      fun hall owner howner deviceId => hall owner deviceId howner⟩
  | migrateOrphaned ownerId devices deviceExists =>
    refine (forall_owner (f := fun owner => .ok (s.migrateOrphaned owner devices deviceExists)) h
      fun owner _ => atMostOne_migrateOrphaned h).trans ?_
    exact ⟨fun hall owner deviceId rest howner => hall owner howner deviceId rest,
      fun hall owner howner deviceId rest => hall owner deviceId rest howner⟩
  | revokeDevice ownerId deviceId devices =>
    refine forall_owner h fun owner _ => ?_
    show AtMostOneDefault (s.rebindRevoked owner deviceId devices).rows ↔ _
    rw [rebindRevoked, rows_bindEach]
    exact atMostOne_moved h

/-! ## Every run -/

/-- **When the devices keep a single default.** In a run from a table with one default on each
device, that is so before and after each step, exactly when no step brings a second default to a
device: a created default, an activation that lists another device than the provider's own, or
a provider that is bound to the device. -/
theorem single_default_iff {ms : List (Move ProviderTable ProviderAction)}
    (h : Run (Step env) s ms t) (hs : s.SingleDefault) :
    (∀ m ∈ ms, m.pre.SingleDefault ∧ m.post.SingleDefault) ↔
      ∀ m ∈ ms, m.pre.Spares env m.act := by
  refine Run.moves_iff_of_exact SingleDefault (fun s => s.Spares env)
    (fun s t => s.SingleDefault ∧ t.SingleDefault) ?_ ?_ ?_ h hs
  · intro s action t hs hspares hstep
    exact singleDefault_of_atMostOne ((atMostOne_step hs.atMostOne hstep).mpr hspares)
  · intro s action t hs hspares hstep
    exact ⟨hs, singleDefault_of_atMostOne ((atMostOne_step hs.atMostOne hstep).mpr hspares)⟩
  · intro s action t hstep hlaw
    exact (atMostOne_step hlaw.1.atMostOne hstep).mp hlaw.2.atMostOne

end ProviderTable

/-! ## A device is revoked -/

namespace ProviderMove

def env : ProviderEnv where
  txt := { PyText.ascii with lower := id }
  canonicalOwnerId ownerId := if ownerId = "" then none else some ownerId

def payload : PyDict :=
  [("name", .str "deepseek"), ("protocol", .str "deepseek"),
    ("base_url", .str "https://api.example"), ("model", .str "chat")]

/-- Two devices, each with its default provider. -/
def setUp : List ProviderAction := [
  .create "prv_1" "user" "dev_1" payload, .create "prv_2" "user" "dev_2" payload,
  .activate "prv_1" "user" "dev_1", .activate "prv_2" "user" "dev_2"]

def stored (providerId deviceId : String) : Provider where
  providerId := providerId
  ownerId := "user"
  deviceId := deviceId
  name := "deepseek"
  protocol := "deepseek"
  baseUrl := "https://api.example"
  model := "chat"
  isDefault := true

def next (s : ProviderTable) (action : ProviderAction) : Option ProviderTable :=
  some (s.orSame (s.perform env action))

theorem run_of_execute {s t : ProviderTable} {actions : List ProviderAction}
    (h : execute next s actions = some t) :
    Run (ProviderTable.Step env) s (movesOf next s actions) t := by
  refine Run.of_execute ?_ h
  intro s action t hnext
  exact Option.some.inj hnext

theorem execute_setUp : execute next {} setUp =
    some { rows := [stored "prv_1" "dev_1", stored "prv_2" "dev_2"] } := by
  decide +kernel

end ProviderMove

namespace ProviderTable

open ProviderMove

/-- Setting up the devices keeps a single default on each. -/
theorem single_default_iff_on_setUp : ∃ t,
    Run (Step env) {} (movesOf next {} setUp) t ∧
      ((∀ m ∈ movesOf next {} setUp, m.pre.SingleDefault ∧ m.post.SingleDefault) ↔
        ∀ m ∈ movesOf next {} setUp, m.pre.Spares env m.act) := by
  have hempty : SingleDefault {} :=
    singleDefault_of_atMostOne fun p hp => absurd hp List.not_mem_nil
  exact ⟨_, run_of_execute execute_setUp, single_default_iff (run_of_execute execute_setUp) hempty⟩

/-- Revoking the one device brings its default to the other, beside the default there. -/
theorem not_single_default : ¬ ∀ (env : ProviderEnv) (ms : List (Move ProviderTable ProviderAction))
    (t : ProviderTable), Run (Step env) {} ms t → t.SingleDefault := by
  intro hclaim
  have hrevoked : execute next { rows := [stored "prv_1" "dev_1", stored "prv_2" "dev_2"] }
      [.revokeDevice "user" "dev_1" ["dev_1", "dev_2"]] =
        some { rows := [stored "prv_1" "dev_2", stored "prv_2" "dev_2"] } := by
    decide +kernel
  have hsingle := hclaim env _ _ ((run_of_execute execute_setUp).append (run_of_execute hrevoked))
  have hsame := hsingle.atMostOne (stored "prv_1" "dev_2") (List.mem_cons_self)
    (stored "prv_2" "dev_2")
    (List.mem_cons_of_mem _ List.mem_cons_self) rfl rfl rfl rfl (by decide)
  exact absurd hsame (by decide)

end ProviderTable

end ThreadForge

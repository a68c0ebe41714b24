import ThreadForge.Lib.PyString
import ThreadForge.Lib.Table
import Mathlib.Data.List.Sort

/-!
# Model providers

`ProviderService` over the `providers` table, the migrations of the start, and what revoking a
device does to its providers. Every operation is an edit of the rows, one row at a time: the
sections at the end say which.

## Main results

* `ProviderTable.rows_bindEach` — a loop of bindings moves the listed providers.
* `ProviderTable.rows_activateProvider` — what an activation does to the rows.

## What is a parameter

`canonicalOwnerId` is `canonical_owner_id`. What the device store lists for an owner is an argument
of the steps that read it.
-/

namespace ThreadForge

/-! ## Providers -/

/-- `Provider`. -/
structure Provider where
  providerId : String
  ownerId : String
  deviceId : String
  name : String
  protocol : String
  baseUrl : String
  model : String := ""
  models : List String := []
  reasoningEfforts : List String := ["none"]
  timeout : Int := 45
  concurrency : Int := 1
  state : String := "active"
  isDefault : Bool := false
  lastTestAt : String := ""
  lastError : String := ""
  schemaVersion : Int := 1
  deriving DecidableEq, Repr

/-- What `ProviderService` raises. -/
inductive ProviderError
  | providerNotFound (providerId : String)
  | integrity
  | python (e : PyError)
  deriving DecidableEq, Repr

section Payload

variable (txt : PyText)

def providerProtocols : List String := ["openai_compatible", "anthropic", "deepseek", "ollama"]

def providerStates : List String := ["active", "disabled", "error"]

def providerEfforts : List String := ["none", "minimal", "low", "medium", "high", "xhigh", "max"]

/-- `raise ValueError`. -/
def valueError {α : Type} : Except ProviderError α := .error (.python .valueError)

/-- `int(payload.get(key, default))`, between two bounds. -/
def boundedInt (payload : PyDict) (key : String) (default low high : Int) :
    Except ProviderError Int :=
  match (payload.getD key (.int default)).toInt txt with
  | .ok n => if low ≤ n ∧ n ≤ high then .ok n else valueError
  | .error e => .error (.python e)

/-- `for item in value`. -/
def iterated : PyValue → Except ProviderError (List PyValue)
  | .list items => .ok items
  | .str text => .ok (text.toList.map fun c => .str (String.singleton c))
  | .dict entries => .ok (entries.map fun entry => .str entry.1)
  | _ => .error (.python .typeError)

/-- The efforts a payload asks for, as a list. -/
def rawEfforts (payload : PyDict) : List PyValue :=
  match payload.getD "reasoning_efforts" .none with
  | .none =>
    let tier := txt.lower (pyStrip txt ((payload.getD "reasoning_tier" (.str "none")).text txt))
    if tier = "" then [.str "none"] else [.str tier]
  | .list items => items
  | value => [value]

/-- `_normalize_reasoning_efforts`. -/
def normalizeReasoningEfforts (payload : PyDict) : Except ProviderError (List String) :=
  let efforts := (rawEfforts txt payload).map fun item => txt.lower (pyStrip txt (item.text txt))
  if ∀ effort ∈ efforts, effort ∈ providerEfforts then
    .ok (if efforts = [] then ["none"] else efforts.eraseDups)
  else valueError

/-- `_HTTP_URL.match`. -/
def isHttpUrl (text : String) : Bool := pyStartsWith text "http://" || pyStartsWith text "https://"

/-- The provider of a payload `validate_provider_payload` accepts. -/
def validateProviderPayload (providerId ownerId deviceId : String) (payload : PyDict) :
    Except ProviderError Provider :=
  let name := pyStrip txt (payload.textOf txt "name")
  let protocol := pyStrip txt (payload.textOf txt "protocol")
  let baseUrl := pyStrip txt (payload.textOf txt "base_url")
  let state := pyStrip txt ((payload.getD "state" (.str "active")).text txt)
  if name = "" ∨ 200 < name.length then valueError
  else if protocol ∉ providerProtocols then valueError
  else if !isHttpUrl baseUrl then valueError
  else do
    let timeout ← boundedInt txt payload "timeout" 45 5 600
    let concurrency ← boundedInt txt payload "concurrency" 1 1 16
    if state ∉ providerStates then valueError
    else
      let models ← iterated (payload.getD "models" (.list []))
      let reasoningEfforts ← normalizeReasoningEfforts txt payload
      .ok {
        providerId, ownerId, deviceId, name, protocol, baseUrl, reasoningEfforts, timeout,
        concurrency, state
        model := pyStrip txt (payload.textOf txt "model")
        models := (models.map fun item => pyStrip txt (item.text txt)).filter (· ≠ "")
        isDefault := (payload.getD "is_default" (.bool false)).truthy }

end Payload

/-! ## What is called -/

/-- The part of `update_provider`'s patch it looks at: what is `None` stays. -/
structure ProviderPatch where
  name : Option String := none
  protocol : Option String := none
  baseUrl : Option String := none
  model : Option String := none
  models : Option (List String) := none
  reasoningEfforts : Option (List String) := none
  timeout : Option Int := none
  concurrency : Option Int := none
  state : Option String := none

/-- The functions of other modules. -/
structure ProviderEnv where
  txt : PyText
  canonicalOwnerId : String → Option String

def ProviderEnv.owner (env : ProviderEnv) (ownerId : String) : Except ProviderError String :=
  match env.canonicalOwnerId ownerId with
  | some ownerId => .ok ownerId
  | none => valueError

/-- One call of the service, one owner of a migration, or one `revoke_device`; `providerId` of
`create` is the drawn one, and `devices` are what the device store lists for the owner. -/
inductive ProviderAction
  | create (providerId ownerId deviceId : String) (payload : PyDict)
  | update (providerId ownerId : String) (patch : ProviderPatch)
  | recordModels (providerId ownerId : String) (models : List String) (error now : String)
  | activate (providerId ownerId deviceId : String)
  | bind (providerId ownerId deviceId : String)
  | delete (providerId ownerId : String)
  | migrateUnbound (ownerId : String) (devices : List String)
  | migrateOrphaned (ownerId : String) (devices : List String) (deviceExists : String → Bool)
  | revokeDevice (ownerId deviceId : String) (devices : List String)

/-! ## The table -/

/-- The `providers` table. Every statement writes the columns and the payload of a row from one
record. -/
abbrev ProviderTable := Table Provider.providerId

namespace ProviderTable

/-- The condition of a statement about one row. -/
def IsRow (providerId ownerId : String) (p : Provider) : Prop :=
  p.providerId = providerId ∧ p.ownerId = ownerId

instance (providerId ownerId : String) : DecidablePred (IsRow providerId ownerId) :=
  fun _ => inferInstanceAs (Decidable (_ ∧ _))

/-- `get`. -/
def get? (s : ProviderTable) (providerId ownerId : String) : Option Provider :=
  s.rows.find? fun p => IsRow providerId ownerId p

/-- `list`. -/
def list (s : ProviderTable) (ownerId deviceId : String) : List Provider :=
  (s.rows.filter fun p =>
      p.ownerId = ownerId ∧ (deviceId = "" ∨ p.deviceId = deviceId)).insertionSort
    fun a b => a.name ≤ b.name

/-- `list_unbound`. -/
def listUnbound (s : ProviderTable) (ownerId : String) : List Provider :=
  (s.rows.filter fun p => p.ownerId = ownerId ∧ p.deviceId = "").insertionSort
    fun a b => a.name ≤ b.name

/-- `create`. -/
def create (s : ProviderTable) (provider : Provider) : Except ProviderError ProviderTable :=
  if h : s.find? provider.providerId = none then .ok (s.insertNew provider h) else .error .integrity

/-- A change of one row, where the statement finds it. -/
def changeRow (s : ProviderTable) (providerId ownerId : String) (fn : Provider → Provider)
    (hfn : ∀ p, (fn p).providerId = p.providerId) : Except ProviderError ProviderTable :=
  if s.rows.any fun p => IsRow providerId ownerId p then
    .ok (s.changeAll (fun p => if IsRow providerId ownerId p then fn p else p) fun p => by
      by_cases h : IsRow providerId ownerId p
      · simp only [if_pos h, hfn]
      · simp only [if_neg h])
  else .error (.providerNotFound providerId)

/-- `_set_default`. -/
def setDefault (value : Bool) (p : Provider) : Provider := { p with isDefault := value }

def setDevice (deviceId : String) (p : Provider) : Provider := { p with deviceId := deviceId }

theorem setDefault_providerId (value : Bool) (p : Provider) :
    (setDefault value p).providerId = p.providerId := rfl

theorem setDevice_providerId (deviceId : String) (p : Provider) :
    (setDevice deviceId p).providerId = p.providerId := rfl

/-- `bind_device`. -/
def bindDevice (s : ProviderTable) (providerId ownerId deviceId : String) :
    Except ProviderError ProviderTable :=
  s.changeRow providerId ownerId (setDevice deviceId) (setDevice_providerId deviceId)

/-- `delete`. -/
def delete (s : ProviderTable) (providerId ownerId : String) : Except ProviderError ProviderTable :=
  if s.rows.any fun p => IsRow providerId ownerId p then
    .ok {
      rows := s.rows.filter fun p => ¬ IsRow providerId ownerId p
      nodup := s.nodup.sublist ((List.filter_sublist).map _) }
  else .error (.providerNotFound providerId)

/-- A call that raised left the table as it was. -/
def orSame (s : ProviderTable) : Except ProviderError ProviderTable → ProviderTable
  | .ok t => t
  | .error _ => s

/-! ## The service -/

/-- `_apply` of `update_provider`. -/
def applyPatch (patch : ProviderPatch) (p : Provider) : Provider :=
  { p with
    name := patch.name.getD p.name
    protocol := patch.protocol.getD p.protocol
    baseUrl := patch.baseUrl.getD p.baseUrl
    model := patch.model.getD p.model
    models := patch.models.getD p.models
    reasoningEfforts := patch.reasoningEfforts.getD p.reasoningEfforts
    timeout := patch.timeout.getD p.timeout
    concurrency := patch.concurrency.getD p.concurrency
    state := patch.state.getD p.state }

/-- `_apply` of `record_models`. -/
def applyModels (txt : PyText) (models : List String) (error now : String) (p : Provider) :
    Provider :=
  { p with
    models := (models.map (pyStrip txt)).filter (· ≠ "")
    lastTestAt := now
    lastError := error }

/-- One turn of the loop of `activate_provider`. -/
def clearOther (providerId ownerId : String) (s : ProviderTable) (item : Provider) :
    ProviderTable :=
  if item.providerId ≠ providerId ∧ item.isDefault = true then
    s.orSame (s.changeRow item.providerId ownerId (setDefault false) (setDefault_providerId false))
  else s

/-- `activate_provider`. -/
def activateProvider (s : ProviderTable) (providerId ownerId deviceId : String) :
    Except ProviderError ProviderTable :=
  match s.get? providerId ownerId with
  | none => .error (.providerNotFound providerId)
  | some _ =>
    ((s.list ownerId deviceId).foldl (clearOther providerId ownerId) s).changeRow providerId ownerId
      (setDefault true) (setDefault_providerId true)

/-- `get_active_provider`. -/
def getActiveProvider (s : ProviderTable) (ownerId deviceId : String) : Option Provider :=
  (s.list ownerId deviceId).find? Provider.isDefault

/-! ## Migrations -/

/-- A loop of `bind_device` over providers of an owner; a binding that fails is skipped. -/
def bindEach (ownerId deviceId : String) (s : ProviderTable) (providers : List Provider) :
    ProviderTable :=
  providers.foldl (fun s p => s.orSame (s.bindDevice p.providerId ownerId deviceId)) s

/-- `_migrate_unbound_providers` for one owner: an owner with one device. -/
def migrateUnbound (s : ProviderTable) (ownerId : String) (devices : List String) : ProviderTable :=
  match devices with
  | [deviceId] => s.bindEach ownerId deviceId (s.listUnbound ownerId)
  | _ => s

/-- `_migrate_orphaned_providers` for one owner. -/
def migrateOrphaned (s : ProviderTable) (ownerId : String) (devices : List String)
    (deviceExists : String → Bool) : ProviderTable :=
  match devices with
  | [] => s.bindEach ownerId "" (s.list ownerId "")
  | target :: _ => s.bindEach ownerId target
      ((s.list ownerId "").filter fun p => p.deviceId ≠ "" ∧ deviceExists p.deviceId = false)

/-- What `revoke_device` does to the providers of the device. -/
def rebindRevoked (s : ProviderTable) (ownerId deviceId : String) (devices : List String) :
    ProviderTable :=
  s.bindEach ownerId ((devices.filter (· ≠ deviceId)).headD "") (s.list ownerId deviceId)

/-! ## What the operations do to the rows -/

variable {env : ProviderEnv} {s t : ProviderTable} {providerId ownerId deviceId : String}

/-- A change of one row is the change of that row, and of none where there is no such row. -/
theorem orSame_changeRow (fn : Provider → Provider) (hfn : ∀ p, (fn p).providerId = p.providerId) :
    (s.orSame (s.changeRow providerId ownerId fn hfn)).rows
      = s.rows.map fun p => if IsRow providerId ownerId p then fn p else p := by
  unfold changeRow
  split
  · rfl
  · next hnone =>
    show s.rows = _
    refine (List.map_id' s.rows).symm.trans
      (List.map_congr_left fun p hp => (if_neg fun hrow => ?_).symm)
    exact hnone (List.any_eq_true.mpr ⟨p, hp, decide_eq_true hrow⟩)

/-- A provider that is moved to a device, where it is one of those to move. -/
def moved (ownerId deviceId : String) (ids : List String) (p : Provider) : Provider :=
  if p.ownerId = ownerId ∧ p.providerId ∈ ids then setDevice deviceId p else p

theorem rows_bindEach (ownerId deviceId : String) :
    ∀ (providers : List Provider) (s : ProviderTable),
      (s.bindEach ownerId deviceId providers).rows
        = s.rows.map (moved ownerId deviceId (providers.map Provider.providerId))
  | [], s => by
    show s.rows = _
    refine (List.map_id' s.rows).symm.trans (List.map_congr_left fun p _ => ?_)
    exact (if_neg fun h => absurd h.2 List.not_mem_nil).symm
  | first :: rest, s => by
    show (bindEach ownerId deviceId (s.orSame _) rest).rows = _
    rw [rows_bindEach ownerId deviceId rest, bindDevice, orSame_changeRow, List.map_map]
    refine List.map_congr_left fun p _ => ?_
    simp only [Function.comp_apply, moved, List.map_cons, List.mem_cons]
    by_cases hrow : IsRow first.providerId ownerId p
    · rw [if_pos hrow, if_pos (⟨hrow.2, Or.inl hrow.1⟩ : p.ownerId = ownerId ∧ _)]
      split <;> rfl
    · rw [if_neg hrow]
      have hiff : (p.ownerId = ownerId ∧ (p.providerId = first.providerId ∨
          p.providerId ∈ rest.map Provider.providerId)) ↔
          (p.ownerId = ownerId ∧ p.providerId ∈ rest.map Provider.providerId) := by
        constructor
        · rintro ⟨howner, hid | hid⟩
          · exact absurd ⟨hid, howner⟩ hrow
          · exact ⟨howner, hid⟩
        · exact fun h => ⟨h.1, Or.inr h.2⟩
      simp only [hiff]

/-- What an activation makes of a provider. -/
def activated (providerId ownerId deviceId : String) (p : Provider) : Provider :=
  if IsRow providerId ownerId p then setDefault true p
  else if p.ownerId = ownerId ∧ (deviceId = "" ∨ p.deviceId = deviceId) then setDefault false p
  else p

theorem mem_list {p : Provider} : p ∈ s.list ownerId deviceId ↔
    p ∈ s.rows ∧ p.ownerId = ownerId ∧ (deviceId = "" ∨ p.deviceId = deviceId) := by
  rw [list, List.mem_insertionSort, List.mem_filter, decide_eq_true_eq]

theorem setDefault_false_of {p : Provider} (h : ¬ p.isDefault = true) : setDefault false p = p := by
  have hfalse : p.isDefault = false := Bool.not_eq_true _ ▸ h
  rw [setDefault, ← hfalse]

/-- The loop of an activation takes the default from the other providers it lists. -/
theorem rows_clearOthers (providerId ownerId : String) :
    ∀ (items : List Provider) (s : ProviderTable),
      (items.foldl (clearOther providerId ownerId) s).rows = s.rows.map fun p =>
        if p.ownerId = ownerId ∧ p.providerId ≠ providerId ∧
            p.providerId ∈ (items.filter Provider.isDefault).map Provider.providerId then
          setDefault false p else p
  | [], s => by
    show s.rows = _
    refine (List.map_id' s.rows).symm.trans (List.map_congr_left fun p _ => ?_)
    exact (if_neg fun h => absurd h.2.2 List.not_mem_nil).symm
  | first :: rest, s => by
    rw [List.foldl_cons, rows_clearOthers providerId ownerId rest, clearOther]
    by_cases hdefault : first.isDefault = true
    · rw [List.filter_cons_of_pos hdefault, List.map_cons]
      by_cases hother : first.providerId ≠ providerId
      · rw [if_pos ⟨hother, hdefault⟩, orSame_changeRow, List.map_map]
        refine List.map_congr_left fun p _ => ?_
        simp only [Function.comp_apply, List.mem_cons]
        by_cases hrow : IsRow first.providerId ownerId p
        · have hcleared : p.ownerId = ownerId ∧ p.providerId ≠ providerId ∧
              (p.providerId = first.providerId ∨
                p.providerId ∈ (rest.filter Provider.isDefault).map Provider.providerId) :=
            ⟨hrow.2, hrow.1.symm ▸ hother, Or.inl hrow.1⟩
          rw [if_pos hrow, if_pos hcleared]
          split <;> rfl
        · rw [if_neg hrow]
          refine if_congr ?_ rfl rfl
          constructor
          · rintro ⟨howner, hne, hid⟩
            exact ⟨howner, hne, Or.inr hid⟩
          · rintro ⟨howner, hne, hid | hid⟩
            · exact absurd ⟨hid, howner⟩ hrow
            · exact ⟨howner, hne, hid⟩
      · rw [if_neg fun h => hother h.1]
        refine List.map_congr_left fun p _ => if_congr ?_ rfl rfl
        constructor
        · rintro ⟨howner, hne, hid⟩
          exact ⟨howner, hne, List.mem_cons_of_mem _ hid⟩
        · rintro ⟨howner, hne, hid⟩
          rcases List.mem_cons.mp hid with hid | hid
          · exact absurd (hid.trans (not_not.mp hother)) hne
          · exact ⟨howner, hne, hid⟩
    · rw [List.filter_cons_of_neg hdefault, if_neg fun h => hdefault h.2]

theorem get?_eq_some {p : Provider} :
    s.get? providerId ownerId = some p ↔ p ∈ s.rows ∧ IsRow providerId ownerId p := by
  unfold get?
  constructor
  · intro h
    have hrow : decide (IsRow providerId ownerId p) = true := by simpa using List.find?_some h
    exact ⟨List.mem_of_find?_eq_some h, of_decide_eq_true hrow⟩
  · rintro ⟨hp, hrow⟩
    have hsome : (s.rows.find? fun q => IsRow providerId ownerId q).isSome = true :=
      List.find?_isSome.mpr ⟨p, hp, decide_eq_true hrow⟩
    obtain ⟨q, hq⟩ := Option.isSome_iff_exists.mp hsome
    have hqrow : IsRow providerId ownerId q := by simpa using List.find?_some hq
    rw [hq, Table.eq_of_key (List.mem_of_find?_eq_some hq) hp (hqrow.1.trans hrow.1.symm)]

/-- **What an activation does to the rows.** -/
theorem rows_activateProvider {p : Provider} (h : s.get? providerId ownerId = some p) :
    (s.orSame (s.activateProvider providerId ownerId deviceId)).rows
      = s.rows.map (activated providerId ownerId deviceId) := by
  have hrows : (s.orSame (s.activateProvider providerId ownerId deviceId)).rows
      = ((s.list ownerId deviceId).foldl (clearOther providerId ownerId) s).rows.map fun p =>
        if IsRow providerId ownerId p then setDefault true p else p := by
    rw [← orSame_changeRow (setDefault true) (setDefault_providerId true), activateProvider, h]
    have hfound : (((s.list ownerId deviceId).foldl (clearOther providerId ownerId) s).rows.any
        fun p => IsRow providerId ownerId p) = true := by
      obtain ⟨hp, hrow⟩ := get?_eq_some.mp h
      rw [rows_clearOthers, List.any_map, List.any_eq_true]
      refine ⟨p, hp, decide_eq_true ?_⟩
      dsimp only
      rw [if_neg fun hcond => hcond.2.1 hrow.1]
      exact hrow
    simp only [changeRow, if_pos hfound]
    rfl
  rw [hrows, rows_clearOthers, List.map_map]
  refine List.map_congr_left fun q hq => ?_
  rw [Function.comp_apply, activated]
  by_cases hrow : IsRow providerId ownerId q
  · have hkept : ¬ (q.ownerId = ownerId ∧ q.providerId ≠ providerId ∧ q.providerId ∈
        ((s.list ownerId deviceId).filter Provider.isDefault).map Provider.providerId) :=
      fun hcond => hcond.2.1 hrow.1
    simp only [if_neg hkept, if_pos hrow]
  by_cases hlisted : q.ownerId = ownerId ∧ (deviceId = "" ∨ q.deviceId = deviceId)
  · have hne : q.providerId ≠ providerId := fun hid => hrow ⟨hid, hlisted.1⟩
    by_cases hdefault : q.isDefault = true
    · have hmem : q.providerId ∈
          ((s.list ownerId deviceId).filter Provider.isDefault).map Provider.providerId :=
        List.mem_map.mpr ⟨q, List.mem_filter.mpr ⟨mem_list.mpr ⟨hq, hlisted⟩, hdefault⟩, rfl⟩
      have hcleared : q.ownerId = ownerId ∧ q.providerId ≠ providerId ∧ q.providerId ∈
          ((s.list ownerId deviceId).filter Provider.isDefault).map Provider.providerId :=
        ⟨hlisted.1, hne, hmem⟩
      have hrow' : ¬ IsRow providerId ownerId (setDefault false q) := hrow
      simp only [if_pos hcleared, if_neg hrow', if_neg hrow, if_pos hlisted]
    · simp only [setDefault_false_of hdefault, ite_self, if_neg hrow]
  · have hkept : ¬ (q.ownerId = ownerId ∧ q.providerId ≠ providerId ∧ q.providerId ∈
        ((s.list ownerId deviceId).filter Provider.isDefault).map Provider.providerId) := by
      rintro ⟨howner, -, hmem⟩
      -- a listed provider of that id would be this one
      obtain ⟨other, hother, hid⟩ := List.mem_map.mp hmem
      obtain ⟨hin, hlist⟩ := mem_list.mp (List.mem_filter.mp hother).1
      rw [Table.eq_of_key hin hq hid] at hlist
      exact hlisted hlist
    rw [if_neg hkept, if_neg hrow, if_neg hrow, if_neg hlisted]

/-! ## Calls, migrations and a revoked device -/

def perform (env : ProviderEnv) (s : ProviderTable) :
    ProviderAction → Except ProviderError ProviderTable
  | .create providerId ownerId deviceId payload => do
    let ownerId ← env.owner ownerId
    let provider ← validateProviderPayload env.txt providerId ownerId deviceId payload
    s.create provider
  | .update providerId ownerId patch => do
    let ownerId ← env.owner ownerId
    s.changeRow providerId ownerId (applyPatch patch) fun _ => rfl
  | .recordModels providerId ownerId models error now => do
    let ownerId ← env.owner ownerId
    s.changeRow providerId ownerId (applyModels env.txt models error now) fun _ => rfl
  | .activate providerId ownerId deviceId => do
    let ownerId ← env.owner ownerId
    s.activateProvider providerId ownerId deviceId
  | .bind providerId ownerId deviceId => do
    let ownerId ← env.owner ownerId
    s.bindDevice providerId ownerId deviceId
  | .delete providerId ownerId => do
    let ownerId ← env.owner ownerId
    s.delete providerId ownerId
  | .migrateUnbound ownerId devices => do
    let ownerId ← env.owner ownerId
    .ok (s.migrateUnbound ownerId devices)
  | .migrateOrphaned ownerId devices deviceExists => do
    let ownerId ← env.owner ownerId
    .ok (s.migrateOrphaned ownerId devices deviceExists)
  | .revokeDevice ownerId deviceId devices => do
    let ownerId ← env.owner ownerId
    .ok (s.rebindRevoked ownerId deviceId devices)

/-- The providers under calls, migrations and revoked devices. -/
def Step (env : ProviderEnv) (s : ProviderTable) (action : ProviderAction) (t : ProviderTable) :
    Prop :=
  s.orSame (s.perform env action) = t

end ProviderTable

end ThreadForge

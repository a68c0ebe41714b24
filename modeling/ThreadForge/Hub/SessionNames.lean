import ThreadForge.Hub.SessionMerge
import ThreadForge.Pico.Protocol

/-!
# The name a user gives a session

A session is one file, and whoever changes it loads the whole record, changes some keys of the copy
and saves the copy. Nothing is locked in between and a record carries no version. A run of the
backend keeps its copy for as long as it lasts, and saves it after each step.

## Main results

* `SessionNames.keepsName_iff` — a name given by the user stays exactly when whoever saves the
  record after it loaded the record after it.
* `SessionNames.not_keepsName` — a run undoes a rename.
-/

namespace ThreadForge

open Transition Channel

/-! ## What the calls read of a session -/

section

variable (txt : PyText)

/-- `int(session.get("local_message_total", 0) or 0)`. -/
def localMessageTotal (session : PyDict) : Except PyError Int :=
  PyValue.toInt txt ((PyDict.getD session "local_message_total" (.int 0)).or (.int 0))

/-- `_has_started`. -/
def hasStarted (session : PyDict) : Except PyError Bool := do
  let total ← match localMessageTotal txt session with
    | .error .typeError | .error .valueError => .ok 0
    | total => total
  pure (pyStrip txt (PyDict.textOf txt session "first_request_at") ≠ "" ||
    (PyDict.getD session "history" .none).truthy || 0 < total)

/-- The `message_total` of `_summary`. -/
def summaryTotal (session : PyDict) : Except PyError Int :=
  if PyDict.getD session "execution_environment" .none = .str "local_worker" then
    localMessageTotal txt session
  else match PyDict.getD session "history" (.list []) with
    | .list items => .ok items.length
    | .dict entries => .ok entries.length
    | .str text => .ok text.length
    | _ => .error .typeError

/-- `_summary` does not raise. -/
def SummaryReturns (session : PyDict) : Prop :=
  (∃ started, hasStarted txt session = .ok started) ∧ ∃ total, summaryTotal txt session = .ok total

instance (session : PyDict) : Decidable (SummaryReturns txt session) :=
  decidable_of_iff ((hasStarted txt session).isOk ∧ (summaryTotal txt session).isOk) <| by
    unfold SummaryReturns
    cases hasStarted txt session <;> cases summaryTotal txt session <;>
      simp [Except.isOk, Except.toBool]

/-- `_automatic_title`. -/
def automaticTitle (requestText : String) : String :=
  let title := pyClip (collapseSpaces txt requestText) 200
  if title = "" then "新会话" else title

/-! ## What the calls save -/

/-- A session under the name a user has chosen. -/
def userNamed (title now : String) (session : PyDict) : PyDict :=
  (((session.set "title" (.str title)).set "display_name_source" (.str "user")).set
    "display_name_updated_at" (.str now)).set "updated_at" (.str now)

/-- The name has changed since `expected_updated_at`, where that is given. -/
def RenameConflict (expected : String) (session : PyDict) : Prop :=
  expected ≠ "" ∧ expected ≠ (PyDict.getD session "display_name_updated_at"
    (PyDict.getD session "created_at" (.str ""))).text txt

instance (expected : String) (session : PyDict) : Decidable (RenameConflict txt expected session) :=
  inferInstanceAs (Decidable (_ ∧ _))

/-- The session `initialize_from_first_request` saves. -/
def initialized (requestText now : String) (session : PyDict) : PyDict :=
  let named := if PyDict.getD session "display_name_source" (.str "auto") = .str "user" then session
    else ((session.set "title" (.str (automaticTitle txt requestText))).set
      "display_name_source" (.str "auto")).set "display_name_updated_at" (.str now)
  (named.set "first_request_at" (.str now)).set "updated_at" (.str now)

/-- What a summary changes in a session it finds. -/
def summaryChanges (store : DeviceStore) (device : Device) (summary : SessionSummary)
    (current : PyDict) : Except HubError PyDict :=
  if PyDict.getD current "owner_id" .none ≠ .str device.ownerId ∨
      PyDict.getD current "execution_environment" .none ≠ .str "local_worker" ∨
      PyDict.getD current "workspace_id" .none ≠ .str summary.workspaceId then
    protocolError "local session identity conflicts with control-plane data"
  else do
    let adopted ← adoption txt store device summary current
    pure ([("local_message_total", summary.messageTotal),
        ("local_updated_at", .str summary.updatedAt)]
      ++ adopted
      ++ (if summary.firstRequestAt = "" then []
          else [("first_request_at", .str summary.firstRequestAt)])
      ++ titleChanges txt summary current)

/-- `any(current.get(key) != value for key, value in changes.items())`. -/
def changesSession (current changes : PyDict) : Bool :=
  changes.any fun change => !pyEq (PyDict.getD current change.1 .none) change.2

/-- The session to save once its changes are known, if anything is new in it. -/
def changedSession (current changes : PyDict) : Option PyDict :=
  let current' := if changesSession current changes then updated current changes else current
  if changesSession current changes ∨ (scrubLocalSessionContent current').1 then
    some (scrubLocalSessionContent current').2
  else none

/-- The session `_merge_local_session_summary` saves, if it saves one. -/
def mergeSaved (store : DeviceStore) (device : Device) (summary : SessionSummary)
    (current : PyDict) : Option PyDict :=
  match summaryChanges txt store device summary current with
  | .error _ => none
  | .ok changes => changedSession current changes

end

/-! ## The calls -/

/-- Where a save ends. `SessionStore.save` can also fail after it has replaced the file. -/
inductive SaveOutcome
  | saved
  | failed
  | savedThenFailed
  deriving DecidableEq, Repr

/-- The calls that change the record of one session, with the owner ids in their canonical form.
`rename` is `SessionService.rename_session` with an `expected_updated_at` of `""` for `None`, and
`firstRequest` is the part of `create_task` that has to do with the session; the device and the
device store of a `merge` are as it finds them. -/
inductive SessionCall
  | rename (ownerId displayName expected : String)
  | workerRename (request : PendingRequest) (displayName : String)
  | firstRequest (ownerId requestText : String)
  | count (task : Task) (messageTotal : PyValue) (persisted : Bool)
  | merge (store : DeviceStore) (device : Device) (summary : SessionSummary)

namespace SessionCall

variable (txt : PyText)

/-- What the call saves, from the record it loaded; `none` for one that raises or has nothing to
save. -/
def saved (now : String) : SessionCall → Option PyDict → Option PyDict
  | .rename ownerId displayName expected, some session =>
    let name := pyStrip txt displayName
    if name = "" ∨ 200 < name.length ∨ PyDict.getD session "owner_id" .none ≠ .str ownerId ∨
        RenameConflict txt expected session then none
    else some (userNamed name now session)
  | .workerRename request displayName, some session =>
    (renamedSession request displayName now session).toOption.map Prod.snd
  | .firstRequest ownerId requestText, some session =>
    if PyDict.getD session "owner_id" .none ≠ .str ownerId then none
    else match hasStarted txt session with
      | .ok false => some (initialized txt requestText now session)
      | _ => none
  | .count task messageTotal persisted, some session =>
    (countedSession task messageTotal persisted now session).toOption.map Prod.snd
  | .merge store device summary, some session => mergeSaved txt store device summary session
  | .merge _ device summary, none => some (createdSession device summary now)
  | _, none => none

/-- The name the call has given the session, once it has saved it and returns success. -/
def renames (outcome : SaveOutcome) : SessionCall → Option PyDict → Option String
  | .rename _ displayName _, some session =>
    if outcome = .saved ∧ SummaryReturns txt session then some (pyStrip txt displayName) else none
  | .workerRename _ displayName, some _ =>
    if outcome = .saved then some (pyClip displayName 200) else none
  | _, _ => none

/-- The session `create_task` goes on with. -/
def handed (now : String) (outcome : SaveOutcome) : SessionCall → Option PyDict → Option PyDict
  | .firstRequest ownerId requestText, some session =>
    if PyDict.getD session "owner_id" .none ≠ .str ownerId then none
    else match hasStarted txt session with
      | .ok true => some session
      | .ok false =>
        if outcome = .saved then some (initialized txt requestText now session) else none
      | .error _ => none
  | _, _ => none

end SessionCall

/-! ## The record of a session -/

namespace SessionNames

/-- Where a call stands. A run of the backend holds the session its task was created with. -/
inductive Phase
  | idle
  | holding (copy : Option PyDict)
  | running (copy : PyDict)
  | finished
  deriving DecidableEq

/-- The record on disk, where the calls stand, and the name of the last rename that returned
success. -/
structure State (ι : Type*) where
  record : Option PyDict
  phase : ι → Phase
  renamed : Option String

/-- A call loads, and saves with the clock at `now`; a run saves its copy after it has changed some
of its own keys. A call can give up, and a run end, at any time. -/
inductive Action (ι : Type*)
  | load (i : ι)
  | save (i : ι) (now : String) (outcome : SaveOutcome)
  | runSave (i : ι) (changes : PyDict) (outcome : SaveOutcome)
  | giveUp (i : ι)

/-- The keys of a session that Pico writes. -/
def picoKeys : List String :=
  ["history", "memory", "checkpoints", "runtime_identity", "resume_state"]

/-- What is on disk after a save. -/
def stored (record : Option PyDict) (outcome : SaveOutcome) (session : Option PyDict) :
    Option PyDict :=
  if outcome = .failed then record else session.or record

/-- A session handed to a task starts a run, unless a Worker runs it. -/
def handedOver : Option PyDict → Phase
  | some session =>
    if PyDict.getD session "execution_environment" (.str "backend_process")
        = .str "local_worker" then
      .finished
    else .running session
  | none => .finished

section Machine

variable {ι : Type*} [DecidableEq ι] (txt : PyText) (calls : ι → SessionCall)

/-- The state after a call has saved. -/
def afterSave (s : State ι) (i : ι) (copy : Option PyDict) (now : String) (outcome : SaveOutcome) :
    State ι :=
  let session := (calls i).saved txt now copy
  { record := stored s.record outcome session
    phase := Function.update s.phase i (handedOver ((calls i).handed txt now outcome copy))
    renamed := ((calls i).renames txt outcome session).or s.renamed }

/-- The state after an action, where it can be taken. -/
def next (s : State ι) : Action ι → Option (State ι)
  | .load i =>
    match s.phase i with
    | .idle => some { s with phase := Function.update s.phase i (.holding s.record) }
    | _ => none
  | .save i now outcome =>
    match s.phase i with
    | .holding copy => some (afterSave txt calls s i copy now outcome)
    | _ => none
  | .runSave i changes outcome =>
    match s.phase i with
    | .running copy =>
      if ∀ change ∈ changes, change.1 ∈ picoKeys then
        some { s with
          record := stored s.record outcome (some (updated copy changes))
          phase := Function.update s.phase i (.running (updated copy changes)) }
      else none
    | _ => none
  | .giveUp i => some { s with phase := Function.update s.phase i .finished }

/-- Before any of the calls. -/
def initial (record : Option PyDict) : State ι where
  record := record
  phase _ := .idle
  renamed := none

def Step (s : State ι) (a : Action ι) (t : State ι) : Prop := next txt calls s a = some t

end Machine

/-! ## Bearing a name -/

/-- The title of the session is the one the user gave it. -/
def Bears (title : String) (session : PyDict) : Prop :=
  session.get? "title" = some (.str title) ∧
    session.get? "display_name_source" = some (.str "user")

/-- The source of the name reads as the user. -/
def NamedByUser (txt : PyText) (session : PyDict) : Prop :=
  (PyDict.getD session "display_name_source" (.str "auto")).text txt = "user"

instance (txt : PyText) (session : PyDict) : Decidable (NamedByUser txt session) :=
  inferInstanceAs (Decidable (_ = _))

/-- The session still has the name of the last rename. -/
def KeepsName {ι : Type*} (s : State ι) : Prop :=
  ∀ title, s.renamed = some title → ∃ session, s.record = some session ∧ Bears title session

end SessionNames

namespace SessionCall

open SessionNames

variable (txt : PyText)

/-- The call saves something, from this record. -/
def Saves : SessionCall → Option PyDict → Prop
  | .rename ownerId displayName expected, some session =>
    pyStrip txt displayName ≠ "" ∧ (pyStrip txt displayName).length ≤ 200 ∧
      PyDict.getD session "owner_id" .none = .str ownerId ∧ ¬RenameConflict txt expected session
  | .workerRename request _, some session =>
    PyDict.getD session "owner_id" .none = .str request.ownerId ∧
      PyDict.getD session "device_id" .none = .str request.deviceId
  | .firstRequest ownerId _, some session =>
    PyDict.getD session "owner_id" .none = .str ownerId ∧ hasStarted txt session = .ok false
  | .count task _ _, some session =>
    PyDict.getD session "owner_id" .none = .str task.ownerId ∧
      PyDict.getD session "workspace_id" .none = .str task.workspaceId ∧
      PyDict.getD session "device_id" .none = .str task.deviceId
  | .merge store device summary, some session =>
    ∃ changes, summaryChanges txt store device summary session = .ok changes ∧
      (changesSession session changes = true ∨ (scrubLocalSessionContent session).1 = true)
  | .merge .., none => True
  | _, none => False

/-- The title of the session a summary creates. -/
def createdTitle (summary : SessionSummary) : String :=
  if summary.title = "" then
    "Session " ++ pyDrop summary.sessionId (summary.sessionId.length - 8)
  else summary.title

/-- A save of this call leaves the session the name `title`, or gives it one of the user. -/
def Spares (title : String) (outcome : SaveOutcome) : SessionCall → Option PyDict → Prop
  | .rename _ displayName _, some session =>
    (outcome = .saved ∧ SummaryReturns txt session) ∨ pyStrip txt displayName = title
  | .workerRename _ displayName, _ => outcome = .saved ∨ pyClip displayName 200 = title
  | .merge _ _ summary, some session =>
    if NamedByUser txt session then Bears title session
    else summary.title = title ∧ summary.displayNameUpdatedAt ≠ "" ∧
      summary.displayNameSource = "user"
  | .merge _ _ summary, none => createdTitle summary = title ∧ summary.displayNameSource = "user"
  | _, some session => Bears title session
  | _, none => True

end SessionCall

namespace SessionNames

/-- The actions that leave the session the name of the last rename: what a call or a run saves over
it, it loaded under that name. -/
def SparesName {ι : Type*} (txt : PyText) (calls : ι → SessionCall) (s : State ι) :
    Action ι → Prop
  | .save i _ outcome => ∀ title copy, s.renamed = some title → s.phase i = .holding copy →
    outcome ≠ .failed → (calls i).Saves txt copy → (calls i).Spares txt title outcome copy
  | .runSave i _ outcome => ∀ title copy, s.renamed = some title → s.phase i = .running copy →
    outcome ≠ .failed → Bears title copy
  | .load _ | .giveUp _ => True

end SessionNames

namespace SessionNames

/-! ## What each change does to the name -/

/-- The two sessions agree on the title and on who chose it. -/
structure SameName (a b : PyDict) : Prop where
  title : b.get? "title" = a.get? "title"
  source : b.get? "display_name_source" = a.get? "display_name_source"

variable {a b c session : PyDict} {title name now key : String}

theorem SameName.trans (h : SameName a b) (h' : SameName b c) : SameName a c :=
  ⟨h'.title.trans h.title, h'.source.trans h.source⟩

theorem SameName.set {value : PyValue} (htitle : "title" ≠ key)
    (hsource : "display_name_source" ≠ key) : SameName a (PyDict.set a key value) := by
  refine ⟨?_, ?_⟩
  · rw [PyDict.get?_set, if_neg htitle]
  · rw [PyDict.get?_set, if_neg hsource]

theorem SameName.popKey (htitle : "title" ≠ key) (hsource : "display_name_source" ≠ key) :
    SameName a (popKey a key) :=
  ⟨get?_popKey a htitle, get?_popKey a hsource⟩

theorem SameName.bears_iff (h : SameName a b) : Bears title b ↔ Bears title a := by
  unfold Bears
  rw [h.title, h.source]

theorem sameName_scrub (session : PyDict) :
    SameName session (scrubLocalSessionContent session).2 := by
  have hset : SameName session
      ((session.set "history" (.list [])).set "memory" defaultMemoryState) :=
    (SameName.set (by decide) (by decide)).trans (.set (by decide) (by decide))
  refine hset.trans ?_
  exact ((SameName.popKey (by decide) (by decide)).trans
    (.popKey (by decide) (by decide))).trans (.popKey (by decide) (by decide))

theorem sameName_updated {changes : PyDict} (htitle : ∀ change ∈ changes, change.1 ≠ "title")
    (hsource : ∀ change ∈ changes, change.1 ≠ "display_name_source") :
    SameName session (updated session changes) :=
  ⟨get?_updated_of_not_mem htitle, get?_updated_of_not_mem hsource⟩

/-- Pico changes no key that has to do with the name. -/
theorem sameName_pico {changes : PyDict} (h : ∀ change ∈ changes, change.1 ∈ picoKeys) :
    SameName session (updated session changes) := by
  refine sameName_updated (fun change hmem hkey => ?_) fun change hmem hkey => ?_
  · exact absurd (hkey ▸ h change hmem) (by decide)
  · exact absurd (hkey ▸ h change hmem) (by decide)

theorem bears_userNamed : Bears title (userNamed name now session) ↔ name = title := by
  simp [Bears, userNamed]

variable {txt : PyText}

theorem summaryReturns_userNamed :
    SummaryReturns txt (userNamed name now session) ↔ SummaryReturns txt session := by
  have hsame : ∀ key, key ≠ "title" → key ≠ "display_name_source" →
      key ≠ "display_name_updated_at" → key ≠ "updated_at" →
      PyDict.get? (userNamed name now session) key = PyDict.get? session key := by
    intro key h₁ h₂ h₃ h₄
    simp [userNamed, h₁, h₂, h₃, h₄]
  have hgetD : ∀ key value, key ≠ "title" → key ≠ "display_name_source" →
      key ≠ "display_name_updated_at" → key ≠ "updated_at" →
      PyDict.getD (userNamed name now session) key value = PyDict.getD session key value := by
    intro key value h₁ h₂ h₃ h₄
    rw [PyDict.getD, PyDict.getD, hsame key h₁ h₂ h₃ h₄]
  unfold SummaryReturns hasStarted summaryTotal localMessageTotal PyDict.textOf
  rw [hgetD "local_message_total" _ (by decide) (by decide) (by decide) (by decide),
    hgetD "first_request_at" _ (by decide) (by decide) (by decide) (by decide),
    hgetD "history" _ (by decide) (by decide) (by decide) (by decide),
    hgetD "history" _ (by decide) (by decide) (by decide) (by decide),
    hgetD "execution_environment" _ (by decide) (by decide) (by decide) (by decide)]

/-- The first request takes a name that is not the user's, and leaves one that is. -/
theorem bears_initialized {requestText : String} :
    Bears title (initialized txt requestText now session) ↔ Bears title session := by
  have hstamps : ∀ named : PyDict, SameName named
      ((named.set "first_request_at" (.str now)).set "updated_at" (.str now)) := fun named =>
    (SameName.set (by decide) (by decide)).trans (.set (by decide) (by decide))
  unfold initialized
  rw [(hstamps _).bears_iff]
  split
  · rfl
  · next hauto =>
    refine iff_of_false (fun hbears => ?_) fun hbears => hauto ?_
    · simp [Bears] at hbears
    · rw [PyDict.getD, hbears.2, Option.getD_some]

/-! ### A summary of a Worker -/

variable {store : DeviceStore} {device : Device} {summary : SessionSummary}
  {current changes : PyDict}

/-- The changes of a summary that have to do with the name are those of `titleChanges`. -/
theorem mem_titleChanges (h : summaryChanges txt store device summary current = .ok changes)
    {change : String × PyValue} (hmem : change ∈ changes)
    (hkey : change.1 = "title" ∨ change.1 = "display_name_source") :
    change ∈ titleChanges txt summary current := by
  unfold summaryChanges at h
  split at h
  · cases h
  obtain ⟨adopted, hadopted, h⟩ := Except.bind_eq_ok h
  rw [← Except.ok.inj h] at hmem
  simp only [List.mem_append] at hmem
  rcases hmem with ((hmem | hmem) | hmem) | hmem
  · simp only [List.mem_cons, List.not_mem_nil, or_false] at hmem
    rcases hmem with rfl | rfl <;> simp at hkey
  · rcases adoption_keys hadopted hmem with rfl | hroot
    · simp at hkey
    · simp [hroot] at hkey
  · split at hmem
    · cases hmem
    · rw [List.mem_singleton] at hmem
      subst hmem
      simp at hkey
  · exact hmem

theorem titleChanges_subset (h : summaryChanges txt store device summary current = .ok changes)
    {change : String × PyValue} (hmem : change ∈ titleChanges txt summary current) :
    change ∈ changes := by
  unfold summaryChanges at h
  split at h
  · cases h
  obtain ⟨adopted, -, h⟩ := Except.bind_eq_ok h
  rw [← Except.ok.inj h]
  exact List.mem_append_right _ hmem

theorem Bears.namedByUser (h : Bears title session) : NamedByUser txt session := by
  rw [NamedByUser, PyDict.getD, h.2]
  rfl

/-- **A name of the user is not touched by a summary.** -/
theorem sameName_summary (h : summaryChanges txt store device summary current = .ok changes)
    (huser : NamedByUser txt current) : SameName current (updated current changes) := by
  have hnone : titleChanges txt summary current = [] := if_pos huser
  refine sameName_updated (fun change hmem hkey => ?_) fun change hmem hkey => ?_
  · have hin := mem_titleChanges h hmem (Or.inl hkey)
    rw [hnone] at hin
    cases hin
  · have hin := mem_titleChanges h hmem (Or.inr hkey)
    rw [hnone] at hin
    cases hin

variable (summary) in
theorem titleChanges_of_not_named (huser : ¬NamedByUser txt current) :
    titleChanges txt summary current = ("title", .str summary.title) ::
      (if summary.displayNameUpdatedAt = "" then []
        else [("display_name_source", .str summary.displayNameSource),
          ("display_name_updated_at", .str summary.displayNameUpdatedAt)]) :=
  if_neg huser

/-- Any other name is replaced by that of the summary. -/
theorem bears_summary_iff (h : summaryChanges txt store device summary current = .ok changes)
    (huser : ¬NamedByUser txt current) :
    Bears title (updated current changes) ↔ summary.title = title ∧
      summary.displayNameUpdatedAt ≠ "" ∧ summary.displayNameSource = "user" := by
  have hchanges := titleChanges_of_not_named summary huser
  have htitle : (updated current changes).get? "title" = some (.str summary.title) := by
    refine get?_updated_of_mem (fun change hmem hkey => ?_)
      (titleChanges_subset h (hchanges ▸ List.mem_cons_self))
    have hin := mem_titleChanges h hmem (Or.inl hkey)
    rw [hchanges, List.mem_cons] at hin
    rcases hin with rfl | hin
    · rfl
    · split at hin
      · cases hin
      · simp only [List.mem_cons, List.not_mem_nil, or_false] at hin
        rcases hin with rfl | rfl <;> simp at hkey
  unfold Bears
  rw [htitle, Option.some.injEq, PyValue.str.injEq]
  refine and_congr_right fun _ => ?_
  by_cases hdated : summary.displayNameUpdatedAt = ""
  · -- without a date the source stays, and it is not the user
    rw [if_pos hdated] at hchanges
    rw [get?_updated_of_not_mem fun change hmem hkey => by
      have hin := mem_titleChanges h hmem (Or.inr hkey)
      rw [hchanges, List.mem_singleton] at hin
      subst hin
      simp at hkey]
    refine iff_of_false (fun hsource => huser ?_) fun hboth => hboth.1 hdated
    rw [NamedByUser, PyDict.getD, hsource]
    rfl
  · rw [if_neg hdated] at hchanges
    have hsource : (updated current changes).get? "display_name_source"
        = some (.str summary.displayNameSource) := by
      refine get?_updated_of_mem (fun change hmem hkey => ?_) (titleChanges_subset h
        (hchanges ▸ List.mem_cons_of_mem _ List.mem_cons_self))
      have hin := mem_titleChanges h hmem (Or.inr hkey)
      rw [hchanges] at hin
      simp only [List.mem_cons, List.not_mem_nil, or_false] at hin
      rcases hin with rfl | rfl | rfl
      · simp at hkey
      · rfl
      · simp at hkey
    rw [hsource, Option.some.injEq, PyValue.str.injEq]
    exact ⟨fun huser => ⟨hdated, huser⟩, fun hboth => hboth.2⟩

/-- A summary that names the user is a change to a session the user has not named. -/
theorem changesSession_of_named (h : summaryChanges txt store device summary current = .ok changes)
    (huser : ¬NamedByUser txt current) (hdated : summary.displayNameUpdatedAt ≠ "")
    (hsource : summary.displayNameSource = "user") : changesSession current changes = true := by
  have hmem : ("display_name_source", .str "user") ∈ titleChanges txt summary current := by
    rw [titleChanges_of_not_named summary huser, if_neg hdated, hsource]
    exact List.mem_cons_of_mem _ List.mem_cons_self
  refine List.any_eq_true.mpr ⟨_, titleChanges_subset h hmem, ?_⟩
  rw [Bool.not_eq_true', Bool.eq_false_iff]
  intro heq
  refine huser ?_
  rw [NamedByUser, PyDict.getD, PyDict.getD_none_eq_str.mp (eq_of_pyEq_str heq)]
  rfl

theorem changedSession_eq (h : changedSession current changes = some session) :
    session = (scrubLocalSessionContent
      (if changesSession current changes then updated current changes else current)).2 := by
  simp only [changedSession] at h
  by_cases hnew : changesSession current changes = true ∨ (scrubLocalSessionContent
      (if changesSession current changes then updated current changes else current)).1 = true
  · rw [if_pos hnew] at h
    exact (Option.some.inj h).symm
  · rw [if_neg hnew] at h
    cases h

theorem bears_mergeSaved (h : mergeSaved txt store device summary current = some session) :
    Bears title session ↔ if NamedByUser txt current then Bears title current
      else summary.title = title ∧ summary.displayNameUpdatedAt ≠ "" ∧
        summary.displayNameSource = "user" := by
  unfold mergeSaved at h
  split at h
  · cases h
  next changes hchanges =>
  rw [changedSession_eq h, (sameName_scrub _).bears_iff]
  by_cases huser : NamedByUser txt current
  · rw [if_pos huser]
    split
    · exact (sameName_summary hchanges huser).bears_iff
    · rfl
  · rw [if_neg huser]
    split
    · exact bears_summary_iff hchanges huser
    · next hsame =>
      refine iff_of_false (fun hbears => huser hbears.namedByUser) fun hnamed => hsame ?_
      exact changesSession_of_named hchanges huser hnamed.2.1 hnamed.2.2

theorem exists_changedSession_iff :
    (∃ session, changedSession current changes = some session) ↔
      changesSession current changes = true ∨ (scrubLocalSessionContent current).1 = true := by
  simp only [changedSession]
  by_cases hnew : changesSession current changes = true
  · rw [if_pos (Or.inl hnew)]
    exact iff_of_true ⟨_, rfl⟩ (Or.inl hnew)
  · rw [if_neg hnew]
    by_cases hscrub : (scrubLocalSessionContent current).1 = true
    · rw [if_pos (Or.inr hscrub)]
      exact iff_of_true ⟨_, rfl⟩ (Or.inr hscrub)
    · rw [if_neg (not_or.mpr ⟨hnew, hscrub⟩)]
      exact iff_of_false (fun h => by cases h.choose_spec) (not_or.mpr ⟨hnew, hscrub⟩)

theorem exists_mergeSaved_iff :
    (∃ session, mergeSaved txt store device summary current = some session) ↔
      ∃ changes, summaryChanges txt store device summary current = .ok changes ∧
        (changesSession current changes = true ∨ (scrubLocalSessionContent current).1 = true) := by
  unfold mergeSaved
  cases summaryChanges txt store device summary current with
  | error e => simp
  | ok changes =>
    simp only [exists_changedSession_iff]
    constructor
    · exact fun h => ⟨changes, rfl, h⟩
    · rintro ⟨other, hother, h⟩
      rw [Except.ok.inj hother]
      exact h

/-! ## What each call does to the name -/

variable {call : SessionCall} {copy : Option PyDict} {outcome : SaveOutcome}

theorem exists_saved_iff :
    (∃ session, call.saved txt now copy = some session) ↔ call.Saves txt copy := by
  cases copy with
  | none =>
    cases call with
    | merge store device summary => exact iff_of_true ⟨_, rfl⟩ trivial
    | _ => simp [SessionCall.saved, SessionCall.Saves]
  | some session =>
    cases call with
    | rename ownerId displayName expected =>
      unfold SessionCall.saved SessionCall.Saves
      dsimp only
      split
      · next hrefused =>
        refine iff_of_false (fun h => by cases h.choose_spec) ?_
        rintro ⟨hname, hlength, howner, hconflict⟩
        rcases hrefused with h | h | h | h
        · exact hname h
        · omega
        · exact h howner
        · exact hconflict h
      · next haccepted =>
        simp only [not_or, not_lt, not_not] at haccepted
        exact iff_of_true ⟨_, rfl⟩ haccepted
    | workerRename request displayName =>
      unfold SessionCall.saved SessionCall.Saves renamedSession
      dsimp only
      split
      · next hrefused => simpa [Except.toOption, protocolError, imp_iff_not_or] using hrefused
      · next haccepted => simpa [Except.toOption] using haccepted
    | firstRequest ownerId requestText =>
      unfold SessionCall.saved SessionCall.Saves
      dsimp only
      split
      · next howner => simp [howner]
      · next howner =>
        rw [not_not] at howner
        cases hasStarted txt session with
        | error e => simp
        | ok started => cases started <;> simp [howner]
    | count task messageTotal persisted =>
      unfold SessionCall.saved SessionCall.Saves countedSession
      dsimp only
      split
      · next hrefused => simpa [Except.toOption, protocolError, imp_iff_not_or] using hrefused
      · next haccepted => simpa [Except.toOption] using haccepted
    | merge store device summary => exact exists_mergeSaved_iff

/-- What `rename_session` saves. -/
theorem saved_rename {ownerId displayName expected : String}
    (h : (SessionCall.rename ownerId displayName expected).saved txt now copy = some session) :
    ∃ current, copy = some current ∧ session = userNamed (pyStrip txt displayName) now current := by
  cases copy with
  | none => cases h
  | some current =>
    unfold SessionCall.saved at h
    dsimp only at h
    split at h
    · cases h
    · exact ⟨current, rfl, (Option.some.inj h).symm⟩

/-- What `_handle_rename_completed` saves. -/
theorem saved_workerRename {request : PendingRequest} {displayName : String}
    (h : (SessionCall.workerRename request displayName).saved txt now copy = some session) :
    ∃ current, session = userNamed (pyClip displayName 200) now current := by
  cases copy with
  | none => cases h
  | some current =>
    unfold SessionCall.saved renamedSession at h
    dsimp only at h
    split at h
    · cases h
    · exact ⟨current, (Option.some.inj h).symm⟩

/-- What `_update_local_session_count` saves. -/
theorem saved_count {task : Task} {messageTotal : PyValue} {persisted : Bool}
    (h : (SessionCall.count task messageTotal persisted).saved txt now copy = some session) :
    ∃ current, copy = some current ∧ SameName current session := by
  cases copy with
  | none => cases h
  | some current =>
    unfold SessionCall.saved countedSession at h
    dsimp only at h
    split at h
    · cases h
    refine ⟨current, rfl, ?_⟩
    have hcounted : SameName current
        ((current.set "local_message_total" messageTotal).set "updated_at" (.str now)) :=
      (SameName.set (by decide) (by decide)).trans (.set (by decide) (by decide))
    simp only [Except.toOption, Option.map_some, Option.some.injEq] at h
    rw [← h]
    split
    · exact hcounted.trans (sameName_scrub _)
    · exact hcounted

/-- What `initialize_from_first_request` saves. -/
theorem saved_firstRequest {ownerId requestText : String}
    (h : (SessionCall.firstRequest ownerId requestText).saved txt now copy = some session) :
    ∃ current, copy = some current ∧ session = initialized txt requestText now current := by
  cases copy with
  | none => cases h
  | some current =>
    unfold SessionCall.saved at h
    dsimp only at h
    split at h
    · cases h
    split at h
    · exact ⟨current, rfl, (Option.some.inj h).symm⟩
    · cases h

variable (title) in
/-- A rename that returns success gives its name, whatever was there. -/
theorem bears_of_renames (h : call.saved txt now copy = some session)
    (hname : call.renames txt outcome (some session) = some name) :
    Bears name session ∧ call.Spares txt title outcome copy := by
  cases call with
  | rename ownerId displayName expected =>
    obtain ⟨current, rfl, rfl⟩ := saved_rename h
    unfold SessionCall.renames at hname
    dsimp only at hname
    split at hname
    · next hreturns =>
      rw [← Option.some.inj hname]
      rw [summaryReturns_userNamed] at hreturns
      exact ⟨bears_userNamed.mpr rfl, Or.inl hreturns⟩
    · cases hname
  | workerRename request displayName =>
    obtain ⟨current, rfl⟩ := saved_workerRename h
    unfold SessionCall.renames at hname
    dsimp only at hname
    split at hname
    · next hsaved =>
      rw [← Option.some.inj hname]
      exact ⟨bears_userNamed.mpr rfl, Or.inl hsaved⟩
    · cases hname
  | _ => cases hname

/-- **Every other save spares a name or takes it.** -/
theorem bears_saved_iff (h : call.saved txt now copy = some session)
    (hname : call.renames txt outcome (some session) = none) :
    Bears title session ↔ call.Spares txt title outcome copy := by
  cases call with
  | rename ownerId displayName expected =>
    obtain ⟨current, rfl, rfl⟩ := saved_rename h
    unfold SessionCall.renames at hname
    dsimp only at hname
    split at hname
    · cases hname
    · next hraised =>
      rw [summaryReturns_userNamed] at hraised
      rw [bears_userNamed]
      exact (or_iff_right hraised).symm
  | workerRename request displayName =>
    obtain ⟨current, rfl⟩ := saved_workerRename h
    unfold SessionCall.renames at hname
    dsimp only at hname
    split at hname
    · cases hname
    · next hraised =>
      rw [bears_userNamed]
      exact (or_iff_right hraised).symm
  | firstRequest ownerId requestText =>
    obtain ⟨current, rfl, rfl⟩ := saved_firstRequest h
    exact bears_initialized
  | count task messageTotal persisted =>
    obtain ⟨current, rfl, hsame⟩ := saved_count h
    exact hsame.bears_iff
  | merge store device summary =>
    cases copy with
    | some current => exact bears_mergeSaved h
    | none =>
      rw [← Option.some.inj h]
      show some (PyValue.str (SessionCall.createdTitle summary)) = some (.str title) ∧
        some (PyValue.str summary.displayNameSource) = some (.str "user") ↔ _
      rw [Option.some.injEq, Option.some.injEq, PyValue.str.injEq, PyValue.str.injEq]
      rfl

/-! ## Which actions keep the name -/

variable {ι : Type*} [DecidableEq ι] {calls : ι → SessionCall} {s t : State ι} {i : ι}

theorem keepsName_afterSave_iff (hs : KeepsName s) (hphase : s.phase i = .holding copy) :
    KeepsName (afterSave txt calls s i copy now outcome) ↔
      SparesName txt calls s (.save i now outcome) := by
  have hguard : SparesName txt calls s (.save i now outcome) ↔ ∀ title, s.renamed = some title →
      outcome ≠ .failed → (calls i).Saves txt copy → (calls i).Spares txt title outcome copy := by
    constructor
    · intro h title htitle
      exact h title copy htitle hphase
    · intro h title other htitle hother
      rw [hphase, Phase.holding.injEq] at hother
      exact hother ▸ h title htitle
  rw [hguard]
  cases hsaved : (calls i).saved txt now copy with
  | none =>
    have hnot : ¬(calls i).Saves txt copy := fun h => by
      obtain ⟨session, hsession⟩ := exists_saved_iff.mpr h
      rw [hsession] at hsaved
      cases hsaved
    have hrenamed : (calls i).renames txt outcome none = none := by cases calls i <;> rfl
    have hsame : KeepsName (afterSave txt calls s i copy now outcome) := by
      intro title htitle
      simp only [afterSave, hsaved, hrenamed, Option.none_or, stored, ite_self] at htitle ⊢
      exact hs title htitle
    exact iff_of_true hsame fun _ _ _ h => absurd h hnot
  | some session =>
    have hsaves : (calls i).Saves txt copy := exists_saved_iff.mp ⟨session, hsaved⟩
    by_cases hfailed : outcome = .failed
    · -- nothing has changed on disk, and nobody was told of a rename
      have hrenamed : (calls i).renames txt outcome (some session) = none := by
        rw [hfailed]
        cases calls i <;> rfl
      have hsame : KeepsName (afterSave txt calls s i copy now outcome) := by
        intro title htitle
        simp only [afterSave, hsaved, hrenamed, Option.none_or, stored, if_pos hfailed] at htitle ⊢
        exact hs title htitle
      exact iff_of_true hsame fun _ _ h => absurd hfailed h
    · have hrecord : (afterSave txt calls s i copy now outcome).record = some session := by
        simp only [afterSave, hsaved, stored, if_neg hfailed, Option.some_or]
      cases hrenamed : (calls i).renames txt outcome (some session) with
      | some name =>
        refine iff_of_true (fun title htitle => ⟨session, hrecord, ?_⟩)
          fun title _ _ _ => (bears_of_renames title hsaved hrenamed).2
        simp only [afterSave, hsaved, hrenamed, Option.some_or, Option.some.injEq] at htitle
        rw [← htitle]
        exact (bears_of_renames name hsaved hrenamed).1
      | none =>
        have hkept : (afterSave txt calls s i copy now outcome).renamed = s.renamed := by
          simp only [afterSave, hsaved, hrenamed, Option.none_or]
        unfold KeepsName
        rw [hkept, hrecord]
        constructor
        · intro h title htitle _ _
          obtain ⟨other, hother, hbears⟩ := h title htitle
          rw [← Option.some.inj hother] at hbears
          exact (bears_saved_iff hsaved hrenamed).mp hbears
        · intro h title htitle
          exact ⟨session, rfl,
            (bears_saved_iff hsaved hrenamed).mpr (h title htitle hfailed hsaves)⟩

omit [DecidableEq ι] in
theorem keepsName_runSave_iff {changes : PyDict} {session : PyDict} (hs : KeepsName s)
    (hphase : s.phase i = .running session) (hpico : ∀ change ∈ changes, change.1 ∈ picoKeys)
    (ht : t.record = stored s.record outcome (some (updated session changes)))
    (hrenamed : t.renamed = s.renamed) :
    KeepsName t ↔ SparesName txt calls s (.runSave i changes outcome) := by
  have hbears : ∀ title, Bears title (updated session changes) ↔ Bears title session :=
    fun title => (sameName_pico hpico).bears_iff
  unfold KeepsName
  rw [ht, hrenamed]
  by_cases hfailed : outcome = .failed
  · rw [stored, if_pos hfailed]
    exact iff_of_true hs fun _ _ _ _ h => absurd hfailed h
  · rw [stored, if_neg hfailed, Option.some_or]
    constructor
    · intro h title other htitle hother _
      obtain ⟨saved, hsaved, hname⟩ := h title htitle
      rw [hphase, Phase.running.injEq] at hother
      rw [← Option.some.inj hsaved, hbears, hother] at hname
      exact hname
    · intro h title htitle
      exact ⟨_, rfl, (hbears title).mpr (h title session htitle hphase hfailed)⟩

/-- **The steps that keep the name.** -/
theorem keepsName_step_iff {a : Action ι} (hs : KeepsName s) (hstep : Step txt calls s a t) :
    KeepsName t ↔ SparesName txt calls s a := by
  unfold Step at hstep
  cases a with
  | load i =>
    simp only [next] at hstep
    split at hstep
    · rw [← Option.some.inj hstep]
      exact iff_of_true hs trivial
    · cases hstep
  | save i now outcome =>
    simp only [next] at hstep
    split at hstep
    · next copy hphase =>
      rw [← Option.some.inj hstep]
      exact keepsName_afterSave_iff hs hphase
    · cases hstep
  | runSave i changes outcome =>
    simp only [next] at hstep
    split at hstep
    · next session hphase =>
      split at hstep
      · next hpico =>
        rw [← Option.some.inj hstep]
        exact keepsName_runSave_iff hs hphase hpico rfl rfl
      · cases hstep
    · cases hstep
  | giveUp i =>
    rw [← Option.some.inj hstep]
    exact iff_of_true hs trivial

/-! ## Whole runs -/

/-- **When the name of a rename stays.** In a run of the calls the session has the name of the last
rename after every action exactly when each call, and each run of the backend, that saves the
session after a rename holds a copy with that name, gives it a name of the user, or saves
nothing. -/
theorem keepsName_iff (txt : PyText) (calls : ι → SessionCall) (record : Option PyDict)
    {ms : List (Move (State ι) (Action ι))}
    (hrun : Run (Step txt calls) (initial record) ms t) :
    (∀ m ∈ ms, KeepsName m.post) ↔ ∀ m ∈ ms, SparesName txt calls m.pre m.act :=
  hrun.forall_moves_iff (fun _ => True) KeepsName (SparesName txt calls)
    (fun m => KeepsName m.post) (fun _ _ _ _ _ => trivial)
    (fun _ _ _ _ hs hstep => keepsName_step_iff hs hstep)
    (fun _ _ _ _ hs hstep hspares => (keepsName_step_iff hs hstep).mpr hspares)
    trivial (fun _ h => by cases h)

/-- A session with a message in it, under a name it got by itself. -/
def startedSession : PyDict :=
  [("id", .str "s"), ("owner_id", .str "u"), ("title", .str "List the files"),
    ("display_name_source", .str "auto"), ("history", .list [.dict [("role", .str "user")]])]

/-- A task is created in the session, and the user renames it. -/
def taskAndRename : Bool → SessionCall
  | false => .firstRequest "u" "now delete them"
  | true => .rename "u" "Cleanup" ""

/-- The run that has loaded the session saves it after the rename. -/
def overtakenRename : List (Action Bool) :=
  [.load false, .save false "t" .saved, .load true, .save true "t" .saved, .runSave false [] .saved]

def overtakenMoves : List (Move (State Bool) (Action Bool)) :=
  movesOf (next .ascii taskAndRename) (initial (some startedSession)) overtakenRename

theorem overtakenRename_run : ∃ t, Run (Step .ascii taskAndRename)
    (initial (some startedSession)) overtakenMoves t := by
  have hsome : (execute (next .ascii taskAndRename) (initial (some startedSession))
      overtakenRename).isSome = true := by decide +kernel
  obtain ⟨t, ht⟩ := Option.isSome_iff_exists.mp hsome
  exact ⟨t, Run.of_execute (fun _ _ _ h => h) ht⟩

theorem overtakenRename_lost : ¬∀ m ∈ overtakenMoves, KeepsName m.post := by
  have hlost : ∃ m ∈ overtakenMoves, m.post.renamed = some "Cleanup" ∧
      m.post.record.bind (fun session => PyDict.get? session "title")
        = some (.str "List the files") := by decide +kernel
  obtain ⟨m, hm, hrenamed, htitle⟩ := hlost
  intro hall
  obtain ⟨session, hsession, hbears⟩ := hall m hm "Cleanup" hrenamed
  rw [hsession, Option.bind_some, hbears.1, Option.some.injEq, PyValue.str.injEq] at htitle
  exact absurd htitle (by decide)

/-- The run has stored what it loaded before the rename. -/
theorem overtakenRename_spares :
    ¬∀ m ∈ overtakenMoves, SparesName .ascii taskAndRename m.pre m.act := by
  obtain ⟨t, hrun⟩ := overtakenRename_run
  exact fun hspares =>
    overtakenRename_lost ((keepsName_iff .ascii taskAndRename _ hrun).mpr hspares)

/-- **A run undoes a rename.** -/
theorem not_keepsName : ¬∀ (txt : PyText) (calls : Bool → SessionCall) (record : Option PyDict)
    (ms : List (Move (State Bool) (Action Bool))) (t : State Bool),
    Run (Step txt calls) (initial record) ms t → ∀ m ∈ ms, KeepsName m.post := by
  intro hclaim
  obtain ⟨t, hrun⟩ := overtakenRename_run
  exact overtakenRename_lost (hclaim _ _ _ _ _ hrun)

end SessionNames

end ThreadForge

import ThreadForge.Hub.SessionNames

/-!
# Creating a task

`TaskService.create_task`: the session is loaded and, where it has not started, initialised from the
request and saved. Only then the Provider is chosen and the Worker, or the runner of the backend, is
asked whether it takes the task. A refusal leaves the session as it was saved.

## What is a parameter

What the other services answer: the session files, the Provider service, the hub, the device store
and the runner, where a save ends, and which of the calls after the record was created raise. The
ids in a session are strings.

## Main results

* `exists_refusal_iff` — which requests are refused.
* `refused_traceless_iff` — when a refused task leaves no trace.
-/

namespace ThreadForge

open Eff

/-- The exceptions of `create_task`; those of other services by their names. -/
inductive CreateError
  | invalidOwner
  | sessionNotFound (sessionId : String)
  | inputTooLong (limit : Nat)
  | persistenceUnavailable (message : String)
  | providerNotConfigured (message : String)
  | workerOffline (message : String)
  | workspaceNotFound (workspaceId : String)
  | modelNotConfigured (message : String)
  | modelCapabilityUnavailable (message : String)
  | workerCapabilityUnavailable (message : String)
  | authorizationDenied (message : String)
  | runnerUnavailable (message : String)
  | activeTaskExists (taskId : String)
  | python (error : PyError)
  | service (name : String)
  deriving DecidableEq, Repr

/-- The Provider service, for an owner and a device. -/
structure ProviderService where
  listProviders : String → String → Except CreateError (List PyDict)
  getProvider : String → String → Except CreateError PyDict
  activeProvider : String → String → Except CreateError (Option PyDict)

/-- What a call meets. The runner is asked twice, the second time under its lock. -/
structure TaskServices where
  txt : PyText
  canonicalOwnerId : String → Option String
  validSessionId : String → Bool
  inputMaxChars : Nat
  identityMode : String
  modelConfigured : Bool
  providerModel : String
  now : String
  now_solid : pyStrip txt now ≠ ""
  taskId : String
  runId : String
  loadSession : Option CreateError
  saveSession : SaveOutcome
  providers : Option ProviderService
  online : Option (String → Bool)
  device : String → String → Except CreateError Device
  runnerAvailable : Bool
  runnerStillAvailable : Bool
  activeTask : Option String
  createRecord : SaveOutcome
  publishQueued : Option CreateError
  startRun : Option CreateError
  recordFailure : Option CreateError

/-- The arguments. -/
structure TaskRequest where
  sessionId : String
  inputText : String
  maxSteps : Int
  ownerId : String
  modelId : Option String := none
  reasoningEffort : String := "none"
  permissionMode : String := "default"
  providerId : Option String := none
  reviewProviderId : Option String := none
  reviewModelId : Option String := none
  reviewReasoningEffort : String := "none"

/-- What the call can change. -/
structure TaskRecords where
  sessions : SessionStore
  tasks : List Task
  events : List (String × String)

section Source

variable (w : TaskServices) (request : TaskRequest)

/-! ## The request -/

/-- A write that ends in one of three ways. -/
def saving (outcome : SaveOutcome) (write : Eff TaskRecords CreateError Unit)
    (error : CreateError) :
    Eff TaskRecords CreateError Unit :=
  match outcome with
  | .saved => write
  | .failed => raise error
  | .savedThenFailed => do
    write
    raise error

/-- `load_raw`, after the checks of the arguments. -/
def openSession (sessions : SessionStore) : Except CreateError (String × PyDict) :=
  match w.canonicalOwnerId request.ownerId with
  | none => .error .invalidOwner
  | some ownerId =>
    if w.validSessionId request.sessionId = false then .error (.sessionNotFound request.sessionId)
    else if w.inputMaxChars < request.inputText.length then .error (.inputTooLong w.inputMaxChars)
    else match w.loadSession, sessions.records request.sessionId with
      | some e, _ => .error e
      | none, none => .error (.sessionNotFound request.sessionId)
      | none, some session =>
        if PyDict.getD session "owner_id" .none ≠ .str ownerId then
          .error (.sessionNotFound request.sessionId)
        else .ok (ownerId, session)

/-- `initialize_from_first_request`. -/
def initializeFromFirstRequest (session : PyDict) (requestText : String) :
    Eff TaskRecords CreateError PyDict :=
  match hasStarted w.txt session with
  | .error e => raise (.python e)
  | .ok true => pure session
  | .ok false => do
    let session := initialized w.txt requestText w.now session
    saving w.saveSession
      (modify fun records => { records with sessions := records.sessions.save session })
      (.persistenceUnavailable "session storage unavailable")
    pure session

/-! ## Admission -/

/-- A text, or another one where it is empty. -/
def orText (text other : String) : String := if text = "" then other else text

/-- The model that is asked for. -/
def requestedModel : String := pyStrip w.txt (request.modelId.getD "")

/-- The reasoning effort that is asked for. -/
def requestedEffort : String := w.txt.lower (pyStrip w.txt (orText request.reasoningEffort "none"))

/-- The Provider of a run on a Worker, with what the service raises. -/
def chosenProvider (service : ProviderService) (ownerId deviceId : String) :
    Except CreateError (Option PyDict) := do
  let providers ← service.listProviders ownerId deviceId
  let requested := pyStrip w.txt (request.providerId.getD "")
  if requested ≠ "" then
    if requested ∉ providers.map fun item => PyDict.textOf w.txt item "provider_id" then
      .error (.providerNotConfigured requested)
    else (service.getProvider requested ownerId).map some
  else
    match ← service.activeProvider ownerId deviceId, providers with
    | some provider, _ => .ok (some provider)
    | none, [] => .ok none
    | none, [provider] => .ok (some provider)
    | none, _ => .error (.providerNotConfigured
        "multiple Providers are configured for this Worker; select a default Provider")

/-- The members of a value, as `set` and `for` take them. -/
def membersOf : PyValue → Except PyError (List PyValue)
  | .list items => .ok items
  | .dict entries => .ok (entries.map fun entry => .str entry.1)
  | .str text => .ok (text.toList.map fun c => .str c.toString)
  | _ => .error .typeError

/-- `set` of a value: lists and dictionaries have no hash. -/
def setOf (value : PyValue) : Except PyError (List PyValue) := do
  let items ← membersOf value
  if items.any fun | .list _ | .dict _ => true | _ => false then .error .typeError else .ok items

/-- The models of a Worker with their reasoning efforts, the last of a name last. -/
def modelsOf (device : Device) : Except PyError (List (String × List PyValue)) := do
  let items ← membersOf (device.modelCapabilities.getD "models" (.list []))
  let models ← (items.filterMap fun
    | .dict item => some item
    | _ => none).mapM fun item => do
      pure (PyDict.textOf w.txt item "id",
        ← setOf (PyDict.getD item "reasoning_efforts" (.list [])))
  pure (if models.isEmpty then [(device.model, [.str "none"])] else models)

/-- What was chosen for a task. -/
structure Admission where
  providerId : String
  model : String
  effort : String
  deriving DecidableEq, Repr

/-- The Provider and the checks of a Worker. -/
def admitWorker (ownerId workspaceId deviceId : String) : Except CreateError Admission := do
  let provider ← match w.providers with
    | none => .ok none
    | some service => chosenProvider w request service ownerId deviceId
  let model := match provider with
    | none => requestedModel w request
    | some provider => orText (requestedModel w request) (PyDict.textOf w.txt provider "model")
  if ¬(w.online.any fun online => online deviceId) then
    .error (.workerOffline "the selected local Worker is offline")
  else do
    let device ← w.device deviceId ownerId
    if ¬(device.workspaces.any fun workspace => workspace.workspaceId = workspaceId) then
      .error (.workspaceNotFound workspaceId)
    else if device.modelConfigured = false then
      .error (.modelNotConfigured "the selected local Worker has no model configuration")
    else do
      let model := orText model device.model
      let models ← match modelsOf w device with
        | .ok models => .ok models
        | .error e => .error (.python e)
      if (models.reverse.lookup model).any fun efforts =>
          efforts.any fun effort => effort = .str (requestedEffort w request) then
        .ok ⟨(provider.map fun provider => PyDict.textOf w.txt provider "provider_id").getD "",
          model,
          requestedEffort w request⟩
      else .error (.modelCapabilityUnavailable
        "the selected model or reasoning effort is unavailable on this Worker")

/-- The checks of the backend, before the lock is taken. -/
def admitBackend : Except CreateError Admission :=
  if w.identityMode = "github_oauth" then
    .error (.authorizationDenied "server-side workspaces are disabled in multi-user mode")
  else if w.runnerAvailable = false then .error (.runnerUnavailable "runner is unavailable")
  else if w.modelConfigured = false then
    .error (.modelNotConfigured "model configuration is incomplete")
  else
    let model := orText (requestedModel w request) w.providerModel
    if model ≠ w.providerModel ∨ requestedEffort w request ≠ "none" then
      .error (.workerCapabilityUnavailable
        "server-side execution does not advertise the selected model settings")
    else .ok ⟨"", model, requestedEffort w request⟩

/-- The checks of the backend under the lock of the runner. -/
def admitLocked : Except CreateError Unit :=
  if w.runnerStillAvailable = false then .error (.runnerUnavailable "runner is unavailable")
  else match w.activeTask with
    | some taskId => .error (.activeTaskExists taskId)
    | none => .ok ()

/-- The session is one of a local Worker. -/
def onWorker (session : PyDict) : Prop :=
  PyDict.getD session "execution_environment" (.str "backend_process") = .str "local_worker"

instance (session : PyDict) : Decidable (onWorker session) := inferInstanceAs (Decidable (_ = _))

/-- All that is checked of a session before a record is created. -/
def admitTask (ownerId : String) (session : PyDict) : Except CreateError Admission :=
  if onWorker session then
    admitWorker w request ownerId (PyDict.textOf w.txt session "workspace_id")
      (PyDict.textOf w.txt session "device_id")
  else do
    let admission ← admitBackend w request
    admitLocked w
    pure admission

/-! ## The record -/

/-- The task of a request. -/
def taskOf (ownerId : String) (session : PyDict) (admission : Admission) : Task where
  taskId := w.taskId
  sessionId := request.sessionId
  workspaceId := PyDict.textOf w.txt session "workspace_id"
  ownerId := ownerId
  runId := w.runId
  input := if onWorker session then "" else pyStrip w.txt request.inputText
  maxSteps := request.maxSteps
  permissionMode := pyStrip w.txt (orText request.permissionMode "default")
  executionEnvironment :=
    (PyDict.getD session "execution_environment" (.str "backend_process")).text w.txt
  deviceId := PyDict.textOf w.txt session "device_id"
  modelId := admission.model
  reasoningEffort := admission.effort
  providerId := admission.providerId
  reviewProviderId := pyStrip w.txt (request.reviewProviderId.getD "")
  reviewModelId := pyStrip w.txt (request.reviewModelId.getD "")
  reviewReasoningEffort :=
    orText (w.txt.lower (pyStrip w.txt (orText request.reviewReasoningEffort "none"))) "none"
  createdAt := w.now
  updatedAt := w.now

/-- A call that raises or returns. -/
def mayRaise (fault : Option CreateError) : Eff TaskRecords CreateError Unit :=
  match fault with
  | none => pure ()
  | some e => raise e

/-- `publish`. -/
def publish (type : String) : Eff TaskRecords CreateError Unit :=
  modify fun records => { records with events := records.events ++ [(w.taskId, type)] }

/-- `update` with `_terminal`. -/
def failRecord (stopReason : String) : Eff TaskRecords CreateError Unit :=
  modify fun records => { records with
    tasks := records.tasks.map fun task =>
      if task.taskId = w.taskId then { task with status := .failed, stopReason := some stopReason }
      else task }

/-- A run that does not start: on a Worker the exception goes on, and the backend raises its own. -/
def runNotStarted (session : PyDict) (error : CreateError) : Eff TaskRecords CreateError Unit :=
  if onWorker session then do
    mayRaise w.recordFailure
    failRecord w "worker_unavailable"
    publish w "task.failed"
    raise error
  else do
    -- what fails here is kept from the caller
    tryExcept (do
        mayRaise w.recordFailure
        failRecord w "task_runner_unavailable"
        publish w "task.failed") (fun _ => true) fun _ => pure ()
    raise (.runnerUnavailable "runner unavailable")

/-- The record, its first event and the start of the run. -/
def startTask (session : PyDict) (task : Task) : Eff TaskRecords CreateError Task := do
  saving w.createRecord (modify fun records => { records with tasks := records.tasks ++ [task] })
    (.service "task_repo")
  mayRaise w.publishQueued
  publish w "task.queued"
  tryExcept (mayRaise w.startRun) (fun _ => true) (runNotStarted w session)
  pure task

/-- `create_task`. -/
def createTask : Eff TaskRecords CreateError Task := do
  let records ← get
  let (ownerId, session) ← ofExcept (openSession w request records.sessions)
  let session ← initializeFromFirstRequest w session (pyStrip w.txt request.inputText)
  -- the session is saved by now, whatever these checks say
  let admission ← ofExcept (admitTask w request ownerId session)
  startTask w session (taskOf w request ownerId session admission)

/-! ## Traces -/

/-- A call that raises and creates no record leaves the sessions and the events as they were. -/
def Traceless (records : TaskRecords) : Prop :=
  ∀ e after, (createTask w request).run records = (.error e, after) → after.tasks = records.tasks →
    after.sessions = records.sessions ∧ after.events = records.events

/-- The session is initialised, and the task is refused after that. -/
def RefusedLate (sessions : SessionStore) : Prop :=
  ∃ ownerId session, openSession w request sessions = .ok (ownerId, session) ∧
    hasStarted w.txt session = .ok false ∧
    (w.saveSession = .savedThenFailed ∨ w.saveSession = .saved ∧
      ((∃ e, admitTask w request ownerId
          (initialized w.txt (pyStrip w.txt request.inputText) w.now session) = .error e) ∨
        w.createRecord = .failed))

end Source

variable {w : TaskServices} {request : TaskRequest} {records after : TaskRecords}
  {ownerId requestText : String} {session : PyDict} {e : CreateError}

/-! ### The start of a task -/

/-- A record that was added is not lost when the run does not start. -/
def recordsKept : RunLaw TaskRecords CreateError where
  holds before _ after := after.tasks.length = before.tasks.length
  refl _ := rfl
  trans h h' := h'.trans h

theorem keeps_mayRaise (fault : Option CreateError) : Keeps recordsKept (mayRaise fault) := by
  cases fault with
  | none => exact .pure ()
  | some e => exact .raise fun _ => rfl

theorem keeps_publish (w : TaskServices) (type : String) : Keeps recordsKept (publish w type) :=
  .modify fun _ => rfl

theorem keeps_failRecord (w : TaskServices) (stopReason : String) :
    Keeps recordsKept (failRecord w stopReason) :=
  .modify fun _ => List.length_map _

theorem keeps_runNotStarted (w : TaskServices) (session : PyDict) (error : CreateError) :
    Keeps recordsKept (runNotStarted w session error) := by
  have hfailed : ∀ reason, Keeps recordsKept (do
      mayRaise w.recordFailure
      failRecord w reason
      publish w "task.failed") := fun reason =>
    .bind (keeps_mayRaise _) fun _ => .bind (keeps_failRecord w reason) fun _ => keeps_publish w _
  unfold runNotStarted
  refine .ite ?_ (.bind (.tryExcept (hfailed _) (fun _ _ _ _ h => h) fun _ _ => .pure ()) fun _ =>
    .raise fun _ => rfl)
  exact .bind (keeps_mayRaise _) fun _ => .bind (keeps_failRecord w _) fun _ =>
    .bind (keeps_publish w _) fun _ => .raise fun _ => rfl

/-- A start that leaves no record has done nothing. -/
theorem startTask_without_record {task : Task} :
    ((startTask w session task).run records).2.tasks = records.tasks ↔
      w.createRecord = .failed := by
  have hrest : Keeps recordsKept (do
      mayRaise w.publishQueued
      publish w "task.queued"
      tryExcept (mayRaise w.startRun) (fun _ => true) (runNotStarted w session)
      pure task) :=
    .bind (keeps_mayRaise _) fun _ => .bind (keeps_publish w _) fun _ =>
      .bind (.tryExcept (keeps_mayRaise _) (fun _ _ _ _ h => h) fun e _ =>
        keeps_runNotStarted w session e)
        fun _ => .pure task
  have hadded : ∀ {tasks : List Task}, tasks.length = (records.tasks ++ [task]).length →
      tasks ≠ records.tasks := by
    intro tasks hlength htasks
    rw [htasks, List.length_append] at hlength
    simp at hlength
  unfold startTask
  cases houtcome : w.createRecord with
  | failed => exact iff_of_true rfl rfl
  | saved => exact iff_of_false (hadded (hrest _)) (by simp)
  | savedThenFailed => exact iff_of_false (hadded rfl) (by simp)

theorem startTask_failed {task : Task} (h : w.createRecord = .failed) :
    (startTask w session task).run records = (.error (.service "task_repo"), records) := by
  unfold startTask
  rw [h]
  rfl

/-! ### The session -/

theorem openSession_ok {sessions : SessionStore}
    (h : openSession w request sessions = .ok (ownerId, session)) :
    sessions.records request.sessionId = some session := by
  unfold openSession at h
  split at h
  · cases h
  split at h
  · cases h
  split at h
  · cases h
  split at h
  · cases h
  · cases h
  · next hfound =>
    split at h
    · cases h
    · cases h
      exact hfound

theorem get?_id_initialized :
    (initialized w.txt requestText w.now session).get? "id" = session.get? "id" := by
  unfold initialized
  split <;> simp

theorem firstRequestAt_initialized :
    PyDict.textOf w.txt (initialized w.txt requestText w.now session) "first_request_at" =
      w.now := by
  simp [initialized, PyDict.textOf, PyDict.getD, PyValue.text]

theorem firstRequestAt_of_not_started (h : hasStarted w.txt session = .ok false) :
    pyStrip w.txt (PyDict.textOf w.txt session "first_request_at") = "" := by
  unfold hasStarted at h
  rcases htotal : localMessageTotal w.txt session with error | total
  · rw [htotal] at h
    cases error with
    | typeError | valueError =>
      have hparts := Except.ok.inj h
      simp only [Bool.or_eq_false_iff] at hparts
      simpa using hparts.1.1
    | _ => cases h
  · rw [htotal] at h
    have hparts := Except.ok.inj h
    simp only [Bool.or_eq_false_iff] at hparts
    simpa using hparts.1.1

/-- The session that is saved is a new one: its first request has a time. -/
theorem save_initialized_ne {sessions : SessionStore}
    (hopen : openSession w request sessions = .ok (ownerId, session))
    (hstarted : hasStarted w.txt session = .ok false) :
    sessions.save (initialized w.txt requestText w.now session) ≠ sessions := by
  intro heq
  have hrecord := openSession_ok hopen
  have hname : sessionName (initialized w.txt requestText w.now session) =
      some request.sessionId :=
    sessionName_eq_some.mpr (get?_id_initialized.trans (sessions.keyed _ _ hrecord))
  have hsaved : (sessions.save (initialized w.txt requestText w.now session)).records
      request.sessionId = some (initialized w.txt requestText w.now session) := if_pos hname
  rw [heq, hrecord] at hsaved
  have hblank := firstRequestAt_of_not_started hstarted
  rw [Option.some.inj hsaved, firstRequestAt_initialized] at hblank
  exact w.now_solid hblank

/-! ### The call -/

/-- A call goes through `load_raw`, the first request, the checks and the start. -/
theorem createTask_run_of_open
    (hopen : openSession w request records.sessions = .ok (ownerId, session)) :
    (createTask w request).run records =
      (do
        let session ← initializeFromFirstRequest w session (pyStrip w.txt request.inputText)
        let admission ← ofExcept (admitTask w request ownerId session)
        startTask w session (taskOf w request ownerId session admission)).run records := by
  unfold createTask
  rw [run_get_bind, run_bind_ok (a := (ownerId, session)) (t := records)]
  rw [run_ofExcept, hopen]

/-- What follows the first request leaves the sessions, and without a record the events too. -/
theorem admitted_traceless
    (h : (do
      let admission ← ofExcept (admitTask w request ownerId session)
      startTask w session (taskOf w request ownerId session admission)).run records =
        (.error e, after)) (htasks : after.tasks = records.tasks) : after = records := by
  cases hadmitted : admitTask w request ownerId session with
  | error e' =>
    rw [hadmitted, run_bind_error (run_ofExcept _ _)] at h
    exact (Prod.mk.inj h).2.symm
  | ok admission =>
    rw [hadmitted, run_bind_ok (run_ofExcept _ _)] at h
    have hfailed : w.createRecord = .failed := by
      rw [← startTask_without_record, h]
      exact htasks
    rw [startTask_failed hfailed] at h
    exact (Prod.mk.inj h).2.symm

/-- What follows the first request ends without a record exactly if a check fails or the record
cannot be written. -/
theorem exists_refusal_iff :
    (∃ e after, (do
      let admission ← ofExcept (admitTask w request ownerId session)
      startTask w session (taskOf w request ownerId session admission)).run records =
        (.error e, after) ∧ after.tasks = records.tasks) ↔
      (∃ e, admitTask w request ownerId session = .error e) ∨ w.createRecord = .failed := by
  cases hadmitted : admitTask w request ownerId session with
  | error e =>
    rw [run_bind_error (run_ofExcept _ _)]
    exact iff_of_true ⟨e, records, rfl, rfl⟩ (Or.inl ⟨e, rfl⟩)
  | ok admission =>
    rw [run_bind_ok (run_ofExcept _ _)]
    constructor
    · rintro ⟨e, after, hrun, htasks⟩
      refine Or.inr ?_
      rw [← startTask_without_record, hrun]
      exact htasks
    · rintro (⟨e, herror⟩ | hfailed)
      · cases herror
      · exact ⟨_, records, startTask_failed hfailed, rfl⟩

/-- **A refused task leaves no trace exactly if its session is not initialised before.** -/
theorem refused_traceless_iff (w : TaskServices) (request : TaskRequest) (records : TaskRecords) :
    Traceless w request records ↔ ¬RefusedLate w request records.sessions := by
  cases hopen : openSession w request records.sessions with
  | error e =>
    refine iff_of_true (fun e' after hrun _ => ?_)
      fun ⟨_, _, hok, _⟩ => by rw [hopen] at hok; cases hok
    have hraised : (createTask w request).run records = (.error e, records) := by
      unfold createTask
      rw [run_get_bind, hopen, run_bind_error (run_ofExcept _ _)]
    rw [hraised] at hrun
    cases hrun
    exact ⟨rfl, rfl⟩
  | ok opened =>
    obtain ⟨ownerId, session⟩ := opened
    -- what makes the refusal late, for the session that was opened
    have hlate : RefusedLate w request records.sessions ↔ hasStarted w.txt session = .ok false ∧
        (w.saveSession = .savedThenFailed ∨ w.saveSession = .saved ∧
          ((∃ e, admitTask w request ownerId
              (initialized w.txt (pyStrip w.txt request.inputText) w.now session) = .error e) ∨
            w.createRecord = .failed)) := by
      unfold RefusedLate
      rw [hopen]
      constructor
      · rintro ⟨_, _, hok, h⟩
        cases hok
        exact h
      · intro h
        exact ⟨ownerId, session, rfl, h⟩
    rw [hlate]
    unfold Traceless
    rw [createTask_run_of_open hopen]
    unfold initializeFromFirstRequest
    cases hstarted : hasStarted w.txt session with
    | error e =>
      refine iff_of_true (fun e' after hrun _ => ?_) (by simp)
      cases hrun
      exact ⟨rfl, rfl⟩
    | ok started =>
      cases started with
      | true =>
        refine iff_of_true (fun e' after hrun htasks => ?_) (by simp)
        rw [admitted_traceless hrun htasks]
        exact ⟨rfl, rfl⟩
      | false =>
        have hne := @save_initialized_ne w request ownerId (pyStrip w.txt request.inputText) session
          records.sessions hopen hstarted
        cases houtcome : w.saveSession with
        | failed =>
          refine iff_of_true (fun e' after hrun _ => ?_) (by simp)
          cases hrun
          exact ⟨rfl, rfl⟩
        | savedThenFailed =>
          refine iff_of_false (fun htraceless => ?_) (by simp)
          exact hne (htraceless _ _ rfl rfl).1
        | saved =>
          have hrefusal := @exists_refusal_iff w request
            { records with sessions := (records.sessions.save
              (initialized w.txt (pyStrip w.txt request.inputText) w.now session)) } ownerId
            (initialized w.txt (pyStrip w.txt request.inputText) w.now session)
          simp only [true_and, reduceCtorEq, false_or]
          rw [← hrefusal]
          constructor
          · rintro htraceless ⟨e', after, hrun, htasks⟩
            have hsessions := (htraceless e' after hrun htasks).1
            rw [admitted_traceless hrun htasks] at hsessions
            exact hne hsessions
          · intro hno e' after hrun htasks
            exact absurd ⟨e', after, hrun, htasks⟩ hno

/-- A hub that no Worker is connected to. -/
def offlineServices : TaskServices where
  txt := .ascii
  canonicalOwnerId := some
  validSessionId _ := true
  inputMaxChars := 20000
  identityMode := "single_user"
  modelConfigured := true
  providerModel := "model"
  now := "2026-01-02T00:00:00Z"
  now_solid := by decide
  taskId := "task_1"
  runId := "run_1"
  loadSession := none
  saveSession := .saved
  providers := none
  online := none
  device _ _ := .error (.service "device_store")
  runnerAvailable := true
  runnerStillAvailable := true
  activeTask := none
  createRecord := .saved
  publishQueued := none
  startRun := none
  recordFailure := none

/-- A session of a Worker in which nothing was asked yet. -/
def unstartedSession : PyDict :=
  [("id", .str "ses_1"), ("owner_id", .str "owner"), ("title", .str "新会话"),
    ("execution_environment", .str "local_worker"), ("device_id", .str "device"),
    ("updated_at", .str "2026-01-01T00:00:00Z")]

def unstartedRecords : TaskRecords where
  sessions := {
    records sessionId := if sessionId = "ses_1" then some unstartedSession else none
    keyed sessionId session h := by
      split at h
      · next hid =>
        rw [← Option.some.inj h, hid]
        rfl
      · cases h }
  tasks := []
  events := []

/-- The task is refused because the Worker is offline, and the session has a new name and a first
request. -/
theorem offline_task_starts_session :
    let request : TaskRequest :=
      { sessionId := "ses_1", inputText := "hello", maxSteps := 6, ownerId := "owner" }
    ((createTask offlineServices request).run unstartedRecords).1 =
        .error (.workerOffline "the selected local Worker is offline") ∧
      ((createTask offlineServices request).run unstartedRecords).2.tasks = [] ∧
      (((createTask offlineServices request).run unstartedRecords).2.sessions.records "ses_1").map
          (fun session => (PyDict.textOf .ascii session "title",
            PyDict.textOf .ascii session "first_request_at")) =
        some ("hello", "2026-01-02T00:00:00Z") ∧
      ¬Traceless offlineServices request unstartedRecords := by
  intro request
  have hsession : (((createTask offlineServices request).run unstartedRecords).2.sessions.records
      "ses_1").map (fun session => (PyDict.textOf .ascii session "title",
        PyDict.textOf .ascii session "first_request_at")) =
      some ("hello", "2026-01-02T00:00:00Z") := by decide +kernel
  have htasks : ((createTask offlineServices request).run unstartedRecords).2.tasks = [] := by
    decide +kernel
  have hraised : ((createTask offlineServices request).run unstartedRecords).1 =
      .error (.workerOffline "the selected local Worker is offline") := by decide +kernel
  refine ⟨hraised, htasks, hsession, fun htraceless => ?_⟩
  rw [(htraceless _ _ (Prod.ext hraised rfl) htasks).1] at hsession
  exact absurd hsession (by decide +kernel)

end ThreadForge

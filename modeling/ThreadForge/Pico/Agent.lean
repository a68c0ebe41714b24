import ThreadForge.Lib.Effects
import ThreadForge.Pico.Approval
import ThreadForge.Pico.Batch
import ThreadForge.Pico.Protocol
import ThreadForge.Pico.TaskState

/-!
# The agent and what surrounds it

`runtime.py`: the parts of `Pico` that the loop runs on. A computation of the agent reads and changes
an `AgentState`, and ends by returning or by a `Failure`.

## What is a parameter

`AgentEnv` holds how the agent was set up, and everything it calls: the model, the storage and the
hooks (`service`), the memory, the prompt and the checkpoints (`layer`), the process that runs a
shell command, the clock, the cancellation token and the order in which threads run. They keep a
state of their own in `World.rest`, and may answer anything.

## The log

The log is no data of the program. It records which runners were started and on which route, and
the values that reach the places where the code can raise (`Site`); the properties of runs are
stated with it.
-/

namespace ThreadForge

/-! ## Failures -/

/-- An exception of code outside, with what `run_native` reads off it. -/
structure OutsideError where
  typeName : String
  message : String := ""
  code : String := ""
  modelError : Bool := false
  stage : String := "runtime"
  retryable : Bool := false
  attempts : Nat := 1
  deriving DecidableEq, Repr

/-- How a call to the outside fails. -/
inductive Trouble
  | cancelled
  | error (err : OutsideError)
  deriving DecidableEq, Repr

/-- How a computation of the agent fails: `RunCancelled`, `ProcessCleanupFailed`, an exception the
code raises itself, or one from outside. -/
inductive Failure
  | cancelled
  | cleanupFailed
  | raised (exc : PyExc)
  | outside (err : OutsideError)
  deriving DecidableEq, Repr

/-- `except Exception` after `except (ProcessCleanupFailed, RunCancelled): raise`. -/
def Failure.isError : Failure → Bool
  | .raised _ | .outside _ => true
  | _ => false

/-- `except RunCancelled: raise`, then `except Exception`. -/
def Failure.isNotCancelled : Failure → Bool
  | .cancelled => false
  | _ => true

/-! ## The outside -/

/-- The files, and the state of everything else. -/
structure World (X : Type) where
  files : FileTree
  rest : X

/-- A call to the outside. -/
abbrev Outer (X A : Type) := World X → Except Trouble A × World X

/-- The storage, the event sink, the progress callback and the hooks. -/
inductive Service
  | startRun
  | writeTaskState
  | writeReport
  | saveSession
  | trace (event : String)
  | progress (message : String)
  | beforeModel
  | afterModel
  | toolRequested
  | beforeTool
  | afterTool
  | commentary (text : String)
  | protocolRetrying
  | discardAnswer
  deriving DecidableEq, Repr

/-- A hook that may observe a cancellation. -/
def Service.observesCancel : Service → Bool
  | .beforeModel | .afterModel | .toolRequested | .beforeTool | .afterTool | .commentary _
  | .protocolRetrying => true
  | _ => false

/-- The calls to the memory and to the checkpoints. -/
inductive Layer
  | taskSummary (text : String)
  | note (text : String)
  | toolMemory (name : PyValue) (args : PyDict) (content : String)
  | checkpoint (trigger : String)
  | promoteDurable (userMessage finalAnswer : String)
  deriving Repr

/-- What a call of the model is for. -/
inductive Purpose
  | execute (finalizationOnly : Bool)
  | planning
  | review
  | summary
  deriving DecidableEq, Repr

/-- What the model returned, with the usage of the call. -/
structure Completion where
  reply : PyValue
  inputTokens : Nat := 0
  outputTokens : Nat := 0

/-- What `_build_prompt_and_metadata` returns. -/
structure BuiltPrompt where
  text : String
  resumeStatus : String := "no-checkpoint"
  budgetReductions : Bool := false

/-- What a finished shell process leaves. -/
structure ShellResult where
  returncode : Int
  stdout : String
  stderr : String
  timedOut : Bool := false
  outputTruncated : Bool := false
  cancelled : Bool := false
  cleanupSucceeded : Bool := true
  deriving DecidableEq, Repr

/-- One entry of the session history. -/
inductive HistoryItem
  | tool (name : PyValue) (args : PyDict) (content : String)
  | message (role content : String)
  deriving Repr

/-- How an agent is set up, and what it calls. -/
structure AgentEnv (X : Type) where
  files : FileEnv
  loads : JsonLoads
  digest : List UInt8 → String
  exceptionName : PyExc → String
  upper : String → String
  readOnly : Bool
  allowedTools : Option (List String)
  strategy : ApprovalStrategy
  planning : Bool
  reviewSubagent : Bool
  memory : Bool
  allowCheckpoint : Bool
  allowDurableMemoryWrite : Bool
  maxElapsedSeconds : Nat
  maxTotalTokens : Nat
  secretNames : List String
  secretValues : List String
  service : Service → TaskState → Outer X Unit
  layer : Layer → TaskState → Outer X Unit
  buildPrompt : TaskState → List HistoryItem → String → Outer X BuiltPrompt
  memoryText : Outer X String
  historyText : List HistoryItem → Outer X String
  complete : Purpose → String → Outer X Completion
  cancelled : World X → Bool × World X
  elapsedSeconds : World X → Nat × World X
  ask : ApprovalRequest → Outer X ApprovalOutcome
  shell : String → Nat → Outer X ShellResult
  oracle : World X → SearchOracle × World X
  schedule : World X → List Nat × World X

/-- The tables of CPython. -/
abbrev AgentEnv.txt {X : Type} (env : AgentEnv X) : PyText := env.files.txt

/-- The agent refuses every risky tool: it is read-only, or its strategy is the one of the policies
`never` and `plan`. -/
def AgentEnv.refusing {X : Type} (env : AgentEnv X) : Bool :=
  env.readOnly || env.strategy = .never

/-! ## The log -/

/-- Who asked for a tool: the model, the checklist or the review. -/
inductive Route
  | main
  | checklist
  | review
  deriving DecidableEq, Repr

/-- A value at a place where the code can raise. -/
inductive Site
  | reply (raw : PyValue)
  | call (name : PyValue) (args : PyDict) (window : List WindowEntry)
  | batch (calls : List BatchCall)
  | result (name : PyValue) (succeeded : Bool) (content : String)
  | rebuttal (batchSeen : Bool)
  | layer

/-- One entry of the log. -/
inductive Event
  | started (route : Route) (tool : ToolName)
  | cleanupFailed (route : Route)
  | reviewReply (raw : PyValue)
  | site (site : Site)

/-! ## The state -/

/-- The status and the stop reason of one `run_finished` event, or of `report.json`. -/
structure RunFinished where
  status : String
  stopReason : String
  deriving DecidableEq, Repr

/-- The state of the agent. `task` is `current_task_state`, which is there once `hasTask` holds;
`taskFile` and `report` are what was last stored. -/
structure AgentState (X : Type) where
  world : World X
  task : TaskState
  hasTask : Bool := false
  history : List HistoryItem := []
  taskFile : Option TaskState := none
  report : Option RunFinished := none
  finished : List RunFinished := []
  log : List Event := []

/-- A computation of the agent. -/
abbrev AgentM (X : Type) := Eff (AgentState X) Failure

namespace AgentM

variable {X A : Type} (env : AgentEnv X)

/-! ## Primitive steps -/

/-- A call to the outside. -/
def outer (f : Outer X A) : AgentM X A where
  run s := match f s.world with
    | (.ok a, w) => (.ok a, { s with world := w })
    | (.error .cancelled, w) => (.error .cancelled, { s with world := w })
    | (.error (.error err), w) => (.error (.outside err), { s with world := w })

/-- A question to the outside that is always answered. -/
def observe (f : World X → A × World X) : AgentM X A where
  run s := (.ok (f s.world).1, { s with world := (f s.world).2 })

/-- An entry of the log. -/
def note (event : Event) : AgentM X Unit := Eff.modify fun s => { s with log := s.log ++ [event] }

/-- A change of the task state. -/
def onTask (f : TaskState → TaskState) : AgentM X Unit := Eff.modify fun s => { s with task := f s.task }

/-- The task state. -/
def task : AgentM X TaskState := do
  let s ← Eff.get
  pure s.task

theorem run_task_bind {B : Type} (k : TaskState → AgentM X B) (s : AgentState X) :
    (task >>= k).run s = (k s.task).run s := rfl

/-- A pure computation of the code at a place where it can raise. -/
def attempt (site : Site) (x : Except PyError A) : AgentM X A := do
  note (.site site)
  match x with
  | .ok a => pure a
  | .error kind => Eff.raise (.raised ⟨kind, none⟩)

/-- A computation on the files. -/
def onFiles (m : FileM A) : AgentM X A where
  run s := match m.run ⟨s.world.files, []⟩ with
    | (.ok a, t) => (.ok a, { s with world := { s.world with files := t.tree } })
    | (.error exc, t) => (.error (.raised exc), { s with world := { s.world with files := t.tree } })

/-- A call of the memory, the prompt or the checkpoints. That it failed is noted. -/
def layered (f : TaskState → Outer X A) : AgentM X A := do
  let t ← task
  Eff.tryExcept (outer (f t)) (fun _ => true) fun failure => do
    note (.site .layer)
    Eff.raise failure

/-- A call to the outside with a handler around it: the failures that `catches` picks are returned. -/
def outerCaught (f : Outer X A) (catches : Failure → Bool) : AgentM X (Except Failure A) :=
  Eff.tryExcept
    (do
      let a ← outer f
      pure (.ok a))
    catches fun failure => pure (.error failure)

/-! ## What the agent calls -/

/-- The storage, the sink or a hook. -/
def service (call : Service) : AgentM X Unit := do
  let t ← task
  outer (env.service call t)

/-- The memory or the checkpoints. -/
def layer (call : Layer) : AgentM X Unit := layered fun t => env.layer call t

/-- `token.raise_if_cancelled()`. -/
def raiseIfCancelled : AgentM X Unit := do
  let cancelled ← observe env.cancelled
  Eff.when cancelled (Eff.raise .cancelled)

/-- `emit_progress`. -/
def emitProgress (message : String) : AgentM X Unit := service env (.progress message)

/-- `emit_trace`, of the events but `run_finished`. -/
def emitTrace (event : String) : AgentM X Unit := service env (.trace event)

/-- `emit_agent_state`. -/
def emitAgentState : AgentM X Unit := emitTrace env "agent_state_changed"

/-- `run_store.write_task_state`. -/
def writeTaskState : AgentM X Unit := do
  service env .writeTaskState
  Eff.modify fun s => { s with taskFile := some s.task }

/-- `record`: an entry of the session history. -/
def record (item : HistoryItem) : AgentM X Unit := do
  Eff.modify fun s => { s with history := s.history ++ [item] }
  service env .saveSession

/-- `create_checkpoint`, where checkpoints are made. -/
def checkpoint (trigger : String) : AgentM X Unit :=
  Eff.when env.allowCheckpoint do
    layer env (.checkpoint trigger)
    writeTaskState env
    emitTrace env "checkpoint_created"

end AgentM

/-! ## Secrets

`security.py`. The values come from the environment, in the order of their names. -/

variable {X : Type} (env : AgentEnv X)

/-- `REDACTED_VALUE`. -/
def redactedValue : String := "<redacted>"

/-- `SENSITIVE_ENV_NAME_MARKERS`. -/
def sensitiveEnvNameMarkers : List String := ["API_KEY", "TOKEN", "SECRET", "PASSWORD"]

/-- `is_secret_env_name`. -/
def isSecretEnvName (name : String) : Bool :=
  let upper := env.upper name
  upper ∈ env.secretNames || sensitiveEnvNameMarkers.any fun marker => pyEndsWith upper marker

/-- `redact_text`: the longest values first. -/
def redactText (text : String) : String :=
  (env.secretValues.mergeSort fun a b => b.length ≤ a.length).foldl
    (fun text value => pyReplace text value redactedValue) text

/-- `redact_artifact` of the text under a key. -/
def redactUnder (key text : String) : String :=
  if isSecretEnvName env key then redactedValue else redactText env text

/-- The status and the stop reason of a task, as an event or a report shows them. -/
def publicOutcome (t : TaskState) : RunFinished where
  status := redactUnder env "status" t.status.text
  stopReason := redactUnder env "stop_reason" (stopReasonText t.stopReason)

namespace AgentM

/-- `emit_trace` of `run_finished`. -/
def emitRunFinished : AgentM X Unit := do
  let t ← task
  service env (.trace "run_finished")
  Eff.modify fun s => { s with finished := s.finished ++ [publicOutcome env t] }

/-- `run_store.write_report` of the redacted `build_report`. -/
def writeReport : AgentM X Unit := do
  let t ← task
  service env .writeReport
  Eff.modify fun s => { s with report := some (publicOutcome env t) }

end AgentM

/-! ## An agent with a script

The outside of this agent answers from lists, and does nothing else; where a list has come to its
end, the model says nothing. -/

/-- What the outside is going to answer. -/
structure Script where
  replies : List PyValue := []
  reviews : List PyValue := []
  plans : List PyValue := []
  shells : List ShellResult := []

/-- The reply of the model, with what is left of the script. -/
def Script.next (script : Script) : Purpose → PyValue × Script
  | .execute _ => (script.replies.headD (.str ""), { script with replies := script.replies.tail })
  | .review => (script.reviews.headD (.str ""), { script with reviews := script.reviews.tail })
  | .planning => (script.plans.headD (.str ""), { script with plans := script.plans.tail })
  | .summary => (.str "", script)

/-- The result of the next shell command. -/
def Script.nextShell (script : Script) : ShellResult × Script :=
  (script.shells.headD { returncode := 0, stdout := "", stderr := "" },
    { script with shells := script.shells.tail })

/-- A call that does nothing. -/
def Outer.idle {X A : Type} (a : A) : Outer X A := fun w => (.ok a, w)

/-- An agent in the workspace `/w` that follows a script. `json` says what the JSON texts in the
script mean. -/
def AgentEnv.scripted (json : List (String × PyValue)) (strategy : ApprovalStrategy)
    (planning reviewSubagent : Bool) : AgentEnv Script where
  files := .ascii ["w"]
  loads text := json.lookup text
  digest content := String.ofList (content.map fun b => .ofNat b.toNat)
  exceptionName _ := ""
  upper text := text.toUpper
  readOnly := false
  allowedTools := none
  strategy := strategy
  planning := planning
  reviewSubagent := reviewSubagent
  memory := false
  allowCheckpoint := false
  allowDurableMemoryWrite := false
  maxElapsedSeconds := 1800
  maxTotalTokens := 100000
  secretNames := []
  secretValues := []
  service _ _ := .idle ()
  layer _ _ := .idle ()
  buildPrompt _ _ userMessage := .idle ⟨userMessage, "no-checkpoint", false⟩
  memoryText := .idle ""
  historyText _ := .idle ""
  complete purpose _ w :=
    (.ok ⟨(w.rest.next purpose).1, 0, 0⟩, { w with rest := (w.rest.next purpose).2 })
  cancelled w := (false, w)
  elapsedSeconds w := (0, w)
  ask _ := .idle .rejected
  shell _ _ w := (.ok w.rest.nextShell.1, { w with rest := w.rest.nextShell.2 })
  oracle w := (⟨.absent, fun _ => false⟩, w)
  schedule w := ([], w)

/-- A fresh agent with a script, in an empty workspace. -/
def AgentState.fresh (script : Script) : AgentState Script where
  world := ⟨{ nodes := [(["w"], .dir)] }, script⟩
  task := { runId := "", taskId := "", userRequest := "" }

end ThreadForge

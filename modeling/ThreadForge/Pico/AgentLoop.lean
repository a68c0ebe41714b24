import ThreadForge.Pico.Review

/-!
# The agent loop

`agent_loop.py`. A turn asks the model once and does what it says: it runs a tool or a batch of
tools, or takes a final answer that the review agrees to. `runLoop` is turn after turn until one of
the ways to end (`LoopEnd`), and `finishLoop` is what each of them leaves behind.

## The local variables

`Locals` are the variables of `_run_loop` that live from one turn to the next. What is left out is
read by nobody, or only shown in a trace.
-/

namespace ThreadForge

open AgentM

/-! ## Constants -/

/-- `MAX_CONSECUTIVE_TALKS`. -/
def maxConsecutiveTalks : Nat := 2

/-- `MAX_PROTOCOL_REPAIRS`. -/
def maxProtocolRepairs : Nat := 1

/-- `MAX_ATTEMPTS_SAFETY`. -/
def maxAttemptsSafety : Nat := 500

/-- `STAGNATION_TOLERANCE`. -/
def stagnationTolerance : Nat := 3

/-- `STAGNATION_WINDOW`. -/
def stagnationWindow : Nat := 6

/-- `TOOL_REPEAT_WINDOW`. -/
def toolRepeatWindow : Nat := 6

/-- `REVIEW_POLL_ACTIONS`. -/
def reviewPollActions : Nat := 6

/-- `REVIEW_BATTLE_MAX_ROUNDS`. -/
def reviewBattleMaxRounds : Nat := 2

/-! ## The answer of a run that was cut off -/

section Summary

variable (txt : PyText)

/-- `_best_effort_step_limit`. -/
def bestEffortStepLimit (t : TaskState) (reason : String) : String :=
  let header := "⚠️ 运行中断：" ++ reason ++ "，未能在预算内产出最终结论。"
  if t.evidence.isEmpty ∧ t.rejectedFinals.isEmpty then
    header ++ " 本轮未成功读取任何工作区证据，建议缩小请求范围后重试。"
  else
    let lines := (lastOf t.evidence 12).map fun item =>
      let paths := "、".intercalate (item.relativePaths.take 4)
      "- " ++ item.toolName.text txt ++ "：" ++ if paths = "" then "（无路径）" else paths
    let candidates := ((lastOf t.rejectedFinals 3).map fun item => pyStrip txt item.content).filter
      (· ≠ "")
    header ++ " 本轮已收集的部分证据：\n" ++ joinLines lines ++
      (if t.rejectedFinals.isEmpty then "" else
        "\n\n模型曾给出的候选回答（未经 review 确认）：\n" ++
          String.join (candidates.map fun content => "- " ++ pyClip content 400 ++ "\n")) ++
      "\n\n请缩小范围、换一个更具体的请求，或提高预算后重试。"

/-- The rejected answers that say something. -/
def rejectedContents (t : TaskState) : List RejectedFinal :=
  t.rejectedFinals.filter fun item => pyStrip txt item.content ≠ ""

/-- The prompt of `_convergence_summary`. -/
def summaryPrompt (t : TaskState) : String :=
  let candidates := (lastOf (rejectedContents txt t) 3).zipIdx.map fun item =>
    "[被拒候选 " ++ toString (item.2 + 1) ++ "]\n" ++ pyClip item.1.content 800
  let evidence := ((lastOf t.evidence 5).filter fun item => item.summary ≠ "").map fun item =>
    "[证据:" ++ item.toolName.text txt ++ "] " ++ pyClip item.summary 300
  "你是 ThreadForge 的收尾总结器。运行被中断（预算或收敛兜底），以下是模型被审查" ++
  "驳回的候选回答和已收集证据。请总结成一个连贯、诚实、可直接展示给用户的最终回答：\n" ++
  "- 开头说明运行未能完整完成\n" ++
  "- 整合已确认的信息（证据）与候选回答中的可用内容\n" ++
  "- 不要编造新证据，不要逐条罗列原始候选列表\n" ++
  "输出纯文本。\n\n" ++ "\n\n".intercalate (candidates ++ evidence)

end Summary

variable {X : Type} (env : AgentEnv X)

/-- The text the model sums up the run with: empty where the call raised, whatever it raised. -/
def askSummary (t : TaskState) : AgentM X String := do
  let completion ← outerCaught (env.complete .summary (summaryPrompt env.txt t)) fun _ => true
  match completion with
  | .ok completion => pure (replyText env.txt completion.reply)
  | .error _ => pure ""

/-- `_convergence_summary`. -/
def convergenceSummary (reason : String) : AgentM X String := do
  let t ← task
  if (rejectedContents env.txt t).isEmpty ∧ t.evidence.isEmpty then
    pure (bestEffortStepLimit env.txt t reason)
  else do
    let text ← askSummary env t
    if text = "" then pure (bestEffortStepLimit env.txt t reason)
    else pure ("⚠️ 运行中断：" ++ reason ++ "。\n\n" ++ text)

/-! ## The checklist -/

/-- The results of the `cmd:` criteria so far. -/
abbrev CommandCache := List (String × Bool)

/-- The output of a `cmd:` criterion: `none` where running it raised, whatever it raised. -/
def runCriterion (command : String) : AgentM X (Option String) :=
  Eff.tryExcept
    (do
      let result ← ToolExecutor.execute env .checklist (.str "run_shell")
        [("command", .str command), ("timeout", .int 30)]
      pure (some result.content))
    (fun _ => true) fun _ => pure none

/-- The `cmd:` check. -/
def verifyCommand (command : String) (cache : CommandCache) :
    AgentM X (Bool × CommandCache) := do
  match cache.lookup command with
  -- a command runs once in a run, also when the workspace has changed since
  | some ok => pure (ok, cache)
  | none => do
    let output ← runCriterion env command
    match output with
    | none => pure (false, cache)
    | some content =>
      let ok := pyContains content "exit_code: 0"
      pure (ok, (command, ok) :: cache)

/-- `_verify_done_when`. -/
def verifyDoneWhen (doneWhen : String) (cache : CommandCache) :
    AgentM X (Option Bool × CommandCache) :=
  match parseCriterion env.txt doneWhen with
  | .file path => do
    let ok ← onFiles (verifyFile env.files path)
    pure (some ok, cache)
  | .grep path pattern => do
    let ok ← onFiles (verifyGrep env.files path pattern)
    pure (some ok, cache)
  | .cmd command => do
    let (ok, cache) ← verifyCommand env command cache
    pure (some ok, cache)
  | .malformed => pure (some false, cache)
  | .freeText => pure (none, cache)

/-- The criteria of one goal: the first that holds ticks it, and free text ends the search. -/
def checkCriteria (goal : String) : List String → CommandCache → AgentM X (Bool × CommandCache)
  | [], cache => pure (false, cache)
  | doneWhen :: rest, cache => do
    let (result, cache) ← verifyDoneWhen env doneWhen cache
    match result with
    -- the goal is ticked whatever its other criteria say
    | some true => do
      onTask fun t => t.completeItem env.txt goal
      emitTrace env "checklist_item_checked"
      pure (true, cache)
    | some false => checkCriteria goal rest cache
    | none => pure (false, cache)

/-- `_check_checklist_progress`. -/
def checkChecklistProgress (cache : CommandCache) : AgentM X CommandCache := do
  let t ← task
  let (checked, cache) ← Eff.foldEach t.checklist (false, cache) fun (checked, cache) goal =>
    if goal ∈ t.completedItems then pure (checked, cache)
    else do
      let (ticked, cache) ← checkCriteria env goal ((t.stepDoneWhen.lookup goal).getD []) cache
      pure (checked || ticked, cache)
  Eff.when checked do
    writeTaskState env
    emitAgentState env
  pure cache

/-- `_apply_review_completed_steps`. -/
def applyReviewCompletedSteps (decision : ReviewDecision) : AgentM X Unit := do
  let checked ← Eff.foldEach decision.completedSteps false fun checked goal => do
    let t ← task
    let goal := pyStrip env.txt goal
    if goal ∈ t.checklist ∧ goal ∉ t.completedItems then do
      onTask fun t => t.completeItem env.txt goal
      emitTrace env "checklist_item_checked"
      pure true
    else pure checked
  Eff.when checked do
    writeTaskState env
    emitAgentState env

/-! ## One tool call -/

/-- `_tool_counts_as_write`. -/
def toolCountsAsWrite (name : PyValue) (result : ToolResult) : Bool :=
  name = .str "write_file" || name = .str "patch_file" ||
    (name = .str "run_shell" && result.workspaceChanged)

/-- What `_execute_tool_action` returns for a call that repeats an earlier one. -/
def repeatedResult (name : PyValue) : ToolResult where
  content := "error: repeated identical call (" ++ name.text env.txt ++ "); " ++
    (if name = .str "read_file" then
      "该文件区间(或其子集)已在本轮读取,内容在上下文中;" ++ "如需未读行,请指定未读的行区间"
    else "use the existing evidence or try a different action")
  status := .rejected
  errorCode := "repeated_identical_call"
  readOnly := isReadOnlyName name

/-- The check of a call against the window. -/
def checkRepeat (attempts : Nat) (name : PyValue) (args : PyDict) (window : List WindowEntry) :
    AgentM X Bool := do
  emitProgress env ("step " ++ toString attempts ++ ": running tool " ++ name.text env.txt)
  attempt (.call name args window) (preRepeats env.txt name args window)

/-- A call that repeats an earlier one is not executed. -/
def rejectRepeat (name : PyValue) : AgentM X ToolResult := do
  onTask TaskState.recordMalformedOutputRecovered
  emitTrace env "tool_rejected_repeat"
  pure (repeatedResult env name)

/-- `_execute_tool_action`, without the commit. -/
def executeToolAction (attempts : Nat) (name : PyValue) (args : PyDict)
    (window : List WindowEntry) : AgentM X ToolResult := do
  let repeated ← checkRepeat env attempts name args window
  if repeated then rejectRepeat env name else ToolExecutor.execute env .main name args

/-- The paths that one piece of evidence is about. -/
def relativePathsOf (args : PyDict) (affected : List String) : List String :=
  (affected ++ (extractToolPath env.txt args).toList).dedup.insertionSort (· ≤ ·)

/-- The evidence of a call that went well. -/
def recordEvidenceOf (name : PyValue) (args : PyDict) (result : ToolResult) : AgentM X Unit := do
  let summary ← summarizeToolResult env name result
  onTask fun t => t.recordEvidence {
    toolName := name
    status := result.status
    readOnly := result.readOnly
    affectedPaths := result.affectedPaths
    relativePaths := relativePathsOf env args result.affectedPaths
    summary := summary }

/-- What is stored and traced after every call. -/
def reportToolAction (attempts : Nat) (name : PyValue) (args : PyDict) (result : ToolResult) :
    AgentM X Unit := do
  emitProgress env ("step " ++ toString attempts ++ ": tool " ++ name.text env.txt ++
    " finished (" ++ result.status.text ++ ")")
  let _ ← summarizeToolResult env name result
  onTask fun t => t.beginPostToolReasoning (name.text env.txt)
  record env (.tool name args result.content)
  writeTaskState env
  emitTrace env "tool_executed"
  checkpoint env "tool_executed"
  emitTrace env "post_tool_reasoning"
  onTask fun t => t.finishPostToolReasoning false
  writeTaskState env
  emitAgentState env

/-- The window after a call: one that repeats an earlier one is not put in. -/
def extendWindow (name : PyValue) (args : PyDict) (window : List WindowEntry)
    (resultFp : Option String) (repeated : Bool) : AgentM X (List WindowEntry) :=
  if repeated then pure window
  else do
    let fp ← attempt (.call name args window) (toolFingerprint env.txt name args)
    pure (lastOf (window ++ [(fp, resultFp)]) toolRepeatWindow)

/-- `_commit_tool_action`: whether the call repeated an earlier one, and the window after it. -/
def commitToolAction (attempts : Nat) (name : PyValue) (args : PyDict)
    (window : List WindowEntry) (result : ToolResult) :
    AgentM X (Bool × List WindowEntry) := do
  onTask fun t => t.recordAffectedPaths env.txt result.affectedPaths
  let resultFp ← attempt (.result name result.status.succeeded result.content)
    (resultFingerprint env.txt (fun text => env.digest (env.files.encode text)) name
      result.status.succeeded result.content)
  let repeated ← attempt (.call name args window)
    (toolCallRepeats env.txt name args resultFp window)
  Eff.when (name = .str "read_file" ∧ repeated = false) (onTask TaskState.recordReadFile)
  let window' ← extendWindow env name args window resultFp repeated
  Eff.when (result.status.succeeded = true ∧ repeated = false)
    (recordEvidenceOf env name args result)
  reportToolAction env attempts name args result
  pure (repeated, window')

/-! ## A batch -/

/-- Where a call of the concurrent group is. -/
inductive JobStage (env : AgentEnv X) (name : PyValue)
  | queued
  | checked
  | ready (call : ReadyCall env name)
  | ran (call : ReadyCall env name) (outcome : Except String String)
  | done (result : Except Failure ToolResult)

/-- A call of the concurrent group. -/
structure Job (env : AgentEnv X) where
  name : String
  args : PyDict
  stage : JobStage env (.str name) := .queued

def Job.isDone {env : AgentEnv X} (job : Job env) : Bool :=
  match job.stage with
  | .done _ => true
  | _ => false

/-- What the thread of a call does between two places where it meets the others. -/
def stepStage (attempts : Nat) (window : List WindowEntry) (name : String) (args : PyDict) :
    JobStage env (.str name) → AgentM X (JobStage env (.str name))
  | .queued => do
    let repeated ← checkRepeat env attempts (.str name) args window
    if repeated then do
      let result ← rejectRepeat env (.str name)
      pure (.done (.ok result))
    else pure .checked
  | .checked => do
    let admitted ← admitCall env (.str name) args
    match admitted with
    | .inl result => pure (.done (.ok result))
    | .inr call => pure (.ready call)
  | .ready call => do
    let outcome ← perform env .main call args
    pure (.ran call outcome)
  | .ran call outcome => do
    let result ← conclude env call args outcome
    pure (.done (.ok result))
  | .done result => pure (.done result)

/-- One step of a call. What it raises is kept for whoever waits for the call. -/
def stepJob (attempts : Nat) (window : List WindowEntry) (job : Job env) :
    AgentM X (Job env) := do
  let stage ← Eff.capture (stepStage env attempts window job.name job.args job.stage)
  match stage with
  | .ok stage => pure { job with stage := stage }
  | .error failure => pure { job with stage := .done (.error failure) }

/-- One step of the `n`-th call that is not done. -/
def stepNth (attempts : Nat) (window : List WindowEntry) :
    Nat → List (Job env) → AgentM X (List (Job env))
  | _, [] => pure []
  | n, job :: jobs =>
    -- a call that is done takes no turn
    if job.isDone then do
      let jobs ← stepNth attempts window n jobs
      pure (job :: jobs)
    else match n with
      | 0 => do
        let job ← stepJob env attempts window job
        pure (job :: jobs)
      | n + 1 => do
        let jobs ← stepNth attempts window n jobs
        pure (job :: jobs)

/-- The threads run in the order of `picks`, eight at a time. -/
def runPicks (attempts : Nat) (window : List WindowEntry) :
    List Nat → List (Job env) → AgentM X (List (Job env))
  | [], jobs => pure jobs
  | pick :: picks, jobs => do
    let jobs ← stepNth env attempts window (pick % maxParallelTools) jobs
    runPicks attempts window picks jobs

/-- The rest of a call. -/
def finishStage (attempts : Nat) (window : List WindowEntry) (name : String) (args : PyDict) :
    JobStage env (.str name) → AgentM X ToolResult
  | .queued => executeToolAction env attempts (.str name) args window
  | .checked => ToolExecutor.execute env .main (.str name) args
  | .ready call => do
    let outcome ← perform env .main call args
    conclude env call args outcome
  | .ran call outcome => conclude env call args outcome
  | .done result => Eff.ofExcept result

/-- The rest of every call. -/
def finishJobs (attempts : Nat) (window : List WindowEntry) :
    List (Job env) → AgentM X (List (Except Failure ToolResult))
  | [] => pure []
  | job :: jobs => do
    let result ← Eff.capture (finishStage env attempts window job.name job.args job.stage)
    let results ← finishJobs attempts window jobs
    pure (result :: results)

/-- The concurrent group: all of it runs to its end, and then the first exception in declared order
goes on. -/
def runConcurrent (attempts : Nat) (window : List WindowEntry) (calls : List BatchCall) :
    AgentM X (List ToolResult) := do
  let picks ← observe env.schedule
  let jobs ← runPicks env attempts window picks
    (calls.map fun call => { name := call.nameText env.txt, args := call.args })
  let results ← finishJobs env attempts window jobs
  Eff.release results

/-- The serial group. -/
def runSerial (attempts : Nat) (window : List WindowEntry) :
    List BatchCall → AgentM X (List ToolResult)
  | [] => pure []
  | call :: calls => do
    let result ← executeToolAction env attempts (.str (call.nameText env.txt)) call.args window
    let results ← runSerial attempts window calls
    pure (result :: results)

/-- The calls of a batch with their results, in declared order. -/
def executeBatch (attempts : Nat) (window : List WindowEntry) (calls : List BatchCall) :
    AgentM X (List (BatchCall × ToolResult)) := do
  let groups := partitionBatch env.txt calls
  let concurrent ← runConcurrent env attempts window (groups.1.map Prod.snd)
  let serial ← runSerial env attempts window (groups.2.map Prod.snd)
  let executed := (groups.1.zip concurrent ++ groups.2.zip serial).insertionSort
    fun a b => a.1.1 ≤ b.1.1
  pure (executed.map fun item => (item.1.2, item.2))

/-- The commits of a batch: whether all its calls were bad, and the window after them. -/
def commitBatch (attempts : Nat) (executed : List (BatchCall × ToolResult))
    (window : List WindowEntry) : AgentM X (Bool × List WindowEntry) :=
  Eff.foldEach executed (true, window) fun (allBad, window) (call, result) => do
    let name : PyValue := .str (call.nameText env.txt)
    onTask fun t => t.recordTool (call.nameText env.txt)
    let (repeated, window) ← commitToolAction env attempts name call.args window result
    let _ ← summarizeToolResult env name result
    pure (allBad && !(result.status.succeeded && !repeated), window)

/-! ## The local variables -/

/-- The local variables of `_run_loop`. `batchSeen` says that `tools` is bound. -/
structure Locals where
  attempts : Nat := 0
  toolSteps : Nat := 0
  consecutiveTalks : Nat := 0
  protocolRepairs : Nat := 0
  protocolFeedback : String := ""
  protocolFailed : Bool := false
  finalizationAttempted : Bool := false
  window : List WindowEntry := []
  prevEnd : Option (Nat × Nat) := none
  turnToolCalled : Bool := false
  turnToolRepeated : Bool := false
  turnTalked : Bool := false
  turnFinalRejected : Bool := false
  turnActions : Nat := 0
  consecutiveFinalRejected : Nat := 0
  actionsSinceReview : Nat := 0
  hasWriteOrShell : Bool := false
  verificationPassed : Bool := false
  priorReviewFeedback : String := ""
  awaitingReviewConfirmation : Bool := false
  reviewInterval : Nat := reviewPollActions
  trackingRejects : Nat := 0
  pendingReviewDecision : Option ReviewDecision := none
  reviewBattleRounds : Nat := 0
  cmdCache : CommandCache := []
  batchSeen : Bool := false

/-- The ways the loop ends. `left` is where it was left without an answer. -/
inductive LoopEnd
  | capHit (reason : String) (attempts : Nat)
  | finalsRejected
  | answered (final : String)
  | left (protocolFailed : Bool) (attempts : Nat)
  deriving DecidableEq, Repr

/-- How a turn ends: `continue`, or the end of the loop. -/
inductive Turn
  | again (l : Locals)
  | stop (ending : LoopEnd)

/-- `break`. -/
def Turn.leave (l : Locals) : Turn := .stop (.left l.protocolFailed l.attempts)

/-! ## The head of a turn -/

/-- The budget that is used up, if any. -/
def budgetCap : AgentM X (Option String) := do
  let elapsed ← observe env.elapsedSeconds
  let t ← task
  if env.maxElapsedSeconds ≤ elapsed then pure (some "wall_clock_cap")
  else if env.maxTotalTokens ≤ t.inputTokens + t.outputTokens then pure (some "token_budget_cap")
  else pure none

/-- Why the last turn was bad. -/
def badTurnReasons (l : Locals) : List BadTurn :=
  if !l.turnFinalRejected && !l.turnToolCalled && !l.turnTalked then [.silentTurnNoOutput]
  else if l.turnToolCalled && l.turnToolRepeated then [.toolRepeatedOrFailed]
  else []

/-- The last turns were all bad. -/
def stagnated (audit : List StagnationEntry) : Bool :=
  let window := lastOf (audit.map StagnationEntry.bad) stagnationWindow
  stagnationTolerance ≤ window.length && (lastOf window stagnationTolerance).all id

/-- The entry of the last turn in the audit. -/
def stagnationEntry (l : Locals) (current : Nat × Nat) (t : TaskState) : StagnationEntry where
  turn := l.attempts
  reasons := badTurnReasons l
  evidenceCount := current.1
  toolName := t.lastTool
  actions := l.turnActions

/-- The stagnation guard: it makes this turn the last one. -/
def raiseStagnation : AgentM X Bool := do
  onTask fun t => t.recordMalformedOutputRecovered.setPhase .actOrAnswer
    "Converge on a grounded final answer using the collected evidence"
  emitTrace env "stagnation_detected"
  pure true

/-- The verdict on the last turn. -/
def assessLastTurn (l : Locals) (current : Nat × Nat) : AgentM X Bool :=
  if l.prevEnd.isNone then pure false
  else do
    onTask fun t => { t with stagnationAudit := t.stagnationAudit ++ [stagnationEntry l current t] }
    let t ← task
    if stagnated t.stagnationAudit then raiseStagnation env else pure false

/-- The variables after the head of a turn. -/
def Locals.nextTurn (l : Locals) (current : Nat × Nat) (cache : CommandCache)
    (finalizationOnly : Bool) : Locals :=
  { l with
    attempts := l.attempts + 1
    finalizationAttempted := l.finalizationAttempted || finalizationOnly
    prevEnd := some current
    turnToolCalled := false
    turnToolRepeated := false
    turnTalked := false
    turnFinalRejected := false
    turnActions := 0
    consecutiveFinalRejected :=
      if l.turnFinalRejected && !l.turnToolCalled then l.consecutiveFinalRejected + 1 else 0
    cmdCache := cache }

/-! ## The call of the model -/

/-- The feedback of the runtime in a prompt. -/
def controlFeedback (feedback : String) : String := "\n\nRuntime control feedback:\n" ++ feedback

/-- The prompt of a turn. -/
def turnPrompt (l : Locals) (finalizationOnly : Bool) (prompt : String) : String :=
  prompt ++
  (if l.protocolFeedback = "" then "" else
    controlFeedback (l.protocolFeedback ++
      "\nThis feedback is control-plane input, not an assistant message.")) ++
  (if finalizationOnly then
    controlFeedback ("Evidence stagnation detected: recent rounds produced no new " ++
      "progress. Do not call another tool. Use the evidence already " ++
      "collected and return a grounded final answer now.")
  else "")

/-- The checkpoint of a run whose state has gone stale. -/
def resumeCheckpoint (built : BuiltPrompt) : AgentM X Unit :=
  if built.resumeStatus = "partial-stale" then checkpoint env "freshness_mismatch"
  else Eff.when (built.resumeStatus = "workspace-mismatch" ∧ env.allowCheckpoint = true) do
    emitTrace env "runtime_identity_mismatch"
    checkpoint env "workspace_mismatch"

/-- All checkpoints before the call of the model. -/
def promptCheckpoints (built : BuiltPrompt) : AgentM X Unit := do
  resumeCheckpoint env built
  Eff.when built.budgetReductions (checkpoint env "context_reduction")

/-- The prompt is built and announced. -/
def buildTurnPrompt (userMessage : String) (l : Locals) (finalizationOnly : Bool) :
    AgentM X String := do
  onTask fun t => t.recordAttempt.setPhase .actOrAnswer "Choose a tool or prepare a final answer"
  writeTaskState env
  emitAgentState env
  emitProgress env ("step " ++ toString l.attempts ++ ": building prompt")
  let s ← Eff.get
  let built ← layered fun t => env.buildPrompt t s.history userMessage
  let prompt := turnPrompt l finalizationOnly built.text
  emitProgress env ("step " ++ toString l.attempts ++ ": prompt ready (" ++
    toString prompt.length ++ " chars)")
  emitTrace env "prompt_built"
  promptCheckpoints env built
  emitTrace env "model_requested"
  pure prompt

/-- The model is asked. -/
def askModel (l : Locals) (finalizationOnly : Bool) (prompt : String) : AgentM X PyValue := do
  raiseIfCancelled env
  service env .beforeModel
  emitProgress env ("step " ++ toString l.attempts ++ ": waiting for model response")
  let completion ← outer (env.complete (.execute finalizationOnly) prompt)
  onTask fun t => t.recordModelUsage completion.inputTokens completion.outputTokens
  raiseIfCancelled env
  service env .afterModel
  pure completion.reply

/-- A final answer that only announces future work is none. -/
def withoutDeferral (txt : PyText) (decision : Decision) : Decision :=
  match decision with
  | .final text =>
    if isDeferredActionAnswer txt text then
      .retry (retryNotice "model announced future work instead of performing it")
    else decision
  | decision => decision

/-- The kind of a decision. -/
def Decision.kind : Decision → String
  | .tool _ _ => "tool"
  | .toolBatch _ => "tool_batch"
  | .talk _ => "talk"
  | .final _ => "final"
  | .retry _ => "retry"

/-- The reply is taken apart. -/
def readReply (l : Locals) (raw : PyValue) : AgentM X Decision := do
  let parsed ← attempt (.reply raw) (parseReply env.txt env.loads raw)
  let decision := withoutDeferral env.txt parsed
  emitProgress env ("step " ++ toString l.attempts ++ ": model returned " ++ decision.kind)
  emitTrace env "model_parsed"
  pure decision

/-- The text that the last turn takes for an answer although it is not marked as one. -/
def plainFinal (txt : PyText) (l : Locals) (raw : PyValue) : Option String :=
  let text := replyText txt raw
  if !l.hasWriteOrShell && text ≠ "" &&
      !(["<tool", "<retry", "<talk", "\"name\"", "\"tools\""].any fun marker =>
        pyContains text marker) then some text
  else none

/-! ## The decisions of the model -/

/-- The variables after a decision that was readable. -/
def Locals.heard (l : Locals) (decision : Decision) : Locals :=
  match decision with
  | .retry _ => l
  | _ => { l with protocolFeedback := "" }

/-- One talk too many is not shown. -/
def refuseTalk : AgentM X Unit := do
  onTask fun t => t.recordMalformedOutputRecovered.setPhase .actOrAnswer
    "Choose a tool or submit a grounded final answer"
  emitTrace env "talk_rejected"

/-- A talk is shown. -/
def showTalk (text : String) : AgentM X Unit := do
  onTask TaskState.recordTalk
  service env (.commentary text)
  emitTrace env "assistant_commentary"
  onTask fun t => t.setPhase .actOrAnswer "Continue with a tool or submit a grounded final answer"

/-- What is done about a talk. -/
def takeTalk (l : Locals) (text : String) : AgentM X Unit :=
  if maxConsecutiveTalks ≤ l.consecutiveTalks then refuseTalk env else showTalk env text

/-- The variables after a talk. -/
def Locals.talked (l : Locals) : Locals :=
  { l with
    turnTalked := true
    consecutiveTalks :=
      if maxConsecutiveTalks ≤ l.consecutiveTalks then l.consecutiveTalks
      else l.consecutiveTalks + 1 }

/-- `talk`. -/
def onTalk (l : Locals) (text : String) : AgentM X Turn := do
  takeTalk env l text
  writeTaskState env
  emitAgentState env
  pure (.again l.talked)

/-- `_maybe_run_review`. -/
def maybeRunReview (userMessage trigger : String) (l : Locals) : AgentM X ReviewDecision :=
  if env.reviewSubagent then
    runReview env {
      userMessage := userMessage
      trigger := trigger
      hasWriteOrShell := l.hasWriteOrShell
      verificationPassed := l.verificationPassed
      priorFeedback := l.priorReviewFeedback }
  else pure { verdict := .proceed, reason := "review_subagent_disabled" }

/-- The variables after a review that sends the run elsewhere. -/
def Locals.redirected (l : Locals) (feedback : String) : Locals :=
  { l with
    actionsSinceReview := 0
    priorReviewFeedback := feedback
    protocolFeedback := feedback
    reviewInterval := max 2 (l.reviewInterval / 2)
    trackingRejects := l.trackingRejects + 1 }

/-- The variables after a review that lets the run go on. -/
def Locals.onTrack (l : Locals) : Locals :=
  { l with actionsSinceReview := 0, reviewInterval := reviewPollActions, trackingRejects := 0 }

/-- The variables when a run did not follow its reviews. -/
def Locals.trackingConverged (l : Locals) : Locals := { l with finalizationAttempted := true }

/-- A run that was sent elsewhere twice is left. -/
def followRedirect (l : Locals) : AgentM X Turn :=
  if 2 ≤ l.trackingRejects then do
    emitTrace env "review_tracking_converged"
    pure (.leave l.trackingConverged)
  else pure (.again l)

/-- The review that comes after every few actions. -/
def periodicReview (userMessage : String) (l : Locals) : AgentM X Turn :=
  if l.actionsSinceReview < l.reviewInterval then pure (.again l)
  else do
    let decision ← maybeRunReview env userMessage "action_poll" l
    applyReviewCompletedSteps env decision
    if decision.verdict = .redirect then do
      replan env userMessage decision.feedback
      followRedirect env (l.redirected decision.feedback)
    else pure (.again l.onTrack)

/-- An action of the main loop answers a pending agreement of the review. -/
def rebut (l : Locals) : AgentM X Unit :=
  Eff.when (l.awaitingReviewConfirmation && l.pendingReviewDecision.isSome)
    (emitTrace env "main_loop_rebuttal")

/-- The same before a batch, which names the calls of the batch before. -/
def rebutWithBatch (l : Locals) : AgentM X Unit :=
  Eff.when (l.awaitingReviewConfirmation && l.pendingReviewDecision.isSome) do
    attempt (.rebuttal l.batchSeen) (if l.batchSeen then .ok () else .error .unboundLocalError)
    emitTrace env "main_loop_rebuttal"

/-- The variables when the main loop acts. -/
def Locals.acting (l : Locals) : Locals :=
  { l with
    awaitingReviewConfirmation := false
    pendingReviewDecision := none
    consecutiveTalks := 0 }

/-- The variables after a tool call. -/
def Locals.called (l : Locals) (name : PyValue) (result : ToolResult) (repeated : Bool)
    (window : List WindowEntry) : Locals :=
  { l.acting with
    window := window
    toolSteps := l.toolSteps + 1
    turnActions := l.turnActions + 1
    turnToolCalled := true
    turnToolRepeated := repeated
    actionsSinceReview := l.actionsSinceReview + 1
    hasWriteOrShell := l.hasWriteOrShell || toolCountsAsWrite name result }

/-- `tool`. -/
def onTool (userMessage : String) (l : Locals) (name : PyValue) (args : PyDict) :
    AgentM X Turn := do
  rebut env l
  onTask fun t => t.recordTool (name.text env.txt)
  let result ← executeToolAction env l.attempts name args l.window
  let (repeated, window) ← commitToolAction env l.attempts name args l.window result
  periodicReview env userMessage (l.called name result repeated window)

/-- The variables when a batch has been read. -/
def Locals.batching (l : Locals) : Locals := { l.acting with batchSeen := true }

/-- The variables after a batch of `count` calls. -/
def Locals.batched (l : Locals) (count : Nat) (wrote allBad : Bool) (executed : Nat)
    (window : List WindowEntry) : Locals :=
  { l.batching with
    window := window
    toolSteps := l.toolSteps + executed
    turnActions := l.turnActions + executed
    turnToolCalled := true
    turnToolRepeated := allBad
    actionsSinceReview := l.actionsSinceReview + count
    hasWriteOrShell := l.hasWriteOrShell || wrote }

/-- The calls of a batch, cut to eight and without equal ones. -/
def declaredCalls (txt : PyText) (tools : List (PyValue × PyDict)) : List BatchCall :=
  dedupBatch txt ((tools.take maxParallelTools).map fun tool => ⟨tool.1, tool.2⟩) []

/-- A batch without calls is not executed. -/
def rejectBatch (l : Locals) : AgentM X Turn := do
  onTask TaskState.recordMalformedOutputRecovered
  emitTrace env "tool_batch_rejected"
  pure (.again l.batching)

/-- A batch is executed, committed and reviewed. -/
def runBatch (userMessage : String) (l : Locals) (tools : List (PyValue × PyDict)) :
    AgentM X Turn := do
  let declared := declaredCalls env.txt tools
  let calls ← attempt (.batch declared) (normalizeBatchReads env.txt declared)
  emitTrace env "tool_batch_started"
  let executed ← executeBatch env l.attempts l.window calls
  let (allBad, window) ← commitBatch env l.attempts executed l.window
  emitTrace env "tool_batch_completed"
  let wrote := executed.any fun item =>
    toolCountsAsWrite (.str (item.1.nameText env.txt)) item.2
  periodicReview env userMessage (l.batched calls.length wrote allBad executed.length window)

/-- `tool_batch`. -/
def onBatch (userMessage : String) (l : Locals) (tools : List (PyValue × PyDict)) :
    AgentM X Turn := do
  rebutWithBatch env l
  if tools.isEmpty then rejectBatch env l else runBatch env userMessage l tools

/-- The variables after a reply that is to be repeated. -/
def Locals.retried (l : Locals) (notice : String) : Locals :=
  { l with
    consecutiveTalks := 0
    protocolRepairs := l.protocolRepairs + 1
    protocolFeedback := notice }

/-- The variables after one reply too many that could not be read. -/
def Locals.failed (l : Locals) : Locals := { l with consecutiveTalks := 0, protocolFailed := true }

/-- `retry`. -/
def onRetry (l : Locals) (notice : String) : AgentM X Turn := do
  onTask fun t => t.recordMalformedOutputRecovered.setPhase .actOrAnswer
    "Retry with a valid tool call or final answer"
  if l.protocolRepairs < maxProtocolRepairs then do
    service env .protocolRetrying
    writeTaskState env
    emitAgentState env
    pure (.again (l.retried notice))
  else do
    emitTrace env "model_protocol_failed"
    pure (.leave l.failed)

/-! ## A final answer -/

/-- The decision that stands for a review where nothing was written. -/
def readOnlyDecision : ReviewDecision where
  verdict := .finalize
  reason := "read_only_no_result_review"

/-- The review of a final answer. -/
def reviewFinal (userMessage : String) (l : Locals) : AgentM X ReviewDecision :=
  if l.hasWriteOrShell then maybeRunReview env userMessage "final_before" l
  else pure readOnlyDecision

/-- The rounds of the battle after a review of a final answer. -/
def Locals.countRound (l : Locals) (decision : ReviewDecision) : Locals :=
  if decision.reason = "read_only_no_result_review" then l
  else { l with reviewBattleRounds := l.reviewBattleRounds + 1 }

/-- The variables after a final answer that was sent back. -/
def Locals.sentBack (l : Locals) (feedback : String) : Locals :=
  { l with
    turnFinalRejected := true
    awaitingReviewConfirmation := false
    pendingReviewDecision := none
    priorReviewFeedback := feedback }

/-- The entry of a final answer that was sent back. -/
def TaskState.recordRejectedFinal (txt : PyText) (t : TaskState) (final : String)
    (decision : ReviewDecision) : TaskState :=
  let rejected := pyStrip txt final
  { t with
    rejectedFinals := if rejected = "" then t.rejectedFinals else t.rejectedFinals ++ [{
      content := pyClip rejected 4000
      feedback := pyClip decision.feedback 500
      reason := pyClip decision.reason 200 }] }

/-- The review sends a final answer back. -/
def rejectFinal (userMessage : String) (l : Locals) (final : String) (decision : ReviewDecision) :
    AgentM X Turn := do
  onTask fun t => t.recordRejectedFinal env.txt final decision
  onTask fun t => t.setPhase .actOrAnswer
    "Apply review feedback and converge on a verified final answer"
  emitTrace env "final_rejected_by_review"
  writeTaskState env
  replan env userMessage decision.feedback
  pure (.again (l.sentBack decision.feedback))

/-- What the model is told when the review agrees. -/
def confirmationFeedback : String :=
  "The review approves completion. Re-submit your final answer to " ++
  "confirm, or keep working if you still have work (your next action " ++
  "will be treated as a rebuttal and recorded)."

/-- The variables when the main loop is asked to confirm. -/
def Locals.awaiting (l : Locals) (decision : ReviewDecision) : Locals :=
  { l with
    awaitingReviewConfirmation := true
    pendingReviewDecision := some decision
    protocolFeedback := confirmationFeedback }

/-- The review agrees, and the main loop is asked to confirm. -/
def awaitConfirmation (l : Locals) (decision : ReviewDecision) : AgentM X Turn := do
  onTask fun t => t.setPhase .actOrAnswer
    "Review approves completion; re-submit final to confirm or keep working"
  emitTrace env "review_awaiting_confirmation"
  writeTaskState env
  pure (.again (l.awaiting decision))

/-- The reasons that need no confirmation. -/
def directReasons : List String :=
  ["review_subagent_disabled", "review_skipped_read_only", "read_only_no_result_review"]

/-- A final answer that the review does not send back ends the loop, unless the main loop is asked to
confirm it first. -/
def settleFinal (l : Locals) (final : String) (decision : ReviewDecision) : AgentM X Turn :=
  if l.awaitingReviewConfirmation = true ∨ decision.reason ∈ directReasons ∨
      decision.failed = true then
    pure (.stop (.answered (pyStrip env.txt final)))
  else if reviewBattleMaxRounds ≤ l.reviewBattleRounds then do
    emitTrace env "review_battle_cap_reached"
    pure (.stop (.answered (pyStrip env.txt final)))
  else awaitConfirmation env l decision

/-- What becomes of a final answer after its review. Where nothing was written, a review that would
send it back does not count. -/
def judgeFinal (userMessage : String) (l : Locals) (final : String) (decision : ReviewDecision) :
    AgentM X Turn :=
  if decision.verdict = .redirect then
    if l.hasWriteOrShell then rejectFinal env userMessage l final decision
    else pure (.stop (.answered (pyStrip env.txt final)))
  else settleFinal env l final decision

/-- `final`. The text of a final answer is never empty. -/
def onFinal (userMessage : String) (l : Locals) (final : String) : AgentM X Turn := do
  raiseIfCancelled env
  let decision ← reviewFinal env userMessage l
  applyReviewCompletedSteps env decision
  judgeFinal env userMessage (l.countRound decision) final decision

/-! ## A turn -/

/-- What a turn does with the decision of the model. -/
def dispatch (userMessage : String) (l : Locals) : Decision → AgentM X Turn
  | .talk text => onTalk env l text
  | .tool name args => onTool env userMessage l name args
  | .toolBatch tools => onBatch env userMessage l tools
  | .retry notice => onRetry env l notice
  | .final text => onFinal env userMessage l text

/-- The last turn takes a final answer, or a text that can pass for one. -/
def dispatchLast (userMessage : String) (l : Locals) (raw : PyValue) :
    Decision → AgentM X Turn
  | .final text => onFinal env userMessage l text
  | _ =>
    match plainFinal env.txt l raw with
    | some text => do
      emitTrace env "finalization_plain_text_accepted"
      onFinal env userMessage l text
    | none => do
      onTask TaskState.recordMalformedOutputRecovered
      emitTrace env "finalization_protocol_rejected"
      pure (.leave l)

/-- What a turn does with the reply of the model. -/
def answerReply (userMessage : String) (l : Locals) (finalizationOnly : Bool) (raw : PyValue)
    (decision : Decision) : AgentM X Turn :=
  if finalizationOnly then dispatchLast env userMessage (l.heard decision) raw decision
  else dispatch env userMessage (l.heard decision) decision

/-- A turn from the call of the model on. -/
def askAndAct (userMessage : String) (l : Locals) (finalizationOnly : Bool) : AgentM X Turn := do
  let prompt ← buildTurnPrompt env userMessage l finalizationOnly
  let raw ← askModel env l finalizationOnly prompt
  let decision ← readReply env l raw
  answerReply env userMessage l finalizationOnly raw decision

/-- A turn whose head is done. -/
def proceedTurn (userMessage : String) (l : Locals) (finalizationOnly : Bool) : AgentM X Turn :=
  if 2 ≤ l.consecutiveFinalRejected then pure (.stop .finalsRejected)
  else askAndAct env userMessage l finalizationOnly

/-- A turn within the budget. -/
def turnWithin (userMessage : String) (l : Locals) : AgentM X Turn := do
  let t ← task
  let current := (t.evidence.length, t.completedItems.length)
  let cache ← checkChecklistProgress env l.cmdCache
  let finalizationOnly ← assessLastTurn env l current
  proceedTurn env userMessage (l.nextTurn current cache finalizationOnly) finalizationOnly

/-- One turn of the loop. -/
def loopTurn (userMessage : String) (l : Locals) : AgentM X Turn := do
  raiseIfCancelled env
  let cap ← budgetCap env
  match cap with
  | some reason => pure (.stop (.capHit reason l.attempts))
  | none => turnWithin env userMessage l

/-- `while attempts < max_attempts and not finalization_attempted`, with `fuel` attempts left. -/
def loopFrom (userMessage : String) : Nat → Locals → AgentM X LoopEnd
  | 0, l => pure (.left l.protocolFailed l.attempts)
  | fuel + 1, l =>
    if l.finalizationAttempted then pure (.left l.protocolFailed l.attempts)
    else do
      let next ← loopTurn env userMessage l
      match next with
      | .again l => loopFrom userMessage fuel l
      | .stop ending => pure ending

/-! ## The end of the loop -/

/-- The task state once `run_finished` goes out. -/
def TaskState.announced (t : TaskState) : TaskState := { t with runFinishedEmitted := true }

/-- `run_finished` goes out, and the report is written. -/
def emitEnd : AgentM X Unit := do
  onTask TaskState.announced
  emitRunFinished env
  writeReport env

/-- The end of a run is announced and shown. -/
def announceEnd (message : TaskState → String) : AgentM X Unit := do
  emitEnd env
  let t ← task
  emitProgress env (message t)

/-- An ending that leaves `run_finished` to `finalize_run`. -/
def finishQuietly (final : String) : AgentM X String := do
  writeTaskState env
  emitAgentState env
  record env (.message "assistant" final)
  pure final

/-- The end of a run whose budget is used up. -/
def finishCapHit (reason : String) (attempts : Nat) : AgentM X String := do
  let final ← convergenceSummary env ("运行超时或 token 预算耗尽（" ++ reason ++ "）")
  onTask fun t =>
    (t.stop .budgetExhausted .stopped final).recordError "budget_cap" reason false attempts
  emitTrace env "budget_cap_hit"
  finishQuietly env final

/-- The end of a run whose final answers were sent back twice. -/
def finishFinalsRejected : AgentM X String := do
  onTask fun t => t.recordMalformedOutputRecovered.setPhase .actOrAnswer
    "Converge on a best-effort answer using collected evidence and rejected candidates"
  emitTrace env "stagnation_detected"
  let final ← convergenceSummary env "模型连续两次提交 final 均被审查驳回（无工具动作），停止空转"
  onTask fun t => t.stop .convergenceGuardTriggered .stopped final
  finishQuietly env final

/-- The phase before an answer, and its entry in the history. -/
def verifyAnswer (final : String) : AgentM X Unit := do
  onTask fun t => if t.requiresPostToolReasoning then t.finishPostToolReasoning true else t
  onTask fun t => t.setPhase .verify
    "Verify the collected evidence before returning the final answer"
    "Gather the minimum workspace context"
  writeTaskState env
  emitAgentState env
  record env (.message "assistant" final)

/-- What is stored and remembered of an answer. -/
def keepAnswer (userMessage final : String) : AgentM X Unit := do
  writeTaskState env
  emitAgentState env
  Eff.when env.allowDurableMemoryWrite (layer env (.promoteDurable userMessage final))
  Eff.when env.allowCheckpoint (layer env (.checkpoint "run_finished"))
  writeTaskState env
  Eff.when env.allowCheckpoint (emitTrace env "checkpoint_created")

/-- A run with an answer, up to the announcement. -/
def settleAnswered (userMessage final : String) : AgentM X Unit := do
  verifyAnswer env final
  onTask fun t => t.finishSuccess final
  keepAnswer env userMessage final

/-- The end of a run with an answer. -/
def finishAnswered (userMessage final : String) : AgentM X String := do
  settleAnswered env userMessage final
  announceEnd env fun t => "run " ++ t.runId ++ " finished"
  pure final

/-- Why a run was left without an answer. -/
def leftReason (protocolFailed : Bool) (attempts : Nat) : StopReason :=
  if protocolFailed || maxAttemptsSafety ≤ attempts then .retryLimitReached
  else .convergenceGuardTriggered

/-- The same, for the user. -/
def leftText (protocolFailed : Bool) (attempts : Nat) : String :=
  if protocolFailed || maxAttemptsSafety ≤ attempts then
    "模型反复返回无效输出或达到尝试保险丝（retry_limit_reached）"
  else "停滞收敛：连续坏轮后未能产出最终结论"

/-- What is stored and remembered of a run that was left without an answer. -/
def keepLeft (userMessage final : String) (reason : StopReason) : AgentM X Unit := do
  onTask fun t => t.setPhase .final "Explain the budget or execution blocker"
  writeTaskState env
  emitAgentState env
  record env (.message "assistant" final)
  Eff.when env.allowDurableMemoryWrite (layer env (.promoteDurable userMessage final))
  writeTaskState env
  Eff.when env.allowCheckpoint do
    layer env (.checkpoint reason.text)
    emitTrace env "checkpoint_created"

/-- A run that was left without an answer, up to the announcement. -/
def settleLeft (userMessage final : String) (reason : StopReason) : AgentM X Unit := do
  onTask fun t => t.stop reason .stopped final
  keepLeft env userMessage final reason

/-- The end of a run that was left without an answer. -/
def finishLeft (userMessage : String) (protocolFailed : Bool) (attempts : Nat) :
    AgentM X String := do
  let final ← convergenceSummary env (leftText protocolFailed attempts)
  settleLeft env userMessage final (leftReason protocolFailed attempts)
  announceEnd env fun t =>
    "run " ++ t.runId ++ " stopped: " ++ (leftReason protocolFailed attempts).text
  pure final

/-- What each way to end leaves behind. -/
def finishLoop (userMessage : String) : LoopEnd → AgentM X String
  | .capHit reason attempts => finishCapHit env reason attempts
  | .finalsRejected => finishFinalsRejected env
  | .answered final => finishAnswered env userMessage final
  | .left protocolFailed attempts => finishLeft env userMessage protocolFailed attempts

/-- `_run_loop`. -/
def runLoop (userMessage : String) : AgentM X LoopEnd := do
  raiseIfCancelled env
  loopFrom env userMessage maxAttemptsSafety {}

/-! ## `AgentLoop.run` -/

/-- What is caught around the loop. -/
def Failure.endsRun : Failure → Bool
  | .cancelled | .cleanupFailed => true
  | _ => false

/-- The end of a run whose shell process could not be proven gone. -/
def endCleanupFailed : AgentM X String := do
  let final := "agent run failed: shell process cleanup could not be confirmed"
  onTask fun t => t.stop .processCleanupFailed .failed final
  writeTaskState env
  emitEnd env
  pure final

/-- The end of a run that was cancelled. -/
def endCancelled : AgentM X String := do
  onTask TaskState.stopUserCancelled
  writeTaskState env
  announceEnd env fun t => "run " ++ t.runId ++ " cancelled"
  pure ""

/-- The handlers of `AgentLoop.run`. -/
def handleEnd : Failure → AgentM X String
  | .cleanupFailed => endCleanupFailed env
  | _ => endCancelled env

/-- The part of `AgentLoop.run` before its `try`. -/
def startRun (userMessage taskId runId : String) : AgentM X Unit := do
  layer env (.taskSummary userMessage)
  record env (.message "user" userMessage)
  Eff.modify fun s =>
    { s with task := { runId := runId, taskId := taskId, userRequest := userMessage }, hasTask := true }
  service env .startRun
  emitProgress env ("run " ++ runId ++ " started")
  emitTrace env "run_started"
  onTask fun t => t.setPhase .understandRequest "Gather the minimum workspace context"
    "Understand the request and acceptance criteria"
  writeTaskState env
  emitAgentState env

/-- The loop with what comes before it in the `try`. -/
def planAndLoop (userMessage : String) : AgentM X LoopEnd := do
  onTask fun t => t.setPhase .gatherContext
    "Inspect the workspace only when evidence is needed"
  writeTaskState env
  emitAgentState env
  initialPlan env userMessage
  runLoop env userMessage

/-- What is inside the `try`. -/
def runBody (userMessage : String) : AgentM X String := do
  let ending ← planAndLoop env userMessage
  finishLoop env userMessage ending

/-- `AgentLoop.run`. -/
def AgentLoop.run (userMessage taskId runId : String) : AgentM X String := do
  startRun env userMessage taskId runId
  Eff.tryExcept (runBody env userMessage) Failure.endsRun (handleEnd env)

end ThreadForge

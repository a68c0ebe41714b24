import ThreadForge.Pico.Planning
import ThreadForge.Pico.ToolExecutor

/-!
# The review subagent

`evaluation/review_subagent.py`: a few rounds in which a model may run tools of its own, and then
gives a verdict on the work of the agent. Its tools take a path of their own: they are validated and
run, and nothing is asked.
-/

namespace ThreadForge

open AgentM

/-! ## Verdicts -/

/-- `REVIEW_VERDICTS`. -/
inductive ReviewVerdict
  | finalize
  | proceed
  | redirect
  deriving DecidableEq, Repr

def ReviewVerdict.text : ReviewVerdict → String
  | .finalize => "finalize"
  | .proceed => "continue"
  | .redirect => "redirect"

def ReviewVerdict.ofText? (text : String) : Option ReviewVerdict :=
  [finalize, proceed, redirect].find? fun verdict => verdict.text = text

/-- A decision of the review. `failed` is `review_failed`. -/
structure ReviewDecision where
  verdict : ReviewVerdict
  feedback : String := ""
  reason : String := ""
  completedSteps : List String := []
  failed : Bool := false
  deriving DecidableEq, Repr

/-- What a reply of the review asks for. -/
inductive ReviewAction
  | verdict (decision : ReviewDecision)
  | tool (name : String) (args : PyValue)
  | invalid (message : String)
  deriving Repr

section Parsing

variable (txt : PyText) (loads : JsonLoads)

/-- `_parse_review_output`. -/
def parseReviewOutput (raw : String) : ReviewDecision :=
  match loads (withoutFence txt (pyStrip txt raw)) with
  | none => {
      verdict := .redirect
      feedback := "review output was not valid JSON; please follow the required format"
      reason := "malformed_review_output" }
  | some (.dict value) =>
    match ReviewVerdict.ofText? (txt.lower (pyStrip txt (PyDict.textOf txt value "verdict"))) with
    | none => {
        verdict := .redirect
        feedback := "review verdict must be finalize/continue/redirect"
        reason := "malformed_review_verdict" }
    | some verdict => {
        verdict := verdict
        feedback := pyStrip txt (textOr txt value "feedback" "")
        reason := pyStrip txt (textOr txt value "reason" "")
        completedSteps := match PyDict.getD value "completed_steps" (.list []) with
          | .list goals => strippedTexts txt goals
          | _ => [] }
  | some _ => {
      verdict := .redirect
      feedback := "review output must be a JSON object"
      reason := "malformed_review_output" }

/-- The call inside `<tool>…</tool>`. -/
def taggedReviewCall (text : String) : Option ReviewAction :=
  match (toolElement text).bind fun element => loads (pyStrip txt element.2) with
  | some (.dict value) =>
    (PyDict.get? value "name").map fun name =>
      .tool (name.text txt) (PyDict.getD value "args" (.dict []))
  | _ => none

/-- `_parse_review_action`. -/
def parseReviewAction (raw : PyValue) : ReviewAction :=
  match taggedReviewCall txt loads (replyText txt raw) with
  | some action => action
  | none =>
    let text := withoutFence txt (replyText txt raw)
    match loads text with
    | none => .invalid "review output was not valid JSON; emit a tool call or a verdict JSON"
    | some (.dict value) =>
      if (PyDict.get? value "verdict").isSome then .verdict (parseReviewOutput txt loads text)
      else match PyDict.get? value "name" with
        | some name => .tool (name.text txt) (PyDict.getD value "args" (.dict []))
        | none => .invalid "review output must contain a verdict or a tool name"
    | some _ => .invalid "review output must be a JSON object"

end Parsing

/-! ## Obstacles -/

/-- `_checklist_is_explicit`. -/
def checklistIsExplicit (t : TaskState) : Bool :=
  !t.checklist.isEmpty && !t.checklist.all fun item => item ∈ defaultChecklist

/-- The items of the checklist that are not completed. -/
def remainingItems (t : TaskState) : List String :=
  t.checklist.filter fun item => item ∉ t.completedItems

/-- `build_review_obstacles`. -/
def buildReviewObstacles (t : TaskState) (hasWriteOrShell verificationPassed : Bool) :
    List String :=
  (if hasWriteOrShell && !verificationPassed then ["verification"] else []) ++
    (if !(remainingItems t).isEmpty && checklistIsExplicit t then ["checklist"] else []) ++
    (if t.stagnationAudit.any fun entry => .toolRepeatedOrFailed ∈ entry.reasons then ["failed"]
      else [])

/-- `_check_rebuttals`: the feedback mentions evidence. -/
def checkRebuttals (txt : PyText) (feedback : String) : Bool :=
  ["pass", "verified", "complete", "evidence", "test", "通过", "已验"].any fun keyword =>
    pyContains (txt.lower feedback) keyword

/-! ## The prompt -/

/-- The last `n` entries of a list: `items[-n:]`. -/
def lastOf {α : Type} (items : List α) (n : Nat) : List α := items.drop (items.length - n)

/-- `_evidence_summary`. -/
def evidenceSummary (txt : PyText) (t : TaskState) : String :=
  let lines := (lastOf t.evidence 12).map fun item =>
    let paths := "、".intercalate (item.relativePaths.take 3)
    "- [" ++ item.status.text ++ "] " ++ item.toolName.text txt ++ "(" ++
      (if paths = "" then "no path" else paths) ++ "): " ++ pyClip item.summary 120
  if lines.isEmpty then "- (no evidence yet)" else joinLines lines

/-- The acceptance criteria that no program checks. -/
def semanticCriteria (t : TaskState) : List String :=
  (t.stepDoneWhen.filter fun step => step.1 ∉ t.completedItems).flatMap fun step =>
    (step.2.filter fun criterion =>
      ! ["file:", "grep:", "cmd:"].any fun start => pyStartsWith criterion start).map
        fun criterion => "- " ++ step.1 ++ ": " ++ criterion

/-- `_REVIEW_SYSTEM_TEMPLATE`. -/
def reviewSystemTemplate : String :=
  "You are a review subagent inside ThreadForge, called by the runtime. " ++
  "You may run read-only tools (read_file / search) and run_shell to verify " ++
  "the agent's work (e.g. run tests, compile, or inspect files). " ++
  "Do not modify files other than what verification commands produce.\n" ++
  "Decide whether the agent's work is complete.\n" ++
  "This is a control call: emit exactly one JSON object per turn and nothing else.\n" ++
  "- To run a tool first: \x7b\"name\": \"<tool>\", \"args\": \x7b...\x7d\x7d where <tool> is " ++
  "read_file, search, or run_shell. The tool result will be appended, then you " ++
  "can run another tool or emit the verdict.\n" ++
  "- Final verdict: \x7b\"verdict\": \"finalize\" | \"continue\" | \"redirect\", " ++
  "\"feedback\": \"...\", \"reason\": \"...\"\x7d\n" ++
  "- finalize: the task is complete; if obstacles are listed, you MUST rebut " ++
  "each one with concrete evidence from the execution context (e.g. a passed test).\n" ++
  "- continue: work in progress and on track; no direction change needed.\n" ++
  "- redirect: the direction/plan is wrong; give actionable feedback the agent " ++
  "can apply next turn.\n" ++
  "- Direction check: examine the run trail for ineffective exploration: searches " ++
  "with no hits, reads of missing paths, or evidence that does not support the task. " ++
  "If a path looks wrong, verify it with list_files / read_file / search before " ++
  "redirecting, and cite the concrete result you observed.\n" ++
  "Never emit prose outside the JSON object.\n"

/-- What the prompt says of a run that changed nothing. -/
def readOnlyGuidance : String :=
  "\n[Read-only run]: This run performed no write or file-modifying actions " ++
  "(read-only / diagnostic). Judge only direction and answer quality; do NOT " ++
  "require code changes, added tests, or verification to pass. Do not treat " ++
  "'not verified' as an obstacle, and do not push the agent toward a write.\n"

/-- What the caller of a review says about it. -/
structure ReviewRequest where
  userMessage : String
  trigger : String
  hasWriteOrShell : Bool
  verificationPassed : Bool
  priorFeedback : String

/-- A list joined, or `(none)`. -/
def joinedOrNone (separator : String) (items : List String) : String :=
  if items.isEmpty then "(none)" else separator.intercalate items

/-- The first prompt of a review. -/
def reviewContext (txt : PyText) (request : ReviewRequest) (t : TaskState) (runTrail : String)
    (obstacles : List String) : String :=
  reviewSystemTemplate ++ "\n" ++
  "Request: " ++ pyClip request.userMessage 2000 ++ "\n" ++
  "Acceptance criteria (done_when): " ++ joinedOrNone "; " t.doneWhen ++ "\n" ++
  "Run trail (what the agent did this run):\n" ++ pyClip runTrail 4000 ++ "\n" ++
  "Checklist remaining: " ++ toString (remainingItems t).length ++ "\n" ++
  "Evidence summary (per action):\n" ++ evidenceSummary txt t ++ "\n" ++
  "Prior review feedback: " ++ pyClip request.priorFeedback 500 ++ "\n" ++
  "Obstacles that must be rebutted before finalize:\n" ++ joinedOrNone "; " obstacles ++ "\n" ++
  "Semantic acceptance criteria to verify (free-text, cannot be auto-checked; " ++
  "verify each with tools and include the goals you confirmed in " ++
  "completed_steps):\n" ++ joinedOrNone "\n" (semanticCriteria t) ++ "\n" ++
  (if request.hasWriteOrShell then "" else readOnlyGuidance)

section Dumps

mutual

/-- `json.dumps(value, ensure_ascii=False)`. -/
def dumpsPlain (txt : PyText) : PyValue → String
  | .none => "null"
  | .bool b => if b then "true" else "false"
  | .int n => toString n
  | .float x => PyValue.jsonFloat txt x
  | .str s => PyValue.jsonString s
  | .list items => "[" ++ ", ".intercalate (dumpsPlainItems txt items) ++ "]"
  | .dict entries => "\x7b" ++ ", ".intercalate (dumpsPlainEntries txt entries) ++ "\x7d"

def dumpsPlainItems (txt : PyText) : List PyValue → List String
  | [] => []
  | x :: xs => dumpsPlain txt x :: dumpsPlainItems txt xs

def dumpsPlainEntries (txt : PyText) : List (String × PyValue) → List String
  | [] => []
  | (k, x) :: xs =>
    (PyValue.jsonString k ++ ": " ++ dumpsPlain txt x) :: dumpsPlainEntries txt xs

end

end Dumps

/-! ## The tools of the review -/

variable {X : Type} (env : AgentEnv X)

/-- `REVIEW_ALLOWED_TOOLS`, sorted. -/
def reviewAllowedTools : List String := ["list_files", "read_file", "run_shell", "search"]

/-- `type(exc).__name__`. -/
def failureName : Failure → String
  | .cancelled => "RunCancelled"
  | .cleanupFailed => "ProcessCleanupFailed"
  | .raised exc => env.exceptionName exc
  | .outside err => err.typeName

/-- What the first use of arguments that are no object raises. -/
def notADict (tool : ToolName) : Failure :=
  .raised ⟨if tool = .readFile then .typeError else .attributeError, none⟩

/-- `validate_tool` and then the runner. Arguments that are no object but count as false are valid
where empty ones are, and fail in the runner. -/
def validateAndRun (tool : ToolName) (args : PyValue) : AgentM X String :=
  match args with
  | .dict args => do
    onFiles (validateTool env.files tool args)
    let content ← runTool env .review tool args
    pure (clipText content maxToolOutput)
  | args =>
    if args.truthy then Eff.raise (notADict tool)
    else do
      onFiles (validateTool env.files tool [])
      note (.started .review tool)
      Eff.raise (notADict tool)

/-- `_execute_review_tool`. Of all exceptions only a cancellation goes on. -/
def executeReviewTool (name : String) (args : PyValue) : AgentM X String :=
  if name ∉ reviewAllowedTools then
    pure ("error: tool not allowed in review; allowed: " ++ ", ".intercalate reviewAllowedTools)
  else match toolNamed env (.str name) with
    | none => pure ("error: unknown tool '" ++ name ++ "'")
    | some tool =>
      Eff.tryExcept (validateAndRun env tool args) Failure.isNotCancelled fun failure =>
        pure ("error: " ++ failureName env failure ++ ": " ++ failureText env failure)

/-! ## The rounds -/

/-- What a review carries from one round to the next. -/
structure ReviewProgress where
  context : String
  shellOk : Bool := false
  toolRounds : Nat := 0

/-- How the rounds of a review end: with a decision, or because the call of the model failed. -/
inductive ReviewEnd
  | decided (decision : ReviewDecision) (shellOk : Bool)
  | modelFailed (exceptionName : String)

/-- `REVIEW_MAX_STEPS`. -/
def reviewMaxSteps : Nat := 5

/-- The decision of a review that came to no verdict. -/
def stepLimitDecision : ReviewDecision where
  verdict := .redirect
  feedback := "review did not produce a verdict within its step limit"
  reason := "review_step_limit"

/-- The reply of the review model, or the name of what its call raised. -/
def askReviewer (context : String) : AgentM X (Except String PyValue) := do
  let completion ← outerCaught (env.complete .review context) Failure.isNotCancelled
  match completion with
  | .ok completion => pure (.ok completion.reply)
  | .error failure => pure (.error (failureName env failure))

/-- A call of a review: its result goes into the next prompt, and a shell command that ended well
counts as a verification. -/
def reviewToolRound (progress : ReviewProgress) (name : String) (args : PyValue) :
    AgentM X ReviewProgress := do
  let result ← executeReviewTool env name args
  let verified := name = "run_shell" && pyContains result "exit_code: 0"
  Eff.when verified (onTask fun t => { t with reviewVerified := true })
  let rounds := progress.toolRounds + 1
  pure {
    context := progress.context ++ "\n\n[review tool round " ++ toString rounds ++ "] " ++ name ++
      "(" ++ pyClip (dumpsPlain env.txt args) 300 ++ ")\nResult:\n" ++ result
    shellOk := progress.shellOk || verified
    toolRounds := rounds }

/-- What a review does with a reply. -/
def answerReview (progress : ReviewProgress) (raw : PyValue) :
    AgentM X (ReviewProgress ⊕ ReviewEnd) := do
  note (.reviewReply raw)
  match parseReviewAction env.txt env.loads raw with
  | .verdict decision => pure (.inr (.decided decision progress.shellOk))
  | .tool name args => do
    let progress ← reviewToolRound env progress name args
    pure (.inl progress)
  | .invalid message =>
    pure (.inl { progress with context := progress.context ++ "\n\n" ++ message })

/-- The rounds of a review, at most `steps` of them. -/
def reviewRounds : Nat → ReviewProgress → AgentM X ReviewEnd
  | 0, progress => pure (.decided stepLimitDecision progress.shellOk)
  | steps + 1, progress => do
    let reply ← askReviewer env progress.context
    match reply with
    | .error name => pure (.modelFailed name)
    | .ok raw => do
      let next ← answerReview env progress raw
      match next with
      | .inl progress => reviewRounds steps progress
      | .inr ended => pure ended

/-! ## The decision -/

/-- What the runtime makes of a verdict: it takes no `finalize` without a verification where
something was written, nor over obstacles that are not answered. -/
def gateVerdict (txt : PyText) (decision : ReviewDecision)
    (hasWriteOrShell verified : Bool) (obstacles : List String) : ReviewDecision :=
  if decision.verdict = .finalize ∧ hasWriteOrShell = true ∧ verified = false then {
    verdict := .redirect
    feedback := "finalize rejected by runtime gate: this run performed write/shell " ++
      "actions but no verification (test/compile/syntax check) has passed. " ++
      "Run a verification action and include its result in evidence before finishing."
    reason := "verification_gate_unpassed" }
  else if decision.verdict = .finalize ∧ obstacles ≠ [] ∧
      checkRebuttals txt decision.feedback = false then {
    verdict := .redirect
    feedback := "finalize rejected: the runtime listed obstacles that must be " ++
      "rebutted with evidence before finishing. Obstacles: " ++ "; ".intercalate obstacles
    reason := "unrebutted_obstacles" }
  else decision

/-- One more entry of `review_audit`. -/
def TaskState.recordReview (t : TaskState) (trigger : String) (decision : ReviewDecision)
    (obstacles : List String) : TaskState :=
  { t with
    reviewAudit := t.reviewAudit ++ [{
      seq := t.reviewAudit.length + 1
      trigger := trigger
      verdict := decision.verdict.text
      feedback := pyClip decision.feedback 1000
      reason := pyClip decision.reason 500
      obstacles := obstacles
      failed := decision.failed }] }

/-- The end of a review: its decision is traced and recorded. -/
def recordDecision (event : String) (request : ReviewRequest) (decision : ReviewDecision)
    (obstacles : List String) : AgentM X ReviewDecision := do
  emitTrace env event
  onTask fun t => t.recordReview request.trigger decision obstacles
  writeTaskState env
  pure decision

/-- `agent.history_text()`, or nothing where it raises. -/
def runTrail : AgentM X String := do
  let s ← Eff.get
  let trail ← outerCaught (env.historyText s.history) fun _ => true
  match trail with
  | .ok trail => pure trail
  | .error _ => pure ""

/-- `run_review`. -/
def runReview (request : ReviewRequest) : AgentM X ReviewDecision := do
  let t ← task
  let obstacles := buildReviewObstacles t request.hasWriteOrShell request.verificationPassed
  let trail ← runTrail env
  let ended ← reviewRounds env reviewMaxSteps
    { context := reviewContext env.txt request t trail obstacles }
  match ended with
  | .modelFailed name =>
    recordDecision env "review_failed" request
      { verdict := .proceed, reason := "review model call failed: " ++ name, failed := true }
      obstacles
  | .decided decision shellOk =>
    recordDecision env "review_completed" request
      (gateVerdict env.txt decision request.hasWriteOrShell
        (request.verificationPassed || t.reviewVerified || shellOk) obstacles)
      obstacles

@[simp] theorem outcome_recordReview (t : TaskState) (trigger : String)
    (decision : ReviewDecision) (obstacles : List String) :
    (t.recordReview trigger decision obstacles).outcome = t.outcome := rfl

end ThreadForge

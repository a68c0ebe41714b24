import ThreadForge.Pico.Agent

/-!
# Executing one tool call

`tool_executor.py`, with the shell runner of `tools.py` and the snapshots of `runtime.py`. A call is
admitted (validation, repetition, hooks, approval), performed, and concluded (what changed, memory,
hooks). The three parts are apart because threads of one batch meet between them.

## Permission

A `ReadyCall` is a call that may be performed. It says of itself that it is not risky, or that the
agent does not refuse risky tools; `approveOutcome` is where that comes from.
-/

namespace ThreadForge

open AgentM

/-! ## The text of a shell result -/

/-- A space or a tab. -/
def isBlankChar (c : Char) : Bool := c = ' ' || c = '\t'

/-- What two texts have in common at their start. -/
def commonStart : List Char → List Char → List Char
  | a :: as, b :: bs => if a = b then a :: commonStart as bs else []
  | _, _ => []

/-- `textwrap.dedent`. -/
def dedent (text : String) : String :=
  let lines := (PyChars.splitOn '\n' [] text.toList).map fun line =>
    if line.all isBlankChar then [] else line
  match (lines.filter (· ≠ [])).map (List.takeWhile isBlankChar) with
  | [] => joinLines (lines.map String.ofList)
  | first :: rest =>
    let margin := rest.foldl commonStart first
    joinLines (lines.map fun line => String.ofList (line.drop margin.length))

/-- `result.stdout.strip() or "(empty)"`. -/
def shownStream (txt : PyText) (stream : String) : String :=
  let stripped := pyStrip txt stream
  if stripped = "" then "(empty)" else stripped

/-- What `tool_run_shell` returns. -/
def shellText (txt : PyText) (timeout : Nat) (result : ShellResult) : String :=
  let indent := "        "
  pyStrip txt (dedent
    (indent ++ "exit_code: " ++ toString result.returncode ++ "\n" ++
      indent ++ "stdout:\n" ++ indent ++ shownStream txt result.stdout ++ "\n" ++
      indent ++ "stderr:\n" ++ indent ++ shownStream txt result.stderr ++ "\n" ++ indent)) ++
    (if result.timedOut then "\n[tool timed out after " ++ toString timeout ++ "s]" else "") ++
    (if result.outputTruncated then "\n[output truncated]" else "")

/-- `exit_code:\s*(-?\d+)` at the start of a text. -/
def exitCodeAt (txt : PyText) (cs : List Char) : Option Int :=
  if "exit_code:".toList.isPrefixOf cs then
    let value := (cs.drop 10).dropWhile txt.isSpace
    let digits (cs : List Char) : Option Nat :=
      PyValue.digitsValue txt (cs.takeWhile fun c => (txt.digit c).isSome) none
    match value with
    | '-' :: rest => (digits rest).map fun n => -(n : Int)
    | rest => (digits rest).map fun n => (n : Int)
  else none

/-- The exit code that the text of a shell result names: 0 where it names none. -/
def exitCodeOf (txt : PyText) : List Char → Int
  | [] => 0
  | c :: cs => (exitCodeAt txt (c :: cs)).getD (exitCodeOf txt cs)

/-! ## Results -/

/-- `ToolExecutionResult`. -/
structure ToolResult where
  content : String
  status : ToolStatus
  errorCode : String := ""
  securityEvent : String := ""
  highRisk : Bool := false
  readOnly : Bool := true
  affectedPaths : List String := []
  diffSummary : List String := []
  deriving DecidableEq, Repr

/-- `workspace_changed`. -/
def ToolResult.workspaceChanged (result : ToolResult) : Bool := !result.affectedPaths.isEmpty

/-! ## Snapshots -/

/-- The digests of files, by their path. -/
abbrev Snapshot := List (String × String)

variable {X : Type} (env : AgentEnv X)

/-- `capture_workspace_snapshot`. -/
def captureWorkspaceSnapshot (t : FileTree) : Snapshot :=
  t.nodes.filterMap fun entry =>
    let relative := entry.1.drop env.files.root.length
    if env.files.root.isPrefixOf entry.1 ∧ relative ≠ [] ∧
        ∀ part ∈ relative, part ∉ ignoredPathNames then
      (t.content? entry.1).map fun content => ("/".intercalate relative, env.digest content)
    else none

/-- `capture_path_snapshot`. -/
def capturePathSnapshot (t : FileTree) (key : String) : Snapshot :=
  match picoPathIn env.files t (.str key) with
  | .ok path => ((t.content? path).map fun content => (key, env.digest content)).toList
  | .error _ => []

/-- The snapshot for a call: of one path where it names one, else of the workspace. -/
def captureSnapshot (t : FileTree) (tool : ToolName) (path : String) : Snapshot :=
  if !tool.risky then []
  else if path = "" then captureWorkspaceSnapshot env t
  else capturePathSnapshot env t path

/-- `diff_workspace_snapshots`: the paths that changed, and how. -/
def diffSnapshots (before after : Snapshot) : List String × List String :=
  let paths := (((before ++ after).map Prod.fst).dedup.insertionSort (· ≤ ·)).filter fun path =>
    before.lookup path ≠ after.lookup path
  (paths, paths.map fun path =>
    if (before.lookup path).isNone then "created:" ++ path
    else if (after.lookup path).isNone then "deleted:" ++ path
    else "modified:" ++ path)

/-- The path of a call whose snapshot is taken alone. -/
def snapshotPathOf (args : PyDict) : String :=
  match args.get? "path" with
  | some (.str path) => pyReplace (pyStrip env.txt path) "\\" "/"
  | _ => ""

/-! ## Names -/

/-- `agent.allowed_tools is None or name in agent.allowed_tools`. -/
def isAllowed (name : PyValue) : Bool :=
  match env.allowedTools with
  | none => true
  | some allowed => allowed.any fun tool => name = .str tool

/-- `agent.tools.get(name)`. -/
def toolNamed (name : PyValue) : Option ToolName :=
  match name with
  | .str text => if isAllowed env (.str text) then ToolName.ofText? text else none
  | _ => none

theorem toolNamed_eq_some {name : PyValue} {tool : ToolName} (h : toolNamed env name = some tool) :
    name = .str tool.text := by
  unfold toolNamed at h
  split at h
  · next text =>
    split at h
    · rw [ToolName.text_of_ofText? h]
    · cases h
  · cases h

/-- `TOOL_EXAMPLES`. -/
def toolExample : ToolName → String
  | .listFiles => "<tool>\x7b\"name\":\"list_files\",\"args\":\x7b\"path\":\".\"\x7d\x7d</tool>"
  | .readFile =>
    "<tool>\x7b\"name\":\"read_file\",\"args\":\x7b\"path\":\"README.md\",\"start\":1,\"end\":80\x7d\x7d</tool>"
  | .search =>
    "<tool>\x7b\"name\":\"search\",\"args\":\x7b\"pattern\":\"binary_search\",\"path\":\".\"\x7d\x7d</tool>"
  | .runShell =>
    "<tool>\x7b\"name\":\"run_shell\",\"args\":\x7b\"command\":\"uv run --with pytest python -m pytest -q\",\"timeout\":20\x7d\x7d</tool>"
  | .writeFile =>
    "<tool name=\"write_file\" path=\"binary_search.py\"><content>def binary_search(nums, target):\n    return -1\n</content></tool>"
  | .patchFile =>
    "<tool name=\"patch_file\" path=\"binary_search.py\"><old_text>return -1</old_text><new_text>return mid</new_text></tool>"

/-! ## Repetition -/

section PyEq

mutual

/-- `a == b` of two values: a dictionary is compared whatever the order of its entries. -/
def pyEq : PyValue → PyValue → Bool
  | .list as, .list bs => pyEqList as bs
  | .dict as, .dict bs => as.length == bs.length && pyEqEntries as bs
  | a, b => scalarEq a b

def pyEqList : List PyValue → List PyValue → Bool
  | [], [] => true
  | a :: as, b :: bs => pyEq a b && pyEqList as bs
  | _, _ => false

def pyEqEntries : List (String × PyValue) → List (String × PyValue) → Bool
  | [], _ => true
  | (key, a) :: rest, bs =>
    (match bs.lookup key with
      | some b => pyEq a b
      | none => false) && pyEqEntries rest bs

end

end PyEq

/-- The name is one of `_READ_ONLY_TOOL_NAMES`. -/
def isReadOnlyName (name : PyValue) : Bool := readOnlyToolNames.any fun tool => name = .str tool

/-- The tool calls of the history. -/
def toolEvents (history : List HistoryItem) : List (PyValue × PyDict) :=
  history.filterMap fun item =>
    match item with
    | .tool name args _ => some (name, args)
    | .message _ _ => none

/-- A call of the list equals this one, and no call after it may have changed the workspace. -/
def repeatsCall (name : PyValue) (args : PyDict) : List (PyValue × PyDict) → Bool
  | [] => false
  | (name', args') :: tail =>
    (pyEq name' name &&
      pyEq (.dict (normalizeToolArgs env.txt name args')) (.dict (normalizeToolArgs env.txt name args)) &&
      tail.all fun call => isReadOnlyName call.1) || repeatsCall name args tail

/-- `repeated_tool_call`. -/
def repeatedToolCall (history : List HistoryItem) (name : PyValue) (args : PyDict) : Bool :=
  let events := toolEvents history
  !isReadOnlyName name && 2 ≤ events.length &&
    repeatsCall env name args (events.drop (events.length - 6))

/-! ## Approval -/

/-- `approve_outcome`: nothing is approved when the agent refuses every risky tool. -/
def approveOutcome (request : ApprovalRequest) :
    AgentM X { outcome : ApprovalOutcome // outcome = .approved → env.refusing = false } :=
  if hread : env.readOnly = true then pure ⟨.rejected, fun h => by cases h⟩
  else
    match hdecide : env.strategy.decide request with
    | some outcome =>
      pure ⟨outcome, fun h => by
        have hstrategy : env.strategy ≠ .never := by
          intro hnever
          rw [hnever, h] at hdecide
          cases hdecide
        rw [AgentEnv.refusing, decide_eq_false hstrategy, Bool.or_false]
        exact Bool.eq_false_iff.mpr hread⟩
    | none => do
      let outcome ← outer (env.ask request)
      pure ⟨outcome, fun _ => by
        have hstrategy : env.strategy ≠ .never := by
          intro hnever
          rw [hnever] at hdecide
          cases hdecide
        rw [AgentEnv.refusing, decide_eq_false hstrategy, Bool.or_false]
        exact Bool.eq_false_iff.mpr hread⟩

/-! ## Admission -/

/-- A call that may be performed: its tool, and the files before it. -/
structure ReadyCall (env : AgentEnv X) (name : PyValue) where
  tool : ToolName
  named : name = .str tool.text
  permitted : tool.risky = true → env.refusing = false
  snapshotPath : String
  before : Snapshot

/-- `_record_sandbox_violation`. -/
def recordSandboxViolation : AgentM X Unit := do
  onTask TaskState.recordSandboxViolation
  writeTaskState env
  emitTrace env "sandbox_violation"

/-- `str(exc)`. -/
def failureText : Failure → String
  | .raised exc => env.files.text exc
  | .outside err => err.message
  | _ => ""

/-- `validate_tool`: the text of the exception, where it raises. -/
def validationProblem (tool : ToolName) (args : PyDict) : AgentM X (Option String) :=
  Eff.tryExcept
    (do
      onFiles (validateTool env.files tool args)
      pure none)
    (fun _ => true) fun failure => pure (some (failureText env failure))

/-- `"path escapes workspace" in str(exc)`. -/
def escapeEvent (problem : String) : String :=
  if pyContains problem "path escapes workspace" then "path_escape" else ""

/-- The result of a call whose arguments are not valid. -/
def rejectInvalid (tool : ToolName) (problem : String) : AgentM X ToolResult := do
  Eff.when (escapeEvent problem ≠ "") (recordSandboxViolation env)
  pure {
    content := "error: invalid arguments for " ++ tool.text ++ ": " ++ problem ++ "\nexample: " ++
      toolExample tool
    status := .rejected
    errorCode := "invalid_arguments"
    securityEvent := escapeEvent problem
    highRisk := tool.risky
    readOnly := !tool.risky }

/-- The result of a call that was not approved. -/
def rejectUnapproved (content errorCode securityEvent : String) : AgentM X ToolResult := do
  service env .afterTool
  pure {
    content := content
    status := .rejected
    errorCode := errorCode
    securityEvent := securityEvent
    highRisk := true
    readOnly := false }

/-- The last steps before a call is performed. -/
def prepareCall {name : PyValue} (tool : ToolName) (named : name = .str tool.text)
    (permitted : tool.risky = true → env.refusing = false) (args : PyDict) :
    AgentM X (ToolResult ⊕ ReadyCall env name) := do
  raiseIfCancelled env
  service env .beforeTool
  let s ← Eff.get
  let path := snapshotPathOf env args
  pure (.inr ⟨tool, named, permitted, path, captureSnapshot env s.world.files tool path⟩)

/-- The approval of a risky call. -/
def approveCall {name : PyValue} (tool : ToolName) (named : name = .str tool.text) (args : PyDict) :
    AgentM X (ToolResult ⊕ ReadyCall env name) := do
  let outcome ← approveOutcome env { name := tool.text, args := args }
  match outcome with
  | ⟨.approved, happroved⟩ => prepareCall env tool named (fun _ => happroved rfl) args
  | ⟨.cancelled, _⟩ => Eff.raise .cancelled
  | ⟨.expired, _⟩ =>
    let result ← rejectUnapproved env ("error: approval expired for " ++ tool.text)
      "approval_expired" "approval_denied"
    pure (.inl result)
  | ⟨.rejected, _⟩ =>
    Eff.when env.readOnly (recordSandboxViolation env)
    let result ← rejectUnapproved env ("error: approval denied for " ++ tool.text)
      "approval_denied" (if env.readOnly then "read_only_block" else "approval_denied")
    pure (.inl result)

/-- The first part of `execute`: a result, or a call that may be performed. -/
def admitCall (name : PyValue) (args : PyDict) : AgentM X (ToolResult ⊕ ReadyCall env name) :=
  if !isAllowed env name then do
    recordSandboxViolation env
    pure (.inl {
      content := "error: tool '" ++ name.text env.txt ++ "' is not allowed in this run"
      status := .rejected
      errorCode := "tool_not_allowed"
      securityEvent := "tool_not_allowed"
      highRisk := true
      readOnly := false })
  else
    match hname : toolNamed env name with
    | none =>
      pure (.inl {
        content := "error: unknown tool '" ++ name.text env.txt ++ "'"
        status := .rejected
        errorCode := "unknown_tool"
        highRisk := true
        readOnly := false })
    | some tool => do
      let problem ← validationProblem env tool args
      match problem with
      | some problem =>
        let result ← rejectInvalid env tool problem
        pure (.inl result)
      | none =>
        let s ← Eff.get
        if repeatedToolCall env s.history name args then
          pure (.inl {
            content := "error: repeated identical tool call for " ++ tool.text ++
              "; choose a different tool or return a final answer"
            status := .rejected
            errorCode := "repeated_identical_call"
            highRisk := tool.risky
            readOnly := !tool.risky })
        else do
          service env .toolRequested
          if hrisky : tool.risky = true then
            approveCall env tool (toolNamed_eq_some env hname) args
          else
            prepareCall env tool (toolNamed_eq_some env hname) (fun h => absurd h hrisky) args

/-! ## Performance -/

/-- `tool_run_shell`. -/
def runShell (route : Route) (args : PyDict) : AgentM X String := do
  let (command, timeout) ← onFiles (Eff.ofExcept (shellArguments env.files args))
  let result ← outer (env.shell command timeout)
  if !result.cleanupSucceeded then do
    note (.cleanupFailed route)
    Eff.raise .cleanupFailed
  else if result.cancelled then Eff.raise .cancelled
  else pure (shellText env.txt timeout result)

/-- `tool["run"](args)`. -/
def runTool (route : Route) (tool : ToolName) (args : PyDict) : AgentM X String := do
  note (.started route tool)
  if tool = .runShell then runShell env route args
  else do
    let oracle ← observe env.oracle
    onFiles (runFileTool env.files oracle tool args)

/-- The second part of `execute`: what the runner returned, or the text of what it raised. -/
def perform {name : PyValue} (route : Route) (call : ReadyCall env name) (args : PyDict) :
    AgentM X (Except String String) :=
  Eff.tryExcept
    (do
      let content ← runTool env route call.tool args
      pure (.ok (clipText content maxToolOutput)))
    Failure.isError fun failure => pure (.error (failureText env failure))

/-! ## Conclusion -/

/-- `update_memory_after_tool`. -/
def updateMemoryAfterTool (name : PyValue) (args : PyDict) (content : String) : AgentM X Unit :=
  Eff.when (env.memory && (args.getD "path" .none).truthy) (layer env (.toolMemory name args content))

/-- `record_process_note_for_tool`. -/
def recordProcessNote (name : PyValue) (status : ToolStatus) (affected : List String) :
    AgentM X Unit :=
  let paths := ", ".intercalate ((affected.map (pyStrip env.txt)).filter (· ≠ ""))
  let place := if paths = "" then "workspace" else paths
  match status with
  | .ok => pure ()
  | .partialSuccess =>
    layer env (.note (name.text env.txt ++ " partial_success on " ++ place ++
      "; inspect diff before retry"))
  | .error =>
    layer env (.note (name.text env.txt ++ " error on " ++ place ++
      "; check the failure before retry"))
  | .rejected =>
    layer env (.note (name.text env.txt ++ " rejected; choose a different action before retry"))

/-- The status of a call that returned: the text of a shell result says how the command ended. -/
def statusOf (tool : ToolName) (content : String) (changed : Bool) : ToolStatus × String :=
  if tool ≠ .runShell then (.ok, "")
  else if pyContains content "[tool timed out" then
    (if changed then .partialSuccess else .error, "tool_timeout")
  else if exitCodeOf env.txt content.toList = 0 then (.ok, "")
  else if changed then (.partialSuccess, "tool_partial_success")
  else (.error, "tool_failed")

/-- The last part of `execute`, where the runner raised. -/
def concludeFailed {name : PyValue} (call : ReadyCall env name) (problem : String) :
    AgentM X ToolResult := do
  let s ← Eff.get
  let (affected, summary) := diffSnapshots call.before
    (captureSnapshot env s.world.files call.tool call.snapshotPath)
  let status := if affected.isEmpty then ToolStatus.error else .partialSuccess
  Eff.when (escapeEvent problem ≠ "") (recordSandboxViolation env)
  recordProcessNote env name status affected
  service env .afterTool
  pure {
    content := "error: tool " ++ call.tool.text ++ " failed: " ++ problem
    status := status
    errorCode := if affected.isEmpty then "tool_failed" else "tool_partial_success"
    securityEvent := escapeEvent problem
    highRisk := call.tool.risky
    readOnly := !call.tool.risky
    affectedPaths := affected
    diffSummary := summary }

/-- The last part of `execute`, where the runner returned. -/
def concludeReturned {name : PyValue} (call : ReadyCall env name) (args : PyDict)
    (content : String) : AgentM X ToolResult := do
  let s ← Eff.get
  let (affected, summary) := diffSnapshots call.before
    (captureSnapshot env s.world.files call.tool call.snapshotPath)
  let (status, errorCode) := statusOf env call.tool content !affected.isEmpty
  updateMemoryAfterTool env name args content
  recordProcessNote env name status affected
  service env .afterTool
  pure {
    content := content
    status := status
    errorCode := errorCode
    highRisk := call.tool.risky
    readOnly := !call.tool.risky
    affectedPaths := affected
    diffSummary := summary }

/-- The last part of `execute`. -/
def conclude {name : PyValue} (call : ReadyCall env name) (args : PyDict) :
    Except String String → AgentM X ToolResult
  | .ok content => concludeReturned env call args content
  | .error problem => concludeFailed env call problem

/-- `execute`. -/
def ToolExecutor.execute (route : Route) (name : PyValue) (args : PyDict) : AgentM X ToolResult := do
  let admitted ← admitCall env name args
  match admitted with
  | .inl result => pure result
  | .inr call =>
    let outcome ← perform env route call args
    conclude env call args outcome

/-! ## The summary of a result -/

/-- `summarize_tool_result`, without the note it leaves in the memory. -/
def toolSummary (name : PyValue) (result : ToolResult) : String :=
  let present (items : List String) := items.filter fun item => pyStrip env.txt item ≠ ""
  let paths := present result.affectedPaths
  let changes := present result.diffSummary
  let shown := redactText env (clipText result.content 600)
  clipText ("; ".intercalate
    ([name.text env.txt ++ ": " ++ result.status.text] ++
      (if paths.isEmpty then [] else ["paths=" ++ ", ".intercalate (paths.take 20)]) ++
      (if changes.isEmpty then [] else ["changes=" ++ ", ".intercalate (changes.take 20)]) ++
      (if isReadOnlyName name ∧ shown ≠ "" then ["evidence=" ++ shown] else []))) 900

/-- `summarize_tool_result`. -/
def summarizeToolResult (name : PyValue) (result : ToolResult) : AgentM X String := do
  let summary := toolSummary env name result
  layer env (.note summary)
  pure summary

end ThreadForge

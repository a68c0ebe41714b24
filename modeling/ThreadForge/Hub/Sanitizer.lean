import ThreadForge.Hub.TaskEdits
import ThreadForge.Worker.Streaming

/-!
# What the hub keeps of an event

`_sanitize_event_data` decides which fields of a Worker event are shown and stored. The texts among
them are redacted: every value of a secret environment variable is replaced, the longest first.

## What is left out

The branches of the event types without such a text (plans, reviews, the state of the agent, the
sandbox, and the rounds of the model but for their end) are one function, `SanitizerEnv.others`.
-/

namespace ThreadForge

/-- What the sanitizer finds in the process and the language. -/
structure SanitizerEnv where
  txt : PyText
  /-- `str.upper`. -/
  upper : String → String
  /-- The values of `detected_secret_env_items`, by the names of their variables. -/
  secrets : List String
  others : String → PyDict → PyDict

namespace Sanitizer

variable (env : SanitizerEnv)

/-! ## `security.py` -/

/-- `is_secret_env_name`, where no further names are configured. -/
def isSecretName (name : String) : Bool :=
  sensitiveEnvNameMarkers.any fun marker => pyEndsWith (env.upper name) marker

/-- `redact_text`. -/
def redactText (text : String) : String :=
  String.ofList (redactChars (env.secrets.map String.toList) text.toList)

mutual

/-- `redact_artifact` of a value under a key. -/
def redactArtifact (key : String) : PyValue → PyValue
  | .dict entries =>
    if key ≠ "" ∧ isSecretName env key = true then .str redactedValue
    else .dict (redactEntries entries)
  | .list items =>
    if key ≠ "" ∧ isSecretName env key = true then .str redactedValue
    else .list (redactItems key items)
  | .str s =>
    if key ≠ "" ∧ isSecretName env key = true then .str redactedValue
    else .str (redactText env s)
  | value => if key ≠ "" ∧ isSecretName env key = true then .str redactedValue else value

def redactEntries : List (String × PyValue) → List (String × PyValue)
  | [] => []
  | (key, value) :: rest => (key, redactArtifact key value) :: redactEntries rest

def redactItems (key : String) : List PyValue → List PyValue
  | [] => []
  | value :: rest => redactArtifact key value :: redactItems key rest

end

/-- `_clip_public_text`: the text, and whether something of it was cut off. -/
def clipPublicText (value : PyValue) (limit : Nat) : String × Bool :=
  let text := redactText env (value.text env.txt)
  if text.length ≤ limit then (text, false)
  else (pyClip text (limit - 20) ++ "\n...[truncated]", true)

/-- `PUBLIC_TOOL_RESULT_TOOLS`, the tools of which a result may be shown. -/
def publicToolResultTools : List String :=
  ["list_files", "read_file", "search", "delegate", "run_shell"]

/-- `_PUBLIC_TOOL_ARG_FIELDS`, for the tools of `PUBLIC_TOOL_ARG_TOOLS`. -/
def publicToolArgFields : List (String × List String) :=
  [("list_files", ["path"]), ("read_file", ["path", "start", "end"]),
   ("search", ["pattern", "path"]), ("delegate", ["task", "max_steps"]), ("run_shell", ["command"])]

/-- One argument of `public_tool_args_preview`. -/
def publicToolArg : PyValue → PyValue
  | .str s => .str (clipPublicText env (.str s) 1200).1
  | .bool b => .bool b
  | .int n => .int n
  | value => .str (pyClip (value.text env.txt) 1200)

/-- `public_tool_args_preview`. -/
def publicToolArgsPreview (toolName : String) (args : PyValue) : PyDict :=
  match publicToolArgFields.lookup toolName, args with
  | some fields, .dict entries =>
    redactEntries env (fields.filterMap fun field =>
      (PyDict.get? entries field).map fun value => (field, publicToolArg env value))
  | _, _ => []

/-- `public_tool_result_preview`. -/
def publicToolResultPreview (toolName : String) (content : PyValue) : String × Bool :=
  if toolName ∉ publicToolResultTools ∨ content = .none then ("", false)
  else clipPublicText env content 8000

/-! ## `_sanitize_event_data` -/

/-- `_safe_relative_path`. -/
def safeRelativePath (value : PyValue) : Option String :=
  let text := pyReplace (value.text env.txt) "\\" "/"
  if text = "" ∨ 500 < text.length ∨ pyStartsWith text "/" = true ∨
      pyStartsWith text "~/" = true then
    none
  else
    let parts := (pySplit text '/').filter fun part => part ≠ "" ∧ part ≠ "."
    if pyContains ((pySplit text '/').headD "") ":" = true ∨ ".." ∈ parts then none
    else some ("/".intercalate parts)

/-- A text of the event, cut and then redacted. -/
def safeText (data : PyDict) (limit : Nat) : PyValue :=
  redactArtifact env "" (.str (clippedText env.txt data "text" limit))

/-- The counters of `usage` that are kept. A truth value is an `int` here. -/
def safeUsage (usage : PyDict) : PyDict :=
  usage.filter fun (key, value) =>
    ["input_tokens", "output_tokens", "total_tokens", "cached_tokens"].contains key &&
      match value with
      | .int n => decide (0 ≤ n)
      | .bool _ => true
      | _ => false

/-- The branch of `model.completed`. -/
def safeModelCompleted (data : PyDict) : PyDict :=
  match data.getD "usage" (.dict []) with
  | .dict usage =>
    [("usage", .dict (safeUsage usage)),
     ("round_id", .str (clippedText env.txt data "round_id" 64)),
     ("started_at", .str (clippedText env.txt data "started_at" 64)),
     ("ended_at", .str (clippedText env.txt data "ended_at" 64)),
     ("text", safeText env data 4000)]
  | _ => [("usage", .dict [])]

/-- The fields of an event about a tool that has come to its end. -/
def safeToolEnd (toolName : String) (data : PyDict) : PyDict :=
  let paths := match data.getD "affected_paths" (.list []) with
    | .list items => (items.take 100).filterMap fun item => (safeRelativePath env item).map .str
    | _ => []
  let preview := publicToolResultPreview env toolName (data.getD "result_preview" (.str ""))
  [("tool_status", .str (clippedText env.txt data "tool_status" 50)),
   ("tool_error_code", .str (clippedText env.txt data "tool_error_code" 100)),
   ("ended_at", .str (clippedText env.txt data "ended_at" 64)),
   ("affected_paths", .list paths)] ++
  if preview.1 = "" then []
  else [("result_preview", .str preview.1), ("result_truncated",
    .bool (preview.2 || (data.getD "result_truncated" (.bool false)).truthy))]

/-- The last branch: an event about a tool, before it is redacted as a whole. -/
def safeTool (eventType : String) (data : PyDict) : PyDict :=
  let toolName := clippedText env.txt data "tool_name" 100
  let args := publicToolArgsPreview env toolName (data.getD "args_preview" (.dict []))
  [("tool_call_id", .str (clippedText env.txt data "tool_call_id" 200)),
   ("tool_name", .str toolName)] ++
  (if eventType = "tool.started" ∨ eventType = "tool.completed" ∨ eventType = "tool.failed" then
    [("parent_event_id", .str (clippedText env.txt data "parent_event_id" 64)),
     ("started_at", .str (clippedText env.txt data "started_at" 64))] else []) ++
  (if eventType = "tool.completed" ∨ eventType = "tool.failed" then safeToolEnd env toolName data
    else []) ++
  (if eventType = "tool.requested" ∧ args ≠ [] then [("args_preview", .dict args)] else []) ++
  if eventType = "policy.violation" then
    [("policy_code", .str (clippedText env.txt data "policy_code" 100))] else []

/-- `_sanitize_event_data`. -/
def sanitizeEventData (eventType : String) (data : PyDict) : PyDict :=
  if eventType = "model.completed" then safeModelCompleted env data
  else if eventType = "assistant.delta" ∨ eventType = "assistant.thinking" ∨
      eventType = "message.completed" then [("text", safeText env data 4000)]
  else if eventType = "assistant.commentary" then [("text", safeText env data 1000)]
  else if pyStartsWith eventType "tool." = true ∨ eventType = "policy.violation" then
    redactEntries env (safeTool env eventType data)
  else env.others eventType data

end Sanitizer

end ThreadForge

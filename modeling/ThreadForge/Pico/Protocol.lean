import ThreadForge.Lib.PyString

/-!
# What the model says

`Pico.parse`: the reply of the model, a text or a native tool call, is taken apart into one
decision. A text may hold a call as JSON, as `<tool>` around JSON, or as a `<tool …>` element with
attributes; a `<talk>` update; or a `<final>` answer.

## The one exception

`parse_json_tool` reads `.get` off `tool_calls[0]["function"]` without asking whether it is an
object. `parseJsonTool_ok_iff` says that this is all that can go wrong.
-/

namespace ThreadForge

/-- `json.loads`: `none` where it raises. -/
abbrev JsonLoads := String → Option PyValue

/-- What `Pico.parse` returns. -/
inductive Decision
  | tool (name : PyValue) (args : PyDict)
  | toolBatch (tools : List (PyValue × PyDict))
  | talk (text : String)
  | final (text : String)
  | retry (notice : String)
  deriving Repr

/-- `retry_notice`. -/
def retryNotice (problem : String := "") : String :=
  (if problem = "" then "Runtime notice: model returned malformed tool output"
    else "Runtime notice: " ++ problem) ++
  ". Reply with one non-empty <talk>, a valid <tool> call, or a non-empty <final> answer. " ++
  "For multi-line files, prefer " ++
  "<tool name=\"write_file\" path=\"file.py\"><content>...</content></tool>."

variable (txt : PyText) (loads : JsonLoads)

/-! ## Tags -/

/-- `extract_raw`: what stands between the tags; all of the text without the first, and all the rest
without the second. -/
def extractRaw (text tag : String) : String :=
  match PyChars.breakAt ("<" ++ tag ++ ">").toList text.toList with
  | none => text
  | some (_, rest) =>
    match PyChars.breakAt ("</" ++ tag ++ ">").toList rest with
    | none => String.ofList rest
    | some (body, _) => String.ofList body

/-- `extract`. -/
def extractTag (text tag : String) : String :=
  match PyChars.breakAt ("<" ++ tag ++ ">").toList text.toList with
  | none => text
  | some _ => pyStrip txt (extractRaw text tag)

/-- The text without its Markdown fence. -/
def unfenced (text : String) : String :=
  let lines := pySplitLines text
  if lines.length ≥ 3 then pyStrip txt (joinLines (lines.tail.dropLast)) else text

/-- `"a" in raw and ("b" not in raw or raw.find("a") < raw.find("b"))`. -/
def standsBefore (raw a b : String) : Bool :=
  match pyFind? raw a, pyFind? raw b with
  | some i, some j => i < j
  | some _, none => true
  | none, _ => false

/-! ## Tool calls as JSON -/

/-- The object that a wrapper of an OpenAI-compatible proxy holds. It need not be an object. -/
def unwrapCall (value : PyDict) : PyValue :=
  match value.get? "tool_call" with
  | some (.dict call) => .dict call
  | _ =>
    match value.get? "tool_calls" with
    | some (.list (first :: _)) =>
      match first with
      | .dict call => PyDict.getD call "function" (.dict call)
      | _ => .dict value
    | _ =>
      match value.get? "function" with
      | some (.dict call) => .dict call
      | _ => .dict value

/-- The name and the arguments of a call object. -/
def callOfDict (call : PyDict) : Option (String × PyDict) :=
  let name := pyStrip txt
    ((((call.getD "name" .none).or (call.getD "tool" .none)).or (.str "")).text txt)
  if name = "" then none
  else
    let args := call.getD "args" (call.getD "arguments" (.dict []))
    let decoded := match args with
      | .str text => loads text
      | value => some value
    match decoded with
    | some .none => some (name, [])
    | some (.dict args) => some (name, args)
    | _ => none

/-- The JSON object that is all of a reply. -/
def wholeObject (raw : String) : Option PyDict :=
  let stripped := pyStrip txt raw
  let text :=
    if pyStartsWith stripped "```" && pyEndsWith stripped "```" then unfenced txt stripped
    else stripped
  if pyStartsWith text "\x7b" && pyEndsWith text "\x7d" then
    match loads text with
    | some (.dict value) => some value
    | _ => none
  else none

/-- `parse_json_tool`. -/
def parseJsonTool (raw : String) : Except PyError (Option (String × PyDict)) :=
  match wholeObject txt loads raw with
  | none => .ok none
  | some value =>
    match unwrapCall value with
    | .dict call => .ok (callOfDict txt loads call)
    | _ => .error .attributeError

/-! ## Tool calls as XML -/

/-- A letter or an underscore. -/
def isNameStart (c : Char) : Bool :=
  c = '_' || ('a' ≤ c && c ≤ 'z') || ('A' ≤ c && c ≤ 'Z')

def isNameChar (c : Char) : Bool := isNameStart c || ('0' ≤ c && c ≤ '9')

/-- A quoted value, and what is left. -/
def quotedValue : List Char → Option (String × List Char)
  | c :: cs =>
    if c = '"' ∨ c = '\'' then
      (PyChars.breakAt [c] cs).map fun parts => (String.ofList parts.1, parts.2)
    else none
  | [] => none

/-- `name = "value"` at the start of a text, and what is left. -/
def attributeAt (cs : List Char) : Option ((String × String) × List Char) :=
  match cs with
  | c :: _ =>
    if isNameStart c then
      match (cs.dropWhile isNameChar).dropWhile txt.isSpace with
      | '=' :: rest =>
        (quotedValue (rest.dropWhile txt.isSpace)).map fun parts =>
          ((String.ofList (cs.takeWhile isNameChar), parts.1), parts.2)
      | _ => none
    else none
  | [] => none

/-- `parse_attrs`, with the number of characters it may still look at. -/
def parseAttrs : Nat → List Char → PyDict → PyDict
  | 0, _, attrs => attrs
  | _, [], attrs => attrs
  | fuel + 1, c :: cs, attrs =>
    match attributeAt txt (c :: cs) with
    | some ((name, value), rest) => parseAttrs fuel rest (attrs.set name (.str value))
    | none => parseAttrs fuel cs attrs

/-- The attributes and the body of the first `<tool …>…</tool>`. -/
def toolElement (raw : String) : Option (String × String) :=
  match PyChars.breakAt "<tool".toList raw.toList with
  | none => none
  | some (_, rest) =>
    match PyChars.breakAt ['>'] rest with
    | none => none
    | some (attrs, rest) =>
      (PyChars.breakAt "</tool>".toList rest).map fun parts =>
        (String.ofList attrs, String.ofList parts.1)

/-- The child elements that become arguments. -/
def childTags : List String :=
  ["content", "old_text", "new_text", "command", "task", "pattern", "path"]

/-- `d.pop(key)`, for what is left. -/
def dropKey (d : PyDict) (key : String) : PyDict := d.filter fun entry => entry.1 ≠ key

/-- `parse_xml_tool`. -/
def parseXmlTool (raw : String) : Option (String × PyDict) :=
  (toolElement raw).bind fun (attrText, body) =>
    let attrs := parseAttrs txt attrText.length attrText.toList []
    let name := pyStrip txt (attrs.textOf txt "name")
    if name = "" then none
    else
      let args := childTags.foldl (fun args key =>
        if pyContains body ("<" ++ key ++ ">") then args.set key (.str (extractRaw body key))
        else args) (dropKey attrs "name")
      let bodyText := pyStripChar body '\n'
      let args :=
        if name = "write_file" ∧ (args.get? "content").isNone ∧ bodyText ≠ "" then
          args.set "content" (.str bodyText)
        else args
      let args :=
        if name = "delegate" ∧ (args.get? "task").isNone ∧ bodyText ≠ "" then
          args.set "task" (.str (pyStrip txt bodyText))
        else args
      some (name, args)

/-! ## `parse` -/

/-- The body of a `<tool>` around JSON. -/
def parseToolBody (body : String) : Decision :=
  match loads body with
  | none => .retry (retryNotice "model returned malformed tool JSON")
  | some (.dict payload) =>
    if pyStrip txt (PyDict.textOf txt payload "name") = "" then
      .retry (retryNotice "tool payload is missing a tool name")
    else match PyDict.getD payload "args" (.dict []) with
      | .none => .tool (PyDict.getD payload "name" (.str "")) []
      | .dict args => .tool (PyDict.getD payload "name" (.str "")) args
      | _ => .retry retryNotice
  | some _ => .retry (retryNotice "tool payload must be a JSON object")

/-- `parse` of a text that is no JSON call. -/
def parseMarkup (raw : String) : Decision :=
  if standsBefore raw "<tool>" "<final>" then parseToolBody txt loads (extractTag txt raw "tool")
  else if standsBefore raw "<tool" "<final>" then
    match parseXmlTool txt raw with
    | some (name, args) => .tool (.str name) args
    | none => .retry retryNotice
  else if standsBefore raw "<talk>" "<final>" then
    let talk := pyStrip txt (extractTag txt raw "talk")
    if talk ≠ "" then .talk talk else .retry (retryNotice "model returned an empty <talk> update")
  else if pyContains raw "<final>" then
    let final := pyStrip txt (extractTag txt raw "final")
    if final ≠ "" then .final final
    else .retry (retryNotice "model returned an empty <final> answer")
  else if pyStrip txt raw ≠ "" then
    .retry (retryNotice "model response did not declare talk, tool, or final")
  else .retry (retryNotice "model returned an empty response")

/-- `parse` of a text. -/
def parseText (raw : String) : Except PyError Decision :=
  match parseJsonTool txt loads raw with
  | .error e => .error e
  | .ok (some (name, args)) => .ok (.tool (.str name) args)
  | .ok none => .ok (parseMarkup txt loads raw)

/-- One call of a native batch, or what is wrong with it. -/
def batchItem (item : PyValue) : Except String (PyValue × PyDict) :=
  match item with
  | .dict call =>
    if pyStrip txt (PyDict.textOf txt call "name") = "" then
      .error "native tool batch contains an invalid item"
    else match PyDict.getD call "args" .none with
      | .none => .ok (PyDict.getD call "name" (.str ""), [])
      | .dict args => .ok (PyDict.getD call "name" (.str ""), args)
      | _ => .error "native tool batch args must be objects"
  | _ => .error "native tool batch contains an invalid item"

/-- `Pico.parse`. -/
def parseReply (raw : PyValue) : Except PyError Decision :=
  match raw with
  | .dict reply =>
    if (PyDict.getD reply "name" .none).truthy then
      match PyDict.getD reply "args" .none with
      | .none => .ok (.tool (PyDict.getD reply "name" .none) [])
      | .dict args => .ok (.tool (PyDict.getD reply "name" .none) args)
      | _ => .ok (.retry (retryNotice "native tool args must be an object"))
    else match PyDict.getD reply "tools" .none with
      | .list (item :: items) =>
        match (item :: items).mapM (batchItem txt) with
        | .ok tools => .ok (.toolBatch tools)
        | .error problem => .ok (.retry (retryNotice problem))
      | _ => parseText txt loads (raw.text txt)
  | _ => parseText txt loads (raw.text txt)

/-! ## Announcements -/

open PyPattern in
/-- The Chinese announcements of future work. -/
def deferredChinese : PyPattern :=
  andThen (opt (andThen (lit "好的") (many fun c => c ∈ "，,。.!！".toList || txt.isSpace c)))
    (andThen
      (oneOf [andThen (lit "我") (oneOf (["会", "将", "再", "先", "继续"].map lit)),
        andThen (lit "接下来") (andThen (opt (lit "我")) (opt (oneOf (["会", "将"].map lit)))),
        andThen (lit "下一步") (andThen (opt (lit "我")) (opt (oneOf (["会", "将"].map lit)))),
        lit "先"])
      (oneOf (["重新", "继续", "先", "从", "去", "来", "开始", "检查", "读取", "读", "定位", "确认",
        "查看", "分析", "排查", "调查", "沿着"].map lit)))

open PyPattern in
/-- The English announcements of future work, on a text with its case folded. -/
def deferredEnglish : PyPattern :=
  andThen (opt (andThen (lit "okay") (many fun c => c ∈ ",.!:".toList || txt.isSpace c)))
    (andThen
      (oneOf [andThen (lit "i") (oneOf (["'ll", " will", " am going to"].map lit)),
        lit "let me",
        andThen (lit "next") (opt (andThen (lit " i") (oneOf (["'ll", " will"].map lit)))),
        andThen (lit "first") (opt (andThen (lit " i") (oneOf (["'ll", " will"].map lit))))])
      (andThen (many1 txt.isSpace)
        (oneOf (["reread", "re-read", "continue", "start", "check", "inspect", "read", "locate",
          "confirm", "review", "analyse", "analyze", "investigate", "trace"].map lit))))

/-- `" ".join(text.split())`. -/
def collapseSpaces (text : String) : String :=
  " ".intercalate (((pyStrip txt text).toList.splitBy fun a b => !txt.isSpace a && !txt.isSpace b).filterMap
    fun word => if word.all txt.isSpace then none else some (String.ofList word))

/-- `is_deferred_action_answer`: a short answer that only announces future work. -/
def isDeferredActionAnswer (answer : String) : Bool :=
  let text := collapseSpaces txt answer
  if text = "" ∨ 600 < text.length then false
  else PyPattern.matchesStart (deferredChinese txt) text ||
    PyPattern.matchesStart (deferredEnglish txt)
      (String.ofList (text.toList.map PyPattern.foldCase))

/-! ## When parsing raises -/

variable {txt loads}

/-- The call that a JSON reply wraps is an object, or there is none. -/
def ReadableReply (txt : PyText) (loads : JsonLoads) (raw : PyValue) : Prop :=
  ∀ text value, raw.text txt = text → wholeObject txt loads text = some value →
    ∃ call, unwrapCall value = .dict call

theorem parseJsonTool_ok_iff {raw : String} :
    (∃ call, parseJsonTool txt loads raw = .ok call) ↔
      ∀ value, wholeObject txt loads raw = some value → ∃ call, unwrapCall value = .dict call := by
  unfold parseJsonTool
  rcases hwhole : wholeObject txt loads raw with _ | value
  · simp
  · rcases hunwrap : unwrapCall value with _ | _ | _ | _ | _ | _ | call <;> simp [hunwrap]

theorem parseReply_ok {raw : PyValue} (h : ReadableReply txt loads raw) :
    ∃ decision, parseReply txt loads raw = .ok decision := by
  have htext : ∃ decision, parseText txt loads (raw.text txt) = .ok decision := by
    obtain ⟨call, hcall⟩ := parseJsonTool_ok_iff.mpr fun value => h (raw.text txt) value rfl
    unfold parseText
    rw [hcall]
    rcases call with _ | ⟨name, args⟩ <;> exact ⟨_, rfl⟩
  unfold parseReply
  split
  · next reply =>
    split
    · split <;> exact ⟨_, rfl⟩
    split
    · split <;> exact ⟨_, rfl⟩
    · exact htext
  · exact htext

end ThreadForge

import ThreadForge.Lib.SpelledStream
import ThreadForge.Pico.StreamEvents

/-!
# The streamed reply of the Responses API

`_consume_openai_response_stream` passes the text of the model on while it arrives and returns it at
the end. `OpenAICompatibleModelClient.complete` calls it once for each attempt, and tells with
`on_retry` that what was passed on so far is void.

The text comes in three kinds of events: `response.output_text.delta` brings a piece,
`response.output_text.done` the whole of one output part, `response.completed` the response, of which
the first text is taken.

## What is left out

The request and its headers, the metadata of the last completion, the delays between two attempts, and
replies that are not `text/event-stream`: none of their text is passed on. The callbacks return.
-/

namespace ThreadForge

/-! ## The text and the call of a response -/

section Extract

/-- The first text that is true among the dictionaries of a list. -/
def firstText (contents : List PyValue) : Option PyValue :=
  contents.findSome? fun content => match content with
    | .dict d =>
      let text := PyDict.getD d "text" .none
      if text.truthy then some text else none
    | _ => none

/-- The first text of the items of an output. -/
def outputText : List PyValue → Except PyError (Option PyValue)
  | [] => .ok none
  | item :: rest => do
    let contents ← (← item.getOf "content" (.list [])).items
    match firstText contents with
    | some text => pure (some text)
    | none => outputText rest

/-- The text of the content of a message. -/
def textOfContent : PyValue → PyValue
  | .str s => .str s
  | .list contents => (firstText contents).getD (.str "")
  | _ => .str ""

/-- The text of the first of the choices. -/
def choiceText (choices : PyValue) : Except PyError PyValue := do
  match ← choices.first? with
  | none => pure (.str "")
  | some choice =>
    let message ← choice.getOf "message" (.dict [])
    pure (textOfContent (← message.getOf "content" .none))

/-- `_extract_openai_text`. -/
def extractOpenAiText (data : PyDict) : Except PyError PyValue := do
  let text := data.getD "output_text" .none
  if text.truthy then pure text
  else
    match ← outputText (← (data.getD "output" (.list [])).items) with
    | some text => pure text
    | none => choiceText (data.getD "choices" (.list []))

variable (env : StreamEnv)

/-- A native call of a tool. -/
structure NativeCall where
  name : String
  args : PyValue
  deriving DecidableEq, Repr

/-- `normalize` of `_extract_openai_function_call`. -/
def normalizeCall (item : PyDict) : Except PyError (Option NativeCall) :=
  if item.getD "type" .none ≠ .str "function_call" then .ok none
  else
    let name := pyStrip env.txt (item.textOf env.txt "name")
    if name = "" then .ok none
    else match item.getD "arguments" (.dict []) with
      | .str s => match env.loads (if s = "" then "\x7b\x7d".toList else s.toList) with
        | .ok value => .ok (some ⟨name, value⟩)
        | .error .decode => .ok (some ⟨name, .str s⟩)
        | .error (.other e) => .error e
      | value => .ok (some ⟨name, value⟩)

/-- The first call among the items of an output. -/
def outputCall : List PyValue → Except PyError (Option NativeCall)
  | [] => .ok none
  | .dict item :: rest => do
    match ← normalizeCall env item with
    | some call => pure (some call)
    | none => outputCall rest
  | _ :: rest => outputCall rest

/-- The first call among the `tool_calls` of a message. -/
def messageCall : List PyValue → Except PyError (Option NativeCall)
  | [] => .ok none
  | call :: rest => do
    let function := match call with
      | .dict d => PyDict.getD d "function" (.dict [])
      | _ => .dict []
    -- `**function` takes a mapping
    match function with
    | .dict d =>
      match ← normalizeCall env (d.foldl (fun item e => PyDict.set item e.1 e.2)
          [("type", .str "function_call")]) with
      | some call => pure (some call)
      | none => messageCall rest
    | _ => .error .typeError

/-- `_extract_openai_function_call`. -/
def extractOpenAiFunctionCall (data : PyDict) : Except PyError (Option NativeCall) := do
  match ← outputCall env (← (data.getD "output" (.list [])).items) with
  | some call => pure (some call)
  | none =>
    match ← (data.getD "choices" (.list [])).first? with
    | none => pure none
    | some choice =>
      let message ← choice.getOf "message" (.dict [])
      let calls := (← message.getOf "tool_calls" (.list [])).or (.list [])
      messageCall env (← calls.items)

/-- `_extract_usage_cache_details`, up to the number of the cached tokens. -/
def extractUsageCacheDetails (data : PyDict) : Except PyError Int := do
  let usage := (data.getD "usage" .none).or (.dict [])
  let input ← usage.getOf "input_tokens_details" .none
  let prompt ← usage.getOf "prompt_tokens_details" .none
  let cached ← ((input.or prompt).or (.dict [])).getOf "cached_tokens" .none
  (cached.or (.int 0)).toInt env.txt

end Extract

/-! ## Consuming the stream -/

def deltaEvent : PyValue := .str "response.output_text.delta"

def doneEvent : PyValue := .str "response.output_text.done"

def completedEvent : PyValue := .str "response.completed"

/-- The local variables of `_consume_openai_response_stream`; the deltas are what is passed on. -/
structure ResponseStream where
  lastResponse : Option PyDict := none
  responseData : PyDict := []
  deltas : List String := []
  doneText : String := ""
  deriving Repr

namespace ResponseStream

variable (env : StreamEnv)

/-- `emit_missing_suffix`. -/
def emitMissingSuffix (s : ResponseStream) (text : String) : ResponseStream :=
  let current := String.join s.deltas
  if !pyStartsWith text current then s
  else
    let suffix := pyDrop text current.length
    if suffix = "" then s else { s with deltas := s.deltas ++ [suffix] }

/-- The response of an event is kept. -/
def note (s : ResponseStream) (event : PyDict) : ResponseStream :=
  match event.getD "response" .none with
  | .dict response =>
    if event.getD "type" .none = completedEvent then
      { s with lastResponse := some response, responseData := response }
    else { s with lastResponse := some response }
  | _ => s

/-- The text of the response, and the end of the loop. -/
def complete (s : ResponseStream) (response : PyDict) : Except PyError ResponseStream := do
  let text ← extractOpenAiText response
  if !text.truthy then pure s
  else match text with
    | .str t => pure { s.emitMissingSuffix t with doneText := t }
    | _ => .error .attributeError

/-- One event; the flag says that the loop ends with it. -/
def read (s : ResponseStream) (event : PyDict) : Except PyError (ResponseStream × Bool) :=
  let s := s.note event
  let type := event.getD "type" (.str "")
  if type = deltaEvent then
    match event.getD "delta" .none with
    | .str delta =>
      .ok (if delta = "" then s else { s with deltas := s.deltas ++ [delta] }, false)
    | _ => .ok (s, false)
  else if type = doneEvent then
    match event.getD "text" .none with
    | .str text =>
      .ok (if text = "" then s else { s.emitMissingSuffix text with doneText := text }, false)
    | _ => .ok (s, false)
  else if type = completedEvent then
    match s.lastResponse with
    | some response => (s.complete response).map fun s => (s, true)
    | none => .ok (s, false)
  else .ok (s, false)

/-- One line. -/
@[irreducible] def step (s : ResponseStream) (raw : List UInt8) : Except PyError (ResponseStream × Bool) := do
  match ← eventOf env true raw with
  | none => pure (s, false)
  | some (.dict event) => s.read event
  | some _ => .error .attributeError

/-- The loop over the lines: what it leaves, and whether it ended with `break`. -/
def consume (s : ResponseStream) : List (List UInt8) → ResponseStream × Except PyError Bool
  | [] => (s, .ok false)
  | raw :: lines => match s.step env raw with
    | .error e => (s, .error e)
    | .ok (s, true) => (s, .ok true)
    | .ok (s, false) => s.consume lines

/-- The text that is returned. -/
def text (s : ResponseStream) : String :=
  if s.doneText ≠ "" then s.doneText else String.join s.deltas

/-- The response that is returned with it. -/
def data (s : ResponseStream) : PyDict :=
  if s.responseData ≠ [] then s.responseData else s.lastResponse.getD []

end ResponseStream

/-! ## The attempts -/

section Complete

variable (env : StreamEnv)

/-- `_strip_single_code_fence`. -/
def stripSingleCodeFence (text : String) : String :=
  let raw := pyStrip env.txt text
  if pyStartsWith raw "```" && pyEndsWith raw "```" && 6 < raw.length then
    let body := String.ofList ((raw.toList.drop 3).dropWhile fun c => c = '\r' ∨ c = '\n')
    let body := if pyStartsWith body "json" || pyStartsWith body "JSON" then
        String.ofList ((body.toList.drop 4).dropWhile env.txt.isSpace)
      else body
    -- `rsplit` cuts at the last fence, the first of the text read backwards
    let front := match PyChars.breakAt "```".toList body.toList.reverse with
      | some (_, before) => before.reverse
      | none => body.toList
    pyStrip env.txt (String.ofList front)
  else raw

/-- `_normalize_openai_native_text`. -/
def normalizeOpenAiNativeText (nativeTools : Bool) (text : String) : String :=
  let text := pyStrip env.txt (stripSingleCodeFence env text)
  if text = "" || !nativeTools then text
  else if ["<tool", "<talk>", "<final>"].any fun marker => pyContains text marker then text
  else "<final>" ++ text ++ "</final>"

/-- How the body of a reply ends, if nothing made the consumer stop before. -/
inductive Ending
  | finished
  | lost (timedOut : Bool)
  | cancelled
  deriving DecidableEq, Repr

/-- What comes of a request: a stream, or an error before there is one. -/
inductive Reply
  | stream (lines : List (List UInt8)) (ending : Ending)
  | httpError (code : String) (retryable : Bool)
  | noConnection (timedOut : Bool)
  deriving Repr

/-- An attempt; `late` says that the deadline leaves no time for another one. -/
structure ResponseAttempt where
  reply : Reply
  late : Bool := false
  deriving Repr

/-- What `complete` raises. -/
inductive CallFault
  | provider (code : String) (retryable : Bool)
  | connection (code : String)
  | python (e : PyError)
  | cancelled
  deriving DecidableEq, Repr

/-- What `complete` returns; a text beside the one the consumer returned. -/
inductive Answer
  | action (call : NativeCall)
  | text (streamed normalized : String)
  deriving DecidableEq, Repr

/-- A call of `on_text_delta` or of `on_retry`. -/
inductive Callback
  | delta (text : String)
  | retry (attempt : Nat) (code : String)
  deriving DecidableEq, Repr

def connectionCode (timedOut : Bool) : String :=
  if timedOut then "model_timeout" else "model_connection_error"

/-- What is made of a stream that was consumed. -/
def answerOf (nativeTools : Bool) (s : ResponseStream) : Except CallFault Answer :=
  match extractUsageCacheDetails env s.data, extractOpenAiFunctionCall env s.data with
  | .error e, _ | .ok _, .error e => .error (.python e)
  | .ok _, .ok (some call) => .ok (.action call)
  | .ok _, .ok none =>
    if s.text = "" then .error (.provider "model_response_invalid" true)
    else .ok (.text s.text (normalizeOpenAiNativeText env nativeTools s.text))

/-- One attempt: the pieces passed on, and its outcome. -/
def attemptOnce (nativeTools : Bool) : Reply → List String × Except CallFault Answer
  | .httpError code retryable => ([], .error (.provider code retryable))
  | .noConnection timedOut => ([], .error (.connection (connectionCode timedOut)))
  | .stream lines ending =>
    let consumed := ResponseStream.consume env {} lines
    (consumed.1.deltas, match consumed.2, ending with
      | .error e, _ => .error (.python e)
      | .ok false, .lost timedOut => .error (.connection (connectionCode timedOut))
      | .ok false, .cancelled => .error .cancelled
      | .ok _, _ => answerOf env nativeTools consumed.1)

/-- The code with which a fault is retried. -/
def CallFault.retryCode? : CallFault → Option String
  | .provider code true | .connection code => some code
  | _ => none

/-- The fault as it is raised. -/
def CallFault.raised (late : Bool) : CallFault → CallFault
  | .connection code => .provider (if late then "model_timeout" else code) true
  | fault => fault

/-- The loop of `complete`, from the given attempt on; `max_attempts` is how many there are. -/
def completeFrom (nativeTools : Bool) :
    Nat → List ResponseAttempt → List Callback × Except CallFault Answer
  | _, [] => ([], .error (.provider "model_response_invalid" true))
  | attempt, a :: rest =>
    let tried := attemptOnce env nativeTools a.reply
    match tried.2 with
    | .ok answer => (tried.1.map .delta, .ok answer)
    | .error fault => match fault.retryCode? with
      | none => (tried.1.map .delta, .error fault)
      | some code =>
        if rest = [] then (tried.1.map .delta, .error (fault.raised false))
        else if a.late then (tried.1.map .delta, .error (fault.raised true))
        else
          let later := completeFrom nativeTools (attempt + 1) rest
          (tried.1.map .delta ++ .retry attempt code :: later.1, later.2)

/-- `OpenAICompatibleModelClient.complete`: its callbacks, and what it returns or raises. -/
def completeResponses (nativeTools : Bool) (attempts : List ResponseAttempt) :
    List Callback × Except CallFault Answer :=
  completeFrom env nativeTools 1 attempts

/-- What was passed on since the last retry. -/
def shownSinceRetry (callbacks : List Callback) : String :=
  callbacks.foldl (fun shown callback => match callback with
    | .delta text => shown ++ text
    | .retry .. => "") ""

end Complete

end ThreadForge

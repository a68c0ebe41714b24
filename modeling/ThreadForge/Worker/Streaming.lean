import ThreadForge.Lib.Redaction
import ThreadForge.Pico.Agent

/-!
# The answer while it streams

`RemoteExecutionHooks` reads the text of the model piece by piece. It lets through what stands between
`<final>` and `</final>`, or a plain answer where such a one is allowed, and redacts that text before
it sends it as `assistant.delta`.

## What is left out

The heartbeats that `model_text_delta` sends, and the other events of the hooks. A cancelled token
makes each of these methods raise before it changes anything.
-/

namespace ThreadForge

/-! ## Recognising the answer -/

/-- `_stream_mode`. -/
inductive StreamMode
  | pending
  | final
  | plainFinal
  | blocked
  deriving DecidableEq, Repr

/-- The fields with which an answer is recognised. -/
structure Recogniser where
  allowPlainTextFinal : Bool := false
  streamMode : StreamMode := .pending
  streamBuffer : List Char := []
  deriving DecidableEq, Repr

/-- A call of `_emit_public_delta`. -/
structure PublicDelta where
  text : List Char
  completed : Bool := false
  isFinal : Bool := false
  deriving DecidableEq, Repr

/-- `text[-n:]`. -/
def lastChars (n : Nat) (text : List Char) : List Char := text.drop (text.length - n)

def finalTag : List Char := "<final>".toList

def closingTag : List Char := "</final>".toList

namespace Recogniser

variable (txt : PyText)

/-- What the markers in a text decide, each with its position. -/
def markerPositions (buffer : List Char) : List (Nat × StreamMode) :=
  [(finalTag, StreamMode.final), ("<tool".toList, .blocked), ("<talk>".toList, .blocked)].filterMap
    fun (marker, mode) => (PyChars.breakAt marker buffer).map fun parts => (parts.1.length, mode)

/-- `min` by the position. -/
def earliest : List (Nat × StreamMode) → Option (Nat × StreamMode)
  | [] => none
  | first :: rest =>
    some (rest.foldl (fun best item => if item.1 < best.1 then item else best) first)

/-- The buffer of an answer, up to its end or but for what can be a part of its closing tag. -/
def readFinal (r : Recogniser) : Recogniser × Option PublicDelta :=
  match PyChars.breakAt closingTag r.streamBuffer with
  | some (visible, _) =>
    ({ r with streamBuffer := [], streamMode := .blocked }, some { text := visible, completed := true })
  | none =>
    if r.streamBuffer.length ≤ closingTag.length - 1 then (r, none)
    else
      ({ r with streamBuffer := lastChars (closingTag.length - 1) r.streamBuffer },
        some { text := r.streamBuffer.take (r.streamBuffer.length - (closingTag.length - 1)) })

/-- The buffer of a text that is not decided yet. -/
def readPending (r : Recogniser) : Recogniser × Option PublicDelta :=
  match earliest (markerPositions r.streamBuffer) with
  | none =>
    let stripped := r.streamBuffer.dropWhile txt.isSpace
    if r.allowPlainTextFinal && !stripped.isEmpty && !("<".toList.isPrefixOf stripped) then
      ({ r with streamMode := .plainFinal, streamBuffer := [] }, some { text := r.streamBuffer })
    else ({ r with streamBuffer := lastChars 32 r.streamBuffer }, none)
  | some (position, mode) =>
    if mode ≠ .final then ({ r with streamMode := mode, streamBuffer := [] }, none)
    else
      readFinal { r with
        streamMode := mode
        streamBuffer := r.streamBuffer.drop (position + finalTag.length) }

/-- `model_text_delta` of the stage `execute`, up to its call of `_emit_public_delta`. -/
def read (r : Recogniser) (text : List Char) : Recogniser × Option PublicDelta :=
  match r.streamMode with
  | .blocked => (r, none)
  | .plainFinal => (r, some { text := text, isFinal := true })
  | .pending => readPending txt { r with streamBuffer := r.streamBuffer ++ text }
  | .final => readFinal { r with streamBuffer := r.streamBuffer ++ text }

/-- A new text. -/
def reset (r : Recogniser) : Recogniser :=
  { r with streamBuffer := [], streamMode := .pending }

end Recogniser

/-! ## Redacting it -/

/-- `REDACTED_VALUE`. -/
def redactedMarker : Redaction.Marker := ⟨'<', "redacted".toList, '>'⟩

/-- The values of the secrets as `redact_text` takes them. -/
def longestFirst (secrets : List (List Char)) : List (List Char) :=
  secrets.mergeSort fun a b => b.length ≤ a.length

/-- `redact_text`. -/
def redactChars (secrets : List (List Char)) (text : List Char) : List Char :=
  Redaction.redactAll redactedMarker (longestFirst secrets) text

/-- The sizes of the parts of a secret that are tried, the longest first. -/
def heldSizes (secret buffer : List Char) (keep : Nat) : List Nat :=
  (List.range' (keep + 1) (min (secret.length - 1) buffer.length - keep)).reverse

/-- The longest end of the buffer that begins one of the secrets. -/
def holdBack (secrets : List (List Char)) (buffer : List Char) : Nat :=
  secrets.foldl (fun keep secret =>
    ((heldSizes secret buffer keep).find? fun size => (secret.take size).isSuffixOf buffer).getD keep) 0

/-! ## The hooks -/

/-- An `assistant.delta`. -/
structure AssistantDelta where
  text : List Char
  final : Bool := false
  deriving DecidableEq, Repr

/-- `RemoteExecutionHooks`, with the deltas that it has sent. -/
structure RemoteExecutionHooks extends Recogniser where
  redactionBuffer : List Char := []
  modelReply : List Char := []
  answerCandidateActive : Bool := false
  answerCandidateDeltas : List (List Char) := []
  sent : List AssistantDelta := []
  deriving DecidableEq, Repr

/-- `text[offset:offset + 4000]` for each offset. -/
def deltaChunks (text : List Char) : List (List Char) :=
  (List.range ((text.length + 3999) / 4000)).map fun i => (text.drop (i * 4000)).take 4000

namespace RemoteExecutionHooks

variable (txt : PyText) (secrets : List (List Char))

/-- The end of `_emit_public_delta`: the text is sent, or put aside as an answer candidate. -/
def publish (h : RemoteExecutionHooks) (visible : List Char) (isFinal : Bool) :
    RemoteExecutionHooks :=
  if visible = [] then h
  else
    let h := { h with modelReply := h.modelReply ++ visible }
    if h.answerCandidateActive then
      { h with answerCandidateDeltas := h.answerCandidateDeltas ++ deltaChunks visible }
    else
      { h with sent := h.sent ++
          (deltaChunks visible).map fun chunk => { text := chunk, final := isFinal } }

/-- `_emit_public_delta`. -/
def emitPublicDelta (h : RemoteExecutionHooks) (delta : PublicDelta) : RemoteExecutionHooks :=
  let buffer := redactChars secrets (h.redactionBuffer ++ delta.text)
  if delta.completed then { h with redactionBuffer := [] }.publish buffer delta.isFinal
  else
    let visible := buffer.length - holdBack secrets buffer
    { h with redactionBuffer := buffer.drop visible }.publish (buffer.take visible) delta.isFinal

/-- `model_text_delta`. -/
def modelTextDelta (h : RemoteExecutionHooks) (stage : String) (text : List Char) :
    RemoteExecutionHooks :=
  if stage ≠ "execute" then h
  else
    let (r, delta) := h.toRecogniser.read txt text
    let h := { h with toRecogniser := r }
    match delta with
    | some delta => h.emitPublicDelta secrets delta
    | none => h

/-- The buffers at the start of a text. -/
def resetStream (h : RemoteExecutionHooks) : RemoteExecutionHooks :=
  { h with toRecogniser := h.toRecogniser.reset, redactionBuffer := [] }

/-- `before_model`. -/
def beforeModel (h : RemoteExecutionHooks) : RemoteExecutionHooks :=
  { h.resetStream with modelReply := [] }

/-- `after_model`. -/
def afterModel (h : RemoteExecutionHooks) : RemoteExecutionHooks :=
  if h.streamMode = .plainFinal then
    { h.emitPublicDelta secrets { text := [], completed := true } with streamMode := .blocked }
  else h

/-- `model_retrying`. -/
def modelRetrying (h : RemoteExecutionHooks) (stage : String) : RemoteExecutionHooks :=
  let h := h.resetStream
  if stage = "execute" ∧ h.answerCandidateActive then { h with answerCandidateDeltas := [] } else h

/-- `begin_answer_candidate`. -/
def beginAnswerCandidate (h : RemoteExecutionHooks) : RemoteExecutionHooks :=
  { h.resetStream with answerCandidateActive := true, answerCandidateDeltas := [] }

/-- `commit_answer_candidate`. -/
def commitAnswerCandidate (h : RemoteExecutionHooks) : RemoteExecutionHooks :=
  if h.answerCandidateActive then
    { h with
      answerCandidateActive := false
      answerCandidateDeltas := []
      sent := h.sent ++ h.answerCandidateDeltas.map fun chunk => { text := chunk } }
  else h

/-- `discard_answer_candidate`. -/
def discardAnswerCandidate (h : RemoteExecutionHooks) : RemoteExecutionHooks :=
  { h.resetStream with answerCandidateActive := false, answerCandidateDeltas := [] }

end RemoteExecutionHooks

end ThreadForge

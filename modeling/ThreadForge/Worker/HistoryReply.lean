import ThreadForge.Hub.Devices
import ThreadForge.Lib.Traverse
import ThreadForge.Lib.Utf8Clip
import ThreadForge.Pico.Security
import Mathlib.Algebra.Order.BigOperators.Group.List
import Mathlib.Algebra.Order.Ring.Nat

/-!
# The reply to a history request

`_read_history` of the Worker: the last messages of a session, their contents cut so that their
bytes together stay below a budget. The frame it is sent in may hold two MiB of JSON.

## What is left out

The session file is what `SessionStore.load` returns, or that it raises.

## Main results

* `history_fits_iff` : when the reply fits the frame and goes out
-/

namespace ThreadForge

open PyChars

/-! ## The request -/

/-- The tables of CPython, in which no ASCII character is a surrogate, and the environment. -/
structure HistoryEnv where
  txt : PyText
  security : SecurityEnv
  ascii : ∀ c : Char, c.toNat < 128 → txt.surrogate c = false

/-- `_HISTORY_PAYLOAD_CONTENT_BUDGET`. -/
def historyPayloadContentBudget : Nat := 1700 * 1024

/-- `_MESSAGE_CONTENT_MAX`. -/
def messageContentMax : Nat := 4000

/-- The bytes that `_send` sends in one message. -/
def maxWorkerMessage : Nat := 2 * 1024 * 1024

mutual

/-- A value as `redact_artifact` takes it. -/
def artifactOf : PyValue → Artifact PyValue
  | .str s => .str s
  | .list items => .list (artifactItems items)
  | .dict entries => .dict (artifactEntries entries)
  | value => .other value

def artifactItems : List PyValue → List (Artifact PyValue)
  | [] => []
  | x :: xs => artifactOf x :: artifactItems xs

def artifactEntries : List (String × PyValue) → List (String × Artifact PyValue)
  | [] => []
  | (k, x) :: xs => (k, artifactOf x) :: artifactEntries xs

end

mutual

/-- A redacted value. -/
def valueOf : Artifact PyValue → PyValue
  | .str s => .str s
  | .list items => .list (valueItems items)
  | .tuple items => .list (valueItems items)
  | .dict entries => .dict (valueEntries entries)
  | .other value => value

def valueItems : List (Artifact PyValue) → List PyValue
  | [] => []
  | x :: xs => valueOf x :: valueItems xs

def valueEntries : List (String × Artifact PyValue) → List (String × PyValue)
  | [] => []
  | (k, x) :: xs => (k, valueOf x) :: valueEntries xs

end

section Source

variable (env : HistoryEnv)

/-- `_clip_utf8`. -/
def clipUtf8 (value : String) (maxBytes : Nat) : Except PyError String :=
  if env.txt.encodable value = false then .error .unicodeEncodeError
  else if utf8Bytes value.toList ≤ maxBytes then .ok value
  else .ok (String.ofList (takeUtf8 maxBytes value.toList))

/-- `str(redact_artifact(item.get("content", "")))[:_MESSAGE_CONTENT_MAX]`. -/
def contentText (item : PyDict) : String :=
  pyClip ((valueOf (Security.redactArtifact env.security none
    (artifactOf (item.getD "content" (.str ""))))).text env.txt) messageContentMax

/-- The last messages of the history that the reply is about. -/
def recentItems (history : List PyValue) (messageLimit : Nat) : List PyDict :=
  (history.drop (history.length - min messageLimit history.length)).filterMap fun item =>
    match item with
    | .dict entries => some entries
    | _ => none

/-- `content_byte_limit`. -/
def contentByteLimit (recent : List PyDict) : Nat :=
  max 256 (historyPayloadContentBudget / max 1 recent.length)

/-- One message of the reply. -/
def historyMessage (limit : Nat) (item : PyDict) : Except PyError PyValue := do
  let content ← clipUtf8 env (contentText env item) limit
  pure (.dict [
    ("role", .str (pyClip (item.textOf env.txt "role") 32)),
    ("name", .str (pyClip (item.textOf env.txt "name") 100)),
    ("content", .str content),
    ("created_at", .str (pyClip (item.textOf env.txt "created_at") 40))])

/-- The session and the number of messages that a request asks for. -/
def requestedHistory (loaded : Except PyError PyDict) (message : PyDict) :
    Except PyError (List PyValue × Nat) := do
  let requestId := message.textOf env.txt "request_id"
  let sessionId := message.textOf env.txt "session_id"
  if requestId = "" ∨ isHexId "ses_" sessionId = false then .error .valueError
  else do
    let limit ← (message.getD "message_limit" (.int 100)).toInt env.txt
    let session ← loaded
    match session.getD "history" (.list []) with
    | .list history => pure (history, (max 1 (min limit 500)).toNat)
    | _ => .error .typeError

/-- What the `try` of `_read_history` computes: the length of the history and the messages. -/
def historyMessages (loaded : Except PyError PyDict) (message : PyDict) :
    Except PyError (Nat × List PyValue) := do
  let (history, limit) ← requestedHistory env loaded message
  let recent := recentItems history limit
  let messages ← recent.mapM (historyMessage env (contentByteLimit recent))
  pure (history.length, messages)

/-- `response`. -/
def historyResponse (loaded : Except PyError PyDict) (message : PyDict) : PyDict :=
  let requestId := message.textOf env.txt "request_id"
  let sessionId := message.textOf env.txt "session_id"
  match historyMessages env loaded message with
  | .ok (total, messages) => [
      ("type", .str "session.history.result"),
      ("request_id", .str requestId),
      ("session_id", .str sessionId),
      ("status", .str "completed"),
      ("message_total", .int total),
      ("messages", .list messages)]
  | .error _ => [
      ("type", .str "session.history.result"),
      ("request_id", .str requestId),
      ("session_id", .str sessionId),
      ("status", .str "completed"),
      ("message_total", .int 0),
      ("messages", .list []),
      ("error", .str "history_unavailable")]

/-- `_send`. -/
def sendMessage (connected : Bool) (message : PyDict) : Except PyError Unit :=
  if PyValue.jsonEncodable env.txt (.dict message) = false then .error .unicodeEncodeError
  else if maxWorkerMessage < PyValue.jsonSize env.txt (.dict message) then .error .runtimeError
  else if connected then .ok () else .error .runtimeError

/-- `_read_history`: the reply, where one goes out. -/
def readHistory (connected : Bool) (loaded : Except PyError PyDict) (message : PyDict) :
    Except PyError (Option PyDict) :=
  let response := historyResponse env loaded message
  match sendMessage env connected response with
  | .ok () => .ok (some response)
  | .error .runtimeError => .ok none
  | .error exc => .error exc

/-! ## Statements -/

/-- The reply can be written as UTF-8 and fits, and a connected Worker sends it. -/
structure HistoryReplied (loaded : Except PyError PyDict) (message : PyDict) : Prop where
  encodable : PyValue.jsonEncodable env.txt (.dict (historyResponse env loaded message)) = true
  fits : PyValue.jsonSize env.txt (.dict (historyResponse env loaded message)) ≤ maxWorkerMessage
  sent : sendMessage env true (historyResponse env loaded message) = .ok ()
  answered : readHistory env true loaded message = .ok (some (historyResponse env loaded message))

/-- The texts of a message that are not looked at before the reply is sent. -/
def plainTexts (item : PyDict) : List String :=
  [pyClip (item.textOf env.txt "role") 32, pyClip (item.textOf env.txt "name") 100,
    pyClip (item.textOf env.txt "created_at") 40]

/-- The characters of the content that the reply shows. -/
def shownContent (limit : Nat) (item : PyDict) : List Char :=
  let content := (contentText env item).toList
  if utf8Bytes content ≤ limit then content else takeUtf8 limit content

/-- The bytes of one message, with its keys and quotes. -/
def messageBytes (limit : Nat) (item : PyDict) : Nat :=
  50 + ((plainTexts env item).map fun text => escapedBytes text.toList).sum +
    escapedBytes (shownContent env limit item)

/-- The bytes of the request's own identifiers. -/
def requestBytes (message : PyDict) : Nat :=
  escapedBytes (message.textOf env.txt "request_id").toList +
    escapedBytes (message.textOf env.txt "session_id").toList

/-- The identifiers of the request can be written as UTF-8. -/
def RequestEncodable (message : PyDict) : Prop :=
  env.txt.encodable (message.textOf env.txt "request_id") = true ∧
    env.txt.encodable (message.textOf env.txt "session_id") = true

/-- The messages that are asked for can be shown. -/
def Shown (loaded : Except PyError PyDict) (message : PyDict) (history : List PyValue)
    (recent : List PyDict) : Prop :=
  ∃ limit, requestedHistory env loaded message = .ok (history, limit) ∧
    recent = recentItems history limit ∧
    ∀ item ∈ recent, env.txt.encodable (contentText env item) = true

/-- The identifiers can be written, and so can the texts of the messages that are shown, if there
are any; escaped, they leave room for the rest of the frame. -/
structure RoomForHistory (loaded : Except PyError PyDict) (message : PyDict) : Prop where
  request : RequestEncodable env message
  shown : ∀ history recent, Shown env loaded message history recent →
    (∀ item ∈ recent, ∀ text ∈ plainTexts env item, env.txt.encodable text = true) ∧
      117 + (toString (history.length : Int)).utf8ByteSize + requestBytes env message +
          (recent.length - 1) +
          (recent.map (messageBytes env (contentByteLimit recent))).sum ≤ maxWorkerMessage
  empty : (¬∃ history recent, Shown env loaded message history recent) →
    148 + requestBytes env message ≤ maxWorkerMessage

end Source

/-! ## The messages -/

variable {env : HistoryEnv} {loaded : Except PyError PyDict} {message item : PyDict}
  {history : List PyValue} {recent : List PyDict} {limit : Nat}

/-- A message of the reply whose content can be encoded. -/
def shownMessage (env : HistoryEnv) (limit : Nat) (item : PyDict) : PyValue :=
  .dict [
    ("role", .str (pyClip (item.textOf env.txt "role") 32)),
    ("name", .str (pyClip (item.textOf env.txt "name") 100)),
    ("content", .str (String.ofList (shownContent env limit item))),
    ("created_at", .str (pyClip (item.textOf env.txt "created_at") 40))]

theorem historyMessage_of_encodable (h : env.txt.encodable (contentText env item) = true) :
    historyMessage env limit item = .ok (shownMessage env limit item) := by
  unfold historyMessage clipUtf8 shownMessage shownContent
  rw [if_neg (by rw [h]; decide)]
  dsimp only
  split
  · rw [String.ofList_toList]
    rfl
  · rfl

theorem historyMessage_of_not_encodable (h : ¬env.txt.encodable (contentText env item) = true) :
    historyMessage env limit item = .error .unicodeEncodeError := by
  unfold historyMessage clipUtf8
  rw [if_pos (Bool.eq_false_iff.mpr h)]
  rfl

/-- The messages are shown. -/
theorem historyMessages_of_shown (h : Shown env loaded message history recent) :
    historyMessages env loaded message =
      .ok (history.length, recent.map (shownMessage env (contentByteLimit recent))) := by
  obtain ⟨limit, hrequest, rfl, hall⟩ := h
  unfold historyMessages
  rw [hrequest]
  show (((recentItems history limit).mapM
    (historyMessage env (contentByteLimit (recentItems history limit)))).bind
      fun messages => Except.ok (history.length, messages)) = _
  rw [List.mapM_eq_ok_map fun item hitem => historyMessage_of_encodable (hall item hitem)]
  rfl

theorem historyMessages_of_not_shown
    (h : ¬∃ history recent, Shown env loaded message history recent) :
    ∃ exc, historyMessages env loaded message = .error exc := by
  unfold historyMessages
  rcases hrequest : requestedHistory env loaded message with exc | ⟨history, limit⟩
  · exact ⟨exc, rfl⟩
  · -- some content cannot be encoded
    rcases hmessages : (recentItems history limit).mapM
        (historyMessage env (contentByteLimit (recentItems history limit))) with exc | messages
    · refine ⟨exc, ?_⟩
      show (((recentItems history limit).mapM
        (historyMessage env (contentByteLimit (recentItems history limit)))).bind
          fun messages => Except.ok (history.length, messages)) = _
      rw [hmessages]
      rfl
    · refine absurd ⟨history, _, limit, hrequest, rfl, fun item hitem => ?_⟩ h
      by_contra hno
      obtain ⟨value, -, hvalue⟩ := List.exists_of_mem_of_mapM_eq_ok hmessages hitem
      rw [historyMessage_of_not_encodable hno] at hvalue
      cases hvalue

/-! ## Sizes -/

theorem encodable_ofList (txt : PyText) (cs : List Char) :
    txt.encodable (String.ofList cs) = true ↔ ∀ c ∈ cs, txt.surrogate c = false := by
  unfold PyText.encodable
  rw [String.toList_ofList, Bool.not_eq_true', List.any_eq_false]
  simp only [Bool.not_eq_true]

/-- A text in ASCII can be written. -/
theorem encodable_ascii (env : HistoryEnv) {s : String}
    (h : (s.toList.all fun c => c.toNat < 128) = true) : env.txt.encodable s = true := by
  have hall := (encodable_ofList env.txt s.toList).mpr fun c hc =>
    env.ascii c (of_decide_eq_true (List.all_eq_true.mp h c hc))
  rwa [String.ofList_toList] at hall

/-- What is shown of a content that can be written can be written. -/
theorem encodable_shownContent (h : env.txt.encodable (contentText env item) = true) :
    env.txt.encodable (String.ofList (shownContent env limit item)) = true := by
  rw [← String.ofList_toList (s := contentText env item)] at h
  have hall := (encodable_ofList _ _).mp h
  refine (encodable_ofList _ _).mpr fun c hc => hall c ?_
  unfold shownContent at hc
  dsimp only at hc
  split at hc
  · exact hc
  · exact (takeUtf8_isInit _ _).subset hc

theorem jsonStringSize_eq (s : String) :
    PyValue.jsonStringSize s = 2 + escapedBytes s.toList := rfl

theorem jsonSize_shownMessage (env : HistoryEnv) (limit : Nat) (item : PyDict) :
    PyValue.jsonSize env.txt (shownMessage env limit item) = messageBytes env limit item := by
  have hrole : PyValue.jsonStringSize "role" = 6 := by decide
  have hname : PyValue.jsonStringSize "name" = 6 := by decide
  have hcontent : PyValue.jsonStringSize "content" = 9 := by decide
  have hcreated : PyValue.jsonStringSize "created_at" = 12 := by decide
  unfold shownMessage messageBytes plainTexts
  simp only [PyValue.jsonSize, PyValue.jsonSizeEntries, hrole, hname, hcontent, hcreated,
    List.length_cons, List.length_nil, PyValue.commas, List.map_cons, List.map_nil, List.sum_cons,
    List.sum_nil, jsonStringSize_eq (pyClip _ _), jsonStringSize_eq (String.ofList _),
    String.toList_ofList]
  omega

theorem jsonSizeItems_map (env : HistoryEnv) (limit : Nat) (items : List PyDict) :
    PyValue.jsonSizeItems env.txt (items.map (shownMessage env limit)) =
      (items.map (messageBytes env limit)).sum := by
  induction items with
  | nil => rfl
  | cons item items ih =>
    rw [List.map_cons, List.map_cons, PyValue.jsonSizeItems, jsonSize_shownMessage, ih,
      List.sum_cons]

theorem jsonEncodable_shownMessage (h : env.txt.encodable (contentText env item) = true) :
    PyValue.jsonEncodable env.txt (shownMessage env limit item) = true ↔
      ∀ text ∈ plainTexts env item, env.txt.encodable text = true := by
  have hrole := encodable_ascii env (s := "role") (by decide)
  have hname := encodable_ascii env (s := "name") (by decide)
  have hcontent := encodable_ascii env (s := "content") (by decide)
  have hcreated := encodable_ascii env (s := "created_at") (by decide)
  unfold shownMessage plainTexts
  simp [PyValue.jsonEncodable, PyValue.jsonEncodableEntries, hrole, hname, hcontent, hcreated,
    encodable_shownContent h]

theorem jsonEncodableItems_map {items : List PyDict}
    (h : ∀ item ∈ items, env.txt.encodable (contentText env item) = true) :
    PyValue.jsonEncodableItems env.txt (items.map (shownMessage env limit)) = true ↔
      ∀ item ∈ items, ∀ text ∈ plainTexts env item, env.txt.encodable text = true := by
  induction items with
  | nil => simp [PyValue.jsonEncodableItems]
  | cons item items ih =>
    obtain ⟨hitem, hitems⟩ := List.forall_mem_cons.mp h
    rw [List.map_cons, PyValue.jsonEncodableItems, Bool.and_eq_true,
      jsonEncodable_shownMessage hitem, ih hitems, List.forall_mem_cons]

/-! ## The reply -/

/-- The entries that every reply starts with. -/
def replyHead (env : HistoryEnv) (message : PyDict) : PyDict := [
  ("type", .str "session.history.result"),
  ("request_id", .str (message.textOf env.txt "request_id")),
  ("session_id", .str (message.textOf env.txt "session_id")),
  ("status", .str "completed")]

theorem historyResponse_of_shown (h : Shown env loaded message history recent) :
    historyResponse env loaded message = replyHead env message ++ [
      ("message_total", .int history.length),
      ("messages", .list (recent.map (shownMessage env (contentByteLimit recent))))] := by
  unfold historyResponse
  rw [historyMessages_of_shown h]
  rfl

theorem historyResponse_of_not_shown
    (h : ¬∃ history recent, Shown env loaded message history recent) :
    historyResponse env loaded message = replyHead env message ++ [
      ("message_total", .int 0), ("messages", .list []),
      ("error", .str "history_unavailable")] := by
  obtain ⟨exc, hexc⟩ := historyMessages_of_not_shown h
  unfold historyResponse
  rw [hexc]
  rfl

theorem jsonSize_shown (h : Shown env loaded message history recent) :
    PyValue.jsonSize env.txt (.dict (historyResponse env loaded message)) =
      117 + (toString (history.length : Int)).utf8ByteSize + requestBytes env message +
        (recent.length - 1) +
        (recent.map (messageBytes env (contentByteLimit recent))).sum := by
  have htype : PyValue.jsonStringSize "type" = 6 := by decide
  have hresult : PyValue.jsonStringSize "session.history.result" = 24 := by decide
  have hrequest : PyValue.jsonStringSize "request_id" = 12 := by decide
  have hsession : PyValue.jsonStringSize "session_id" = 12 := by decide
  have hstatus : PyValue.jsonStringSize "status" = 8 := by decide
  have hcompleted : PyValue.jsonStringSize "completed" = 11 := by decide
  have htotal : PyValue.jsonStringSize "message_total" = 15 := by decide
  have hmessages : PyValue.jsonStringSize "messages" = 10 := by decide
  rw [historyResponse_of_shown h]
  unfold replyHead requestBytes
  simp only [List.cons_append, List.nil_append, PyValue.jsonSize, PyValue.jsonSizeEntries, htype,
    hresult, hrequest, hsession, hstatus, hcompleted, htotal, hmessages, List.length_cons,
    List.length_nil, List.length_map, PyValue.commas, jsonSizeItems_map,
    jsonStringSize_eq (PyDict.textOf _ _ _)]
  omega

theorem jsonSize_not_shown (h : ¬∃ history recent, Shown env loaded message history recent) :
    PyValue.jsonSize env.txt (.dict (historyResponse env loaded message)) =
      148 + requestBytes env message := by
  have htype : PyValue.jsonStringSize "type" = 6 := by decide
  have hresult : PyValue.jsonStringSize "session.history.result" = 24 := by decide
  have hrequest : PyValue.jsonStringSize "request_id" = 12 := by decide
  have hsession : PyValue.jsonStringSize "session_id" = 12 := by decide
  have hstatus : PyValue.jsonStringSize "status" = 8 := by decide
  have hcompleted : PyValue.jsonStringSize "completed" = 11 := by decide
  have htotal : PyValue.jsonStringSize "message_total" = 15 := by decide
  have hmessages : PyValue.jsonStringSize "messages" = 10 := by decide
  have herror : PyValue.jsonStringSize "error" = 7 := by decide
  have hunavailable : PyValue.jsonStringSize "history_unavailable" = 21 := by decide
  have hzero : (toString (0 : Int)).utf8ByteSize = 1 := by decide
  rw [historyResponse_of_not_shown h]
  unfold replyHead requestBytes
  simp only [List.cons_append, List.nil_append, PyValue.jsonSize, PyValue.jsonSizeEntries, htype,
    hresult, hrequest, hsession, hstatus, hcompleted, htotal, hmessages, herror, hunavailable,
    hzero, List.length_cons, List.length_nil, PyValue.commas, PyValue.jsonSizeItems,
    jsonStringSize_eq (PyDict.textOf _ _ _)]
  omega

theorem jsonEncodable_shown (h : Shown env loaded message history recent) :
    PyValue.jsonEncodable env.txt (.dict (historyResponse env loaded message)) = true ↔
      RequestEncodable env message ∧
        ∀ item ∈ recent, ∀ text ∈ plainTexts env item, env.txt.encodable text = true := by
  have htype := encodable_ascii env (s := "type") (by decide)
  have hresult := encodable_ascii env (s := "session.history.result") (by decide)
  have hrequest := encodable_ascii env (s := "request_id") (by decide)
  have hsession := encodable_ascii env (s := "session_id") (by decide)
  have hstatus := encodable_ascii env (s := "status") (by decide)
  have hcompleted := encodable_ascii env (s := "completed") (by decide)
  have htotal := encodable_ascii env (s := "message_total") (by decide)
  have hmessages := encodable_ascii env (s := "messages") (by decide)
  have hitems : PyValue.jsonEncodableItems env.txt
      (recent.map (shownMessage env (contentByteLimit recent))) = true ↔ _ :=
    jsonEncodableItems_map h.choose_spec.2.2
  rw [historyResponse_of_shown h]
  unfold replyHead RequestEncodable
  simp only [List.cons_append, List.nil_append, PyValue.jsonEncodable,
    PyValue.jsonEncodableEntries, htype, hresult, hrequest, hsession, hstatus, hcompleted, htotal,
    hmessages, Bool.and_eq_true, Bool.true_and, Bool.and_true, hitems, and_assoc]

theorem jsonEncodable_not_shown
    (h : ¬∃ history recent, Shown env loaded message history recent) :
    PyValue.jsonEncodable env.txt (.dict (historyResponse env loaded message)) = true ↔
      RequestEncodable env message := by
  have htype := encodable_ascii env (s := "type") (by decide)
  have hresult := encodable_ascii env (s := "session.history.result") (by decide)
  have hrequest := encodable_ascii env (s := "request_id") (by decide)
  have hsession := encodable_ascii env (s := "session_id") (by decide)
  have hstatus := encodable_ascii env (s := "status") (by decide)
  have hcompleted := encodable_ascii env (s := "completed") (by decide)
  have htotal := encodable_ascii env (s := "message_total") (by decide)
  have hmessages := encodable_ascii env (s := "messages") (by decide)
  have herror := encodable_ascii env (s := "error") (by decide)
  have hunavailable := encodable_ascii env (s := "history_unavailable") (by decide)
  rw [historyResponse_of_not_shown h]
  unfold replyHead RequestEncodable
  simp only [List.cons_append, List.nil_append, PyValue.jsonEncodable,
    PyValue.jsonEncodableEntries, PyValue.jsonEncodableItems, htype, hresult, hrequest, hsession,
    hstatus, hcompleted, htotal, hmessages, herror, hunavailable, Bool.and_eq_true, Bool.true_and,
    Bool.and_true]

/-- A reply that can be written and fits is sent. -/
theorem historyReplied_iff_fits (env : HistoryEnv) (loaded : Except PyError PyDict)
    (message : PyDict) :
    HistoryReplied env loaded message ↔
      PyValue.jsonEncodable env.txt (.dict (historyResponse env loaded message)) = true ∧
        PyValue.jsonSize env.txt (.dict (historyResponse env loaded message)) ≤
          maxWorkerMessage := by
  constructor
  · exact fun h => ⟨h.encodable, h.fits⟩
  · rintro ⟨hencodable, hfits⟩
    have hsent : sendMessage env true (historyResponse env loaded message) = .ok () := by
      unfold sendMessage
      rw [if_neg (by rw [hencodable]; decide), if_neg (Nat.not_lt.mpr hfits), if_pos rfl]
    refine ⟨hencodable, hfits, hsent, ?_⟩
    unfold readHistory
    dsimp only
    rw [hsent]

/-- **A history reply fits and goes out exactly if its texts can be written and leave room,
escaped.** -/
theorem history_fits_iff (env : HistoryEnv) (loaded : Except PyError PyDict) (message : PyDict) :
    HistoryReplied env loaded message ↔ RoomForHistory env loaded message := by
  rw [historyReplied_iff_fits]
  by_cases hshown : ∃ history recent, Shown env loaded message history recent
  · obtain ⟨history, recent, h⟩ := hshown
    rw [jsonEncodable_shown h, jsonSize_shown h]
    constructor
    · rintro ⟨⟨hrequest, htexts⟩, hfits⟩
      refine ⟨hrequest, fun history' recent' h' => ?_, fun hno => absurd ⟨_, _, h⟩ hno⟩
      obtain ⟨limit, hasked, rfl, -⟩ := h
      obtain ⟨limit', hasked', rfl, -⟩ := h'
      obtain ⟨rfl, rfl⟩ := Prod.mk.inj (Except.ok.inj (hasked.symm.trans hasked'))
      exact ⟨htexts, hfits⟩
    · rintro ⟨hrequest, hroom, -⟩
      exact ⟨⟨hrequest, (hroom history recent h).1⟩, (hroom history recent h).2⟩
  · rw [jsonEncodable_not_shown hshown, jsonSize_not_shown hshown]
    constructor
    · rintro ⟨hrequest, hfits⟩
      exact ⟨hrequest, fun history recent h => absurd ⟨_, _, h⟩ hshown, fun _ => hfits⟩
    · rintro ⟨hrequest, -, hempty⟩
      exact ⟨hrequest, hempty hshown⟩

/-! ## Control characters -/

/-- An environment without secrets. -/
def bareHistoryEnv : HistoryEnv where
  txt := .ascii
  security := { upper := fun s => s, environ := [], secretEnvNames := [] }
  ascii _ _ := rfl

/-- A message of 4000 control characters. -/
def controlMessage : PyDict :=
  [("content", .str (String.ofList (List.replicate 4000 (Char.ofNat 1))))]

/-- A session of a hundred such messages. -/
def controlSession : PyDict :=
  [("history", .list (List.replicate 100 (.dict controlMessage)))]

/-- A request for them. -/
def historyRequest : PyDict :=
  [("request_id", .str "r"), ("session_id", .str "ses_00000000000000000000000000000001")]

theorem contentText_controlMessage :
    (contentText bareHistoryEnv controlMessage).toList =
      List.replicate 4000 (Char.ofNat 1) := by
  have hredact : ∀ s, Security.redactText bareHistoryEnv.security s = s := by
    intro s
    simp [Security.redactText, Security.longestItems, Security.detectedSecretEnvItems,
      bareHistoryEnv]
  have hget : controlMessage.getD "content" (.str "") =
      .str (String.ofList (List.replicate 4000 (Char.ofNat 1))) := rfl
  unfold contentText
  rw [hget, artifactOf, Security.redactArtifact, if_neg (by decide), hredact, valueOf, PyValue.text]
  unfold pyClip messageContentMax
  rw [String.toList_ofList, String.toList_ofList, List.take_of_length_le]
  rw [List.length_replicate]

theorem shown_controlSession :
    Shown bareHistoryEnv (.ok controlSession) historyRequest
      (List.replicate 100 (.dict controlMessage)) (List.replicate 100 controlMessage) := by
  refine ⟨100, rfl, ?_, ?_⟩
  · unfold recentItems
    rw [List.length_replicate, Nat.min_self, Nat.sub_self, List.drop_zero, List.filterMap_replicate]
  · intro item _
    unfold PyText.encodable
    rw [Bool.not_eq_true', List.any_eq_false]
    exact fun c _ => Bool.false_ne_true

theorem shownContent_controlMessage {limit : Nat} (h : 4000 ≤ limit) :
    shownContent bareHistoryEnv limit controlMessage = List.replicate 4000 (Char.ofNat 1) := by
  have hone : (Char.ofNat 1).utf8Size = 1 := by decide
  unfold shownContent
  dsimp only
  rw [contentText_controlMessage, utf8Bytes_replicate, hone, Nat.mul_one, if_pos h]

theorem messageBytes_controlMessage {limit : Nat} (h : 4000 ≤ limit) :
    24000 ≤ messageBytes bareHistoryEnv limit controlMessage := by
  have hchar : PyValue.jsonCharSize (Char.ofNat 1) = 6 := by decide
  unfold messageBytes
  rw [shownContent_controlMessage h, escapedBytes_replicate, hchar]
  omega

/-- A hundred messages share the budget. -/
theorem contentByteLimit_hundred (item : PyDict) :
    4000 ≤ contentByteLimit (List.replicate 100 item) := by
  unfold contentByteLimit historyPayloadContentBudget
  rw [List.length_replicate]
  decide

/-- A hundred messages of control characters: the contents are within the budget, and their JSON
text is not within the frame. -/
theorem control_characters_overflow :
    ¬HistoryReplied bareHistoryEnv (.ok controlSession) historyRequest := by
  intro hreplied
  have hsum : ∀ f : PyDict → Nat,
      ((List.replicate 100 controlMessage).map f).sum = 100 * f controlMessage := by
    intro f
    rw [List.map_replicate, List.sum_replicate_nat]
  have hsize := (jsonSize_shown shown_controlSession).symm.trans_le hreplied.fits
  have hmessage := messageBytes_controlMessage (contentByteLimit_hundred controlMessage)
  rw [hsum] at hsize
  unfold maxWorkerMessage at hsize
  omega

end ThreadForge

import ThreadForge.Hub.ThinkingReplay
import ThreadForge.Worker.StreamRedaction

/-!
# The secrets in the audit list

What the hub stores of the events of a run has gone through `_sanitize_event_data`, event by event,
and `_append_run_index` then joins the texts of neighbouring thinking events. Texts of the model are
cut before they are redacted; previews of tools are cut behind it, and redacted again with the note
that something was cut off.

## Main results

* `auditSafe_of_spares` — when no secret reaches the audit list, whole or by a cut.
* `not_auditSafe` — two thinking events bring a secret into it.
-/

namespace ThreadForge

open Redaction

namespace AuditSecrets

variable (env : SanitizerEnv)

/-! ## What may be stored -/

/-- The values of the secrets. -/
def secretChars : List (List Char) := env.secrets.map String.toList

/-- No secret occurs in the text. -/
def NoSecret (text : String) : Prop := ∀ s ∈ secretChars env, ¬s <:+: text.toList

/-- The note at the end of a preview that was cut. -/
def cutNote : String := "\n...[truncated]"

/-- What is stored of a text shows no more than the redacted text does: it is a beginning of that
text, and perhaps the note that it was cut, redacted once more. -/
def ShowsAtMost (whole stored : String) : Prop :=
  stored = redactedValue ∨ ∃ x, x <+: (Sanitizer.redactText env whole).toList ∧
    (stored.toList = x ∨
      stored.toList <+: (Sanitizer.redactText env (String.ofList (x ++ cutNote.toList))).toList)

/-- The text of an event, as the Worker sent it. -/
def rawText (e : WorkerEvent) : String := e.data.textOf env.txt "text"

/-- The result of a tool, as the Worker sent it. -/
def rawResult (e : WorkerEvent) : String :=
  (PyDict.getD e.data "result_preview" (.str "")).text env.txt

/-- The arguments of a tool, as the Worker sent them. -/
def rawArgs (e : WorkerEvent) : PyDict :=
  match PyDict.getD e.data "args_preview" (.dict []) with
  | .dict args => args
  | _ => []

/-- An entry of the audit list shows no secret: neither a whole one, nor a part of one that the
redaction of the whole text would have hidden. A text may come from several events. -/
structure EntrySafe (events : List WorkerEvent) (entry : PyDict) : Prop where
  text : ∀ value, entry.get? "text" = some value → ∃ text, value = .str text ∧ NoSecret env text ∧
    ∃ pieces : List (WorkerEvent × String),
      text.toList = (pieces.map fun piece => piece.2.toList).flatten ∧
      ∀ piece ∈ pieces, piece.1 ∈ events ∧ ShowsAtMost env (rawText env piece.1) piece.2
  result : ∀ value, entry.get? "result_preview" = some value → ∃ preview, value = .str preview ∧
    NoSecret env preview ∧ ∃ e ∈ events, ShowsAtMost env (rawResult env e) preview
  args : ∀ value, entry.get? "args_preview" = some value → ∃ args, value = .dict args ∧
    ∀ arg ∈ args, NoSecret env (arg.2.text env.txt) ∧ ∃ e ∈ events, ∃ given,
      (rawArgs e).get? arg.1 = some given ∧
        ShowsAtMost env (given.text env.txt) (arg.2.text env.txt)

/-! ## What the events must not do -/

/-- No secret lies across the place where the text is cut. -/
def Uncut (limit : Nat) (text : String) : Prop :=
  Redaction.Apart (secretChars env) (text.toList.take limit) (text.toList.drop limit)

/-- An argument that is not a text is shown as it is, or cut before it is redacted. -/
def ArgSpares : PyValue → Prop
  | .str _ => True
  | .bool b => NoSecret env ((PyValue.bool b).text env.txt)
  | .int n => NoSecret env ((PyValue.int n).text env.txt)
  | value => Uncut env 1200 (value.text env.txt)

/-- The event brings no secret into the audit list: none lies across a cut of it or between it and
the thinking it is joined to, and none is spelt by an argument that is no text. -/
structure Spares (runIndex : List PyDict) (e : WorkerEvent) : Prop where
  text : ∀ limit, textLimits.lookup (e.envelope.textOf env.txt "type") = some limit →
    Uncut env limit (rawText env e)
  joined : ∀ item previous merged, e.IsThinking env →
    runIndexItem env.txt e.envelope (e.sanitized env).2 = .ok item →
    runIndex.getLast? = some previous → mergeThinking env.txt previous item = some merged →
    Redaction.Apart (secretChars env) (previous.textOf env.txt "text").toList
      (item.textOf env.txt "text").toList
  args : e.envelope.textOf env.txt "type" = "tool.requested" → ∀ fields,
    Sanitizer.publicToolArgFields.lookup (clippedText env.txt e.data "tool_name" 100)
      = some fields → ∀ field ∈ fields, ∀ value, (rawArgs e).get? field = some value →
    ArgSpares env value

/-! ## Redacted texts -/

variable {env} {text whole stored : String} {limit : Nat}

theorem toList_redact (text : String) :
    (Sanitizer.redactText env text).toList = redactChars (secretChars env) text.toList := by
  rw [Sanitizer.redactText, String.toList_ofList]
  rfl

theorem NoSecret.of_le (h : NoSecret env whole) (hle : text.toList <+: whole.toList) :
    NoSecret env text := fun s hs hpart => h s hs (hpart.trans hle.isInfix)

variable (hredactable : Redactable (secretChars env))

include hredactable

/-- **A redacted text has no secret.** -/
theorem noSecret_redact (text : String) : NoSecret env (Sanitizer.redactText env text) := by
  intro s hs
  rw [toList_redact]
  exact redactAll_clean hredactable.sorted (mem_longestFirst.mpr hs)

omit hredactable in
theorem redact_of_noSecret (h : NoSecret env text) : Sanitizer.redactText env text = text := by
  refine String.toList_inj.mp ?_
  rw [toList_redact]
  exact redactAll_of_clean fun s hs => h s (mem_longestFirst.mp hs)

theorem redact_redact (text : String) : Sanitizer.redactText env (Sanitizer.redactText env text)
    = Sanitizer.redactText env text :=
  redact_of_noSecret (noSecret_redact hredactable text)

theorem noSecret_redactedValue : NoSecret env redactedValue := by
  intro s hs hpart
  have hforeign := hredactable s hs
  have hmarker : s <:+: [] ++ redactedMarker.text ++ [] := by
    rw [List.nil_append, List.append_nil]
    exact hpart
  rcases infix_marker hforeign hmarker with hnil | hnil
  · exact hforeign.ne (List.infix_nil.mp hnil)
  · exact hforeign.ne (List.infix_nil.mp hnil)

/-- **A text that is cut where no secret lies shows no more than the whole text, redacted.** -/
theorem redact_clip_le (h : Uncut env limit text) :
    (Sanitizer.redactText env (pyClip text limit)).toList
      <+: (Sanitizer.redactText env text).toList := by
  have happart : Redaction.Apart (longestFirst (secretChars env)) (text.toList.take limit)
      (text.toList.drop limit) := fun s hs => h s (mem_longestFirst.mp hs)
  have hsplit := redactAll_append_of_apart hredactable.sorted happart
  rw [List.take_append_drop] at hsplit
  rw [toList_redact, toList_redact, pyClip, String.toList_ofList, redactChars, redactChars, hsplit]
  exact List.prefix_append _ _

omit hredactable in
theorem toList_pyClip (text : String) (n : Nat) : (pyClip text n).toList = text.toList.take n :=
  String.toList_ofList

/-- A text of the model: cut, redacted, and cut again. -/
theorem showsAtMost_text (h : Uncut env limit whole) :
    NoSecret env (pyClip (Sanitizer.redactText env (pyClip whole limit)) limit) ∧
      ShowsAtMost env whole (pyClip (Sanitizer.redactText env (pyClip whole limit)) limit) := by
  have hclip : (pyClip (Sanitizer.redactText env (pyClip whole limit)) limit).toList
      <+: (Sanitizer.redactText env (pyClip whole limit)).toList := by
    rw [toList_pyClip]
    exact List.take_prefix _ _
  refine ⟨(noSecret_redact hredactable _).of_le hclip, Or.inr ⟨_, ?_, Or.inl rfl⟩⟩
  exact hclip.trans (redact_clip_le hredactable h)

/-- A preview: redacted, cut with a note, and redacted again. -/
theorem redact_clipPublicText (value : PyValue) (n : Nat) : ∃ x,
    x <+: (Sanitizer.redactText env (value.text env.txt)).toList ∧
      ((Sanitizer.redactText env (Sanitizer.clipPublicText env value n).1).toList = x ∨
        Sanitizer.redactText env (Sanitizer.clipPublicText env value n).1
          = Sanitizer.redactText env (String.ofList (x ++ cutNote.toList))) := by
  have hclip : Sanitizer.clipPublicText env value n =
      if (Sanitizer.redactText env (value.text env.txt)).length ≤ n then
        (Sanitizer.redactText env (value.text env.txt), false)
      else (pyClip (Sanitizer.redactText env (value.text env.txt)) (n - 20) ++ cutNote, true) := rfl
  rw [hclip]
  split
  · exact ⟨_, List.prefix_refl _, Or.inl (by rw [redact_redact hredactable])⟩
  · refine ⟨(pyClip (Sanitizer.redactText env (value.text env.txt)) (n - 20)).toList, ?_, Or.inr ?_⟩
    · rw [toList_pyClip]
      exact List.take_prefix _ _
    · rw [← String.toList_append, String.ofList_toList]

omit hredactable

/-! ## What the sanitizer leaves -/

variable {e : WorkerEvent} {key : String} {value : PyValue} {data item : PyDict}

/-- Redaction goes through the fields. -/
theorem get?_redactEntries (entries : PyDict) (key : String) :
    PyDict.get? (Sanitizer.redactEntries env entries) key =
      (PyDict.get? entries key).map (Sanitizer.redactArtifact env key) := by
  induction entries with
  | nil => rfl
  | cons entry rest ih =>
    obtain ⟨k, v⟩ := entry
    rw [Sanitizer.redactEntries, PyDict.get?_cons, PyDict.get?_cons, ih]
    split
    · next hk =>
      rw [hk]
      rfl
    · rfl

theorem mem_redactEntries {entries : List (String × PyValue)} {entry : String × PyValue}
    (h : entry ∈ Sanitizer.redactEntries env entries) :
    ∃ value, (entry.1, value) ∈ entries ∧
      entry.2 = Sanitizer.redactArtifact env entry.1 value := by
  induction entries with
  | nil => cases h
  | cons first rest ih =>
    rw [Sanitizer.redactEntries] at h
    rcases List.mem_cons.mp h with rfl | h
    · exact ⟨first.2, List.mem_cons_self, rfl⟩
    · obtain ⟨value, hvalue, hentry⟩ := ih h
      exact ⟨value, List.mem_cons_of_mem first hvalue, hentry⟩

variable (env) in
/-- A field with the name of a secret is hidden as a whole, and stays so. -/
theorem redactArtifact_cases (key : String) :
    (∀ value, Sanitizer.redactArtifact env key value = .str redactedValue) ∨
      (∀ text, Sanitizer.redactArtifact env key (.str text)
        = .str (Sanitizer.redactText env text)) ∧
      (∀ entries, Sanitizer.redactArtifact env key (.dict entries)
        = .dict (Sanitizer.redactEntries env entries)) ∧
      (∀ b, Sanitizer.redactArtifact env key (.bool b) = .bool b) ∧
      ∀ n, Sanitizer.redactArtifact env key (.int n) = .int n := by
  by_cases hsecret : key ≠ "" ∧ Sanitizer.isSecretName env key = true
  · refine Or.inl fun value => ?_
    cases value
    all_goals simp only [Sanitizer.redactArtifact, if_pos hsecret]
  · refine Or.inr ⟨fun text => ?_, fun entries => ?_, fun b => ?_, fun n => ?_⟩
    all_goals simp only [Sanitizer.redactArtifact, if_neg hsecret]

theorem safeText_eq (data : PyDict) (limit : Nat) : Sanitizer.safeText env data limit =
    .str (Sanitizer.redactText env (clippedText env.txt data "text" limit)) := by
  rw [Sanitizer.safeText, Sanitizer.redactArtifact, if_neg fun h => h.1 rfl]

theorem lookup_textLimits {eventType : String} (h : textLimits.lookup eventType = some limit) :
    (eventType = "model.completed" ∧ limit = 4000) ∨
      (eventType = "message.completed" ∧ limit = 4000) ∨
      (eventType = "assistant.thinking" ∧ limit = 4000) ∨
      (eventType = "assistant.commentary" ∧ limit = 1000) := by
  unfold textLimits at h
  simp only [List.lookup_cons, List.lookup_nil] at h
  split at h
  · next heq => exact Or.inl ⟨by simpa using heq, (Option.some.inj h).symm⟩
  split at h
  · next heq => exact Or.inr (Or.inl ⟨by simpa using heq, (Option.some.inj h).symm⟩)
  split at h
  · next heq => exact Or.inr (Or.inr (Or.inl ⟨by simpa using heq, (Option.some.inj h).symm⟩))
  split at h
  · next heq => exact Or.inr (Or.inr (Or.inr ⟨by simpa using heq, (Option.some.inj h).symm⟩))
  · cases h

variable (env) in
/-- The text that the sanitizer hands on: cut and redacted, or none. -/
theorem text_sanitized {eventType : String} (h : textLimits.lookup eventType = some limit)
    (data : PyDict) :
    (Sanitizer.sanitizeEventData env eventType data).textOf env.txt "text" = "" ∨
      (Sanitizer.sanitizeEventData env eventType data).textOf env.txt "text"
        = Sanitizer.redactText env (clippedText env.txt data "text" limit) := by
  have hone : ∀ limit, PyDict.textOf env.txt [("text", Sanitizer.safeText env data limit)] "text"
      = Sanitizer.redactText env (clippedText env.txt data "text" limit) := by
    intro limit
    rw [safeText_eq]
    rfl
  rcases lookup_textLimits h with ⟨rfl, rfl⟩ | ⟨rfl, rfl⟩ | ⟨rfl, rfl⟩ | ⟨rfl, rfl⟩
  · have hbranch : Sanitizer.sanitizeEventData env "model.completed" data
        = Sanitizer.safeModelCompleted env data := rfl
    rw [hbranch, Sanitizer.safeModelCompleted]
    split
    · refine Or.inr ?_
      rw [safeText_eq]
      rfl
    · exact Or.inl rfl
  · exact Or.inr (hone 4000)
  · exact Or.inr (hone 4000)
  · exact Or.inr (hone 1000)

/-- The arguments of a request that the sanitizer hands on. -/
theorem args_sanitized {args : PyDict}
    (h : (Sanitizer.sanitizeEventData env "tool.requested" data).get? "args_preview"
      = some (.dict args)) :
    args = Sanitizer.redactEntries env (Sanitizer.publicToolArgsPreview env
      (clippedText env.txt data "tool_name" 100) (data.getD "args_preview" (.dict []))) := by
  have hbranch : Sanitizer.sanitizeEventData env "tool.requested" data
      = Sanitizer.redactEntries env (Sanitizer.safeTool env "tool.requested" data) := rfl
  rw [hbranch, get?_redactEntries] at h
  obtain ⟨value, hvalue, hredacted⟩ := Option.map_eq_some_iff.mp h
  by_cases hargs : Sanitizer.publicToolArgsPreview env (clippedText env.txt data "tool_name" 100)
      (data.getD "args_preview" (.dict [])) ≠ []
  · have hsafe : PyDict.get? (Sanitizer.safeTool env "tool.requested" data) "args_preview"
        = some (.dict (Sanitizer.publicToolArgsPreview env
          (clippedText env.txt data "tool_name" 100) (data.getD "args_preview" (.dict [])))) := by
      simp [Sanitizer.safeTool, PyDict.get?_cons, hargs]
    rw [hsafe] at hvalue
    obtain rfl := Option.some.inj hvalue
    rcases redactArtifact_cases env "args_preview" with hhidden | ⟨-, hdict, -⟩
    · rw [hhidden] at hredacted
      cases hredacted
    · rw [hdict] at hredacted
      exact (PyValue.dict.inj hredacted).symm
  · have hsafe : PyDict.get? (Sanitizer.safeTool env "tool.requested" data) "args_preview"
        = none := by
      simp [Sanitizer.safeTool, PyDict.get?_cons, hargs]
    rw [hsafe] at hvalue
    cases hvalue

/-- The result of a tool that the sanitizer hands on. -/
theorem result_sanitized {eventType preview : String}
    (htype : eventType = "tool.completed" ∨ eventType = "tool.failed")
    (h : (Sanitizer.sanitizeEventData env eventType data).get? "result_preview"
      = some (.str preview)) :
    preview = redactedValue ∨ preview = Sanitizer.redactText env
      (Sanitizer.clipPublicText env (data.getD "result_preview" (.str "")) 8000).1 := by
  have hbranch : Sanitizer.sanitizeEventData env eventType data
      = Sanitizer.redactEntries env (Sanitizer.safeTool env eventType data) := by
    rcases htype with rfl | rfl
    · rfl
    · rfl
  rw [hbranch, get?_redactEntries] at h
  obtain ⟨value, hvalue, hredacted⟩ := Option.map_eq_some_iff.mp h
  by_cases hempty : (Sanitizer.publicToolResultPreview env
      (clippedText env.txt data "tool_name" 100) (data.getD "result_preview" (.str ""))).1 = ""
  · have hsafe : PyDict.get? (Sanitizer.safeTool env eventType data) "result_preview" = none := by
      rcases htype with rfl | rfl
      · simp [Sanitizer.safeTool, Sanitizer.safeToolEnd, PyDict.get?_cons, hempty]
      · simp [Sanitizer.safeTool, Sanitizer.safeToolEnd, PyDict.get?_cons, hempty]
    rw [hsafe] at hvalue
    cases hvalue
  · have hsafe : PyDict.get? (Sanitizer.safeTool env eventType data) "result_preview"
        = some (.str (Sanitizer.publicToolResultPreview env
          (clippedText env.txt data "tool_name" 100)
          (data.getD "result_preview" (.str ""))).1) := by
      rcases htype with rfl | rfl
      · simp [Sanitizer.safeTool, Sanitizer.safeToolEnd, PyDict.get?_cons, hempty]
      · simp [Sanitizer.safeTool, Sanitizer.safeToolEnd, PyDict.get?_cons, hempty]
    rw [hsafe] at hvalue
    obtain rfl := Option.some.inj hvalue
    have hshown : Sanitizer.publicToolResultPreview env (clippedText env.txt data "tool_name" 100)
        (data.getD "result_preview" (.str ""))
        = Sanitizer.clipPublicText env (data.getD "result_preview" (.str "")) 8000 := by
      unfold Sanitizer.publicToolResultPreview
      split
      · next hhidden =>
        rw [Sanitizer.publicToolResultPreview, if_pos hhidden] at hempty
        exact absurd rfl hempty
      · rfl
    rcases redactArtifact_cases env "result_preview" with hhidden | ⟨htext, -⟩
    · rw [hhidden] at hredacted
      exact Or.inl (PyValue.str.inj hredacted).symm
    · rw [htext, hshown] at hredacted
      exact Or.inr (PyValue.str.inj hredacted).symm

/-- Where a field of a new entry comes from. -/
theorem origin_item (hitem : runIndexItem env.txt e.envelope (e.sanitized env).2 = .ok item)
    (hbase : key ∉ ["event_id", "run_id", "type", "timestamp", "label", "phase",
      "parent_event_id", "started_at", "ended_at", "summary", "attempt"])
    (hplain : key ∉ plainFields) (htool : key ∉ ["tool_name", "tool_call_id", "result_truncated"])
    (hvalue : item.get? key = some value) :
    (key = "text" ∧ ∃ limit, textLimits.lookup (e.envelope.textOf env.txt "type") = some limit ∧
      value = .str (clippedText env.txt (e.sanitized env).2 "text" limit)) ∨
    (key = "args_preview" ∧ e.envelope.textOf env.txt "type" = "tool.requested" ∧ ∃ args,
      (e.sanitized env).2.get? "args_preview" = some (.dict args) ∧ value = .dict args) ∨
    (key = "result_preview" ∧ (e.envelope.textOf env.txt "type" = "tool.completed" ∨
        e.envelope.textOf env.txt "type" = "tool.failed") ∧ ∃ preview,
      (e.sanitized env).2.get? "result_preview" = some (.str preview) ∧
        value = .str (pyClip preview 8000)) := by
  have hnone : (runIndexBase env.txt e.envelope (e.sanitized env).2).get? key = none :=
    get?_runIndexBase hbase
  unfold runIndexItem at hitem
  by_cases hstart : pyStartsWith (e.envelope.textOf env.txt "type") "tool." = true
  · rw [runIndexFields, if_pos hstart] at hitem
    rcases get?_runIndexTool htool (Except.ok.inj hitem) with
      hsame | ⟨hkey, htype, args, hargs, hset⟩ | ⟨hkey, htype, preview, hpreview, hset⟩
    · rw [hsame, hnone] at hvalue
      cases hvalue
    · rw [hset] at hvalue
      exact Or.inr (Or.inl ⟨hkey, htype, args, hargs, (Option.some.inj hvalue).symm⟩)
    · rw [hset] at hvalue
      exact Or.inr (Or.inr ⟨hkey, htype, preview, hpreview, (Option.some.inj hvalue).symm⟩)
  · rcases get?_runIndexFields hstart hplain hitem with hsame | ⟨hkey, limit, hlimit, hset⟩
    · rw [hsame, hnone] at hvalue
      cases hvalue
    · rw [hset] at hvalue
      exact Or.inl ⟨hkey, limit, hlimit, (Option.some.inj hvalue).symm⟩

/-! ## A new entry -/

include hredactable

theorem noSecret_empty : NoSecret env "" :=
  fun s hs hpart => (hredactable s hs).ne (List.infix_nil.mp hpart)

/-- What is cut off behind the redaction of a preview shows nothing more. -/
theorem showsAtMost_preview (value : PyValue) (n limit : Nat) :
    NoSecret env
        (pyClip (Sanitizer.redactText env (Sanitizer.clipPublicText env value n).1) limit) ∧
      ShowsAtMost env (value.text env.txt)
        (pyClip (Sanitizer.redactText env (Sanitizer.clipPublicText env value n).1) limit) := by
  have hclip : (pyClip (Sanitizer.redactText env (Sanitizer.clipPublicText env value n).1)
      limit).toList
        <+: (Sanitizer.redactText env (Sanitizer.clipPublicText env value n).1).toList := by
    rw [toList_pyClip]
    exact List.take_prefix _ _
  refine ⟨(noSecret_redact hredactable _).of_le hclip, Or.inr ?_⟩
  obtain ⟨x, hx, hwhole | hnote⟩ := redact_clipPublicText hredactable value n
  · rw [hwhole] at hclip
    exact ⟨_, hclip.trans hx, Or.inl rfl⟩
  · rw [hnote] at hclip ⊢
    exact ⟨x, hx, Or.inr hclip⟩

/-- The text of a new entry. -/
theorem text_safe (hspares : ∀ limit,
      textLimits.lookup (e.envelope.textOf env.txt "type") = some limit →
        Uncut env limit (rawText env e))
    (hitem : runIndexItem env.txt e.envelope (e.sanitized env).2 = .ok item)
    (hvalue : item.get? "text" = some value) :
    ∃ text, value = .str text ∧ NoSecret env text ∧ ShowsAtMost env (rawText env e) text := by
  rcases origin_item hitem (by decide) (by decide) (by decide) hvalue with
    ⟨-, limit, hlimit, rfl⟩ | ⟨hkey, -⟩ | ⟨hkey, -⟩
  · refine ⟨_, rfl, ?_⟩
    unfold clippedText
    rcases text_sanitized env hlimit e.data with hempty | htext
    · rw [WorkerEvent.sanitized, hempty, pyClip_of_length_le (Nat.zero_le limit)]
      exact ⟨noSecret_empty hredactable, Or.inr ⟨[], List.nil_prefix, Or.inl rfl⟩⟩
    · rw [WorkerEvent.sanitized, htext]
      exact showsAtMost_text hredactable (hspares limit hlimit)
  · exact absurd hkey (by decide)
  · exact absurd hkey (by decide)

/-- The result in a new entry: it is redacted before it is cut. -/
theorem result_safe (hitem : runIndexItem env.txt e.envelope (e.sanitized env).2 = .ok item)
    (hvalue : item.get? "result_preview" = some value) :
    ∃ preview, value = .str preview ∧ NoSecret env preview ∧
      ShowsAtMost env (rawResult env e) preview := by
  rcases origin_item hitem (by decide) (by decide) (by decide) hvalue with
    ⟨hkey, -⟩ | ⟨hkey, -⟩ | ⟨-, htype, preview, hpreview, rfl⟩
  · exact absurd hkey (by decide)
  · exact absurd hkey (by decide)
  · refine ⟨_, rfl, ?_⟩
    rcases result_sanitized htype hpreview with rfl | rfl
    · rw [pyClip_of_length_le (by decide)]
      exact ⟨noSecret_redactedValue hredactable, Or.inl rfl⟩
    · exact showsAtMost_preview hredactable _ 8000 8000

/-- One argument of a request, redacted with its preview and with the event. -/
theorem arg_shown {given : PyValue} (h : ArgSpares env given) (field : String) {stored : PyValue}
    (hstored : stored = Sanitizer.redactArtifact env field
      (Sanitizer.redactArtifact env field (Sanitizer.publicToolArg env given))) :
    NoSecret env (stored.text env.txt) ∧
      ShowsAtMost env (given.text env.txt) (stored.text env.txt) := by
  rcases redactArtifact_cases env field with hhidden | ⟨htext, -, hbool, hint⟩
  · rw [hhidden] at hstored
    rw [hstored]
    exact ⟨noSecret_redactedValue hredactable, Or.inl rfl⟩
  · -- a value that is not redacted spells no secret
    have hplain : ∀ text, NoSecret env text → NoSecret env text ∧ ShowsAtMost env text text := by
      intro text hclean
      refine ⟨hclean, Or.inr ⟨text.toList, ?_, Or.inl rfl⟩⟩
      rw [redact_of_noSecret hclean]
    have hcut : ∀ whole, Uncut env 1200 whole →
        stored = .str (Sanitizer.redactText env (Sanitizer.redactText env (pyClip whole 1200))) →
        NoSecret env (stored.text env.txt) ∧ ShowsAtMost env whole (stored.text env.txt) := by
      intro whole huncut hvalue
      rw [hvalue, redact_redact hredactable]
      exact ⟨noSecret_redact hredactable _,
        Or.inr ⟨_, redact_clip_le hredactable huncut, Or.inl rfl⟩⟩
    cases given with
    | str s =>
      rw [Sanitizer.publicToolArg, htext, htext, redact_redact hredactable] at hstored
      rw [hstored]
      have hshown := showsAtMost_preview hredactable (.str s) 1200
        (Sanitizer.redactText env (Sanitizer.clipPublicText env (.str s) 1200).1).length
      rwa [pyClip_of_length_le (le_refl _)] at hshown
    | bool b =>
      rw [Sanitizer.publicToolArg, hbool, hbool] at hstored
      rw [hstored]
      exact hplain _ h
    | int n =>
      rw [Sanitizer.publicToolArg, hint, hint] at hstored
      rw [hstored]
      exact hplain _ h
    | _ => exact hcut _ h (by simp only [hstored, Sanitizer.publicToolArg, htext])

/-- The arguments in a new entry. -/
theorem args_safe (hspares : e.envelope.textOf env.txt "type" = "tool.requested" → ∀ fields,
      Sanitizer.publicToolArgFields.lookup (clippedText env.txt e.data "tool_name" 100)
        = some fields → ∀ field ∈ fields, ∀ value, (rawArgs e).get? field = some value →
      ArgSpares env value)
    (hitem : runIndexItem env.txt e.envelope (e.sanitized env).2 = .ok item)
    (hvalue : item.get? "args_preview" = some value) :
    ∃ args, value = .dict args ∧ ∀ arg ∈ args, NoSecret env (arg.2.text env.txt) ∧
      ∃ given, (rawArgs e).get? arg.1 = some given ∧
        ShowsAtMost env (given.text env.txt) (arg.2.text env.txt) := by
  rcases origin_item hitem (by decide) (by decide) (by decide) hvalue with
    ⟨hkey, -⟩ | ⟨-, htype, args, hargs, rfl⟩ | ⟨hkey, -⟩
  · exact absurd hkey (by decide)
  · refine ⟨args, rfl, fun arg harg => ?_⟩
    rw [WorkerEvent.sanitized, htype] at hargs
    rw [args_sanitized hargs] at harg
    obtain ⟨value, hmem, harg⟩ := mem_redactEntries harg
    unfold Sanitizer.publicToolArgsPreview at hmem
    split at hmem
    · next fields entries hfields hentries =>
      obtain ⟨value', hmem, hvalue'⟩ := mem_redactEntries hmem
      obtain ⟨field, hfield, hshown⟩ := List.mem_filterMap.mp hmem
      obtain ⟨given, hgiven, hpair⟩ := Option.map_eq_some_iff.mp hshown
      obtain ⟨hname, rfl⟩ := Prod.mk.inj hpair
      have hraw : rawArgs e = entries := by
        unfold rawArgs
        rw [hentries]
      rw [← hraw, hname] at hgiven
      rw [hname] at hfield
      have hstored : arg.2 = Sanitizer.redactArtifact env arg.1
          (Sanitizer.redactArtifact env arg.1 (Sanitizer.publicToolArg env given)) := by
        rw [harg, ← hvalue']
      have hshows := arg_shown hredactable (hspares htype fields hfields _ hfield given hgiven) _
        hstored
      exact ⟨hshows.1, given, hgiven, hshows.2⟩
    · cases hmem
  · exact absurd hkey (by decide)

variable {events : List WorkerEvent} {runIndex : List PyDict}

/-- **The entry of an event** that spares the audit list. -/
theorem entrySafe_item (hspares : Spares env runIndex e) (he : e ∈ events)
    (hitem : runIndexItem env.txt e.envelope (e.sanitized env).2 = .ok item) :
    EntrySafe env events item where
  text := by
    intro value hvalue
    obtain ⟨text, rfl, hclean, hshows⟩ := text_safe hredactable hspares.text hitem hvalue
    refine ⟨text, rfl, hclean, [(e, text)], (List.append_nil _).symm, ?_⟩
    intro piece hpiece
    rw [List.mem_singleton.mp hpiece]
    exact ⟨he, hshows⟩
  result := by
    intro value hvalue
    obtain ⟨preview, rfl, hclean, hshows⟩ := result_safe hredactable hitem hvalue
    exact ⟨preview, rfl, hclean, e, he, hshows⟩
  args := by
    intro value hvalue
    obtain ⟨args, rfl, hargs⟩ := args_safe hredactable hspares.args hitem hvalue
    refine ⟨args, rfl, fun arg harg => ?_⟩
    obtain ⟨hclean, given, hgiven, hshows⟩ := hargs arg harg
    exact ⟨hclean, e, he, given, hgiven, hshows⟩

omit hredactable

/-! ## The list -/

/-- More events: an entry is as safe. -/
theorem EntrySafe.mono {events' : List WorkerEvent} (h : EntrySafe env events item)
    (hsub : events ⊆ events') : EntrySafe env events' item where
  text := by
    intro value hvalue
    obtain ⟨text, rfl, hclean, pieces, hpieces, hshows⟩ := h.text value hvalue
    exact ⟨text, rfl, hclean, pieces, hpieces, fun piece hpiece =>
      ⟨hsub (hshows piece hpiece).1, (hshows piece hpiece).2⟩⟩
  result := by
    intro value hvalue
    obtain ⟨preview, rfl, hclean, e, he, hshows⟩ := h.result value hvalue
    exact ⟨preview, rfl, hclean, e, hsub he, hshows⟩
  args := by
    intro value hvalue
    obtain ⟨args, rfl, hargs⟩ := h.args value hvalue
    refine ⟨args, rfl, fun arg harg => ?_⟩
    obtain ⟨hclean, e, he, hshows⟩ := hargs arg harg
    exact ⟨hclean, e, hsub he, hshows⟩

/-- The text of a safe entry, as it is read when the next one is joined to it. -/
theorem EntrySafe.textOf (h : EntrySafe env events item) (hne : item.textOf env.txt "text" ≠ "") :
    NoSecret env (item.textOf env.txt "text") ∧ ∃ pieces : List (WorkerEvent × String),
      (item.textOf env.txt "text").toList = (pieces.map fun piece => piece.2.toList).flatten ∧
      ∀ piece ∈ pieces, piece.1 ∈ events ∧ ShowsAtMost env (rawText env piece.1) piece.2 := by
  cases hvalue : item.get? "text" with
  | none =>
    unfold PyDict.textOf PyDict.getD at hne
    rw [hvalue] at hne
    exact absurd rfl hne
  | some value =>
    obtain ⟨text, rfl, hsafe⟩ := h.text value hvalue
    have htext : item.textOf env.txt "text" = text := by
      unfold PyDict.textOf PyDict.getD
      rw [hvalue]
      rfl
    rw [htext]
    exact hsafe

/-- **Joined thinking** is safe where no secret lies across the joint. -/
theorem entrySafe_merged {previous merged : PyDict} (hprevious : EntrySafe env events previous)
    (hitem : EntrySafe env events item)
    (hmerged : mergeThinking env.txt previous item = some merged)
    (hapart : Redaction.Apart (secretChars env) (previous.textOf env.txt "text").toList
      (item.textOf env.txt "text").toList) : EntrySafe env events merged := by
  unfold mergeThinking at hmerged
  dsimp only at hmerged
  split at hmerged
  swap
  · cases hmerged
  next hjoin =>
  obtain rfl := Option.some.inj hmerged
  obtain ⟨-, -, -, hpreviousText, hitemText, -⟩ := hjoin
  refine ⟨?_, ?_, ?_⟩
  · intro value hvalue
    rw [PyDict.get?_set, if_pos rfl] at hvalue
    obtain rfl := Option.some.inj hvalue
    obtain ⟨hclean, pieces, hpieces, hshows⟩ := hprevious.textOf hpreviousText
    obtain ⟨hclean', pieces', hpieces', hshows'⟩ := hitem.textOf hitemText
    refine ⟨_, rfl, ?_, pieces ++ pieces', ?_, ?_⟩
    · intro s hs
      rw [String.toList_append]
      exact hapart.clean hclean hclean' s hs
    · rw [String.toList_append, hpieces, hpieces', List.map_append, List.flatten_append]
    · intro piece hpiece
      rcases List.mem_append.mp hpiece with hleft | hright
      · exact hshows piece hleft
      · exact hshows' piece hright
  · intro value hvalue
    rw [PyDict.get?_set, if_neg (by decide), PyDict.get?_set, if_neg (by decide)] at hvalue
    exact hprevious.result value hvalue
  · intro value hvalue
    rw [PyDict.get?_set, if_neg (by decide), PyDict.get?_set, if_neg (by decide)] at hvalue
    exact hprevious.args value hvalue

/-- What one more entry can bring into the list. -/
theorem mem_pushRunIndex {txt : PyText} {eventType : String} {entry : PyDict}
    (h : entry ∈ pushRunIndex txt eventType runIndex item) :
    entry ∈ runIndex ∨ entry = item ∨ eventType = "assistant.thinking" ∧
      ∃ previous, runIndex.getLast? = some previous ∧
        mergeThinking txt previous item = some entry := by
  have happended : entry ∈ runIndex.drop (runIndex.length - 499) ++ [item] →
      entry ∈ runIndex ∨ entry = item := by
    intro hmem
    rcases List.mem_append.mp hmem with hold | hnew
    · exact Or.inl (List.mem_of_mem_drop hold)
    · exact Or.inr (List.mem_singleton.mp hnew)
  unfold pushRunIndex at h
  dsimp only at h
  split at h
  · exact (happended h).imp_right Or.inl
  · next previous hlast =>
    split at h
    · next htype =>
      split at h
      · next merged hmerged =>
        rcases List.mem_append.mp h with hold | hnew
        · exact Or.inl (List.mem_of_mem_dropLast hold)
        · rw [List.mem_singleton.mp hnew]
          exact Or.inr (Or.inr ⟨htype, previous, hlast, hmerged⟩)
      · exact (happended h).imp_right Or.inl
    · exact (happended h).imp_right Or.inl

/-- **One event.** -/
theorem entrySafe_step (hredactable : Redactable (secretChars env))
    (hspares : Spares env runIndex e) (he : e ∈ events)
    (hsafe : ∀ entry ∈ runIndex, EntrySafe env events entry) :
    ∀ entry ∈ auditStep env.txt runIndex (e.sanitized env), EntrySafe env events entry := by
  intro entry hentry
  unfold auditStep at hentry
  dsimp only at hentry
  split at hentry
  · exact hsafe entry hentry
  · split at hentry
    · next item hitem =>
      have hnew := entrySafe_item hredactable hspares he hitem
      rcases mem_pushRunIndex hentry with hold | rfl | ⟨htype, previous, hlast, hmerged⟩
      · exact hsafe entry hold
      · exact hnew
      · exact entrySafe_merged (hsafe previous (List.mem_of_getLast? hlast)) hnew hmerged
          (hspares.joined item previous entry htype hitem hlast hmerged)
    · exact hsafe entry hentry

end AuditSecrets

open AuditSecrets in
/-- **The audit list of a run shows no secret**, when each of its events spares the list it finds:
no secret lies across a place where a text is cut or joined, and none is spelt by an argument that
is no text. -/
theorem auditSafe_of_spares (env : SanitizerEnv) (hredactable : Redactable (secretChars env))
    (events : List WorkerEvent)
    (hspares : ∀ front e back, events = front ++ e :: back →
      Spares env (auditOf env front) e) :
    ∀ entry ∈ auditOf env events, EntrySafe env events entry := by
  induction events using List.reverseRecOn with
  | nil =>
    intro entry hentry
    cases hentry
  | append_singleton front e ih =>
    have hfront : ∀ entry ∈ auditOf env front, EntrySafe env (front ++ [e]) entry := by
      intro entry hentry
      refine (ih (fun front' e' back' hsplit => ?_) entry hentry).mono (List.subset_append_left _ _)
      refine hspares front' e' (back' ++ [e]) ?_
      rw [hsplit, List.append_assoc, List.cons_append]
    have hstep : auditOf env (front ++ [e]) =
        auditStep env.txt (auditOf env front) (e.sanitized env) := by
      unfold auditOf
      rw [List.map_append, List.foldl_append]
      rfl
    rw [hstep]
    exact entrySafe_step hredactable (hspares front e [] rfl)
      (List.mem_append_right _ List.mem_cons_self) hfront

/-! ## A secret in two events -/

namespace SplitSecret

open AuditSecrets

def env : SanitizerEnv where
  txt := .ascii
  upper := String.toUpper
  secrets := ["hunter2"]
  others _ data := data

theorem redactable : Redactable (secretChars env) := by decide +kernel

/-- The model thinks. -/
def thought (id text : String) : WorkerEvent where
  envelope := [("type", .str "assistant.thinking"), ("event_id", .str id), ("run_id", .str "run_1"),
    ("timestamp", .str "2026-01-01T00:00:00Z"), ("phase", .str "talk")]
  data := [("text", .str text), ("stage", .str "execute")]

/-- A thought with a secret, and one that goes on behind it. -/
def told : List WorkerEvent :=
  [thought "evt_1" "The password is hunter2", thought "evt_2" ". It works."]

/-- A thought that is not cut spares the list when its joint does. -/
theorem thought_spares {runIndex : List PyDict} {id text : String} (hlength : text.length ≤ 4000)
    (hjoined : ∀ item previous,
      runIndexItem env.txt (thought id text).envelope ((thought id text).sanitized env).2
        = .ok item →
      runIndex.getLast? = some previous → Redaction.Apart (secretChars env)
        (previous.textOf env.txt "text").toList (item.textOf env.txt "text").toList) :
    Spares env runIndex (thought id text) where
  text := by
    intro limit hlimit s _ p q _ hq _ _ hstart
    have htype : textLimits.lookup "assistant.thinking" = some limit := hlimit
    rcases lookup_textLimits htype with ⟨h, -⟩ | ⟨h, -⟩ | ⟨-, rfl⟩ | ⟨h, -⟩
    · exact absurd h (by decide)
    · exact absurd h (by decide)
    · have hraw : (rawText env (thought id text)).toList.length ≤ 4000 := by
        rw [String.length_toList]
        exact hlength
      rw [List.drop_eq_nil_of_le hraw] at hstart
      exact hq (List.prefix_nil.mp hstart)
    · exact absurd h (by decide)
  joined := fun item previous _ _ hitem hlast _ => hjoined item previous hitem hlast
  args := by
    intro htype
    have htype : "assistant.thinking" = "tool.requested" := htype
    exact absurd htype (by decide)

/-- The second text goes on with a character that the secret does not have. -/
theorem told_apart {item previous : PyDict}
    (hitem : runIndexItem env.txt (thought "evt_2" ". It works.").envelope
      ((thought "evt_2" ". It works.").sanitized env).2 = .ok item) :
    Redaction.Apart (secretChars env) (previous.textOf env.txt "text").toList
      (item.textOf env.txt "text").toList := by
  have htext : (runIndexItem env.txt (thought "evt_2" ". It works.").envelope
      ((thought "evt_2" ". It works.").sanitized env).2).toOption.map
        (PyDict.textOf env.txt · "text") = some ". It works." := by decide +kernel
  rw [hitem] at htext
  rw [show item.textOf env.txt "text" = ". It works." from Option.some.inj htext]
  rintro s hs p q - hq rfl - hstart
  cases q with
  | nil => exact hq rfl
  | cons c q =>
    have hc : c = '.' := (List.cons_prefix_cons.mp hstart).1
    have hsecret : p ++ c :: q = "hunter2".toList := List.mem_singleton.mp hs
    have hmem : c ∈ "hunter2".toList := by
      rw [← hsecret]
      exact List.mem_append_right p List.mem_cons_self
    rw [hc] at hmem
    exact absurd hmem (by decide)

end SplitSecret

open AuditSecrets SplitSecret in
/-- The secret is redacted, and what follows joins the text. -/
theorem told_auditSafe : (auditOf SplitSecret.env told).map (PyDict.textOf .ascii · "text")
      = ["The password is <redacted>. It works."] ∧
    ∀ entry ∈ auditOf SplitSecret.env told, EntrySafe SplitSecret.env told entry := by
  refine ⟨by decide +kernel, auditSafe_of_spares SplitSecret.env redactable told ?_⟩
  intro front e back hsplit
  rcases front with _ | ⟨first, _ | ⟨second, front⟩⟩
  · obtain ⟨rfl, -⟩ := List.cons.inj hsplit
    refine thought_spares (by decide) fun item previous _ hlast => ?_
    cases hlast
  · obtain ⟨-, hsplit⟩ := List.cons.inj hsplit
    obtain ⟨rfl, -⟩ := List.cons.inj hsplit
    exact thought_spares (by decide) fun item previous hitem _ => told_apart hitem
  · obtain ⟨-, hsplit⟩ := List.cons.inj hsplit
    obtain ⟨-, hsplit⟩ := List.cons.inj hsplit
    exact absurd hsplit.symm (List.append_ne_nil_of_right_ne_nil front (List.cons_ne_nil e back))

open AuditSecrets SplitSecret in
/-- Two thoughts that hold the secret between them bring the whole of it into the list. -/
theorem not_auditSafe : ¬ ∀ env : SanitizerEnv, Redactable (secretChars env) →
    ∀ events : List WorkerEvent,
      (∀ e ∈ events, e.envelope.textOf env.txt "type" ∈ ["assistant.thinking",
        "assistant.commentary", "model.completed", "tool.completed", "tool.failed"]) →
      ∀ entry ∈ auditOf env events, EntrySafe env events entry := by
  intro hclaim
  have hsafe := hclaim SplitSecret.env redactable
    [thought "evt_1" "The password is hunt", thought "evt_2" "er2."] (by decide +kernel)
  have hentry : ∃ entry ∈ auditOf SplitSecret.env
      [thought "evt_1" "The password is hunt", thought "evt_2" "er2."],
      entry.get? "text" = some (.str "The password is hunter2.") := by decide +kernel
  obtain ⟨entry, hmem, htext⟩ := hentry
  obtain ⟨text, hvalue, hclean, -⟩ := (hsafe entry hmem).text _ htext
  obtain rfl := PyValue.str.inj hvalue
  exact hclean "hunter2".toList (by decide) (by decide +kernel)

end ThreadForge

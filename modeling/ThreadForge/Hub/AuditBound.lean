import ThreadForge.Hub.AuditSecrets

/-!
# The audit list as a bounded suffix

`_append_run_index` keeps 500 entries, and lets a thinking event continue the last entry while the
text of the two stays short. The list it builds from an empty one is the end of the list that the
same appends build without the bound.

## Main results

* `boundedSuffix_append` — the bounds, the suffix and the order, for every sequence of events.
-/

namespace ThreadForge

open AuditSecrets

variable {txt : PyText}

/-! ## The law -/

/-- What is said of the audit list that a sequence of events has built. -/
structure BoundedSuffix (txt : PyText) (entries : List (PyDict × PyDict)) (runIndex : List PyDict) :
    Prop where
  length : runIndex.length ≤ 500
  thinking : ∀ item ∈ runIndex, IsThinking txt item → (item.textOf txt "text").length ≤ 4000
  suffix : let whole := entries.foldl (unboundedStep txt) []
    runIndex = whole.drop (whole.length - min 500 whole.length)
  /-- Each entry is the one of an event, and they stand in the order of the events. -/
  ordered : (runIndex.map fun item => item.get? "event_id").Sublist
    (entries.map fun entry => some (.str (clippedText txt entry.1 "event_id" 64)))

/-! ## The length of the texts -/

/-- No thinking entry has a longer text than an event may have. -/
def ShortThinking (txt : PyText) (runIndex : List PyDict) : Prop :=
  ∀ item ∈ runIndex, IsThinking txt item → (item.textOf txt "text").length ≤ 4000

theorem length_thinking_item {event data item : PyDict}
    (hitem : runIndexItem txt event data = .ok item) (hthinking : IsThinking txt item) :
    (item.textOf txt "text").length ≤ 4000 := by
  by_cases htype : event.textOf txt "type" = "assistant.thinking"
  · unfold runIndexItem at hitem
    rw [htype] at hitem
    have hbase : (runIndexBase txt event data).get? "text" = none :=
      get?_runIndexBase (by decide)
    have hkey : "text" ∉ plainFields := by decide
    rcases get?_runIndexFields (by decide) hkey hitem with
      hnone | ⟨-, limit, hlimit, htext⟩
    · unfold PyDict.textOf PyDict.getD
      rw [hnone, hbase]
      exact Nat.zero_le _
    · obtain rfl : 4000 = limit := Option.some.inj hlimit
      unfold PyDict.textOf PyDict.getD
      rw [htext]
      exact length_pyClip_le _ 4000
  · exact absurd hthinking (other_entry htype hitem)

/-- Two texts are joined only where they are short enough together. -/
theorem length_thinking_merged {previous item merged : PyDict}
    (hmerged : mergeThinking txt previous item = some merged) :
    (merged.textOf txt "text").length ≤ 4000 := by
  unfold mergeThinking at hmerged
  dsimp only at hmerged
  split at hmerged
  · next hjoin =>
    obtain rfl := Option.some.inj hmerged
    unfold PyDict.textOf PyDict.getD
    rw [PyDict.get?_set, if_pos rfl]
    exact (String.length_append _ _).le.trans hjoin.2.2.2.2.2
  · cases hmerged

theorem shortThinking_step {runIndex : List PyDict} (entry : PyDict × PyDict)
    (h : ShortThinking txt runIndex) : ShortThinking txt (auditStep txt runIndex entry) := by
  unfold auditStep
  dsimp only
  split
  · exact h
  · split
    · next item hitem =>
      intro other hother hthinking
      rcases mem_pushRunIndex hother with hold | rfl | ⟨-, previous, -, hmerged⟩
      · exact h other hold hthinking
      · exact length_thinking_item hitem hthinking
      · exact length_thinking_merged hmerged
    · exact h

/-! ## The order of the entries -/

/-- The fields of an event type leave the id of the entry. -/
theorem eventId_item {event data item : PyDict} (hitem : runIndexItem txt event data = .ok item) :
    item.get? "event_id" = some (.str (clippedText txt event "event_id" 64)) := by
  have hbase : (runIndexBase txt event data).get? "event_id"
      = some (.str (clippedText txt event "event_id" 64)) := by
    unfold runIndexBase
    split
    · split
      · simp only [PyDict.get?_set, get?_setNonempty, PyDict.get?_cons, String.reduceEq, false_and,
          if_false, if_true]
      · simp only [get?_setNonempty, PyDict.get?_cons, String.reduceEq, false_and, if_false,
          if_true]
    · simp only [get?_setNonempty, PyDict.get?_cons, String.reduceEq, false_and, if_false, if_true]
  unfold runIndexItem at hitem
  rw [← hbase]
  by_cases htool : pyStartsWith (event.textOf txt "type") "tool." = true
  · unfold runIndexFields at hitem
    rw [if_pos htool] at hitem
    have hkey : "event_id" ∉ ["tool_name", "tool_call_id", "result_truncated"] := by decide
    rcases get?_runIndexTool hkey (Except.ok.inj hitem) with
      hsame | ⟨hargs, -⟩ | ⟨hresult, -⟩
    · exact hsame
    · exact absurd hargs (by decide)
    · exact absurd hresult (by decide)
  · have hkey : "event_id" ∉ plainFields := by decide
    rcases get?_runIndexFields htool hkey hitem with
      hsame | ⟨htext, -⟩
    · exact hsame
    · exact absurd htext (by decide)

/-- The joined entry has the id of the one it continues. -/
theorem eventId_merged {previous item merged : PyDict}
    (hmerged : mergeThinking txt previous item = some merged) :
    merged.get? "event_id" = previous.get? "event_id" := by
  unfold mergeThinking at hmerged
  dsimp only at hmerged
  split at hmerged
  · rw [← Option.some.inj hmerged, PyDict.get?_set, PyDict.get?_set, if_neg (by decide),
      if_neg (by decide)]
  · cases hmerged

/-- One more entry comes last, or leaves the ids as they are. -/
theorem eventIds_push {eventType : String} (runIndex : List PyDict) (item : PyDict) :
    (pushUnbounded txt eventType runIndex item).map (fun item => item.get? "event_id")
        = runIndex.map (fun item => item.get? "event_id") ∨
      (pushUnbounded txt eventType runIndex item).map (fun item => item.get? "event_id")
        = runIndex.map (fun item => item.get? "event_id") ++ [item.get? "event_id"] := by
  have happended : (runIndex ++ [item]).map (fun item => item.get? "event_id")
      = runIndex.map (fun item => item.get? "event_id") ++ [item.get? "event_id"] :=
    List.map_append
  unfold pushUnbounded
  cases hlast : runIndex.getLast? with
  | none => exact Or.inr happended
  | some previous =>
    by_cases htype : eventType = "assistant.thinking"
    · simp only [if_pos htype]
      cases hmerge : mergeThinking txt previous item with
      | none => exact Or.inr happended
      | some merged =>
        refine Or.inl ?_
        have hsplit := List.dropLast_append_getLast? previous hlast
        dsimp only
        conv_rhs => rw [← hsplit]
        rw [List.map_append, List.map_append, List.map_singleton, List.map_singleton,
          eventId_merged hmerge]
    · simp only [if_neg htype]
      exact Or.inr happended

theorem eventIds_step (runIndex : List PyDict) (entry : PyDict × PyDict) :
    (unboundedStep txt runIndex entry).map (fun item => item.get? "event_id")
        = runIndex.map (fun item => item.get? "event_id") ∨
      (unboundedStep txt runIndex entry).map (fun item => item.get? "event_id")
        = runIndex.map (fun item => item.get? "event_id")
          ++ [some (.str (clippedText txt entry.1 "event_id" 64))] := by
  unfold unboundedStep
  dsimp only
  split
  · exact Or.inl rfl
  · split
    · next item hitem =>
      rw [← eventId_item hitem]
      exact eventIds_push runIndex item
    · exact Or.inl rfl

/-! ## A whole run -/

theorem shortThinking_foldl (entries : List (PyDict × PyDict)) {runIndex : List PyDict}
    (h : ShortThinking txt runIndex) :
    ShortThinking txt (entries.foldl (auditStep txt) runIndex) := by
  induction entries generalizing runIndex with
  | nil => exact h
  | cons entry rest ih => exact ih (shortThinking_step entry h)

theorem eventIds_foldl (entries : List (PyDict × PyDict)) :
    ((entries.foldl (unboundedStep txt) []).map fun item => item.get? "event_id").Sublist
      (entries.map fun entry => some (.str (clippedText txt entry.1 "event_id" 64))) := by
  induction entries using List.reverseRecOn with
  | nil => exact List.Sublist.refl _
  | append_singleton front entry ih =>
    rw [List.foldl_append, List.foldl_cons, List.foldl_nil, List.map_append, List.map_singleton]
    rcases eventIds_step (front.foldl (unboundedStep txt) []) entry with hsame | hnew
    · rw [hsame]
      exact ih.trans (List.sublist_append_left _ _)
    · rw [hnew]
      exact ih.append (List.Sublist.refl _)

theorem keptLast_eq_drop (whole : List PyDict) (n : Nat) :
    keptLast n whole = whole.drop (whole.length - min n whole.length) := by
  unfold keptLast
  congr 1
  omega

/-- **The audit list is a bounded suffix of all entries**, whatever the events are. -/
theorem boundedSuffix_append (txt : PyText) (now : String) (entries : List (PyDict × PyDict))
    (task : Task) :
    BoundedSuffix txt entries
      (appendPendingStreamEvents txt now entries { task with runIndex := [] }).runIndex := by
  have hempty : keptLast 500 ([] : List PyDict) = [] := List.drop_nil
  have hfold : entries.foldl (auditStep txt) [] =
      keptLast 500 (entries.foldl (unboundedStep txt) []) := by
    rw [← foldl_keptLast, hempty]
  rw [appendPendingStreamEvents_runIndex]
  refine ⟨?_, shortThinking_foldl entries fun _ hin => absurd hin List.not_mem_nil, ?_, ?_⟩
  · show (entries.foldl (auditStep txt) []).length ≤ 500
    rw [hfold, keptLast, List.length_drop]
    omega
  · show entries.foldl (auditStep txt) [] = _
    rw [hfold]
    exact keptLast_eq_drop _ 500
  · show ((entries.foldl (auditStep txt) []).map _).Sublist _
    rw [hfold, keptLast, List.map_drop]
    exact (List.drop_sublist _ _).trans (eventIds_foldl entries)

end ThreadForge

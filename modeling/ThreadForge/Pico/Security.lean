import ThreadForge.Worker.StreamRedaction

/-!
# Redacting an artifact

`security.py`. The values of the secret environment variables are replaced in every text of an
artifact, the longest first, and what stands under the name of a secret is replaced as a whole.

## What is left out

The names of secrets are texts here, and so are the keys of an artifact, as in all artifacts that
are written as JSON.

## Main results

* `Security.redactArtifact_clean` — no text of a redacted artifact has a secret, what stands under
  the name of a secret is the marker, and redacting it again changes nothing.
-/

namespace ThreadForge

open Redaction

/-- What the functions of `security.py` are given beside the value. -/
structure SecurityEnv where
  /-- `str.upper`. -/
  upper : String → String
  /-- The variables of the environment. -/
  environ : List (String × String)
  secretEnvNames : List String

/-- A value of an artifact. The values that are no collection and no text are left as they are. -/
inductive Artifact (α : Type)
  | other (value : α)
  | str (s : String)
  | list (items : List (Artifact α))
  | tuple (items : List (Artifact α))
  | dict (entries : List (String × Artifact α))

namespace Security

variable {α : Type} (env : SecurityEnv)

/-! ## `security.py` -/

/-- `_normalized_secret_names`. -/
def normalizedSecretNames : List String := env.secretEnvNames.map env.upper

/-- `looks_sensitive_env_name`. -/
def looksSensitiveEnvName (name : String) : Bool :=
  let upper := env.upper name
  sensitiveEnvNameMarkers.any fun marker =>
    upper = marker || pyEndsWith upper marker || pyEndsWith upper ("_" ++ marker)

/-- `is_secret_env_name`. -/
def isSecretEnvName (name : String) : Bool :=
  let upper := env.upper name
  upper ∈ normalizedSecretNames env || looksSensitiveEnvName env upper

/-- `detected_secret_env_items`. -/
def detectedSecretEnvItems : List (String × String) :=
  (env.environ.filter fun item => isSecretEnvName env item.1 && item.2 ≠ "").mergeSort
    fun a b => a.1 ≤ b.1

/-- The items as `redact_text` goes through them: the longest values first. -/
def longestItems : List (String × String) :=
  (detectedSecretEnvItems env).mergeSort fun a b => b.2.length ≤ a.2.length

/-- `redact_text`. -/
def redactText (text : String) : String :=
  (longestItems env).foldl (fun text item => pyReplace text item.2 redactedValue) text

/-- `key and is_secret_env_name(key)`. -/
def isSecretKey : Option String → Bool
  | none => false
  | some key => key ≠ "" && isSecretEnvName env key

mutual

/-- `redact_artifact`. -/
def redactArtifact (key : Option String) : Artifact α → Artifact α
  | .dict entries =>
    if isSecretKey env key then .str redactedValue else .dict (redactEntries entries)
  | .list items =>
    if isSecretKey env key then .str redactedValue else .list (redactItems key items)
  | .tuple items =>
    if isSecretKey env key then .str redactedValue else .list (redactItems key items)
  | .str s => if isSecretKey env key then .str redactedValue else .str (redactText env s)
  | .other value => if isSecretKey env key then .str redactedValue else .other value

def redactEntries : List (String × Artifact α) → List (String × Artifact α)
  | [] => []
  | (key, value) :: rest => (key, redactArtifact (some key) value) :: redactEntries rest

def redactItems (key : Option String) : List (Artifact α) → List (Artifact α)
  | [] => []
  | value :: rest => redactArtifact key value :: redactItems key rest

end

/-! ## The leaves of an artifact -/

/-- A value that is no collection. -/
inductive Leaf (α : Type)
  | other (value : α)
  | str (s : String)

mutual

/-- The leaves of an artifact, each with the note whether it stands under the name of a secret. -/
def leaves (secret : Bool) : Artifact α → List (Bool × Leaf α)
  | .dict entries => entryLeaves secret entries
  | .list items => itemLeaves secret items
  | .tuple items => itemLeaves secret items
  | .str s => [(secret, .str s)]
  | .other value => [(secret, .other value)]

def entryLeaves (secret : Bool) : List (String × Artifact α) → List (Bool × Leaf α)
  | [] => []
  | (key, value) :: rest =>
    leaves (secret || isSecretKey env (some key)) value ++ entryLeaves secret rest

def itemLeaves (secret : Bool) : List (Artifact α) → List (Bool × Leaf α)
  | [] => []
  | value :: rest => leaves secret value ++ itemLeaves secret rest

end

/-- The text has no value of a secret. -/
def NoSecret (text : String) : Prop :=
  ∀ item ∈ detectedSecretEnvItems env, ¬ item.2.toList <:+: text.toList

/-- A leaf shows no secret, and under the name of one it is the marker. -/
structure LeafClean (leaf : Bool × Leaf α) : Prop where
  text : ∀ s, leaf.2 = .str s → NoSecret env s
  hidden : leaf.1 = true → leaf.2 = .str redactedValue

/-- A value that has none of the brackets of the marker, and no part in the word between them. -/
structure Separable (value : String) : Prop where
  opening : '<' ∉ value.toList
  closing : '>' ∉ value.toList
  word : ¬ value.toList <:+: "redacted".toList

/-! ## Texts -/

variable {env} {key : Option String} {text : String}

theorem mem_longestItems {item : String × String} :
    item ∈ longestItems env ↔ item ∈ detectedSecretEnvItems env :=
  (List.mergeSort_perm (detectedSecretEnvItems env) _).mem_iff

theorem ne_empty_of_mem {item : String × String} (h : item ∈ detectedSecretEnvItems env) :
    item.2 ≠ "" := by
  have hin := (List.mergeSort_perm _ _).mem_iff.mp h
  have hkept := (List.mem_filter.mp hin).2
  rw [Bool.and_eq_true] at hkept
  exact of_decide_eq_true hkept.2

section Texts

variable (hseparable : ∀ item ∈ detectedSecretEnvItems env, Separable item.2)

include hseparable

/-- The values, as the rules on redaction take them. -/
theorem foreign_values :
    Foreign redactedMarker ((longestItems env).map fun item => item.2.toList) := by
  intro s hs
  obtain ⟨item, hitem, rfl⟩ := List.mem_map.mp hs
  have hdetected := mem_longestItems.mp hitem
  have hvalue := hseparable item hdetected
  refine ⟨fun hnil => ne_empty_of_mem hdetected ?_, hvalue.opening, hvalue.closing, hvalue.word⟩
  exact String.toList_eq_nil_iff.mp hnil

omit hseparable in
theorem toList_redactText (text : String) : (redactText env text).toList =
    redactAll redactedMarker ((longestItems env).map fun item => item.2.toList) text.toList := by
  unfold redactText redactAll
  rw [List.foldl_map]
  generalize longestItems env = items
  induction items generalizing text with
  | nil => rfl
  | cons item rest ih =>
    rw [List.foldl_cons, List.foldl_cons, ih]
    congr 1
    exact String.toList_ofList

theorem noSecret_redactText (text : String) : NoSecret env (redactText env text) := by
  intro item hitem
  rw [toList_redactText]
  exact redactAll_clean (foreign_values hseparable)
    (List.mem_map_of_mem (mem_longestItems.mpr hitem))

omit hseparable in
theorem redactText_of_noSecret (h : NoSecret env text) : redactText env text = text := by
  refine String.toList_inj.mp ?_
  rw [toList_redactText]
  refine redactAll_of_clean fun s hs => ?_
  obtain ⟨item, hitem, rfl⟩ := List.mem_map.mp hs
  exact h item (mem_longestItems.mp hitem)

/-- The marker itself has no secret: a value is not empty, and cannot reach over a bracket. -/
theorem noSecret_redactedValue : NoSecret env redactedValue := by
  intro item hitem hpart
  have hforeign := foreign_values hseparable item.2.toList
    (List.mem_map_of_mem (mem_longestItems.mpr hitem))
  have hmarker : item.2.toList <:+: [] ++ redactedMarker.text ++ [] := by
    rw [List.nil_append, List.append_nil]
    exact hpart
  rcases infix_marker hforeign hmarker with hnil | hnil
  · exact hforeign.ne (List.infix_nil.mp hnil)
  · exact hforeign.ne (List.infix_nil.mp hnil)

end Texts

/-! ## Artifacts -/

theorem redactArtifact_of_secret (h : isSecretKey env key = true) (value : Artifact α) :
    redactArtifact env key value = .str redactedValue := by
  cases value
  all_goals rw [redactArtifact, if_pos h]

theorem clean_marker
    (hseparable : ∀ item ∈ detectedSecretEnvItems env, Separable item.2) (secret : Bool) :
    ∀ leaf ∈ leaves env secret (.str redactedValue : Artifact α), LeafClean env leaf := by
  intro leaf hleaf
  rw [leaves] at hleaf
  rw [List.mem_singleton.mp hleaf]
  refine ⟨fun s hs => ?_, fun _ => rfl⟩
  rw [← Leaf.str.inj hs]
  exact noSecret_redactedValue hseparable

/-- Under the name of a secret there is only the marker to look at. -/
theorem clean_of_open
    (hseparable : ∀ item ∈ detectedSecretEnvItems env, Separable item.2) {value : Artifact α}
    (h : ¬ isSecretKey env key = true →
      ∀ leaf ∈ leaves env false (redactArtifact env key value), LeafClean env leaf) :
    ∀ leaf ∈ leaves env (isSecretKey env key) (redactArtifact env key value),
      LeafClean env leaf := by
  by_cases hsecret : isSecretKey env key = true
  · rw [redactArtifact_of_secret hsecret]
    exact clean_marker hseparable _
  · rw [Bool.eq_false_iff.mpr hsecret]
    exact h hsecret

mutual

/-- **Every leaf of a redacted artifact is clean.** The induction is on the artifact. -/
theorem leaves_redactArtifact
    (hseparable : ∀ item ∈ detectedSecretEnvItems env, Separable item.2) (key : Option String) :
    ∀ value : Artifact α, ∀ leaf ∈ leaves env (isSecretKey env key) (redactArtifact env key value),
      LeafClean env leaf
  | .dict entries => clean_of_open hseparable fun hopen leaf hleaf => by
    rw [redactArtifact, if_neg hopen, leaves] at hleaf
    exact leaves_redactEntries hseparable entries leaf hleaf
  | .list items => clean_of_open hseparable fun hopen leaf hleaf => by
    rw [redactArtifact, if_neg hopen, leaves] at hleaf
    refine leaves_redactItems hseparable key items leaf ?_
    rwa [Bool.eq_false_iff.mpr hopen]
  | .tuple items => clean_of_open hseparable fun hopen leaf hleaf => by
    rw [redactArtifact, if_neg hopen, leaves] at hleaf
    refine leaves_redactItems hseparable key items leaf ?_
    rwa [Bool.eq_false_iff.mpr hopen]
  | .str s => clean_of_open hseparable fun hopen leaf hleaf => by
    rw [redactArtifact, if_neg hopen, leaves] at hleaf
    rw [List.mem_singleton.mp hleaf]
    refine ⟨fun text htext => ?_, fun h => by cases h⟩
    rw [← Leaf.str.inj htext]
    exact noSecret_redactText hseparable s
  | .other value => clean_of_open hseparable fun hopen leaf hleaf => by
    rw [redactArtifact, if_neg hopen, leaves] at hleaf
    rw [List.mem_singleton.mp hleaf]
    exact ⟨fun text htext => (by cases htext), fun h => (by cases h)⟩

theorem leaves_redactEntries
    (hseparable : ∀ item ∈ detectedSecretEnvItems env, Separable item.2) :
    ∀ entries : List (String × Artifact α),
      ∀ leaf ∈ entryLeaves env false (redactEntries env entries), LeafClean env leaf
  | [] => fun leaf hleaf => by
    rw [redactEntries, entryLeaves] at hleaf
    cases hleaf
  | (name, value) :: rest => fun leaf hleaf => by
    rw [redactEntries, entryLeaves, Bool.false_or] at hleaf
    rcases List.mem_append.mp hleaf with hfirst | hrest
    · exact leaves_redactArtifact hseparable (some name) value leaf hfirst
    · exact leaves_redactEntries hseparable rest leaf hrest

theorem leaves_redactItems
    (hseparable : ∀ item ∈ detectedSecretEnvItems env, Separable item.2) (key : Option String) :
    ∀ items : List (Artifact α),
      ∀ leaf ∈ itemLeaves env (isSecretKey env key) (redactItems env key items), LeafClean env leaf
  | [] => fun leaf hleaf => by
    rw [redactItems, itemLeaves] at hleaf
    cases hleaf
  | value :: rest => fun leaf hleaf => by
    rw [redactItems, itemLeaves] at hleaf
    rcases List.mem_append.mp hleaf with hfirst | hrest
    · exact leaves_redactArtifact hseparable key value leaf hfirst
    · exact leaves_redactItems hseparable key rest leaf hrest

end

theorem idem_of_open {value : Artifact α}
    (h : ¬ isSecretKey env key = true →
      redactArtifact env key (redactArtifact env key value) = redactArtifact env key value) :
    redactArtifact env key (redactArtifact env key value) = redactArtifact env key value := by
  by_cases hsecret : isSecretKey env key = true
  · rw [redactArtifact_of_secret hsecret, redactArtifact_of_secret hsecret]
  · exact h hsecret

mutual

/-- Redacting again changes nothing. -/
theorem redactArtifact_idem
    (hseparable : ∀ item ∈ detectedSecretEnvItems env, Separable item.2) (key : Option String) :
    ∀ value : Artifact α,
      redactArtifact env key (redactArtifact env key value) = redactArtifact env key value
  | .dict entries => idem_of_open fun hopen => by
    simp only [redactArtifact, if_neg hopen]
    rw [redactEntries_idem hseparable entries]
  | .list items => idem_of_open fun hopen => by
    simp only [redactArtifact, if_neg hopen]
    rw [redactItems_idem hseparable key items]
  | .tuple items => idem_of_open fun hopen => by
    simp only [redactArtifact, if_neg hopen]
    rw [redactItems_idem hseparable key items]
  | .str s => idem_of_open fun hopen => by
    simp only [redactArtifact, if_neg hopen]
    rw [redactText_of_noSecret (noSecret_redactText hseparable s)]
  | .other value => idem_of_open fun hopen => by simp only [redactArtifact, if_neg hopen]

theorem redactEntries_idem
    (hseparable : ∀ item ∈ detectedSecretEnvItems env, Separable item.2) :
    ∀ entries : List (String × Artifact α),
      redactEntries env (redactEntries env entries) = redactEntries env entries
  | [] => rfl
  | (name, value) :: rest => by
    rw [redactEntries, redactEntries, redactArtifact_idem hseparable (some name) value,
      redactEntries_idem hseparable rest]

theorem redactItems_idem
    (hseparable : ∀ item ∈ detectedSecretEnvItems env, Separable item.2) (key : Option String) :
    ∀ items : List (Artifact α),
      redactItems env key (redactItems env key items) = redactItems env key items
  | [] => rfl
  | value :: rest => by
    rw [redactItems, redactItems, redactArtifact_idem hseparable key value,
      redactItems_idem hseparable key rest]

end

/-- **Redaction removes every secret**: no text of the artifact it returns has one, every leaf under
the name of a secret is the marker, and redacting it again changes nothing. -/
theorem redactArtifact_clean (env : SecurityEnv)
    (hseparable : ∀ item ∈ detectedSecretEnvItems env, Separable item.2) (key : Option String)
    (value : Artifact α) :
    (∀ leaf ∈ leaves env (isSecretKey env key) (redactArtifact env key value),
      LeafClean env leaf) ∧
    redactArtifact env key (redactArtifact env key value) = redactArtifact env key value :=
  ⟨leaves_redactArtifact hseparable key value, redactArtifact_idem hseparable key value⟩

/-- Two secrets, one a part of the other. -/
def twoTokens : SecurityEnv where
  upper := String.toUpper
  environ := [("A_TOKEN", "abc"), ("B_TOKEN", "abcd")]
  secretEnvNames := []

/-- A call with both secrets in a tuple, and a header under the name of one. -/
def callArtifact : Artifact Int :=
  .dict [("args", .tuple [.str "abcd abc", .other 3]), ("api_token", .list [.str "x"])]

theorem separable_twoTokens : ∀ item ∈ detectedSecretEnvItems twoTokens, Separable item.2 := by
  intro item hitem
  have hin := List.mem_of_mem_filter ((List.mergeSort_perm _ _).mem_iff.mp hitem)
  rcases List.mem_cons.mp hin with rfl | hin
  · exact ⟨by decide, by decide, by decide +kernel⟩
  · rw [List.mem_singleton.mp hin]
    exact ⟨by decide, by decide, by decide +kernel⟩

theorem redactArtifact_clean_call :
    (∀ leaf ∈ leaves twoTokens false (redactArtifact twoTokens none callArtifact),
      LeafClean twoTokens leaf) ∧
    redactArtifact twoTokens none (redactArtifact twoTokens none callArtifact) =
      redactArtifact twoTokens none callArtifact :=
  redactArtifact_clean twoTokens separable_twoTokens none callArtifact

end Security

end ThreadForge

import ThreadForge.Lib.Clipping
import ThreadForge.Lib.JsonRoundTrip
import ThreadForge.Lib.Kahn
import ThreadForge.Pico.ToolExecutor

/-!
# Execution plans

`parse_and_validate_plan`: the JSON a planner returned is read into a plan, or refused with a code.
Texts are stripped, lists lose their repetitions, the intent is raised to what the tools of the
steps can do, and the budgets are raised to their floors.

## Main results

* `validateDag_eq_ok_iff` — the dependencies that are accepted.
* `parse_serialized` — a plan that was accepted, written as JSON, is accepted again as it is.
* `parseAndValidatePlan_exact` — both, with what holds of every plan.
-/

namespace ThreadForge

open PyJson

/-! ## Plans -/

/-- `VALID_INTENTS`. -/
inductive PlanIntent
  | conversation
  | readOnly
  | codeChange
  deriving DecidableEq, Repr

/-- `RISK_LEVELS`. -/
inductive RiskLevel
  | low
  | medium
  | high
  deriving DecidableEq, Repr

/-- The keys of the budgets, in their order. -/
inductive BudgetKey
  | elapsedSeconds
  | inputTokens
  | modelRounds
  | outputTokens
  | toolCalls
  deriving DecidableEq, Repr

def PlanIntent.name : PlanIntent → String
  | .conversation => "conversation"
  | .readOnly => "read_only"
  | .codeChange => "code_change"

def RiskLevel.name : RiskLevel → String
  | .low => "low"
  | .medium => "medium"
  | .high => "high"

def BudgetKey.name : BudgetKey → String
  | .elapsedSeconds => "elapsed_seconds"
  | .inputTokens => "input_tokens"
  | .modelRounds => "model_rounds"
  | .outputTokens => "output_tokens"
  | .toolCalls => "tool_calls"

def PlanIntent.ofName? (name : String) : Option PlanIntent :=
  [PlanIntent.conversation, .readOnly, .codeChange].find? fun intent => intent.name = name

def RiskLevel.ofName? (name : String) : Option RiskLevel :=
  [RiskLevel.low, .medium, .high].find? fun level => level.name = name

/-- One step of a plan. -/
structure ExecutionStep where
  id : String
  goal : String
  dependencies : List String
  requiredTools : List String
  requiredEvidence : List String
  doneWhen : List String
  deriving DecidableEq, Repr

structure PlanBudgets where
  elapsedSeconds : Int
  inputTokens : Int
  modelRounds : Int
  outputTokens : Int
  toolCalls : Int
  deriving DecidableEq, Repr

def PlanBudgets.get (budgets : PlanBudgets) : BudgetKey → Int
  | .elapsedSeconds => budgets.elapsedSeconds
  | .inputTokens => budgets.inputTokens
  | .modelRounds => budgets.modelRounds
  | .outputTokens => budgets.outputTokens
  | .toolCalls => budgets.toolCalls

/-- A plan that was accepted. -/
structure Plan where
  planId : String
  revision : Int
  intent : PlanIntent
  summary : String
  steps : List ExecutionStep
  acceptance : List String
  riskLevel : RiskLevel
  budgets : PlanBudgets
  deriving DecidableEq, Repr

/-- `PlanValidationError`, or an exception of the language. -/
inductive PlanError
  | invalid (code message : String)
  | python (error : PyError)
  deriving DecidableEq, Repr

/-- The parameters of `parse_and_validate_plan`. -/
structure PlanRequest where
  availableTools : List String
  maximumBudgets : PyDict
  expectedRevision : Int := 1
  expectedPlanId : String := ""
  minimumBudgets : PyDict := []

def planSchemaVersion : String := "1"

def minPlanModelRounds : Int := 3

def readTools : List String := ["list_files", "read_file", "search"]

def writeTools : List String := ["write_file", "patch_file", "run_shell"]

/-- `PLAN_MINIMUM_BUDGETS`. -/
def planMinimumBudget : BudgetKey → Int
  | .modelRounds => minPlanModelRounds
  | .toolCalls => 0
  | .inputTokens => 20000
  | .outputTokens => 2000
  | .elapsedSeconds => 120

section Source

variable (txt : PyText)

/-! ## Texts and lists -/

/-- `PLAN_ID_PATTERN.fullmatch`. -/
def isPlanId (text : String) : Bool :=
  match text.toList with
  | [] => false
  | c :: cs => c.isAlpha && cs.length ≤ 63 &&
      cs.all fun c => c.isAlphanum || c = '_' || c = '.' || c = '-'

/-- `_bounded_text`. -/
def boundedText (value : PyValue) (field : String) (maximum : Nat) : Except PlanError String :=
  match value with
  | .str text =>
    let text := pyStrip txt text
    if text = "" ∨ maximum < text.length then
      .error (.invalid ("plan_" ++ field ++ "_invalid") ("invalid " ++ field))
    else .ok text
  | _ => .error (.invalid ("plan_" ++ field ++ "_invalid") (field ++ " must be text"))

/-- The items of a list, each once. -/
def gatherTexts (field : String) : List PyValue → List String → Except PlanError (List String)
  | [], result => .ok result
  | item :: items, result => do
    let text ← boundedText txt item field 300
    gatherTexts field items (if text ∈ result then result else result ++ [text])

/-- `_string_list`. -/
def stringList (value : PyValue) (field : String) (maximum : Nat) :
    Except PlanError (List String) :=
  -- a text stands for a list of one
  let items := match value with
    | .str text => some [PyValue.str text]
    | .list items => some items
    | _ => none
  match items with
  | some items =>
    if maximum < items.length then
      .error (.invalid ("plan_" ++ field ++ "_invalid") ("invalid " ++ field))
    else gatherTexts txt field items []
  | none => .error (.invalid ("plan_" ++ field ++ "_invalid") ("invalid " ++ field))

/-- A dictionary with exactly these keys. -/
def withKeys (keys : List String) : PyValue → Option PyDict
  | .dict fields =>
    if (∀ key ∈ fields.map Prod.fst, key ∈ keys) ∧ ∀ key ∈ keys, key ∈ fields.map Prod.fst then
      some fields
    else none
  | _ => none

/-- `fields[key]`, of a key that is there. -/
def fieldOf (fields : PyDict) (key : String) : PyValue := fields.getD key .none

/-! ## Steps -/

def stepKeys : List String :=
  ["id", "goal", "dependencies", "required_tools", "required_evidence", "done_when"]

/-- One turn of `_validate_steps`, with the ids of the steps before. -/
def validateStep (available ids : List String) (raw : PyValue) : Except PlanError ExecutionStep :=
  match withKeys stepKeys raw with
  | none => .error (.invalid "plan_step_fields_invalid" "invalid step fields")
  | some fields =>
    let stepId := pyStrip txt ((fieldOf fields "id").text txt)
    if isPlanId stepId = false ∨ stepId ∈ ids then
      .error (.invalid "plan_step_id_invalid" "step ids must be unique")
    else do
      let tools ← stringList txt (fieldOf fields "required_tools") "required_tools" 12
      if tools.any fun tool => tool ∉ available then
        .error (.invalid "plan_tool_unavailable" "plan requested unavailable tools")
      else do
        let evidence ← stringList txt (fieldOf fields "required_evidence") "required_evidence" 12
        let doneWhen ← stringList txt (fieldOf fields "done_when") "done_when" 12
        if doneWhen = [] then
          .error (.invalid "plan_done_when_missing" "every step needs done_when")
        else do
          let goal ← boundedText txt (fieldOf fields "goal") "goal" 300
          let dependencies ← stringList txt (fieldOf fields "dependencies") "dependencies" 20
          pure ⟨stepId, goal, dependencies, tools, evidence, doneWhen⟩

/-- The turns of `_validate_steps`. -/
def gatherSteps (available : List String) : List PyValue → List ExecutionStep →
    Except PlanError (List ExecutionStep)
  | [], steps => .ok steps
  | raw :: raws, steps => do
    let step ← validateStep txt available (steps.map (·.id)) raw
    gatherSteps available raws (steps ++ [step])

/-- `_validate_dag`, of steps with distinct ids. The ids that are ready are a stack. -/
def validateDag (steps : List ExecutionStep) : Except PlanError Unit :=
  let ids := (steps.map (·.id)).toFinset
  let incoming := steps.map fun step => (step.id, step.dependencies.toFinset)
  if incoming.any fun entry => ¬entry.2 ⊆ ids then
    .error (.invalid "plan_dependency_missing" "step dependency does not exist")
  else if incoming.any fun entry => entry.1 ∈ entry.2 then
    .error (.invalid "plan_dependency_cycle" "step cannot depend on itself")
  else if Kahn.taken incoming ((incoming.filter fun entry => entry.2 = ∅).map Prod.fst).reverse
      ≠ steps.length then
    .error (.invalid "plan_dependency_cycle" "plan dependencies contain a cycle")
  else .ok ()

/-- `_validate_steps`. -/
def validateSteps (available : List String) (value : PyValue) :
    Except PlanError (List ExecutionStep) :=
  match value with
  | .list raws =>
    if raws.length < 1 ∨ 20 < raws.length then
      .error (.invalid "plan_steps_invalid" "plan needs 1-20 steps")
    else do
      let steps ← gatherSteps txt available raws []
      validateDag steps
      pure steps
  | _ => .error (.invalid "plan_steps_invalid" "plan needs 1-20 steps")

/-- The tools of all steps. -/
def toolsOf (steps : List ExecutionStep) : List String := steps.flatMap (·.requiredTools)

/-- `_elevated_intent`. -/
def elevatedIntent (intent : PlanIntent) (steps : List ExecutionStep) : PlanIntent :=
  if (toolsOf steps).any fun tool => tool ∈ writeTools then .codeChange
  else if ((toolsOf steps).any fun tool => tool ∈ readTools) ∧ intent = .conversation then .readOnly
  else intent

/-! ## Budgets -/

variable (request : PlanRequest)

/-- `int(maximum[key])`. -/
def maximumOf (key : BudgetKey) : Except PlanError Int :=
  match request.maximumBudgets.get? key.name with
  | none => .error (.python .keyError)
  | some value => match PyValue.toInt txt value with
    | .ok limit => .ok limit
    | .error e => .error (.python e)

/-- The entry of `{**PLAN_MINIMUM_BUDGETS, **minimum_budgets}`. -/
def minimumOf (key : BudgetKey) : PyValue :=
  PyDict.getD request.minimumBudgets key.name (.int (planMinimumBudget key))

/-- `raw_minimum`. -/
def rawMinimum (key : BudgetKey) : Int := if key = .toolCalls then 0 else 1

/-- One turn of `_validate_budgets`. -/
def validateBudget (fields : PyDict) (key : BudgetKey) : Except PlanError Int :=
  match fieldOf fields key.name with
  | .int raw =>
    if raw < rawMinimum key then
      .error (.invalid "plan_budget_invalid" ("invalid " ++ key.name ++ " budget"))
    else do
      let limit ← maximumOf txt request key
      if limit < raw then
        .error (.invalid "plan_budget_exceeded" (key.name ++ " exceeds maximum"))
      else match minimumOf request key with
        | .int floor =>
          if floor < 0 then
            .error (.invalid "plan_budget_invalid" ("invalid minimum " ++ key.name ++ " budget"))
          else if limit < floor then
            .error (.invalid "plan_budget_exceeded" ("minimum " ++ key.name ++ " exceeds maximum"))
          else .ok (max raw floor)
        | _ => .error (.invalid "plan_budget_invalid" ("invalid minimum " ++ key.name ++ " budget"))
  | _ => .error (.invalid "plan_budget_invalid" ("invalid " ++ key.name ++ " budget"))

def budgetKeys : List String :=
  ["model_rounds", "tool_calls", "input_tokens", "output_tokens", "elapsed_seconds"]

/-- `_validate_budgets`. -/
def validateBudgets (value : PyValue) : Except PlanError PlanBudgets :=
  match withKeys budgetKeys value with
  | none => .error (.invalid "plan_budgets_invalid" "invalid plan budgets")
  | some fields => do
    pure {
      elapsedSeconds := ← validateBudget txt request fields .elapsedSeconds
      inputTokens := ← validateBudget txt request fields .inputTokens
      modelRounds := ← validateBudget txt request fields .modelRounds
      outputTokens := ← validateBudget txt request fields .outputTokens
      toolCalls := ← validateBudget txt request fields .toolCalls }

/-- `len(required_tool_kinds)`. -/
def toolKinds (steps : List ExecutionStep) : Int := (toolsOf steps).toFinset.card

/-- `int(minimum_budgets[key])`, after the budgets were validated. -/
def floorOf (key : BudgetKey) : Except PlanError Int :=
  match PyValue.toInt txt (minimumOf request key) with
  | .ok floor => .ok floor
  | .error e => .error (.python e)

/-- The budgets with the floors of the tools. -/
def raiseBudgets (steps : List ExecutionStep) (budgets : PlanBudgets) :
    Except PlanError PlanBudgets := do
  let toolFloor := max (← floorOf txt request .toolCalls) (toolKinds steps)
  let roundFloor :=
    max (← floorOf txt request .modelRounds) (minPlanModelRounds + toolKinds steps)
  if (← maximumOf txt request .toolCalls) < toolFloor then
    .error (.invalid "plan_budget_exceeded" "required tools exceed tool-call budget")
  else if (← maximumOf txt request .modelRounds) < roundFloor then
    .error (.invalid "plan_budget_exceeded" "required tools exceed model-round budget")
  else
    let raised := { budgets with
      toolCalls := max budgets.toolCalls toolFloor
      modelRounds := max budgets.modelRounds roundFloor }
    if raised.modelRounds < minPlanModelRounds then
      .error (.invalid "plan_budget_too_small" "model_rounds must be at least 3")
    else .ok raised

/-! ## Plans -/

def planKeys : List String :=
  ["schema_version", "plan_id", "revision", "intent", "summary", "steps", "acceptance",
    "risk_level", "budgets"]

/-- `isinstance(value, bool) or str(value) != PLAN_SCHEMA_VERSION`. -/
def schemaUnsupported : PyValue → Bool
  | .bool _ => true
  | value => value.text txt ≠ planSchemaVersion

/-- `parse_and_validate_plan`, of what the text was read as. -/
def validatePlan (value : PyValue) : Except PlanError Plan :=
  match value with
  | .dict _ => match withKeys planKeys value with
    | none => .error (.invalid "plan_fields_invalid" "plan fields do not match schema")
    | some fields =>
      let planId := pyStrip txt ((fieldOf fields "plan_id").text txt)
      if schemaUnsupported txt (fieldOf fields "schema_version") then
        .error (.invalid "plan_schema_unsupported" "unsupported plan schema")
      else if isPlanId planId = false then .error (.invalid "plan_id_invalid" "invalid plan id")
      else if pyEq (fieldOf fields "revision") (.int request.expectedRevision) = false then
        .error (.invalid "plan_revision_invalid" "plan revision does not match expected revision")
      else if request.expectedPlanId ≠ "" ∧ planId ≠ request.expectedPlanId then
        .error (.invalid "plan_id_changed" "revised plan must preserve plan id")
      else do
        let summary ← boundedText txt (fieldOf fields "summary") "summary" 500
        match PlanIntent.ofName? (pyStrip txt ((fieldOf fields "intent").text txt)),
            RiskLevel.ofName? (pyStrip txt ((fieldOf fields "risk_level").text txt)) with
        | none, _ => .error (.invalid "plan_intent_invalid" "invalid plan intent")
        | _, none => .error (.invalid "plan_risk_invalid" "invalid plan risk level")
        | some intent, some riskLevel => do
          let acceptance ← stringList txt (fieldOf fields "acceptance") "acceptance" 12
          if acceptance = [] then
            .error (.invalid "plan_acceptance_missing" "plan needs acceptance criteria")
          else do
            let steps ← validateSteps txt request.availableTools (fieldOf fields "steps")
            let elevated := elevatedIntent intent steps
            if intent = .conversation ∧ steps.any fun step =>
                step.requiredTools ≠ [] ∨ step.requiredEvidence ≠ [] then
              .error (.invalid "plan_conversation_requires_no_tools"
                "conversation plans cannot require tools or workspace evidence")
            else if elevated = .codeChange ∧
                ¬(steps.any fun step => step.requiredTools.any fun tool => tool ∈ writeTools) then
              .error (.invalid "plan_write_step_missing" "code_change plan needs a write step")
            else do
              let budgets ← validateBudgets txt request (fieldOf fields "budgets")
              let budgets ← raiseBudgets txt request steps budgets
              pure {
                planId, revision := request.expectedRevision, intent := elevated, summary, steps,
                acceptance, riskLevel, budgets }
  | _ => .error (.invalid "plan_not_object" "plan must be a JSON object")

/-- `parse_and_validate_plan`. -/
def parseAndValidatePlan (t : Tables) (text : String) : Except PlanError Plan :=
  match loads t (pyStrip txt text).toList with
  | none => .error (.invalid "plan_invalid_json" "plan must be valid JSON")
  | some value => validatePlan txt request value

/-! ## Plans as they are returned -/

/-- A list of texts. -/
def textsValue (texts : List String) : PyValue := .list (texts.map .str)

def ExecutionStep.fields (step : ExecutionStep) : PyDict :=
  [("id", .str step.id), ("goal", .str step.goal), ("dependencies", textsValue step.dependencies),
    ("required_tools", textsValue step.requiredTools),
    ("required_evidence", textsValue step.requiredEvidence),
    ("done_when", textsValue step.doneWhen)]

def PlanBudgets.fields (budgets : PlanBudgets) : PyDict :=
  [("elapsed_seconds", .int budgets.elapsedSeconds), ("input_tokens", .int budgets.inputTokens),
    ("model_rounds", .int budgets.modelRounds), ("output_tokens", .int budgets.outputTokens),
    ("tool_calls", .int budgets.toolCalls)]

/-- The dictionary that `parse_and_validate_plan` returns. -/
def Plan.fields (plan : Plan) : PyDict :=
  [("schema_version", .str planSchemaVersion), ("plan_id", .str plan.planId),
    ("revision", .int plan.revision), ("intent", .str plan.intent.name),
    ("summary", .str plan.summary), ("steps", .list (plan.steps.map fun step => .dict step.fields)),
    ("acceptance", textsValue plan.acceptance), ("risk_level", .str plan.riskLevel.name),
    ("budgets", .dict plan.budgets.fields)]

/-- The integers in a plan. -/
def Plan.numbers (plan : Plan) : List Int :=
  [plan.revision, plan.budgets.elapsedSeconds, plan.budgets.inputTokens, plan.budgets.modelRounds,
    plan.budgets.outputTokens, plan.budgets.toolCalls]

/-- `json.dumps(plan)`, which raises for an integer with too many digits. -/
def Plan.serialize (plan : Plan) : Except PyError String :=
  if plan.numbers.all fun n => digitCount n ≤ PyValue.maxStrDigits then
    .ok (String.ofList (encode txt (.dict plan.fields)))
  else .error .valueError

end Source

variable {txt : PyText} {value : PyValue} {field text : String} {maximum : Nat}
  {texts result : List String} {items : List PyValue}

/-! ## Texts and lists that were accepted -/

/-- Letters and the braces of JSON are no blanks. -/
structure PlanTable (txt : PyText) : Prop where
  letter : ∀ c : Char, c.isAlpha = true → txt.isSpace c = false
  opening : txt.isSpace '\x7b' = false
  closing : txt.isSpace '\x7d' = false

/-- A text of `_bounded_text`. -/
structure BoundedText (txt : PyText) (maximum : Nat) (text : String) : Prop where
  stripped : pyStrip txt text = text
  solid : text ≠ ""
  short : text.length ≤ maximum

/-- A list of `_string_list`. -/
structure TextList (txt : PyText) (maximum : Nat) (texts : List String) : Prop where
  bounded : ∀ text ∈ texts, BoundedText txt 300 text
  nodup : texts.Nodup
  short : texts.length ≤ maximum

theorem boundedText_ok (h : boundedText txt value field maximum = .ok text) :
    BoundedText txt maximum text := by
  unfold boundedText at h
  split at h
  · simp only at h
    split at h
    · cases h
    · next hfits =>
      obtain ⟨hsolid, hshort⟩ := not_or.mp hfits
      cases h
      exact ⟨pyStrip_pyStrip _, hsolid, Nat.not_lt.mp hshort⟩
  · cases h

theorem BoundedText.again (h : BoundedText txt maximum text) (field : String) :
    boundedText txt (.str text) field maximum = .ok text := by
  unfold boundedText
  simp only [h.stripped]
  exact if_neg (not_or.mpr ⟨h.solid, Nat.not_lt.mpr h.short⟩)

theorem gatherTexts_ok {final : List String} (h : gatherTexts txt field items result = .ok final)
    (hbounded : ∀ text ∈ result, BoundedText txt 300 text) (hnodup : result.Nodup) :
    (∀ text ∈ final, BoundedText txt 300 text) ∧ final.Nodup ∧
      final.length ≤ result.length + items.length := by
  induction items generalizing result with
  | nil =>
    cases h
    exact ⟨hbounded, hnodup, Nat.le_refl _⟩
  | cons item items ih =>
    obtain ⟨text, htext, hrest⟩ := Except.bind_eq_ok h
    rw [List.length_cons]
    by_cases hmem : text ∈ result
    · rw [if_pos hmem] at hrest
      obtain ⟨hall, hfinal, hlength⟩ := ih hrest hbounded hnodup
      exact ⟨hall, hfinal, by omega⟩
    · rw [if_neg hmem] at hrest
      obtain ⟨hall, hfinal, hlength⟩ := ih hrest
        (fun other hother => by
          rcases List.mem_append.mp hother with hold | hnew
          · exact hbounded other hold
          · rw [List.mem_singleton.mp hnew]
            exact boundedText_ok htext)
        (List.nodup_append.mpr ⟨hnodup, List.nodup_singleton _, fun a ha b hb heq =>
          hmem (by rw [← List.mem_singleton.mp hb, ← heq]; exact ha)⟩)
      rw [List.length_append, List.length_singleton] at hlength
      exact ⟨hall, hfinal, by omega⟩

theorem gatherTexts_again (hbounded : ∀ text ∈ texts, BoundedText txt 300 text)
    (hnodup : (result ++ texts).Nodup) (field : String) :
    gatherTexts txt field (texts.map .str) result = .ok (result ++ texts) := by
  induction texts generalizing result with
  | nil => rw [List.append_nil]; rfl
  | cons text texts ih =>
    have hfresh : text ∉ result := fun hmem =>
      (List.nodup_append.mp hnodup).2.2 text hmem text List.mem_cons_self rfl
    have hrest := @ih (result ++ [text]) (fun other hother =>
      hbounded other (List.mem_cons_of_mem _ hother)) (by
        rwa [List.append_assoc, List.singleton_append])
    rw [List.map_cons, gatherTexts, (hbounded text List.mem_cons_self).again]
    rw [List.append_assoc, List.singleton_append] at hrest
    show gatherTexts txt field (texts.map .str) (if text ∈ result then result else result ++ [text])
      = _
    rw [if_neg hfresh, hrest]

theorem stringList_ok (h : stringList txt value field maximum = .ok texts) :
    TextList txt maximum texts := by
  unfold stringList at h
  simp only at h
  split at h
  · next items _ =>
    split at h
    · cases h
    · next hshort =>
      obtain ⟨hbounded, hnodup, hlength⟩ := gatherTexts_ok h (by simp) List.nodup_nil
      rw [List.length_nil, Nat.zero_add] at hlength
      exact ⟨hbounded, hnodup, hlength.trans (Nat.not_lt.mp hshort)⟩
  · cases h

theorem TextList.again (h : TextList txt maximum texts) (field : String) :
    stringList txt (textsValue texts) field maximum = .ok texts := by
  unfold stringList textsValue
  simp only [List.length_map]
  rw [if_neg (Nat.not_lt.mpr h.short)]
  exact @gatherTexts_again txt texts [] h.bounded h.nodup field

theorem withKeys_of_keys {keys : List String} {fields : PyDict}
    (h : ∀ key, key ∈ fields.map Prod.fst ↔ key ∈ keys) :
    withKeys keys (.dict fields) = some fields :=
  if_pos ⟨fun key hkey => (h key).mp hkey, fun key hkey => (h key).mpr hkey⟩

/-- A text between two letters is stripped. -/
theorem PlanTable.strip_name (htable : PlanTable txt) {a b : Char} {mid : List Char}
    (mid' : List Char) (hhead : text.toList = a :: mid) (ha : a.isAlpha = true)
    (hlast : text.toList = mid' ++ [b])
    (hb : b.isAlpha = true) : pyStrip txt text = text :=
  String.toList_injective (@toList_pyStrip_eq txt text [] _ [] mid mid' a b (by simp) (by simp)
    (by simp) hhead (htable.letter a ha) hlast (htable.letter b hb))

/-! ## Steps that were accepted -/

/-- A step that was accepted after others. -/
structure StepAccepted (txt : PyText) (available ids : List String) (step : ExecutionStep) :
    Prop where
  stripped : pyStrip txt step.id = step.id
  isId : isPlanId step.id = true
  fresh : step.id ∉ ids
  goal : BoundedText txt 300 step.goal
  dependencies : TextList txt 20 step.dependencies
  tools : TextList txt 12 step.requiredTools
  available : ∀ tool ∈ step.requiredTools, tool ∈ available
  evidence : TextList txt 12 step.requiredEvidence
  doneWhen : TextList txt 12 step.doneWhen
  done : step.doneWhen ≠ []

variable {available ids : List String} {raw : PyValue} {raws : List PyValue} {step : ExecutionStep}
  {steps final : List ExecutionStep}

theorem validateStep_ok (h : validateStep txt available ids raw = .ok step) :
    StepAccepted txt available ids step := by
  unfold validateStep at h
  split at h
  · cases h
  next fields _ =>
  simp only at h
  split at h
  · cases h
  next hid =>
  obtain ⟨hisId, hfresh⟩ := not_or.mp hid
  obtain ⟨tools, htools, h⟩ := Except.bind_eq_ok h
  split at h
  · cases h
  next havailable =>
  obtain ⟨evidence, hevidence, h⟩ := Except.bind_eq_ok h
  obtain ⟨doneWhen, hdoneWhen, h⟩ := Except.bind_eq_ok h
  split at h
  · cases h
  next hdone =>
  obtain ⟨goal, hgoal, h⟩ := Except.bind_eq_ok h
  obtain ⟨dependencies, hdependencies, h⟩ := Except.bind_eq_ok h
  cases h
  exact ⟨pyStrip_pyStrip _, by simpa using hisId, hfresh, boundedText_ok hgoal,
    stringList_ok hdependencies, stringList_ok htools, by simpa using havailable,
    stringList_ok hevidence, stringList_ok hdoneWhen, hdone⟩

theorem StepAccepted.again (h : StepAccepted txt available ids step) :
    validateStep txt available ids (.dict step.fields) = .ok step := by
  have hkeys : withKeys stepKeys (.dict step.fields) = some step.fields :=
    withKeys_of_keys fun key => Iff.rfl
  have hid : ¬(isPlanId (pyStrip txt ((fieldOf step.fields "id").text txt)) = false ∨
      pyStrip txt ((fieldOf step.fields "id").text txt) ∈ ids) := by
    rw [show (fieldOf step.fields "id").text txt = step.id from rfl, h.stripped, h.isId]
    exact not_or.mpr ⟨Bool.noConfusion, h.fresh⟩
  have havailable : ¬(step.requiredTools.any fun tool => tool ∉ available) = true := by
    simpa using h.available
  unfold validateStep
  simp only [hkeys]
  rw [if_neg hid,
    show fieldOf step.fields "required_tools" = textsValue step.requiredTools from rfl,
    show fieldOf step.fields "required_evidence" = textsValue step.requiredEvidence from rfl,
    show fieldOf step.fields "done_when" = textsValue step.doneWhen from rfl,
    show fieldOf step.fields "goal" = .str step.goal from rfl,
    show fieldOf step.fields "dependencies" = textsValue step.dependencies from rfl,
    show (fieldOf step.fields "id").text txt = step.id from rfl, h.stripped]
  simp only [h.tools.again, h.evidence.again, h.doneWhen.again, h.goal.again, h.dependencies.again,
    bind, Except.bind, pure, Except.pure, if_neg havailable, if_neg h.done]

/-- The steps are accepted one after the other, and again as they are. -/
theorem gatherSteps_ok (h : gatherSteps txt available raws steps = .ok final) :
    ∃ new, final = steps ++ new ∧ new.length = raws.length ∧
      gatherSteps txt available (new.map fun step => .dict step.fields) steps = .ok final ∧
      (∀ step ∈ new, ∃ ids, StepAccepted txt available ids step) ∧
      ((steps.map (·.id)).Nodup → (final.map (·.id)).Nodup) := by
  induction raws generalizing steps with
  | nil =>
    cases h
    exact ⟨[], (List.append_nil _).symm, rfl, rfl, by simp, id⟩
  | cons raw raws ih =>
    obtain ⟨step, hstep, hrest⟩ := Except.bind_eq_ok h
    have haccepted := validateStep_ok hstep
    obtain ⟨new, rfl, hlength, hagain, hall, hnodup⟩ := ih hrest
    refine ⟨step :: new, by simp, by simp [hlength], ?_, ?_, fun hids => hnodup ?_⟩
    · rw [List.map_cons, gatherSteps, haccepted.again]
      exact hagain
    · intro other hother
      rcases List.mem_cons.mp hother with rfl | hother
      · exact ⟨_, haccepted⟩
      · exact hall other hother
    · rw [List.map_append, List.nodup_append]
      refine ⟨hids, List.nodup_singleton _, fun a ha b hb heq => haccepted.fresh ?_⟩
      have hid : b = step.id := List.mem_singleton.mp hb
      rw [← hid, ← heq]
      exact ha

theorem validateSteps_ok (h : validateSteps txt available value = .ok steps) :
    validateSteps txt available (.list (steps.map fun step => .dict step.fields)) = .ok steps ∧
      (∀ step ∈ steps, ∃ ids, StepAccepted txt available ids step) ∧
      (steps.map (·.id)).Nodup ∧ validateDag steps = .ok () := by
  unfold validateSteps at h
  split at h
  · next raws =>
    split at h
    · cases h
    next hcount =>
    obtain ⟨gathered, hgather, h⟩ := Except.bind_eq_ok h
    obtain ⟨_, hdag, h⟩ := Except.bind_eq_ok h
    cases h
    obtain ⟨new, hnew, hlength, hagain, hall, hnodup⟩ := gatherSteps_ok hgather
    rw [List.nil_append] at hnew
    subst hnew
    refine ⟨?_, hall, hnodup (by simp), hdag⟩
    unfold validateSteps
    simp only [List.length_map, hlength, if_neg hcount, hagain, hdag, bind, Except.bind, pure,
      Except.pure]
  · cases h

/-! ## Dependencies -/

/-- One step of a plan depends on another. -/
def DependsOn (steps : List ExecutionStep) (a b : String) : Prop :=
  ∃ step ∈ steps, step.id = a ∧ b ∈ step.dependencies

/-- What a step waits for. -/
def needsOf (steps : List ExecutionStep) (id : String) : Finset String :=
  ((steps.find? fun step => step.id = id).map fun step => step.dependencies.toFinset).getD ∅

theorem needsOf_of_mem (hids : (steps.map (·.id)).Nodup) (hstep : step ∈ steps) :
    needsOf steps step.id = step.dependencies.toFinset := by
  induction steps with
  | nil => cases hstep
  | cons first steps ih =>
    obtain ⟨hfresh, hrest⟩ := List.nodup_cons.mp hids
    rcases List.mem_cons.mp hstep with rfl | hmem
    · simp [needsOf]
    · have hne : first.id ≠ step.id := fun heq =>
        hfresh (List.mem_map.mpr ⟨step, hmem, heq.symm⟩)
      have hskip : needsOf (first :: steps) step.id = needsOf steps step.id := by
        unfold needsOf
        rw [List.find?_cons_of_neg (by simpa using hne)]
      rw [hskip, ih hrest hmem]

theorem incoming_eq (hids : (steps.map (·.id)).Nodup) :
    (steps.map fun step => (step.id, step.dependencies.toFinset)) =
      (steps.map (·.id)).map fun id => (id, needsOf steps id) := by
  rw [List.map_map]
  refine List.map_congr_left fun step hstep => ?_
  rw [Function.comp_apply, needsOf_of_mem hids hstep]

theorem dependsOn_iff (hids : (steps.map (·.id)).Nodup) {a b : String} :
    DependsOn steps a b ↔ Kahn.Waits (steps.map (·.id)) (needsOf steps) a b := by
  constructor
  · rintro ⟨step, hstep, rfl, hb⟩
    refine ⟨List.mem_map_of_mem hstep, ?_⟩
    rw [needsOf_of_mem hids hstep]
    exact List.mem_toFinset.mpr hb
  · rintro ⟨ha, hb⟩
    obtain ⟨step, hstep, rfl⟩ := List.mem_map.mp ha
    rw [needsOf_of_mem hids hstep] at hb
    exact ⟨step, hstep, rfl, List.mem_toFinset.mp hb⟩

/-- The dependencies name steps of the plan, and no step depends on itself. -/
def WellOrdered (steps : List ExecutionStep) : Prop :=
  (∀ step ∈ steps, ∀ id ∈ step.dependencies, id ∈ steps.map (·.id)) ∧
    ∀ id, ¬Relation.TransGen (DependsOn steps) id id

/-- **The dependencies are accepted exactly if they name steps and have no cycle.** -/
theorem validateDag_eq_ok_iff (hids : (steps.map (·.id)).Nodup) :
    validateDag steps = .ok () ↔ WellOrdered steps := by
  have hdepends : DependsOn steps = Kahn.Waits (steps.map (·.id)) (needsOf steps) := by
    funext a b
    exact propext (dependsOn_iff hids)
  have hmissing : ((steps.map fun step => (step.id, step.dependencies.toFinset)).any
      fun entry => ¬entry.2 ⊆ (steps.map (·.id)).toFinset) = true ↔
      ¬∀ step ∈ steps, ∀ id ∈ step.dependencies, id ∈ steps.map (·.id) := by
    simp [Finset.subset_iff]
  unfold validateDag WellOrdered
  simp only
  by_cases hnamed : ∀ step ∈ steps, ∀ id ∈ step.dependencies, id ∈ steps.map (·.id)
  · rw [if_neg (hmissing.not.mpr (not_not.mpr hnamed))]
    have hclosed : ∀ a ∈ steps.map (·.id), ∀ b ∈ needsOf steps a, b ∈ steps.map (·.id) := by
      intro a ha b hb
      obtain ⟨step, hstep, rfl⟩ := List.mem_map.mp ha
      rw [needsOf_of_mem hids hstep] at hb
      exact hnamed step hstep b (List.mem_toFinset.mp hb)
    have htaken := Kahn.taken_eq_length_iff hids hclosed
    have hready : (((steps.map (·.id)).map fun id => (id, needsOf steps id)).filter
        fun entry => entry.2 = ∅).map Prod.fst =
        (steps.map (·.id)).filter fun id => needsOf steps id = ∅ := by
      rw [List.filter_map, List.map_map]
      simp [Function.comp_def]
    rw [hdepends, incoming_eq hids]
    by_cases hself : (((steps.map (·.id)).map fun id => (id, needsOf steps id)).any
        fun entry => entry.1 ∈ entry.2) = true
    · rw [if_pos hself]
      obtain ⟨entry, hentry, hmem⟩ := List.any_eq_true.mp hself
      obtain ⟨id, hid, rfl⟩ := List.mem_map.mp hentry
      refine iff_of_false (by simp) fun h => h.2 id (.single ⟨hid, ?_⟩)
      simpa using hmem
    · rw [if_neg hself, hready]
      rw [List.length_map] at htaken
      by_cases hall : Kahn.taken ((steps.map (·.id)).map fun id => (id, needsOf steps id))
          ((steps.map (·.id)).filter fun id => needsOf steps id = ∅).reverse = steps.length
      · rw [if_neg (not_not.mpr hall)]
        exact iff_of_true rfl ⟨hnamed, htaken.mp hall⟩
      · rw [if_pos hall]
        exact iff_of_false (by simp) fun h => hall (htaken.mpr h.2)
  · rw [if_pos (hmissing.mpr hnamed)]
    exact iff_of_false (by simp) fun h => hnamed h.1

/-! ## Intents and budgets that were accepted -/

theorem elevatedIntent_elevated (intent : PlanIntent) (steps : List ExecutionStep) :
    elevatedIntent (elevatedIntent intent steps) steps = elevatedIntent intent steps := by
  unfold elevatedIntent
  by_cases hwrite : (toolsOf steps).any fun tool => tool ∈ writeTools
  · rw [if_pos hwrite, if_pos hwrite]
  · rw [if_neg hwrite, if_neg hwrite]
    by_cases hread : ((toolsOf steps).any fun tool => tool ∈ readTools) ∧ intent = .conversation
    · rw [if_pos hread, if_neg fun h => by cases h.2]
    · rw [if_neg hread, if_neg hread]

/-- A conversation stays one only without tools that read. -/
theorem eq_of_elevated_conversation {intent : PlanIntent}
    (h : elevatedIntent intent steps = .conversation) : intent = .conversation := by
  unfold elevatedIntent at h
  split at h
  · cases h
  · split at h
    · cases h
    · exact h

theorem ofName?_name (intent : PlanIntent) : PlanIntent.ofName? intent.name = some intent := by
  cases intent <;> rfl

theorem riskLevel_ofName?_name (level : RiskLevel) : RiskLevel.ofName? level.name = some level := by
  cases level <;> rfl

theorem PlanTable.strip_intent (htable : PlanTable txt) (intent : PlanIntent) :
    pyStrip txt intent.name = intent.name := by
  cases intent with
  | conversation => exact htable.strip_name "conversatio".toList rfl rfl rfl rfl
  | readOnly => exact htable.strip_name "read_onl".toList rfl rfl rfl rfl
  | codeChange => exact htable.strip_name "code_chang".toList rfl rfl rfl rfl

theorem PlanTable.strip_risk (htable : PlanTable txt) (level : RiskLevel) :
    pyStrip txt level.name = level.name := by
  cases level with
  | low => exact htable.strip_name "lo".toList rfl rfl rfl rfl
  | medium => exact htable.strip_name "mediu".toList rfl rfl rfl rfl
  | high => exact htable.strip_name "hig".toList rfl rfl rfl rfl

variable {request : PlanRequest} {key : BudgetKey} {fields : PyDict} {n : Int}

/-- A budget between its minimum and its maximum. -/
def BudgetAccepted (txt : PyText) (request : PlanRequest) (key : BudgetKey) (n : Int) : Prop :=
  ∃ floor limit, minimumOf request key = .int floor ∧ maximumOf txt request key = .ok limit ∧
    0 ≤ floor ∧ floor ≤ n ∧ n ≤ limit ∧ rawMinimum key ≤ n

theorem validateBudget_ok (h : validateBudget txt request fields key = .ok n) :
    BudgetAccepted txt request key n := by
  unfold validateBudget at h
  split at h
  · next raw _ =>
    split at h
    · cases h
    next hraw =>
    obtain ⟨limit, hlimit, h⟩ := Except.bind_eq_ok h
    split at h
    · cases h
    next hfits =>
    split at h
    · next floor hfloor =>
      split at h
      · cases h
      split at h
      · cases h
      next hpos hbelow =>
      cases h
      exact ⟨floor, limit, hfloor, hlimit, by omega, by omega, by omega, by omega⟩
    · cases h
  · cases h

theorem BudgetAccepted.again (h : BudgetAccepted txt request key n)
    (hfield : fieldOf fields key.name = .int n) :
    validateBudget txt request fields key = .ok n := by
  obtain ⟨floor, limit, hfloor, hlimit, hpos, hbelow, habove, hraw⟩ := h
  unfold validateBudget
  rw [hfield]
  simp only [hlimit, hfloor, bind, Except.bind]
  rw [if_neg (by omega), if_neg (by omega), if_neg (by omega), if_neg (by omega),
    max_eq_left hbelow]

variable {budgets raised : PlanBudgets}

theorem validateBudgets_ok (h : validateBudgets txt request value = .ok budgets) (key : BudgetKey) :
    BudgetAccepted txt request key (budgets.get key) := by
  unfold validateBudgets at h
  split at h
  · cases h
  · obtain ⟨elapsedSeconds, helapsed, h⟩ := Except.bind_eq_ok h
    obtain ⟨inputTokens, hinput, h⟩ := Except.bind_eq_ok h
    obtain ⟨modelRounds, hrounds, h⟩ := Except.bind_eq_ok h
    obtain ⟨outputTokens, houtput, h⟩ := Except.bind_eq_ok h
    obtain ⟨toolCalls, hcalls, h⟩ := Except.bind_eq_ok h
    cases h
    cases key with
    | elapsedSeconds => exact validateBudget_ok helapsed
    | inputTokens => exact validateBudget_ok hinput
    | modelRounds => exact validateBudget_ok hrounds
    | outputTokens => exact validateBudget_ok houtput
    | toolCalls => exact validateBudget_ok hcalls

theorem validateBudgets_again (h : ∀ key, BudgetAccepted txt request key (budgets.get key)) :
    validateBudgets txt request (.dict budgets.fields) = .ok budgets := by
  have hkeys : withKeys budgetKeys (.dict budgets.fields) = some budgets.fields :=
    withKeys_of_keys fun key => by
      show key ∈
        ["elapsed_seconds", "input_tokens", "model_rounds", "output_tokens", "tool_calls"] ↔ _
      simp only [budgetKeys, List.mem_cons, List.not_mem_nil, or_false]
      tauto
  have hagain : ∀ key : BudgetKey, fieldOf budgets.fields key.name = .int (budgets.get key) → _ :=
    fun key hfield => (h key).again hfield
  unfold validateBudgets
  simp only [hkeys, bind, Except.bind, pure, Except.pure,
    hagain .elapsedSeconds rfl, hagain .inputTokens rfl, hagain .modelRounds rfl,
    hagain .outputTokens rfl, hagain .toolCalls rfl]
  rfl

/-- The floors of the tools are met. -/
structure FloorsMet (steps : List ExecutionStep) (budgets : PlanBudgets) : Prop where
  toolCalls : toolKinds steps ≤ budgets.toolCalls
  modelRounds : minPlanModelRounds + toolKinds steps ≤ budgets.modelRounds

theorem floorOf_eq {floor : Int} (h : minimumOf request key = .int floor) :
    floorOf txt request key = .ok floor := by
  unfold floorOf
  rw [h]
  rfl

theorem raiseBudgets_ok (hbudgets : ∀ key, BudgetAccepted txt request key (budgets.get key))
    (h : raiseBudgets txt request steps budgets = .ok raised) :
    (∀ key, BudgetAccepted txt request key (raised.get key)) ∧ FloorsMet steps raised := by
  obtain ⟨callFloor, callLimit, hcallFloor, hcallLimit, hcallPos, hcallBelow, hcallAbove,
    hcallRaw⟩ :=
    hbudgets .toolCalls
  obtain ⟨roundFloor, roundLimit, hroundFloor, hroundLimit, hroundPos, hroundBelow, hroundAbove,
    hroundRaw⟩ := hbudgets .modelRounds
  unfold raiseBudgets at h
  simp only [floorOf_eq hcallFloor, floorOf_eq hroundFloor, hcallLimit, hroundLimit, bind,
    Except.bind] at h
  split at h
  · cases h
  next hcalls =>
  split at h
  · cases h
  next hrounds =>
  split at h
  · cases h
  cases h
  simp only [PlanBudgets.get] at *
  refine ⟨fun key => ?_, ⟨by simp only; omega, by simp only; omega⟩⟩
  cases key with
  | elapsedSeconds => exact hbudgets .elapsedSeconds
  | inputTokens => exact hbudgets .inputTokens
  | outputTokens => exact hbudgets .outputTokens
  | toolCalls =>
    exact ⟨callFloor, callLimit, hcallFloor, hcallLimit, hcallPos, by simp only; omega,
      by simp only; omega, by simp only; omega⟩
  | modelRounds =>
    exact ⟨roundFloor, roundLimit, hroundFloor, hroundLimit, hroundPos, by simp only; omega,
      by simp only; omega, by simp only; omega⟩

theorem raiseBudgets_again (hbudgets : ∀ key, BudgetAccepted txt request key (budgets.get key))
    (h : FloorsMet steps budgets) : raiseBudgets txt request steps budgets = .ok budgets := by
  obtain ⟨callFloor, callLimit, hcallFloor, hcallLimit, hcallPos, hcallBelow, hcallAbove,
    hcallRaw⟩ :=
    hbudgets .toolCalls
  obtain ⟨roundFloor, roundLimit, hroundFloor, hroundLimit, hroundPos, hroundBelow, hroundAbove,
    hroundRaw⟩ := hbudgets .modelRounds
  have hcalls := h.toolCalls
  have hrounds := h.modelRounds
  have hkinds : 0 ≤ toolKinds steps := Int.natCast_nonneg _
  simp only [PlanBudgets.get] at *
  unfold raiseBudgets
  simp only [floorOf_eq hcallFloor, floorOf_eq hroundFloor, hcallLimit, hroundLimit, bind,
    Except.bind]
  rw [if_neg (by omega), if_neg (by omega), max_eq_left (by omega), max_eq_left (by omega),
    if_neg (by omega)]

/-! ## Plans that were accepted -/

/-- All that is known of a plan that was accepted. -/
structure PlanAccepted (txt : PyText) (request : PlanRequest) (plan : Plan) : Prop where
  stripped : pyStrip txt plan.planId = plan.planId
  isId : isPlanId plan.planId = true
  expectedId : request.expectedPlanId ≠ "" → plan.planId = request.expectedPlanId
  revision : plan.revision = request.expectedRevision
  summary : BoundedText txt 500 plan.summary
  acceptance : TextList txt 12 plan.acceptance
  accepts : plan.acceptance ≠ []
  steps : validateSteps txt request.availableTools
    (.list (plan.steps.map fun step => .dict step.fields)) = .ok plan.steps
  available : ∀ step ∈ plan.steps, ∀ tool ∈ step.requiredTools, tool ∈ request.availableTools
  elevated : elevatedIntent plan.intent plan.steps = plan.intent
  conversation : plan.intent = .conversation →
    ∀ step ∈ plan.steps, step.requiredTools = [] ∧ step.requiredEvidence = []
  writes : plan.intent = .codeChange →
    ∃ step ∈ plan.steps, ∃ tool ∈ step.requiredTools, tool ∈ writeTools
  budgets : ∀ key, BudgetAccepted txt request key (plan.budgets.get key)
  floors : FloorsMet plan.steps plan.budgets

variable {plan : Plan}

theorem validatePlan_ok (h : validatePlan txt request value = .ok plan) :
    PlanAccepted txt request plan := by
  unfold validatePlan at h
  split at h
  case h_2 => cases h
  split at h
  · cases h
  next fields _ =>
  simp only at h
  split at h
  · cases h
  split at h
  · cases h
  next hid =>
  split at h
  · cases h
  split at h
  · cases h
  next hexpected =>
  obtain ⟨summary, hsummary, h⟩ := Except.bind_eq_ok h
  split at h
  · cases h
  · cases h
  next intent riskLevel _ _ =>
  obtain ⟨acceptance, hacceptance, h⟩ := Except.bind_eq_ok h
  split at h
  · cases h
  next haccepts =>
  obtain ⟨steps, hsteps, h⟩ := Except.bind_eq_ok h
  split at h
  · cases h
  next hconversation =>
  split at h
  · cases h
  next hwrites =>
  obtain ⟨budgets, hbudgets, h⟩ := Except.bind_eq_ok h
  obtain ⟨raised, hraised, h⟩ := Except.bind_eq_ok h
  obtain rfl := Except.ok.inj h
  obtain ⟨hagain, hall, -, -⟩ := validateSteps_ok hsteps
  obtain ⟨hraisedBudgets, hfloors⟩ := raiseBudgets_ok (validateBudgets_ok hbudgets) hraised
  refine ⟨pyStrip_pyStrip _, by simpa using hid, fun hne => ?_, rfl, boundedText_ok hsummary,
    stringList_ok hacceptance, haccepts, hagain, fun step hstep => ?_, elevatedIntent_elevated _ _,
    fun hintent => ?_, fun hintent => ?_, hraisedBudgets, hfloors⟩
  · by_contra hdiffer
    exact hexpected ⟨hne, hdiffer⟩
  · obtain ⟨ids, haccepted⟩ := hall step hstep
    exact haccepted.available
  · have hplain := not_and.mp hconversation (eq_of_elevated_conversation hintent)
    simpa using hplain
  · have hwrite := not_not.mp (not_and.mp hwrites hintent)
    simpa using hwrite

/-- A plan that was accepted is accepted again, as it is. -/
theorem PlanAccepted.again (htable : PlanTable txt) (h : PlanAccepted txt request plan) :
    validatePlan txt request (.dict plan.fields) = .ok plan := by
  have hkeys : withKeys planKeys (.dict plan.fields) = some plan.fields :=
    withKeys_of_keys fun key => Iff.rfl
  have hschema : ¬schemaUnsupported txt (fieldOf plan.fields "schema_version") = true := by
    show ¬decide (planSchemaVersion ≠ planSchemaVersion) = true
    simp
  have hrevision :
      ¬pyEq (fieldOf plan.fields "revision") (.int request.expectedRevision) = false := by
    rw [← h.revision]
    show ¬scalarEq (.int plan.revision) (.int plan.revision) = false
    simp [scalarEq, scalarEq.number?]
  have hexpected : ¬(request.expectedPlanId ≠ "" ∧ plan.planId ≠ request.expectedPlanId) :=
    fun hboth => hboth.2 (h.expectedId hboth.1)
  have hconversation : ¬(plan.intent = .conversation ∧ (plan.steps.any fun step =>
      step.requiredTools ≠ [] ∨ step.requiredEvidence ≠ []) = true) := by
    rintro ⟨hintent, hany⟩
    obtain ⟨step, hstep, hneeds⟩ := List.any_eq_true.mp hany
    have hnone := h.conversation hintent step hstep
    simp [hnone.1, hnone.2] at hneeds
  have hwrites : ¬(plan.intent = .codeChange ∧ ¬(plan.steps.any fun step =>
      step.requiredTools.any fun tool => tool ∈ writeTools) = true) := by
    rintro ⟨hintent, hno⟩
    refine hno ?_
    simpa using h.writes hintent
  unfold validatePlan
  simp only [hkeys]
  rw [if_neg hschema, show (fieldOf plan.fields "plan_id").text txt = plan.planId from rfl,
    h.stripped,
    if_neg (by rw [h.isId]; exact Bool.noConfusion), if_neg hrevision, if_neg hexpected,
    show fieldOf plan.fields "summary" = .str plan.summary from rfl,
    show (fieldOf plan.fields "intent").text txt = plan.intent.name from rfl,
    show (fieldOf plan.fields "risk_level").text txt = plan.riskLevel.name from rfl,
    show fieldOf plan.fields "acceptance" = textsValue plan.acceptance from rfl,
    show fieldOf plan.fields "steps" =
      .list (plan.steps.map fun step => .dict step.fields) from rfl,
    show fieldOf plan.fields "budgets" = .dict plan.budgets.fields from rfl,
    htable.strip_intent, htable.strip_risk, ofName?_name, riskLevel_ofName?_name]
  simp only [h.summary.again, h.acceptance.again, h.steps, h.elevated, bind, Except.bind, pure,
    Except.pure, if_neg h.accepts, if_neg hconversation, if_neg hwrites,
    validateBudgets_again h.budgets, raiseBudgets_again h.budgets h.floors, ← h.revision]

/-! ## Plans that are serialised -/

theorem readable_texts (texts : List String) : Readable (textsValue texts) := by
  unfold textsValue Readable
  induction texts with
  | nil => trivial
  | cons text texts ih => exact ⟨trivial, ih⟩

theorem readable_step (step : ExecutionStep) : Readable (.dict step.fields) := by
  have htexts := readable_texts
  refine ⟨trivial, by simp, trivial, by simp, htexts _, by simp, htexts _, by simp, htexts _,
    by simp,
    htexts _, by simp, trivial⟩

theorem readable_steps (steps : List ExecutionStep) :
    Readable (.list (steps.map fun step => .dict step.fields)) := by
  unfold Readable
  induction steps with
  | nil => trivial
  | cons step steps ih => exact ⟨readable_step step, ih⟩

theorem readable_plan (h : ∀ n ∈ plan.numbers, digitCount n ≤ PyValue.maxStrDigits) :
    Readable (.dict plan.fields) := by
  have hnumber : ∀ n ∈ plan.numbers, Readable (.int n) := h
  simp only [Plan.numbers, List.forall_mem_cons] at hnumber
  obtain ⟨hrevision, helapsed, hinput, hrounds, houtput, hcalls, -⟩ := hnumber
  have hbudgets : Readable (.dict plan.budgets.fields) :=
    ⟨helapsed, by simp, hinput, by simp, hrounds, by simp, houtput, by simp, hcalls, by simp,
      trivial⟩
  exact ⟨trivial, by simp, trivial, by simp, hrevision, by simp, trivial, by simp, trivial, by simp,
    readable_steps _, by simp, readable_texts _, by simp, trivial, by simp, hbudgets, by simp, trivial⟩

theorem parse_serialized (t : Tables) (htable : PlanTable txt) (h : PlanAccepted txt request plan)
    {serialized : String} (hserialized : plan.serialize txt = .ok serialized) :
    parseAndValidatePlan txt request t serialized = .ok plan := by
  unfold Plan.serialize at hserialized
  split at hserialized
  case isFalse => cases hserialized
  next hnumbers =>
  obtain rfl := Except.ok.inj hserialized
  have hread := loads_encode t txt (readable_plan fun n hn => by
    simpa using List.all_eq_true.mp hnumbers n hn)
  have hstrip : (pyStrip txt (String.ofList (encode txt (.dict plan.fields)))).toList =
      encode txt (.dict plan.fields) := by
    refine @toList_pyStrip_eq txt _ [] _ [] _
      ('\x7b' :: joinTexts ((encodeEntries txt plan.fields).map memberText)) '\x7b' '\x7d' ?_
      (by simp) (by simp) rfl htable.opening rfl htable.closing
    rw [String.toList_ofList, List.nil_append, List.append_nil]
  unfold parseAndValidatePlan
  rw [hstrip, hread]
  exact h.again htable

/-- What a plan that is returned is. -/
structure PlanValid (txt : PyText) (request : PlanRequest) (plan : Plan) : Prop where
  available : ∀ step ∈ plan.steps, ∀ tool ∈ step.requiredTools, tool ∈ request.availableTools
  writes : plan.intent = .codeChange →
    ∃ step ∈ plan.steps, ∃ tool ∈ step.requiredTools, tool ∈ writeTools
  conversation : plan.intent = .conversation → ∀ step ∈ plan.steps, step.requiredTools = []
  budgets : ∀ key, ∃ floor limit, minimumOf request key = .int floor ∧
    maximumOf txt request key = .ok limit ∧ floor ≤ plan.budgets.get key ∧
    plan.budgets.get key ≤ limit
  toolFloor : toolKinds plan.steps ≤ plan.budgets.toolCalls
  roundFloor : minPlanModelRounds + toolKinds plan.steps ≤ plan.budgets.modelRounds

/-- **Dependencies are accepted exactly if they name steps and have no cycle. A plan that is
returned is valid, and serialised it is returned as it is.** -/
theorem parseAndValidatePlan_exact (htable : PlanTable txt) (t : Tables) (request : PlanRequest) :
    (∀ steps : List ExecutionStep, (steps.map (·.id)).Nodup →
      (validateDag steps = .ok () ↔ WellOrdered steps)) ∧
    ∀ text plan, parseAndValidatePlan txt request t text = .ok plan →
      PlanValid txt request plan ∧ ∀ serialized, plan.serialize txt = .ok serialized →
        parseAndValidatePlan txt request t serialized = .ok plan := by
  refine ⟨fun steps hids => validateDag_eq_ok_iff hids, fun text plan hparse => ?_⟩
  have haccepted : PlanAccepted txt request plan := by
    unfold parseAndValidatePlan at hparse
    split at hparse
    · cases hparse
    · exact validatePlan_ok hparse
  refine ⟨⟨haccepted.available, haccepted.writes, fun hintent step hstep =>
    (haccepted.conversation hintent step hstep).1, fun key => ?_, haccepted.floors.toolCalls,
    haccepted.floors.modelRounds⟩, fun serialized => parse_serialized t htable haccepted⟩
  obtain ⟨floor, limit, hfloor, hlimit, -, hbelow, habove, -⟩ := haccepted.budgets key
  exact ⟨floor, limit, hfloor, hlimit, hbelow, habove⟩

theorem planTable_ascii : PlanTable .ascii where
  letter c hc := by
    have hcode : 65 ≤ c.toNat := by
      have hcase : (decide ('A'.val ≤ c.val ∧ c.val ≤ 'Z'.val) ||
        (decide ('a'.val ≤ c.val) && decide (c.val ≤ 'z'.val))) = true := hc
      simp only [Bool.or_eq_true, Bool.and_eq_true, decide_eq_true_eq,
        UInt32.le_iff_toNat_le] at hcase
      have : 'A'.val.toNat = 65 := rfl
      have : 'a'.val.toNat = 97 := rfl
      have : c.toNat = c.val.toNat := rfl
      omega
    have hspace : c ≠ ' ' := by
      rintro rfl
      exact absurd hcode (by decide)
    simp only [PyText.ascii, decide_eq_false_iff_not, not_or, not_and]
    exact ⟨hspace, fun _ => by omega⟩
  opening := by decide
  closing := by decide

/-- A plan that greets. -/
def greetingPlan : Plan where
  planId := "greeting"
  revision := 1
  intent := .conversation
  summary := "say hello"
  steps := [⟨"greet", "say hello", [], [], [], ["said"]⟩]
  acceptance := ["said"]
  riskLevel := .low
  budgets := ⟨120, 20000, 3, 2000, 0⟩

/-- The limits of a run. -/
def greetingRequest : PlanRequest where
  availableTools := ["read_file"]
  maximumBudgets := [("model_rounds", .int 12), ("tool_calls", .int 25),
    ("input_tokens", .int 200000),
    ("output_tokens", .int 20000), ("elapsed_seconds", .int 900)]

theorem greeting_accepted : PlanAccepted .ascii greetingRequest greetingPlan := by
  have hsaid : TextList .ascii 12 ["said"] := by
    refine ⟨fun text htext => ?_, by decide, by decide⟩
    rw [List.mem_singleton.mp htext]
    exact ⟨by decide +kernel, by decide, by decide⟩
  have hsteps : validateSteps .ascii greetingRequest.availableTools
      (.list (greetingPlan.steps.map fun step => .dict step.fields)) = .ok greetingPlan.steps := by
    decide +kernel
  refine ⟨by decide +kernel, by decide, fun h => absurd rfl h, rfl,
    ⟨by decide +kernel, by decide, by decide⟩, hsaid, by decide, hsteps, by decide, rfl, by decide,
    (by intro h; cases h), fun key => ?_, ⟨by decide, by decide⟩⟩
  cases key <;> exact ⟨_, _, rfl, rfl, by decide, by decide, by decide, by decide⟩

/-- The greeting is read back from its text, and two steps that wait for each other are refused. -/
theorem greeting_exact :
    (∃ serialized, greetingPlan.serialize .ascii = .ok serialized ∧
      PlanValid .ascii greetingRequest greetingPlan ∧
      parseAndValidatePlan .ascii greetingRequest ⟨fun _ => .nan, fun _ => ' '⟩ serialized =
        .ok greetingPlan) ∧
    validateDag [⟨"a", "", ["b"], [], [], []⟩, ⟨"b", "", ["a"], [], [], []⟩] ≠ .ok () := by
  have hexact := parseAndValidatePlan_exact planTable_ascii
    ⟨fun _ => .nan, fun _ => ' '⟩ greetingRequest
  have hserialized : greetingPlan.serialize .ascii =
      .ok (String.ofList (encode .ascii (.dict greetingPlan.fields))) := if_pos (by decide +kernel)
  obtain ⟨hvalid, hagain⟩ :=
    hexact.2 _ _ (parse_serialized _ planTable_ascii greeting_accepted hserialized)
  refine ⟨⟨_, hserialized, hvalid, hagain _ hserialized⟩, fun haccepted => ?_⟩
  have hordered := (hexact.1 _ (by decide)).mp haccepted
  exact hordered.2 "a" (.tail (.single ⟨_, List.mem_cons_self, rfl, by decide⟩)
    ⟨_, List.mem_cons_of_mem _ List.mem_cons_self, rfl, by decide⟩)

end ThreadForge

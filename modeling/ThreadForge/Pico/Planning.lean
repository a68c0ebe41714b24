import ThreadForge.Pico.Agent

/-!
# Planning

`planning.py`, and the two callers of it in `agent_loop.py`: one call of the model gives a list of
steps, each with its acceptance criteria, which become the checklist of the run.
-/

namespace ThreadForge

open AgentM

/-- One step of a plan. -/
structure PlanStep where
  goal : String
  doneWhen : List String
  deriving DecidableEq, Repr

section Parsing

variable (txt : PyText) (loads : JsonLoads)

/-! ## Reading a plan -/

/-- `str(raw or "").strip()`. -/
def replyText (raw : PyValue) : String := pyStrip txt ((raw.or (.str "")).text txt)

/-- A text without the Markdown fence it starts with. -/
def withoutFence (text : String) : String :=
  if pyStartsWith text "```" then unfenced txt text else text

/-- `[str(x).strip() for x in items if str(x).strip()]`. -/
def strippedTexts (items : List PyValue) : List String :=
  (items.map fun item => pyStrip txt (item.text txt)).filter (· ≠ "")

/-- One item of `steps`: `none` where it has no goal. -/
def planStep (item : PyValue) : Option PlanStep :=
  let step : PlanStep := match item with
    | .dict item =>
      let goal := pyStrip txt (textOr txt item "goal" "")
      let done := match PyDict.getD item "done_when" (.list []) with
        | .list criteria => strippedTexts txt criteria
        | _ => []
      ⟨goal, if done.isEmpty then [goal] else done⟩
    | item =>
      let goal := replyText txt item
      ⟨goal, if goal = "" then [] else [goal]⟩
  if step.goal = "" then none else some step

/-- `MAX_PLAN_STEPS`. -/
def maxPlanSteps : Nat := 20

/-- `parse_plan_steps`: `none` where it raises `ValueError`. -/
def parsePlanSteps (raw : PyValue) : Option (List PlanStep) :=
  let text := withoutFence txt (replyText txt raw)
  if pyStartsWith text "\x7b" && pyEndsWith text "\x7d" then
    match loads text with
    | some (.dict value) =>
      match PyDict.getD value "steps" .none with
      | .list items =>
        let steps := items.filterMap (planStep txt)
        if 1 ≤ steps.length ∧ steps.length ≤ maxPlanSteps then some steps else none
      | _ => none
    | _ => none
  else none

open PyPattern in
/-- `PLAIN_CONVERSATION_PATTERN`, on a text with its case folded. -/
def plainConversation : PyPattern :=
  andThen
    (oneOf (["hi", "hello", "hey", "thanks"].map lit ++
      [andThen (lit "thank") (andThen (many1 txt.isSpace) (lit "you"))] ++
      ["ok", "okay", "yes", "no", "你好", "您好", "嗨", "哈喽", "在吗", "谢谢", "谢了", "好的", "好",
        "收到", "再见", "拜拜"].map lit))
    (many fun c => c ∈ "!！。.?？".toList || txt.isSpace c)

/-- `is_plain_conversation`. -/
def isPlainConversation (task : String) : Bool :=
  PyPattern.matchesAll (plainConversation txt)
    (String.ofList ((pyStrip txt task).toList.map PyPattern.foldCase))

end Parsing

/-! ## Asking for a plan -/

/-- `_PLANNING_PROMPT`, before its payload. -/
def planningPrompt : String :=
  "You are planning an execution for a local coding agent. " ++
  "Return exactly one JSON object and nothing else.\n" ++
  "The JSON must be: \x7b\"steps\": [\x7b\"goal\": \"step 1 goal\", \"done_when\": [\"acceptance\"]\x7d, ...]\x7d\n" ++
  "Requirements:\n" ++
  "- steps: a list of 1-20 step objects, in execution order.\n" ++
  "  - goal: a short imperative sentence describing what the step achieves.\n" ++
  "  - done_when: 1-3 verifiable acceptance criteria for THIS step. Prefer " ++
  "program-verifiable forms:\n" ++
  "    - \"file:<path>\" — the file exists in the workspace (e.g. \"file:src/foo.py\")\n" ++
  "    - \"grep:<path>:<pattern>\" — the file content contains the text/pattern " ++
  "(e.g. \"grep:README.md:installation\")\n" ++
  "    - \"cmd:<shell command>\" — the command exits 0 (e.g. \"cmd:python -m pytest -q\")\n" ++
  "    - otherwise a plain sentence (review will verify it semantically).\n" ++
  "  A step may have only plain-sentence criteria if its outcome cannot be " ++
  "expressed programmatically.\n" ++
  "- Cover only the current request; do not plan duplicate exploration over " ++
  "already-explored areas.\n" ++
  "- No markdown, no prose outside the JSON object.\n" ++
  "PAYLOAD="

/-- `build_planning_prompt`. -/
def buildPlanningPrompt (request context explored : String) : String :=
  planningPrompt ++ "\x7b\"task\": " ++ PyValue.jsonString request ++ ", \"recent_context\": " ++
    PyValue.jsonString context ++ ", \"explored_summary\": " ++ PyValue.jsonString explored ++ "\x7d"

variable {X : Type} (env : AgentEnv X)

/-- The reply of the model to a planning prompt: `none` where the call raised, whatever it raised. -/
def askPlanner (prompt : String) : AgentM X (Option PyValue) := do
  let completion ← outerCaught (env.complete .planning prompt) fun _ => true
  match completion with
  | .ok completion => pure (some completion.reply)
  | .error _ => pure none

/-- `run_planning`: no steps where the call or its reply failed. -/
def runPlanning (request context explored : String) : AgentM X (List PlanStep) := do
  let reply ← askPlanner env (buildPlanningPrompt request context explored)
  match reply.bind (parsePlanSteps env.txt env.loads) with
  | none => do
    emitTrace env "planning_failed"
    pure []
  | some steps => do
    emitTrace env "planning_completed"
    pure steps

/-! ## The checklist -/

/-- `d[key] = value`, for texts. -/
def setCriteria (criteria : List (String × List String)) (goal : String) (doneWhen : List String) :
    List (String × List String) :=
  match criteria with
  | [] => [(goal, doneWhen)]
  | (goal', old) :: rest =>
    if goal' = goal then (goal, doneWhen) :: rest else (goal', old) :: setCriteria rest goal doneWhen

/-- A plan becomes the checklist. -/
def TaskState.adoptPlan (t : TaskState) (steps : List PlanStep) : TaskState :=
  { t with
    checklist := steps.map PlanStep.goal
    doneWhen := steps.flatMap PlanStep.doneWhen
    stepDoneWhen := steps.foldl (fun criteria step => setCriteria criteria step.goal step.doneWhen) [] }

/-- `_initial_plan`. -/
def initialPlan (userMessage : String) : AgentM X Unit :=
  if !env.planning || isPlainConversation env.txt userMessage then pure ()
  else do
    let memory ← layered fun _ => env.memoryText
    let steps ← runPlanning env userMessage (pyClip memory 2000) ""
    if steps.isEmpty then pure ()
    else do
      onTask fun t => t.adoptPlan steps
      writeTaskState env
      emitTrace env "plan_checklist_created"

/-- `_replan`. -/
def replan (userMessage feedback : String) : AgentM X Unit :=
  if !env.planning then pure ()
  else do
    let t ← task
    let explored :=
      if t.completedItems.isEmpty then "" else "已完成: " ++ "；".intercalate t.completedItems
    let memory ← layered fun _ => env.memoryText
    let steps ← runPlanning env userMessage (pyClip memory 2000) explored
    if steps.isEmpty then pure ()
    else do
      onTask fun t =>
        { t.adoptPlan steps with replanReasons := t.replanReasons ++ [pyClip feedback 200] }
      writeTaskState env
      emitTrace env "plan_replanned"

@[simp] theorem outcome_adoptPlan (t : TaskState) (steps : List PlanStep) :
    (t.adoptPlan steps).outcome = t.outcome := rfl

end ThreadForge

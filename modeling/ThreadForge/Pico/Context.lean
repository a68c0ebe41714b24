import ThreadForge.Lib.Table
import ThreadForge.Lib.JsonText
import ThreadForge.Pico.Agent

/-!
# The prompt of a turn

`context_manager.py`: the prefix, the memory, the notes that matter, the history and the request of
the user, each but the last within a budget, and the loop that lowers the budgets while the prompt is
too long.

## Sections

A section is rendered from its budget alone, so the loop goes over the budgets. The history is taken
from its newest entry backwards: `entryLines` says with which lines an entry is added, if at all.
-/

namespace ThreadForge

/-- One entry of `file_summaries`, with its key. -/
structure FileSummary where
  path : String
  summary : String
  createdAt : String
  freshness : Option String
  deriving DecidableEq

def TaskPhase.text : TaskPhase → String
  | .understandRequest => "UNDERSTAND_REQUEST"
  | .gatherContext => "GATHER_CONTEXT"
  | .analyzeContext => "ANALYZE_CONTEXT"
  | .actOrAnswer => "ACT_OR_ANSWER"
  | .verify => "VERIFY"
  | .final => "FINAL"

/-- `DEFAULT_SECTION_BUDGETS`. -/
def defaultSectionBudgets : List (String × Int) :=
  [("prefix", 3600), ("memory", 1600), ("relevant_memory", 1200), ("history", 5200)]

/-- `DEFAULT_REDUCTION_ORDER`. -/
def defaultReductionOrder : List String := ["relevant_memory", "history", "memory", "prefix"]

/-- `_tail_clip`. -/
def tailClip (text : String) (limit : Int) : String :=
  if limit ≤ 0 then ""
  else if text.length ≤ limit then text
  else if limit ≤ 3 then pyClip text limit.toNat
  else pyClip text (limit.toNat - 3) ++ "..."

/-- `SectionRender`. -/
structure SectionRender where
  raw : String
  budget : Int
  rendered : String

/-- What the manager reads of the agent: its features, its texts, the texts of the notes that are
retrieved for a message, the history and the file summaries. -/
structure ContextAgent where
  txt : PyText
  memory : Bool
  relevantMemory : Bool
  contextReduction : Bool
  prefixText : String
  memoryText : String
  taskState : Option TaskState
  checkpointText : String
  retrieved : String → List String
  history : List HistoryItem
  fileSummaries : Table FileSummary.path

/-- `ContextManager`. -/
structure ContextManager where
  totalBudget : Int := 12000
  sectionBudgets : List (String × Int) := []
  sectionFloors : List (String × Int) := []
  reductionOrder : List String := defaultReductionOrder

/-- The budgets of the sections. -/
abbrev Budgets := String → Option Int

namespace ContextManager

/-- `section_budgets`: the default ones, with those that were given. -/
def budgets (c : ContextManager) : Budgets := fun name =>
  (c.sectionBudgets.lookup name).or (defaultSectionBudgets.lookup name)

/-- `section_floors.get(section, 0)`, as `_compute_section_floors` makes them. -/
def floor (c : ContextManager) (name : String) : Int :=
  ((c.sectionFloors.lookup name).or ((c.budgets name).map fun budget => max 20 (budget / 4))).getD 0

end ContextManager

namespace ContextAgent

variable (a : ContextAgent)

/-! ## The texts -/

/-- The lines of the control state. -/
def controlText (t : TaskState) : String :=
  "\n".intercalate
    (["Agent control state:", "- phase: " ++ t.phase.text, "- next_step: " ++ t.nextStep,
      "- tool_calls: " ++ toString t.toolSteps, "- read_files: " ++ toString t.readFiles,
      "- checklist:"] ++
      t.checklist.map fun item =>
        "  - [" ++ (if item ∈ t.completedItems then "x" else " ") ++ "] " ++ item)

/-- The section of the request: the checkpoint, the control state and the message. -/
def currentRequest (userMessage : String) : String :=
  let request := "Current user request:\n" ++ userMessage
  let request := match a.taskState with
    | some t => controlText t ++ "\n\n" ++ request
    | none => request
  let checkpoint := pyStrip a.txt a.checkpointText
  if checkpoint = "" then request else checkpoint ++ "\n\n" ++ request

/-- The text of the memory. -/
def memorySection : String := if a.memory then a.memoryText else "Memory:\n- disabled"

/-- The notes for the message. -/
def selectedNotes (userMessage : String) : List String :=
  if a.memory && a.relevantMemory then a.retrieved userMessage else []

/-! ## The notes -/

/-- A header and notes below it. -/
def noteLines (notes : List String) : String :=
  "\n".intercalate ("Relevant memory:" :: notes.map ("- " ++ ·))

/-- `_per_note_budget`. -/
def perNoteBudget (budget : Int) (count : Nat) : Int :=
  if count = 0 then 0
  else max 1 (max 0 (budget - ("Relevant memory:".length + 3 * count)) / count)

/-- The notes, each cut to the same length. -/
def cutNotes (notes : List String) (each : Nat) : List String := notes.map (tailClip · each)

/-- The budget of one note, lowered until the notes fit or it is 1. -/
def shrinkNotes (notes : List String) (budget : Int) : Nat → Nat
  | 0 => 0
  | each + 1 =>
    if (noteLines (cutNotes notes (each + 1))).length ≤ budget ∨ each + 1 ≤ 1 then each + 1
    else shrinkNotes notes budget each

/-- `_render_relevant_memory`. -/
def renderRelevantMemory (notes : List String) (budget : Int) : SectionRender :=
  let texts := notes.filter fun text => pyStrip a.txt text ≠ ""
  if texts.isEmpty then
    { raw := "Relevant memory:\n- none", budget := budget, rendered := "Relevant memory:\n- none" }
  else
    let raw := noteLines texts
    let each := shrinkNotes texts budget (perNoteBudget budget texts.length).toNat
    let rendered := noteLines (cutNotes texts each)
    { raw := raw
      budget := budget
      rendered := if budget < rendered.length ∧ 0 < budget then tailClip raw budget else rendered }

/-! ## The history -/

/-- The first line of a tool call. -/
def toolLine (name : PyValue) (args : PyDict) : String :=
  "[tool:" ++ name.text a.txt ++ "] " ++ String.ofList (PyJson.dumps a.txt (.dict args))

/-- `_render_history_item`. -/
def renderHistoryItem (item : HistoryItem) (limit : Int) : List String :=
  match item with
  | .tool name args content => [a.toolLine name args, tailClip content (max 20 limit)]
  | .message role content => ["[" ++ role ++ "] " ++ tailClip content limit]

/-- A line behind another, below the header. -/
def transcript (lines : List String) : String := "\n".intercalate ("Transcript:" :: lines)

/-- `_raw_history_text`. -/
def rawHistoryText : String :=
  if a.history.isEmpty then "Transcript:\n- empty"
  else transcript (a.history.flatMap fun item => match item with
    | .tool name args content => [a.toolLine name args, content]
    | .message role content => ["[" ++ role ++ "] " ++ content])

/-- `_reusable_file_summary`. -/
def reusableFileSummary (path : String) : String :=
  match a.fileSummaries.find? path with
  | some entry => pyStrip a.txt entry.summary
  | none => ""

/-- `text or default`. -/
def orText (text default : String) : String := if text = "" then default else text

/-- `_summarize_old_tool_item`. -/
def summarizeOldToolItem (name : PyValue) (args : PyDict) (content : String) : String :=
  if name = .str "run_shell" then
    let command := orText (pyStrip a.txt (args.textOf a.txt "command")) "shell"
    let lines := ((pySplitLines content).map (pyStrip a.txt)).filter (· ≠ "")
    command ++ " -> " ++ (if lines.isEmpty then "(empty)" else " | ".intercalate (lines.take 3))
  else a.toolLine name args

/-- One entry of the history as it may be rendered, with the place of its item. -/
structure HistoryEntry where
  index : Nat
  recent : Bool
  lines : List String
  deriving DecidableEq

/-- The path that a call reads. -/
def readPath (args : PyDict) : String := pyStrip a.txt (args.textOf a.txt "path")

/-- `_compressed_history_entries`, with the paths that older entries read so far: of the older reads
of a path only the first is kept. -/
def compressedHistoryEntries (recentStart : Nat) :
    List String → List (HistoryItem × Nat) → List HistoryEntry
  | _, [] => []
  | seen, (item, index) :: rest =>
    if recentStart ≤ index then
      ⟨index, true, a.renderHistoryItem item 900⟩ :: compressedHistoryEntries recentStart seen rest
    else match item with
      | .message _ _ =>
        ⟨index, false, a.renderHistoryItem item 60⟩ :: compressedHistoryEntries recentStart seen rest
      | .tool name args content =>
        if name = .str "read_file" then
          let path := a.readPath args
          if path ∈ seen then compressedHistoryEntries recentStart seen rest
          else
            let summary := a.reusableFileSummary path
            let line :=
              if summary = "" then a.summarizeOldToolItem name args content
              else path ++ " -> " ++ summary
            ⟨index, false, [line]⟩ :: compressedHistoryEntries recentStart (path :: seen) rest
        else
          ⟨index, false, [a.summarizeOldToolItem name args content]⟩ ::
            compressedHistoryEntries recentStart seen rest

/-- The first of the last six items. -/
def recentStart : Nat := a.history.length - 6

/-- The entries of the history. -/
def historyEntries : List HistoryEntry :=
  a.compressedHistoryEntries a.recentStart [] a.history.zipIdx

/-- The lines with which an entry is put before those that are rendered: its own, or cut ones. -/
def entryLines (budget : Int) (rendered : List String) (entry : HistoryEntry) :
    Option (List String) :=
  if (transcript (entry.lines ++ rendered)).length ≤ budget then some entry.lines
  else
    let width : Int :=
      if entry.recent then
        let available := budget - "Transcript:".length
        let available :=
          if rendered.isEmpty then available
          else available - (rendered.map fun line => (line.length : Int) + 1).sum
        max 20 (available - 1)
      else 20
    let lines := entry.lines.map (tailClip · width)
    if (transcript (lines ++ rendered)).length ≤ budget then some lines else none

/-- The lines that are rendered for some entries. -/
def linesOf (picked : List (HistoryEntry × List String)) : List String := picked.flatMap Prod.snd

/-- The entries that are rendered, with their lines: from the newest backwards, one that does not fit
is left out. -/
def pickEntries (budget : Int) :
    List HistoryEntry → List (HistoryEntry × List String) → List (HistoryEntry × List String)
  | [], picked => picked
  | entry :: rest, picked =>
    pickEntries budget rest (match entryLines budget (linesOf picked) entry with
      | some lines => (entry, lines) :: picked
      | none => picked)

/-- The entries that a budget is filled with. -/
def pickedEntries (budget : Int) : List (HistoryEntry × List String) :=
  pickEntries budget a.historyEntries.reverse []

/-- `_render_history_section`. -/
def renderHistorySection (budget : Int) : SectionRender :=
  if a.history.isEmpty then
    { raw := a.rawHistoryText, budget := budget, rendered := "Transcript:\n- empty" }
  else
    let rendered := transcript (linesOf (a.pickedEntries budget))
    { raw := a.rawHistoryText
      budget := budget
      rendered :=
        if budget < rendered.length ∧ 0 < budget then tailClip a.rawHistoryText budget
        else rendered }

/-! ## The prompt -/

/-- The rendered sections. -/
structure Sections where
  prefixText : SectionRender
  memory : SectionRender
  relevantMemory : SectionRender
  history : SectionRender
  currentRequest : SectionRender

/-- A section that is cut at its end. -/
def renderText (raw : String) (budget : Option Int) : SectionRender where
  raw := raw
  budget := budget.getD 0
  rendered := match budget with
    | some budget => tailClip raw budget
    | none => raw

/-- `_render_sections`. -/
def renderSections (userMessage : String) (budgets : Budgets) : Sections where
  prefixText := renderText a.prefixText (budgets "prefix")
  memory := renderText a.memorySection (budgets "memory")
  relevantMemory := a.renderRelevantMemory (a.selectedNotes userMessage)
    ((budgets "relevant_memory").getD 0)
  history := a.renderHistorySection ((budgets "history").getD 0)
  currentRequest := ⟨a.currentRequest userMessage, 0, a.currentRequest userMessage⟩

/-- `_render_sections_without_reduction`. -/
def renderSectionsWithoutReduction (userMessage : String) : Sections :=
  let whole (text : String) : SectionRender := ⟨text, text.length, text⟩
  let notes := a.selectedNotes userMessage
  { prefixText := whole a.prefixText
    memory := whole a.memorySection
    relevantMemory := whole (if notes.isEmpty then "Relevant memory:\n- none" else noteLines notes)
    history := whole a.rawHistoryText
    currentRequest := ⟨a.currentRequest userMessage, 0, a.currentRequest userMessage⟩ }

/-- `_assemble_prompt`. -/
def assemblePrompt (sections : Sections) : String :=
  pyStrip a.txt ("\n\n".intercalate [sections.prefixText.rendered, sections.memory.rendered,
    sections.relevantMemory.rendered, sections.history.rendered, sections.currentRequest.rendered])

/-- The prompt with the given budgets. -/
def promptWith (userMessage : String) (budgets : Budgets) : String :=
  a.assemblePrompt (a.renderSections userMessage budgets)

end ContextAgent

/-! ## The loop -/

namespace ContextManager

variable (c : ContextManager)

/-- The first section of the order that is above its floor, with its new budget. -/
def reduction (budgets : Budgets) (overflow : Int) : List String → Option (String × Int)
  | [] => none
  | name :: rest =>
    let current := (budgets name).getD 0
    if current ≤ c.floor name then reduction budgets overflow rest
    else
      let lowered := max (c.floor name) (current - overflow)
      if current ≤ lowered then reduction budgets overflow rest else some (name, lowered)

/-- The loop of `build`, as far as `fuel` turns go: the budgets it ends with. -/
def reduceLoop (a : ContextAgent) (userMessage : String) : Nat → Budgets → Option Budgets
  | 0, _ => none
  | fuel + 1, budgets =>
    let length : Int := (a.promptWith userMessage budgets).length
    if c.totalBudget < length then
      match c.reduction budgets (length - c.totalBudget) c.reductionOrder with
      | some (name, lowered) =>
        reduceLoop a userMessage fuel (Function.update budgets name (some lowered))
      | none => some budgets
    else some budgets

/-- `build`: the prompt, and the sections and budgets that its metadata is about. -/
structure Built where
  prompt : String
  sections : ContextAgent.Sections
  budgets : Budgets

/-- `build`, where the loop may take `fuel` turns. -/
def build (a : ContextAgent) (userMessage : String) (fuel : Nat) : Option Built :=
  if a.contextReduction then
    (c.reduceLoop a userMessage fuel c.budgets).map fun budgets =>
      ⟨a.promptWith userMessage budgets, a.renderSections userMessage budgets, budgets⟩
  else
    let sections := a.renderSectionsWithoutReduction userMessage
    some ⟨a.assemblePrompt sections, sections, fun name =>
      if name = "prefix" then some sections.prefixText.budget
      else if name = "memory" then some sections.memory.budget
      else if name = "relevant_memory" then some sections.relevantMemory.budget
      else if name = "history" then some sections.history.budget
      else none⟩

end ContextManager

end ThreadForge

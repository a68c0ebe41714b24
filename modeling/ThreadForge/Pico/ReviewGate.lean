import Mathlib.Data.List.Lex
import Mathlib.Data.String.Basic
import ThreadForge.Pico.Review

/-!
# The completion gate

`evaluation/review_gate.py`, as `run_native` calls it: once, after the loop, with a step budget that
is only there for older callers.
-/

namespace ThreadForge

/-- `VALID_TASK_MODES`: the task modes, and the intents a run resolves to. -/
inductive Intent
  | auto
  | conversation
  | readOnly
  | codeChange
  deriving DecidableEq, Repr

def Intent.text : Intent → String
  | .auto => "auto"
  | .conversation => "conversation"
  | .readOnly => "read_only"
  | .codeChange => "code_change"

/-- The status of a `ReviewDecision` of the gate. -/
inductive GateStatus
  | pass
  | needsFix
  deriving DecidableEq, Repr

/-! ## What the gate looks at -/

/-- `_checklist_remaining`. -/
def checklistRemaining (t : TaskState) : Nat := t.checklist.length - t.completedItems.dedup.length

/-- `_has_evidence`. -/
def hasEvidence (t : TaskState) : Bool := t.evidence.any fun item => item.status.succeeded

/-- `_has_write_evidence`. -/
def hasWriteEvidence (t : TaskState) : Bool :=
  t.evidence.any fun item => item.status.succeeded && !item.readOnly

variable (txt : PyText)

/-- `tool_keys` of `_round_signature`, before they are sorted. -/
def toolKeys (t : TaskState) : List (String × List String) :=
  t.evidence.map fun item => (item.toolName.text txt, item.relativePaths)

/-- The order of tuples of texts. -/
def toolKeyLe (a b : String × List String) : Bool := a.1 < b.1 || (a.1 = b.1 && decide (a.2 ≤ b.2))

/-- `json.dumps(tool_keys, sort_keys=True, ensure_ascii=False)`. -/
def toolKeysText (t : TaskState) : String :=
  dumpsPlain txt (.list (((toolKeys txt t).mergeSort toolKeyLe).map fun key =>
    .list [.str key.1, .list (key.2.map .str)]))

/-- `_round_signature`. -/
def roundSignature (sha256 : String → String) (t : TaskState) : Except PyError String :=
  let text := toolKeysText txt t
  if txt.encodable text then
    .ok (toString t.evidence.length ++ ":" ++ toString t.completedItems.length ++ ":" ++ sha256 text)
  else .error .unicodeEncodeError

/-! ## The gate -/

/-- `GATE_STEP_BUDGET_UNLIMITED`. -/
def gateStepBudget : Nat := 100000

/-- The gate on a run that changed the workspace, or should have. -/
def gateOfChange (t : TaskState) : GateStatus :=
  if hasWriteEvidence t = true ∧ (checklistIsExplicit t = false ∨ checklistRemaining t = 0) then .pass
  else .needsFix

/-- The gate by the intent of the run. -/
def gateByIntent (intent : Intent) (t : TaskState) : GateStatus :=
  let answered : GateStatus := if pyStrip txt t.finalAnswer = "" then .needsFix else .pass
  match intent with
  | .readOnly => if hasEvidence t then .pass else answered
  | .conversation => .pass
  | .auto =>
    if hasWriteEvidence t then gateOfChange t
    else if t.lastTool ∈ ["write_file", "patch_file", "run_shell"] then .needsFix
    else answered
  | .codeChange => gateOfChange t

/-- `run_review_gate`. No round came before, so no signature repeats one. -/
def runReviewGate (sha256 : String → String) (intent : Intent) (t : TaskState) :
    Except PyError GateStatus :=
  if gateStepBudget ≤ t.toolSteps then .ok .pass
  else do
    let _ ← roundSignature txt sha256 t
    pure (gateByIntent txt intent t)

end ThreadForge

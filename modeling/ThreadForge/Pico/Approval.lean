import ThreadForge.Lib.PyValue

/-!
# Approval strategies

`approval.py`: who decides whether a risky tool may run, and which strategy a permission mode or a
policy selects.
-/

namespace ThreadForge

/-- `ApprovalOutcome`. -/
inductive ApprovalOutcome
  | approved
  | rejected
  | expired
  | cancelled
  deriving DecidableEq, Repr

/-- `ApprovalRequest`. -/
structure ApprovalRequest where
  name : String
  args : PyDict := []
  toolCallId : String := ""
  deriving DecidableEq, Repr

/-- `PermissionMode`. -/
inductive PermissionMode
  | plan
  | acceptEdits
  | default
  | bypass
  deriving DecidableEq, Repr

def PermissionMode.value : PermissionMode → String
  | .plan => "plan"
  | .acceptEdits => "acceptEdits"
  | .default => "default"
  | .bypass => "bypass"

/-- `EDIT_TOOLS`. -/
def editTools : List String := ["write_file", "patch_file"]

/-- The strategies. `ask` puts the question to someone outside: the terminal, or the strategy that
the Web backend injects. -/
inductive ApprovalStrategy
  | auto
  | never
  | ask
  | acceptEdits (fallback : ApprovalStrategy)
  deriving DecidableEq, Repr

namespace ApprovalStrategy

/-- `decide`: an answer, or `none` where someone outside is asked. -/
def decide (request : ApprovalRequest) : ApprovalStrategy → Option ApprovalOutcome
  | .auto => some .approved
  | .never => some .rejected
  | .ask => none
  | .acceptEdits fallback =>
    if request.name ∈ editTools then some .approved else fallback.decide request

/-- `strategy_for_mode`. -/
def forMode (txt : PyText) (mode : String) (fallback : ApprovalStrategy) : ApprovalStrategy :=
  let value := String.ofList (PyValue.stripChars txt mode)
  if value = PermissionMode.bypass.value ∨ value = "auto" then .auto
  else if value = PermissionMode.plan.value ∨ value = "never" then .never
  else if value = PermissionMode.acceptEdits.value then .acceptEdits fallback
  else fallback

/-- `strategy_for_policy`. -/
def forPolicy (txt : PyText) (policy : String) : ApprovalStrategy :=
  if policy = "auto" then .auto
  else if policy = "never" then .never
  else if policy ∈ [PermissionMode.plan, .acceptEdits, .default, .bypass].map PermissionMode.value
  then forMode txt policy .ask
  else .ask

end ApprovalStrategy

end ThreadForge

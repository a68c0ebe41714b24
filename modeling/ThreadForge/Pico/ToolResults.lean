import ThreadForge.Pico.StepLaws

/-!
# What the executor returns

A call that is not admitted is rejected. One that is admitted is about a tool of the registry, and
where the tool is not risky nothing of the workspace is compared, so that its failure is an error
and not a partial success.
-/

namespace ThreadForge

open Eff AgentM

variable {X : Type} {env : AgentEnv X}

/-! ## Admission -/

theorem rejectInvalid_ok {tool : ToolName} {problem : String} {s t : AgentState X}
    {result : ToolResult} (h : (rejectInvalid env tool problem).run s = (.ok result, t)) :
    result.status = .rejected := by
  unfold rejectInvalid at h
  obtain ⟨_, _, _, hdone⟩ := bind_eq_ok h
  cases hdone
  rfl

theorem rejectUnapproved_ok {content errorCode securityEvent : String} {s t : AgentState X}
    {result : ToolResult}
    (h : (rejectUnapproved env content errorCode securityEvent).run s = (.ok result, t)) :
    result.status = .rejected := by
  unfold rejectUnapproved at h
  obtain ⟨_, _, _, hdone⟩ := bind_eq_ok h
  cases hdone
  rfl

/-- What admission returns: a rejection, or a call whose files were looked at where it is risky. -/
def AdmittedAs {name : PyValue} : ToolResult ⊕ ReadyCall env name → Prop
  | .inl result => result.status = .rejected
  | .inr call => call.tool.risky = false → call.before = []

theorem prepareCall_ok {name : PyValue} {tool : ToolName} {named : name = .str tool.text}
    {permitted : tool.risky = true → env.refusing = false} {args : PyDict} {s t : AgentState X}
    {r : ToolResult ⊕ ReadyCall env name}
    (h : (prepareCall env tool named permitted args).run s = (.ok r, t)) : AdmittedAs r := by
  unfold prepareCall at h
  obtain ⟨_, _, _, h⟩ := bind_eq_ok h
  obtain ⟨_, _, _, h⟩ := bind_eq_ok h
  obtain ⟨_, _, _, h⟩ := bind_eq_ok h
  cases h
  intro hrisky
  show captureSnapshot env _ tool _ = []
  unfold captureSnapshot
  rw [if_pos (by rw [hrisky]; rfl)]

theorem approveCall_ok {name : PyValue} {tool : ToolName} {named : name = .str tool.text}
    {args : PyDict} {s t : AgentState X} {r : ToolResult ⊕ ReadyCall env name}
    (h : (approveCall env tool named args).run s = (.ok r, t)) : AdmittedAs r := by
  unfold approveCall at h
  obtain ⟨outcome, u, _, h⟩ := bind_eq_ok h
  rcases outcome with ⟨_ | _ | _ | _, happroved⟩
  · exact prepareCall_ok h
  · obtain ⟨_, _, _, h⟩ := bind_eq_ok h
    obtain ⟨result, _, hreject, h⟩ := bind_eq_ok h
    cases h
    exact rejectUnapproved_ok hreject
  · obtain ⟨result, _, hreject, h⟩ := bind_eq_ok h
    cases h
    exact rejectUnapproved_ok hreject
  · cases h

theorem admitCall_ok {name : PyValue} {args : PyDict} {s t : AgentState X}
    {r : ToolResult ⊕ ReadyCall env name}
    (h : (admitCall env name args).run s = (.ok r, t)) : AdmittedAs r := by
  unfold admitCall at h
  split at h
  · obtain ⟨_, _, _, h⟩ := bind_eq_ok h
    cases h
    rfl
  split at h
  · cases h
    rfl
  · next tool hname =>
    obtain ⟨problem, u, _, h⟩ := bind_eq_ok h
    cases problem with
    | some problem =>
      obtain ⟨result, _, hreject, h⟩ := bind_eq_ok h
      cases h
      exact rejectInvalid_ok hreject
    | none =>
      dsimp only at h
      obtain ⟨s', _, _, h⟩ := bind_eq_ok h
      split at h
      · cases h
        rfl
      · obtain ⟨_, _, _, h⟩ := bind_eq_ok h
        split at h
        · exact approveCall_ok h
        · exact prepareCall_ok h

/-! ## A read that went well -/

theorem concludeReturned_ok {name : PyValue} {call : ReadyCall env name} {args : PyDict}
    {content : String} {s t : AgentState X} {result : ToolResult}
    (h : (concludeReturned env call args content).run s = (.ok result, t)) :
    result.content = content := by
  unfold concludeReturned at h
  obtain ⟨s', _, _, h⟩ := bind_eq_ok h
  dsimp only at h
  obtain ⟨_, _, _, h⟩ := bind_eq_ok h
  obtain ⟨_, _, _, h⟩ := bind_eq_ok h
  obtain ⟨_, _, _, h⟩ := bind_eq_ok h
  cases h
  rfl

end ThreadForge

import ThreadForge.Hub.System

/-!
# The approvals the hub has decided

A decision is stored before it is put in an outbox, and a stored decision is final: no step of the
hub changes an approval that is no longer pending.

## Main results

* `HubState.Follows` — what a step does to the approvals and the outboxes.
* `HubState.next_follows` — every step of the hub is such a step.
* `HubState.decisions_final` — no run changes a decision or tells another.
-/

namespace ThreadForge

open Transition

/-! ## Decided approvals -/

/-- The status a decision is stored as. -/
def decisionStatus (decision : String) : ApprovalStatus :=
  if decision = "approved" then .approved else .rejected

/-- The approval was decided so, for this call of this task with arguments of this digest. -/
structure Approval.Decided (approval : Approval) (taskId toolCallId decision digest : String) :
    Prop where
  status : approval.status = decisionStatus decision
  decision : approval.decision = some decision
  taskId : approval.taskId = taskId
  toolCallId : approval.toolCallId = toolCallId
  digest : approval.requestDigest = digest

theorem decisionStatus_ne_pending (decision : String) : decisionStatus decision ≠ .pending := by
  rw [decisionStatus]
  split <;> nofun

/-- A message that carries a decision carries one that is stored. -/
def HubMessage.Stored (approvals : List Approval) : HubMessage → Prop
  | .approvalDecision taskId _ toolCallId decision digest =>
    ∃ approval ∈ approvals, approval.Decided taskId toolCallId decision digest
  | _ => True

namespace HubState

/-- The primary key of the approvals. -/
def KeysUnique (s : HubState) : Prop := (s.approvals.map Approval.approvalId).Nodup

/--
`s'` may come after `s`.

Settled approvals are kept as they are, and whatever is newly in an outbox is stored.
-/
structure Follows (s s' : HubState) : Prop where
  keys : s.KeysUnique → s'.KeysUnique
  kept : s.KeysUnique → ∀ approval ∈ s.approvals, approval.status ≠ .pending →
    approval ∈ s'.approvals
  told : s.KeysUnique → ∀ connection message, (connection, message) ∈ s'.sent →
    (connection, message) ∈ s.sent ∨ message.Stored s'.approvals

variable {s s' s'' : HubState} {env : HubEnv}

/-- A stored decision stays stored. -/
theorem Follows.stored (h : s.Follows s') (hkeys : s.KeysUnique) {message : HubMessage}
    (hstored : message.Stored s.approvals) : message.Stored s'.approvals := by
  cases message with
  | approvalDecision taskId approvalId toolCallId decision digest =>
    obtain ⟨approval, hmem, hdecided⟩ := hstored
    refine ⟨approval, h.kept hkeys approval hmem ?_, hdecided⟩
    rw [hdecided.status]
    exact decisionStatus_ne_pending decision
  | _ => trivial

theorem Follows.of_eq (happrovals : s'.approvals = s.approvals) (hsent : s'.sent = s.sent) :
    s.Follows s' where
  keys hkeys := by rwa [KeysUnique, happrovals]
  kept _ approval hmem _ := by rwa [happrovals]
  told _ connection message hmem := Or.inl (hsent ▸ hmem)

theorem Follows.refl (s : HubState) : s.Follows s := .of_eq rfl rfl

theorem Follows.trans (h : s.Follows s') (h' : s'.Follows s'') : s.Follows s'' where
  keys hkeys := h'.keys (h.keys hkeys)
  kept hkeys approval hmem hsettled :=
    h'.kept (h.keys hkeys) approval (h.kept hkeys approval hmem hsettled) hsettled
  told hkeys connection message hmem := by
    rcases h'.told (h.keys hkeys) connection message hmem with hbefore | hstored
    · rcases h.told hkeys connection message hbefore with hsent | hstored
      · exact Or.inl hsent
      · exact Or.inr (h'.stored (h.keys hkeys) hstored)
    · exact Or.inr hstored

/-! ## The operations on approvals -/

/-- Approvals rewritten in place, the settled ones not at all. -/
theorem Follows.map {fn : Approval → Approval} (hid : ∀ a, (fn a).approvalId = a.approvalId)
    (hfn : ∀ a, a.status ≠ .pending → fn a = a) :
    s.Follows { s with approvals := s.approvals.map fn } where
  keys hkeys := by
    have hsame : (s.approvals.map fn).map Approval.approvalId =
        s.approvals.map Approval.approvalId := by
      rw [List.map_map]
      exact List.map_congr_left fun a _ => hid a
    show ((s.approvals.map fn).map Approval.approvalId).Nodup
    rwa [hsame]
  kept _ approval hmem hsettled := List.mem_map.mpr ⟨approval, hmem, hfn approval hsettled⟩
  told _ _ _ hmem := Or.inl hmem

theorem cancelPendingApprovals_follows (s : HubState) (taskId now decision : String) :
    s.Follows (s.cancelPendingApprovals taskId now decision) := by
  refine Follows.map (fun a => ?_) fun a hsettled => ?_
  · split <;> rfl
  · exact if_neg fun hpending => hsettled hpending.2

/-- An outbox takes a message whose decision, if it has one, is stored. -/
theorem sendAfterWrites_follows (s : HubState) (deviceId : String) {message : HubMessage}
    (hstored : message.Stored s.approvals) : s.Follows (s.sendAfterWrites deviceId message) := by
  rw [sendAfterWrites, send]
  cases s.connections deviceId with
  | none => exact .refl s
  | some connection =>
    refine ⟨id, fun _ _ hmem _ => hmem, fun _ c m hmem => ?_⟩
    rcases List.mem_append.mp hmem with hbefore | hnew
    · exact Or.inl hbefore
    · rw [List.mem_singleton] at hnew
      rw [(Prod.mk.inj hnew).2]
      exact Or.inr hstored

theorem updateTask_follows (s : HubState) (taskId now : String) (fn : Task → Task) :
    s.Follows (s.updateTask taskId now fn) := .of_eq rfl rfl

/-- A pending approval is decided, and no other with it. -/
theorem decide_follows {approval : Approval} (hmem : approval ∈ s.approvals)
    (hpending : approval.status = .pending) (now : String) (status : ApprovalStatus)
    (decision : String) :
    s.Follows (s.updateApproval approval.approvalId (setApprovalDecision now status decision)) := by
  constructor
  · intro hkeys
    have hsame : (s.updateApproval approval.approvalId
        (setApprovalDecision now status decision)).approvals.map Approval.approvalId =
        s.approvals.map Approval.approvalId := by
      rw [updateApproval, List.map_map]
      refine List.map_congr_left fun a _ => ?_
      show (if a.approvalId = approval.approvalId then setApprovalDecision now status decision a
        else a).approvalId = a.approvalId
      split <;> rfl
    rwa [KeysUnique, hsame]
  · intro hkeys other hother hsettled
    refine List.mem_map.mpr ⟨other, hother, if_neg fun hid => hsettled ?_⟩
    -- two approvals of one key are one approval
    have hsame : other = approval := List.inj_on_of_nodup_map hkeys hother hmem hid
    rw [hsame, hpending]
  · exact fun _ _ _ hmem => Or.inl hmem

theorem decide_stored {approval : Approval} (hmem : approval ∈ s.approvals) (now : String)
    (decision : String) :
    ∃ a ∈ (s.updateApproval approval.approvalId
        (setApprovalDecision now (decisionStatus decision) decision)).approvals,
      a.Decided approval.taskId approval.toolCallId decision approval.requestDigest :=
  ⟨_, List.mem_map.mpr ⟨approval, hmem, if_pos rfl⟩, ⟨rfl, rfl, rfl, rfl, rfl⟩⟩

theorem getApproval_mem {approvalId : String} {approval : Approval}
    (h : s.getApproval approvalId = .ok approval) :
    approval ∈ s.approvals ∧ approval.approvalId = approvalId := by
  rw [getApproval] at h
  split at h
  · next found hfound =>
    have hkey := List.find?_some hfound
    rw [← Except.ok.inj h]
    exact ⟨List.mem_of_find?_eq_some hfound, of_decide_eq_true hkey⟩
  · cases h

/-- The decision is stored before the Worker is told. -/
theorem resolveApproval_follows {approvalId decision now : String} {expired : Bool}
    (h : s.resolveApproval approvalId decision expired now = .ok s') : s.Follows s' := by
  rw [resolveApproval] at h
  split at h
  · cases h
  next approval hget =>
  obtain ⟨hmem, hid⟩ := getApproval_mem hget
  split at h
  · split at h
    · rw [← Except.ok.inj h]
      exact .refl s
    · cases h
  next hpending =>
  split at h
  · cases h
  split at h
  · cases h
  split at h
  · cases h
  split at h
  · cases h
  split at h
  · cases h
  split at h
  · cases h
  rw [← Except.ok.inj h, ← hid]
  have hdecide := decide_follows hmem (not_not.mp hpending) now (decisionStatus decision) decision
  refine (hdecide.trans (updateTask_follows _ approval.taskId now (clearApproval now))).trans ?_
  exact sendAfterWrites_follows _ _ (decide_stored hmem now decision)

theorem persistApproval_follows {connection : WorkerConnection} {taskId now : String}
    {approval : Approval} (h : s.persistApproval connection taskId approval now = .ok s') :
    s.Follows s' := by
  rw [persistApproval] at h
  split at h
  · cases h
  split at h
  · rw [← Except.ok.inj h]
    exact .refl s
  split at h
  · cases h
  split at h
  · rw [← Except.ok.inj h]
    exact updateTask_follows ..
  next hfresh =>
  rw [← Except.ok.inj h]
  have hcreate : s.Follows { s.updateTask taskId now (setPendingApproval now approval) with
      approvals := s.approvals ++ [approval] } := ?_
  · exact hcreate.trans (sendAfterWrites_follows _ _ trivial)
  constructor
  · intro hkeys
    show ((s.approvals ++ [approval]).map Approval.approvalId).Nodup
    rw [List.map_append]
    refine List.nodup_append.mpr ⟨hkeys, List.nodup_singleton _, fun key hkey key' hkey' => ?_⟩
    obtain ⟨other, hother, rfl⟩ := List.mem_map.mp hkey
    rw [List.map_singleton, List.mem_singleton] at hkey'
    rw [hkey']
    intro hsame
    exact hfresh (List.any_eq_true.mpr ⟨other, hother, decide_eq_true hsame⟩)
  · exact fun _ other hother _ => List.mem_append_left _ hother
  · exact fun _ _ _ hmem => Or.inl hmem

theorem cancel_follows {taskId now : String} (h : s.cancel taskId now = .ok s') :
    s.Follows s' := by
  rw [cancel] at h
  split at h
  · rw [← Except.ok.inj h]
    exact .refl s
  split at h
  · cases h
  split at h
  · rw [← Except.ok.inj h]
    exact sendAfterWrites_follows _ _ trivial
  · rw [← Except.ok.inj h]
    refine ((cancelPendingApprovals_follows s taskId now "cancelled").trans
      (updateTask_follows _ taskId now (setCancelRequested now))).trans ?_
    exact sendAfterWrites_follows _ _ trivial

/-! ## The operations on tasks and maps -/

theorem send_follows {deviceId taskId : String}
    (h : s.send deviceId (.taskStart taskId) = .ok s') : s.Follows s' := by
  have hsame : s' = s.sendAfterWrites deviceId (.taskStart taskId) := by rw [sendAfterWrites, h]
  rw [hsame]
  exact sendAfterWrites_follows _ _ trivial

theorem writeAudit_follows (s : HubState) (taskId : String) (edit : AuditEdit) (now : String) :
    s.Follows (s.writeAudit env taskId edit now) := by
  cases edit with
  | batch pending => exact updateTask_follows ..
  | append event data =>
    simp only [writeAudit]
    split
    · exact .refl s
    · split
      · exact updateTask_follows ..
      · exact .refl s

theorem flushStreamEvents_follows (s : HubState) (connectionId : Nat) (taskId : String) :
    s.Follows (s.flushStreamEvents connectionId taskId) := by
  rw [flushStreamEvents]
  split
  · exact .refl s
  · exact .of_eq rfl rfl

theorem handleEvent_follows {connection : WorkerConnection} {message event : PyDict}
    (h : s.handleEvent env connection message event = .ok s') : s.Follows s' := by
  rw [handleEvent] at h
  split at h
  · cases h
  split at h
  · cases h
  split at h
  · rw [← Except.ok.inj h]
    exact .refl s
  split at h
  · split at h
    · rw [← Except.ok.inj h]
      exact .refl s
    split at h
    · rw [← Except.ok.inj h]
      exact .of_eq rfl rfl
    split at h
    · rw [← Except.ok.inj h]
      exact (flushStreamEvents_follows s connection.connectionId _).trans (.of_eq rfl rfl)
    · rw [← Except.ok.inj h]
      exact .refl s
  · cases h

theorem beforeTerminal_follows (s : HubState) (task : Task) (taskId : String)
    (request : TerminalRequest) (now : String) :
    s.Follows (s.beforeTerminal task taskId request now) := by
  rw [beforeTerminal]
  split
  · have hscrub : s.Follows (s.scrubLocalTaskContent task.sessionId task.ownerId now) :=
      .of_eq rfl rfl
    exact hscrub.trans (cancelPendingApprovals_follows ..)
  · exact cancelPendingApprovals_follows ..

theorem handleTerminal_follows {connection : WorkerConnection} {message event : PyDict}
    {sessionMatches : Bool} {now : String}
    (h : s.handleTerminal env connection message event sessionMatches now = .ok s') :
    s.Follows s' := by
  rw [handleTerminal] at h
  split at h
  · cases h
  next task _ =>
  split at h
  · cases h
  next request _ =>
  have hbefore := beforeTerminal_follows s task (message.textOf env.txt "task_id") request now
  simp only at h
  split at h
  · cases h
  split at h
  · cases h
  rw [← Except.ok.inj h]
  exact ((hbefore.trans (updateTask_follows ..)).trans (writeAudit_follows ..)).trans
    (.of_eq rfl rfl)

theorem failTask_follows (s : HubState) (taskId reason : String) (status : TaskStatus)
    (now : String) : s.Follows (s.failTask env taskId reason status now) := by
  rw [failTask]
  split
  · exact .refl s
  split
  · exact .refl s
  have hcancel := cancelPendingApprovals_follows s taskId now reason
  simp only
  split
  · exact hcancel.trans (updateTask_follows ..)
  · exact hcancel

/-- An operation that raised did nothing; one that did not is described by its lemma. -/
theorem orSame_follows {result : Except HubError HubState}
    (h : ∀ s', result = .ok s' → s.Follows s') : s.Follows (s.orSame result) := by
  unfold orSame
  split
  · next s' => exact h s' rfl
  · exact .refl s

theorem handlerStep_follows {connection : WorkerConnection} {now : String}
    (h : s.handlerStep env connection now = some s') : s.Follows s' := by
  rw [handlerStep] at h
  split at h
  · cases h
  next step rest _ =>
  have hpop : s.Follows { s with
      handler := Function.update s.handler connection.connectionId rest } := .of_eq rfl rfl
  refine hpop.trans ?_
  simp only at h
  split at h
  · rw [← Option.some.inj h]
    exact writeAudit_follows ..
  · rw [← Option.some.inj h]
    exact orSame_follows fun _ => persistApproval_follows

/-! ## Every step -/

/-- **Every step of the hub keeps the settled approvals and tells only what is stored.** -/
theorem next_follows {action : HubAction} (h : s.next env action = some s') : s.Follows s' := by
  cases action with
  | createTask task =>
    simp only [next] at h
    split at h
    · rw [← Option.some.inj h]
      refine orSame_follows fun s' hcreate => ?_
      rw [createTask] at hcreate
      split at hcreate
      · cases hcreate
      · rw [← Except.ok.inj hcreate]
        exact .of_eq rfl rfl
    · cases h
  | dispatchClaim task session =>
    simp only [next] at h
    split at h
    · split at h
      · next s' hclaim =>
        rw [← Option.some.inj h]
        rw [dispatchClaim] at hclaim
        split at hclaim
        · cases hclaim
        split at hclaim
        · cases hclaim
        split at hclaim
        · cases hclaim
        simp only at hclaim
        split at hclaim
        · cases hclaim
        · rw [← Except.ok.inj hclaim]
          exact .of_eq rfl rfl
      · rw [← Option.some.inj h]
        exact .of_eq rfl rfl
    · cases h
  | writeRunning taskId now =>
    simp only [next] at h
    split at h
    · rw [← Option.some.inj h]
      exact .of_eq rfl rfl
    · cases h
  | sendStart taskId published =>
    simp only [next] at h
    split at h
    · split at h
      · next hsend =>
        rw [← Option.some.inj h]
        split
        · exact (send_follows hsend).trans (.of_eq rfl rfl)
        · exact .of_eq rfl rfl
      · rw [← Option.some.inj h]
        exact .of_eq rfl rfl
    · cases h
  | releaseUnsent taskId =>
    simp only [next] at h
    split at h
    · rw [← Option.some.inj h]
      exact .of_eq rfl rfl
    · cases h
  | writeFailed taskId now =>
    simp only [next] at h
    split at h
    · rw [← Option.some.inj h]
      exact .of_eq rfl rfl
    · cases h
  | cancel taskId now =>
    rw [← Option.some.inj h]
    exact orSame_follows fun _ => cancel_follows
  | resolveApproval approvalId decision expired now =>
    rw [← Option.some.inj h]
    exact orSame_follows fun _ => resolveApproval_follows
  | event connection message event =>
    simp only [next] at h
    split at h
    · rw [← Option.some.inj h]
      exact orSame_follows fun _ => handleEvent_follows
    · cases h
  | approvalRequested connection message approvalId createdAt expiresAt =>
    simp only [next] at h
    split at h
    · split at h <;> (rw [← Option.some.inj h]; exact .of_eq rfl rfl)
    · cases h
  | flush connection taskId =>
    simp only [next] at h
    split at h
    · rw [← Option.some.inj h]
      exact flushStreamEvents_follows ..
    · cases h
  | handlerStep connection now => exact handlerStep_follows h
  | terminal connection message event sessionMatches now =>
    simp only [next] at h
    split at h
    · rw [← Option.some.inj h]
      exact orSame_follows fun _ => handleTerminal_follows
    · cases h
  | connect connection =>
    rw [← Option.some.inj h, connect]
    split <;> exact .of_eq rfl rfl
  | hello connectionId workspaces =>
    rw [← Option.some.inj h]
    exact .of_eq rfl rfl
  | disconnect connection =>
    rw [← Option.some.inj h, disconnect]
    split
    · exact .refl s
    · split
      · exact .of_eq rfl rfl
      · exact .refl s
  | revoke deviceId =>
    rw [← Option.some.inj h]
    exact .of_eq rfl rfl
  | failTask index now =>
    simp only [next] at h
    split at h
    · rw [← Option.some.inj h]
      have herase : s.Follows { s with failing := s.failing.eraseIdx index } := .of_eq rfl rfl
      exact herase.trans (failTask_follows ..)
    · cases h

end HubState

end ThreadForge

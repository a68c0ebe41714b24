import ThreadForge.Gate.System

/-!
# The outcome of an approval

An approval has one outcome. Whoever decides it has looked under the gate and found it pending, so
a decided approval changes in two ways only: an approved one is rejected for its digest, and a
write that failed is undone.

## Main results

* `GateState.Kept` — the invariant, for any run and any faults.
* `GateState.outcome_settled` — what a decided approval can become.
-/

namespace ThreadForge

open Transition Faults GateStore

/-! ## One write -/

namespace GateStore

variable {s : GateStore} {approvalId : String}

theorem approvalStatus_none_iff : s.approvalStatus approvalId = none ↔
    ∀ approval ∈ s.approvals, approval.approvalId ≠ approvalId := by
  unfold approvalStatus
  rw [Option.map_eq_none_iff, List.find?_eq_none]
  simp only [decide_eq_true_eq]

theorem approvalStatus_of_mem (hkeys : (s.approvals.map Approval.approvalId).Nodup)
    {approval : Approval} (h : approval ∈ s.approvals) :
    s.approvalStatus approval.approvalId = some approval.status := by
  unfold approvalStatus
  cases hfind : s.approvals.find? (fun a => a.approvalId = approval.approvalId) with
  | none =>
    have hnone := List.find?_eq_none.mp hfind approval h
    exact absurd (decide_eq_true rfl) hnone
  | some found =>
    have hid : found.approvalId = approval.approvalId :=
      of_decide_eq_true (List.find?_some (p := fun a : Approval =>
        decide (a.approvalId = approval.approvalId)) hfind)
    have hsame : found = approval :=
      List.inj_on_of_nodup_map hkeys (List.mem_of_find?_eq_some hfind) h hid
    rw [hsame]
    rfl

theorem approvalStatus_updateApproval_of_ne {id : String} {fn : Approval → Approval}
    (hid : ∀ a, (fn a).approvalId = a.approvalId) (hne : id ≠ approvalId) :
    (s.updateApproval id fn).approvalStatus approvalId = s.approvalStatus approvalId := by
  unfold approvalStatus updateApproval
  rw [find?_updateApproval s.approvals id approvalId hid]
  cases hfind : s.approvals.find? (fun a => a.approvalId = approvalId) with
  | none => rfl
  | some a =>
    have hkey : a.approvalId = approvalId := of_decide_eq_true (List.find?_some
      (p := fun a : Approval => decide (a.approvalId = approvalId)) hfind)
    have hnot : ¬ a.approvalId = id := fun h => hne (h.symm.trans hkey)
    simp only [Option.map_some, if_neg hnot]

/-- What a write does to a stored approval. -/
theorem approvalStatus_write {status : ApprovalStatus}
    (h : s.approvalStatus approvalId = some status) (w : GateWrite) :
    (s.write w).approvalStatus approvalId = some status ∨
      (∃ status' decision now transitionId,
        w = .decide approvalId status' decision now transitionId ∧
          (s.write w).approvalStatus approvalId = some status') ∨
      w = .restoreApproval approvalId ∧ (s.write w).approvalStatus approvalId = some .pending := by
  cases w with
  | create approval =>
    refine Or.inl ?_
    unfold approvalStatus at h ⊢
    obtain ⟨found, hfound, hstatus⟩ := Option.map_eq_some_iff.mp h
    show ((s.approvals ++ [approval]).find? fun a => a.approvalId = approvalId).map _ = _
    rw [List.find?_append, hfound, Option.some_or, Option.map_some, hstatus]
  | decide id status' decision now transitionId =>
    by_cases hid : id = approvalId
    · subst hid
      exact Or.inr (Or.inl ⟨status', decision, now, transitionId, rfl,
        by rw [approvalStatus_write_decide, h]; rfl⟩)
    · refine Or.inl (Eq.trans ?_ h)
      exact approvalStatus_updateApproval_of_ne (fun _ => rfl) hid
  | restoreApproval id =>
    by_cases hid : id = approvalId
    · subst hid
      exact Or.inr (Or.inr ⟨rfl, by rw [approvalStatus_write_restoreApproval, h]; rfl⟩)
    · refine Or.inl (Eq.trans ?_ h)
      exact approvalStatus_updateApproval_of_ne (fun _ => rfl) hid
  | _ => exact Or.inl h

/-- A write keeps the keys, when the approval it creates is new. -/
theorem keys_write (hkeys : (s.approvals.map Approval.approvalId).Nodup) {w : GateWrite}
    (hnew : ∀ approval, w = .create approval → s.approvalStatus approval.approvalId = none) :
    ((s.write w).approvals.map Approval.approvalId).Nodup := by
  have hupdate : ∀ (id : String) (fn : Approval → Approval),
      (∀ a, (fn a).approvalId = a.approvalId) →
      ((s.updateApproval id fn).approvals.map Approval.approvalId).Nodup := by
    intro id fn hfn
    have hsame : (s.updateApproval id fn).approvals.map Approval.approvalId =
        s.approvals.map Approval.approvalId := by
      unfold updateApproval
      rw [List.map_map]
      refine List.map_congr_left fun a _ => ?_
      show (if a.approvalId = id then fn a else a).approvalId = a.approvalId
      split
      · exact hfn a
      · rfl
    rwa [hsame]
  cases w with
  | create approval =>
    have habsent := approvalStatus_none_iff.mp (hnew approval rfl)
    show ((s.approvals ++ [approval]).map Approval.approvalId).Nodup
    rw [List.map_append]
    refine List.nodup_append.mpr ⟨hkeys, List.nodup_singleton _, fun key hkey key' hkey' => ?_⟩
    obtain ⟨other, hother, rfl⟩ := List.mem_map.mp hkey
    rw [List.map_singleton, List.mem_singleton] at hkey'
    rw [hkey']
    exact habsent other hother
  | decide id status decision now transitionId => exact hupdate id _ fun _ => rfl
  | restoreApproval id => exact hupdate id _ fun _ => rfl
  | _ => exact hkeys

end GateStore

/-! ## The writes of a section -/

/-- What a write finds: an approval is created once, and decided while it is pending, or again as it
was decided, or rejected for its digest. -/
def WriteLaw (holder : Holder) (s : GateStore) : GateWrite → Prop
  | .create approval => s.approvalStatus approval.approvalId = none
  | .decide approvalId status _ _ _ =>
    s.approvalStatus approvalId = some .pending ∨ s.approvalStatus approvalId = some status ∨
      holder = .mismatch approvalId ∧ status = .rejected ∧
        s.approvalStatus approvalId = some .approved
  | _ => True

/-- The writes the holder of a section makes: `apply_decision` decides nothing but what it was
asked to, and `cancel` writes the status of the task. -/
def Holder.Writes : Holder → GateWrite → Prop
  | .decide, .decide _ status _ _ _ => status = .approved ∨ status = .rejected
  | .decide, .create _ => False
  | .cancelTask, w => ∃ status now, w = .setStatus status now
  | _, _ => True

section Sections

variable {s : GateStore} {approvalId transitionId now : String} {faults : GateFaults}

theorem resolution_each {taskId : String} {status old : ApprovalStatus} {decision : String}
    {prior : Option PyDict} {holder : Holder} (hold : s.approvalStatus approvalId = some old)
    (hlaw : old = .pending ∨ holder = .mismatch approvalId ∧ status = .rejected ∧
      (old = .approved ∨ old = .rejected)) :
    EachWrite GateStore.write (WriteLaw holder) s
      (resolution taskId approvalId status decision prior transitionId now faults).writes := by
  refine eachWrite_of_invariant (P := fun t : GateStore => GateOp.Between t approvalId old status)
    (fun w hw t ht => (GateOp.mem_resolution hw).between ht) (fun w hw t ht => ?_) (Or.inl hold)
  rcases GateOp.mem_resolution hw with ⟨intent, rfl⟩ | rfl | rfl | rfl | rfl | rfl
  · trivial
  · trivial
  · trivial
  · rcases ht with h | h | h
    · rcases hlaw with hpending | ⟨hholder, hstatus, happroved | hrejected⟩
      · exact Or.inl (h.trans (congrArg some hpending))
      · exact Or.inr (Or.inr ⟨hholder, hstatus, h.trans (congrArg some happroved)⟩)
      · refine Or.inr (Or.inl (h.trans (congrArg some ?_)))
        rw [hrejected, hstatus]
    · exact Or.inr (Or.inl h)
    · exact Or.inl h
  · trivial
  · trivial

theorem registration_each {approval : Approval} {holder : Holder}
    (habsent : s.approvalStatus approval.approvalId = none) (hpending : approval.status = .pending) :
    EachWrite GateStore.write (WriteLaw holder) s
      (registration approval transitionId now faults).writes := by
  have hmain : EachWrite GateStore.write (WriteLaw holder) s
      (attempt (registrationMain approval transitionId now faults)).1 := by
    obtain ⟨n, hn⟩ := attempt_take (registrationMain approval transitionId now faults)
    have hwhole : EachWrite GateStore.write (WriteLaw holder) s
        ((registrationMain approval transitionId now faults).map Prod.fst) :=
      ⟨trivial, habsent, trivial, trivial, trivial⟩
    rw [hn]
    exact hwhole.take n
  unfold registration
  cases hraised : (compensated transitionId faults (registrationMain approval transitionId now faults)
      (rollbackRequest approval.approvalId now faults)).raised with
  | false =>
    rw [compensated_quiet hraised]
    exact hmain
  | true =>
    obtain ⟨closed, hclosed, hwrites⟩ := compensated_writes hraised
    have hstatus := GateOp.approvalStatus_registration habsent hpending transitionId now faults
    rw [hwrites, eachWrite_append, eachWrite_append]
    refine ⟨hmain, ?_, ?_⟩
    · -- the approval is cancelled only where it was stored
      rw [GateOp.tryEach_rollbackRequest]
      by_cases hstored : GateOp.Stored faults
      · rw [if_pos hstored] at hstatus
        rw [if_pos hstored]
        cases faults.undoApproval <;> cases faults.undoTask <;>
          simp only [Fault.takesEffect, if_true, Bool.false_eq_true, if_false, List.nil_append,
            List.append_nil, List.singleton_append, EachWrite, WriteLaw, and_true] <;>
          exact Or.inl hstatus
      · rw [if_neg hstored]
        cases faults.undoTask <;> simp [Fault.takesEffect, EachWrite, WriteLaw]
    · rcases hclosed with rfl | rfl
      · trivial
      · exact ⟨trivial, trivial⟩

/-- Each approval `cancel_pending` cancels is still pending when its turn comes. -/
theorem cancelPending_each (hkeys : (s.approvals.map Approval.approvalId).Nodup) {holder : Holder}
    (now : String) (faults : String → Fault) :
    EachWrite GateStore.write (WriteLaw holder) s
      (attempt (s.cancelPendingWrites now faults)).1 := by
  obtain ⟨n, hn⟩ := attempt_take (s.cancelPendingWrites now faults)
  rw [hn]
  refine EachWrite.take ?_ n
  have hwrites : ∀ w ∈ (s.cancelPendingWrites now faults).map Prod.fst, ∃ approval ∈ s.approvals,
      approval.status = .pending ∧
        w = .decide approval.approvalId .cancelled "cancelled" now none := by
    intro w hw
    obtain ⟨pair, hpair, rfl⟩ := List.mem_map.mp hw
    obtain ⟨approval, happroval, rfl⟩ := List.mem_map.mp hpair
    obtain ⟨hmem, hopen⟩ := List.mem_filter.mp happroval
    have hopen := of_decide_eq_true hopen
    exact ⟨approval, hmem, hopen.2, rfl⟩
  refine eachWrite_of_invariant (P := fun t : GateStore => ∀ approval ∈ s.approvals,
    approval.status = .pending → t.approvalStatus approval.approvalId = some .pending ∨
      t.approvalStatus approval.approvalId = some .cancelled) (fun w hw t ht => ?_)
    (fun w hw t ht => ?_) ?_
  · intro approval hmem hopen
    obtain ⟨cancelled, -, -, rfl⟩ := hwrites w hw
    have hstored : ∃ status, t.approvalStatus approval.approvalId = some status ∧
        (status = .pending ∨ status = .cancelled) := by
      rcases ht approval hmem hopen with h | h
      · exact ⟨_, h, Or.inl rfl⟩
      · exact ⟨_, h, Or.inr rfl⟩
    obtain ⟨status, hstatus, hkind⟩ := hstored
    rcases approvalStatus_write hstatus
      (.decide cancelled.approvalId .cancelled "cancelled" now none) with h | h | h
    · rcases hkind with rfl | rfl
      · exact Or.inl h
      · exact Or.inr h
    · obtain ⟨status', _, _, _, heq, h⟩ := h
      rw [← (GateWrite.decide.inj heq).2.1] at h
      exact Or.inr h
    · cases h.1
  · obtain ⟨approval, hmem, hopen, rfl⟩ := hwrites w hw
    rcases ht approval hmem hopen with h | h
    · exact Or.inl h
    · exact Or.inr (Or.inl h)
  · intro approval hmem hopen
    rw [approvalStatus_of_mem hkeys hmem, hopen]
    exact Or.inl rfl

theorem Holder.writes_resolution {taskId decision : String} {prior : Option PyDict} :
    ∀ w ∈ (resolution taskId approvalId (decidedStatus decision) decision prior transitionId now
      faults).writes, Holder.decide.Writes w := by
  intro w hw
  rcases GateOp.mem_resolution hw with ⟨intent, rfl⟩ | rfl | rfl | rfl | rfl | rfl
  · trivial
  · trivial
  · trivial
  · show decidedStatus decision = .approved ∨ decidedStatus decision = .rejected
    rw [decidedStatus]
    split
    · exact Or.inl rfl
    · exact Or.inr rfl
  · trivial
  · trivial

end Sections

/-! ## The invariant -/

/-- The request of the runner thread is open outside the gate. -/
def GatePhase.Live : GatePhase → String → Prop
  | .waiting id, approvalId | .confirming id, approvalId | .expiring id, approvalId =>
    id = approvalId
  | _, _ => False

theorem GatePhase.Live.ne_inside {phase : GatePhase} {id : String} (h : phase.Live id) :
    phase ≠ .inside := by
  rintro rfl
  exact h

/-- What an approval can be while its request is open and the run is not cancelled. -/
def ApprovalStatus.Live (status : ApprovalStatus) : Prop :=
  status = .pending ∨ status = .approved ∨ status = .rejected

namespace GateState

/-- What holds in every state of a run. -/
structure Kept (s : GateState) : Prop where
  keys : (s.store.approvals.map Approval.approvalId).Nodup
  each : ∀ b, s.busy = some b → EachWrite GateStore.write (WriteLaw b.holder) s.store b.rest
  writes : ∀ b, s.busy = some b → ∀ w ∈ b.rest, b.holder.Writes w
  cancelled : 0 < s.cancelling → s.tokenCancelled = true
  outside : ∀ b, s.busy = some b → s.phase ≠ .inside →
    b.holder = .decide ∨ b.holder = .cancelTask ∨
      b.holder = .cancelPending ∧ s.tokenCancelled = true
  registered : ∀ b id, s.busy = some b → b.holder = .register id → b.raised = false →
    (s.store.writeAll b.rest).approvalStatus id = some .pending
  live : ∀ id, s.phase.Live id → s.tokenCancelled = false →
    ∃ status, s.store.approvalStatus id = some status ∧ status.Live

variable {env : GateEnv} {s t : GateState}

/-- A step that writes nothing and takes no gate. -/
theorem Kept.control (h : s.Kept) (hstore : t.store = s.store)
    (hbusy : t.busy = none ∨
      t.busy = s.busy ∧ s.phase ≠ .inside ∧ t.tokenCancelled = s.tokenCancelled)
    (hcancelled : 0 < t.cancelling → t.tokenCancelled = true)
    (hlive : ∀ id, t.phase.Live id → t.tokenCancelled = false →
      ∃ status, t.store.approvalStatus id = some status ∧ status.Live) : t.Kept where
  keys := by rw [hstore]; exact h.keys
  each b hb := by
    rcases hbusy with hnone | ⟨hsame, -, -⟩
    · rw [hnone] at hb; cases hb
    · rw [hstore]; exact h.each b (hsame ▸ hb)
  writes b hb := by
    rcases hbusy with hnone | ⟨hsame, -, -⟩
    · rw [hnone] at hb; cases hb
    · exact h.writes b (hsame ▸ hb)
  cancelled := hcancelled
  outside b hb _ := by
    rcases hbusy with hnone | ⟨hsame, hphase, htoken⟩
    · rw [hnone] at hb; cases hb
    · rw [htoken]; exact h.outside b (hsame ▸ hb) hphase
  registered b id hb hholder hraised := by
    rcases hbusy with hnone | ⟨hsame, -, -⟩
    · rw [hnone] at hb; cases hb
    · rw [hstore]; exact h.registered b id (hsame ▸ hb) hholder hraised
  live := hlive

/-- A step that changes neither the phase nor the cancellation. -/
theorem Kept.frame (h : s.Kept) (hstore : t.store = s.store) (hbusy : t.busy = s.busy)
    (hphase : t.phase = s.phase) (htoken : t.tokenCancelled = s.tokenCancelled)
    (hcancelling : t.cancelling ≤ s.cancelling) : t.Kept where
  keys := by rw [hstore]; exact h.keys
  each b hb := by rw [hstore]; exact h.each b (hbusy ▸ hb)
  writes b hb := h.writes b (hbusy ▸ hb)
  cancelled hpos := by rw [htoken]; exact h.cancelled (by omega)
  outside b hb hinside := by rw [htoken]; exact h.outside b (hbusy ▸ hb) (hphase ▸ hinside)
  registered b id hb := by rw [hstore]; exact h.registered b id (hbusy ▸ hb)
  live id hlive hfalse := by
    rw [hstore]
    exact h.live id (hphase ▸ hlive) (htoken ▸ hfalse)

/-- A thread takes the free gate. -/
theorem Kept.enter (h : s.Kept) {holder : Holder} {region : Section}
    (heach : EachWrite GateStore.write (WriteLaw holder) s.store region.writes)
    (hwrites : ∀ w ∈ region.writes, holder.Writes w)
    (houtside : s.phase ≠ .inside → holder = .decide ∨ holder = .cancelTask ∨
      holder = .cancelPending ∧ s.tokenCancelled = true)
    (hregistered : ∀ id, holder = .register id → region.raised = false →
      (s.store.writeAll region.writes).approvalStatus id = some .pending) :
    (s.enter holder region).Kept where
  keys := h.keys
  each b hb := by
    rw [← Option.some.inj hb]
    exact heach
  writes b hb := by
    rw [← Option.some.inj hb]
    exact hwrites
  cancelled := h.cancelled
  outside b hb hinside := by
    rw [← Option.some.inj hb]
    exact houtside hinside
  registered b id hb hholder hraised := by
    rw [← Option.some.inj hb] at hholder hraised ⊢
    exact hregistered id hholder hraised
  live := h.live

/-- The runner thread takes the free gate. -/
theorem Kept.enterRunner (h : s.Kept) {holder : Holder} {region : Section}
    (heach : EachWrite GateStore.write (WriteLaw holder) s.store region.writes)
    (hwrites : ∀ w ∈ region.writes, holder.Writes w)
    (hregistered : ∀ id, holder = .register id → region.raised = false →
      (s.store.writeAll region.writes).approvalStatus id = some .pending) :
    (s.enterRunner holder region).Kept where
  keys := h.keys
  each b hb := by
    rw [← Option.some.inj hb]
    exact heach
  writes b hb := by
    rw [← Option.some.inj hb]
    exact hwrites
  cancelled := h.cancelled
  outside b hb hinside := absurd rfl hinside
  registered b id hb hholder hraised := by
    rw [← Option.some.inj hb] at hholder hraised ⊢
    exact hregistered id hholder hraised
  live id hlive := hlive.elim

/-- One write of the section in progress. -/
theorem Kept.write (h : s.Kept) {holder : Holder} {w : GateWrite} {rest : List GateWrite}
    {raised degraded : Bool} (hbusy : s.busy = some ⟨holder, w :: rest, raised, degraded⟩) :
    ({ s with store := s.store.write w, busy := some ⟨holder, rest, raised, degraded⟩ } :
      GateState).Kept where
  keys := by
    have hlaw := (h.each _ hbusy).1
    refine keys_write h.keys fun approval hcreate => ?_
    subst hcreate
    exact hlaw
  each b hb := by
    rw [← Option.some.inj hb]
    exact (h.each _ hbusy).2
  writes b hb := by
    rw [← Option.some.inj hb]
    exact fun v hv => h.writes _ hbusy v (List.mem_cons_of_mem _ hv)
  cancelled := h.cancelled
  outside b hb hinside := by
    rw [← Option.some.inj hb]
    exact h.outside ⟨holder, w :: rest, raised, degraded⟩ hbusy hinside
  registered b id hb hholder hraised := by
    rw [← Option.some.inj hb] at hholder hraised ⊢
    exact h.registered ⟨holder, w :: rest, raised, degraded⟩ id hbusy hholder hraised
  live id hlive hfalse := by
    obtain ⟨status, hstatus, hopen⟩ := h.live id hlive hfalse
    have hwrites := h.writes _ hbusy w List.mem_cons_self
    rcases approvalStatus_write hstatus w with hsame | ⟨status', _, _, _, rfl, hnew⟩ | ⟨-, hnew⟩
    · exact ⟨status, hsame, hopen⟩
    · -- only `apply_decision` decides while a request is open
      refine ⟨status', hnew, ?_⟩
      rcases h.outside _ hbusy hlive.ne_inside with hdecide | hcancel | ⟨-, htoken⟩
      · have hholder : holder = .decide := hdecide
        rw [hholder] at hwrites
        exact Or.inr hwrites
      · have hholder : holder = .cancelTask := hcancel
        rw [hholder] at hwrites
        obtain ⟨_, _, hset⟩ := hwrites
        cases hset
      · rw [hfalse] at htoken
        cases htoken
    · exact ⟨.pending, hnew, Or.inl rfl⟩

/-- A registration that does not raise leaves its approval pending. -/
theorem registered_pending {store : GateStore} {approval : Approval} {transitionId now : String}
    {faults : GateFaults} (habsent : store.approvalStatus approval.approvalId = none)
    (hpending : approval.status = .pending)
    (hraised : (registration approval transitionId now faults).raised = false) :
    (store.writeAll (registration approval transitionId now faults).writes).approvalStatus
      approval.approvalId = some .pending := by
  have htried : (attempt (registrationMain approval transitionId now faults)).2 = true := by
    rw [← Bool.not_eq_false, ← raised_iff, ← registration, hraised]
    exact nofun
  obtain ⟨ho, -, ha, -⟩ := GateOp.attempt_registration_iff.mp htried
  have hstored : GateOp.Stored faults := ⟨ho, by rw [ha]; rfl⟩
  have hstatus := GateOp.approvalStatus_registration habsent hpending transitionId now faults
  rw [if_pos hstored] at hstatus
  unfold registration at hraised ⊢
  rw [compensated_quiet hraised]
  exact hstatus

theorem getApproval_status {store : GateStore} {approvalId : String} {approval : Approval}
    (h : store.getApproval approvalId = some approval) :
    store.approvalStatus approvalId = some approval.status := by
  unfold GateStore.getApproval at h
  unfold GateStore.approvalStatus
  rw [h]
  rfl

theorem Kept.finish (h : s.Kept) (hphase : s.phase ≠ .inside) (approvalId : String)
    (outcome : ApprovalOutcome) : (s.finish approvalId outcome).Kept :=
  h.control rfl (Or.inr ⟨rfl, hphase, rfl⟩) h.cancelled fun _ hlive => hlive.elim

theorem Kept.leave (h : s.Kept) {region : Busy} (hbusy : s.busy = some region)
    (hrest : region.rest = []) : (s.leave region).Kept := by
  have hquiet : ∀ {t : GateState}, t.store = s.store → t.busy = none → t.phase ≠ .inside →
      t.cancelling = s.cancelling → t.tokenCancelled = s.tokenCancelled →
      (∀ id, ¬ t.phase.Live id) → t.Kept := by
    intro t hstore hnone _ hcancelling htoken hlive
    refine h.control hstore (Or.inl hnone) ?_ fun id hid => absurd hid (hlive id)
    rw [hcancelling, htoken]
    exact h.cancelled
  unfold GateState.leave
  cases hholder : region.holder with
  | register approvalId =>
    simp only
    cases hraised : region.raised with
    | true => exact hquiet rfl rfl nofun rfl rfl fun _ hid => hid
    | false =>
      have hpending := h.registered region approvalId hbusy hholder hraised
      rw [hrest] at hpending
      refine h.control rfl (Or.inl rfl) h.cancelled fun id hid _ => ?_
      have hsame : approvalId = id := hid
      subst hsame
      exact ⟨.pending, hpending, Or.inl rfl⟩
  | mismatch approvalId =>
    simp only
    split
    · exact hquiet rfl rfl nofun rfl rfl fun _ hid => hid
    · exact hquiet rfl rfl nofun rfl rfl fun _ hid => hid
  | expire approvalId =>
    simp only
    split
    · exact hquiet rfl rfl nofun rfl rfl fun _ hid => hid
    · exact hquiet rfl rfl nofun rfl rfl fun _ hid => hid
  | decide => exact h.control rfl (Or.inl rfl) h.cancelled h.live
  | cancelTask =>
    exact h.control rfl (Or.inl rfl) (fun _ => rfl) fun id hid hfalse => nomatch hfalse
  | cancelPending => exact h.control rfl (Or.inl rfl) h.cancelled h.live
  | clear =>
    simp only
    cases region.raised with
    | true => exact hquiet rfl rfl nofun rfl rfl fun _ hid => hid
    | false => exact hquiet rfl rfl nofun rfl rfl fun _ hid => hid
  | persist =>
    simp only
    split
    · exact hquiet rfl rfl nofun rfl rfl fun _ hid => hid
    · exact hquiet rfl rfl nofun rfl rfl fun _ hid => hid

theorem Kept.poll (h : s.Kept) {approvalId : String} {expired : Bool}
    (hphase : s.phase = .waiting approvalId) (hstep : s.pollOnce approvalId expired = some t) :
    t.Kept := by
  have hout : s.phase ≠ .inside := by
    rw [hphase]
    exact nofun
  have hlive : s.phase.Live approvalId := by
    rw [hphase]
    exact rfl
  -- the thread stays with the same approval
  have hstay : ∀ {phase : GatePhase}, (∀ id, phase.Live id → id = approvalId) →
      ({ s with phase := phase } : GateState).Kept := by
    intro phase hsame
    refine h.control rfl (Or.inr ⟨rfl, hout, rfl⟩) h.cancelled fun id hid hfalse => ?_
    rw [hsame id hid]
    exact h.live approvalId hlive hfalse
  unfold pollOnce at hstep
  cases hstatus : s.store.approvalStatus approvalId with
  | none => rw [hstatus] at hstep; cases hstep
  | some status =>
    rw [hstatus] at hstep
    cases status with
    | approved => rw [← Option.some.inj hstep]; exact hstay fun _ hid => (show _ = _ from hid).symm
    | expired => rw [← Option.some.inj hstep]; exact hstay fun _ hid => (show _ = _ from hid).symm
    | rejected => rw [← Option.some.inj hstep]; exact h.finish hout ..
    | cancelled => rw [← Option.some.inj hstep]; exact h.finish hout ..
    | pending =>
      simp only at hstep
      split at hstep
      · rw [← Option.some.inj hstep]; exact h.finish hout ..
      split at hstep
      · rw [← Option.some.inj hstep]; exact hstay fun _ hid => (show _ = _ from hid).symm
      · rw [← Option.some.inj hstep]; exact h

theorem Kept.confirm (h : s.Kept) {approvalId transitionId now : String} {faults : GateFaults}
    (hphase : s.phase = .confirming approvalId)
    (hstep : s.confirm env approvalId transitionId now faults = some t) : t.Kept := by
  have hout : s.phase ≠ .inside := by
    rw [hphase]
    exact nofun
  unfold GateState.confirm at hstep
  split at hstep
  · rw [← Option.some.inj hstep]; exact h.finish hout ..
  next htoken =>
  split at hstep
  · cases hstep
  next current hcurrent =>
  split at hstep
  · rw [← Option.some.inj hstep]
    have hlive : s.phase.Live approvalId := by
      rw [hphase]
      exact rfl
    obtain ⟨status, hstatus, hopen⟩ := h.live approvalId hlive (Bool.eq_false_iff.mpr htoken)
    refine h.enterRunner (resolution_each hstatus ?_) (fun _ _ => trivial) fun _ hholder => nomatch hholder
    rcases hopen with hpending | happroved | hrejected
    · exact Or.inl hpending
    · exact Or.inr ⟨rfl, rfl, Or.inl happroved⟩
    · exact Or.inr ⟨rfl, rfl, Or.inr hrejected⟩
  · rw [← Option.some.inj hstep]; exact h.finish hout ..

theorem Kept.expire (h : s.Kept) {approvalId transitionId now : String} {faults : GateFaults}
    (hphase : s.phase = .expiring approvalId)
    (hstep : s.expire approvalId transitionId now faults = some t) : t.Kept := by
  have hout : s.phase ≠ .inside := by
    rw [hphase]
    exact nofun
  unfold GateState.expire at hstep
  split at hstep
  · rw [← Option.some.inj hstep]; exact h.finish hout ..
  split at hstep
  · cases hstep
  next current hcurrent =>
  split at hstep
  · rw [← Option.some.inj hstep]; exact h.finish hout ..
  next houtcome =>
  rw [← Option.some.inj hstep]
  have hpending : current.status = .pending := by
    cases hstatus : current.status <;> rw [hstatus] at houtcome <;> first | rfl | cases houtcome
  have hstatus := getApproval_status hcurrent
  exact h.enterRunner (resolution_each hstatus (Or.inl hpending)) (fun _ _ => trivial)
    fun _ hholder => nomatch hholder

theorem Kept.applyDecision (h : s.Kept) (approvalId decision transitionId now : String)
    (faults : GateFaults) : (s.applyDecision approvalId decision transitionId now faults).Kept := by
  unfold GateState.applyDecision
  split
  · exact h
  next hpending =>
  split
  · exact h
  · exact h.enter (resolution_each (not_not.mp hpending) (Or.inl rfl)) Holder.writes_resolution
      (fun _ => Or.inl rfl) fun _ hholder => nomatch hholder

theorem Kept.cancelPending (h : s.Kept) (now : String) (faults : String → Fault)
    (hcancel : s.phase ≠ .inside → s.tokenCancelled = true) :
    (s.enter .cancelPending (plain (s.store.cancelPendingWrites now faults))).Kept :=
  h.enter (cancelPending_each h.keys now faults) (fun _ _ => trivial)
    (fun hinside => Or.inr (Or.inr ⟨rfl, hcancel hinside⟩)) fun _ hholder => nomatch hholder

/-- **Every step keeps the invariant**, whatever fails in it. -/
theorem Kept.step {action : GateAction} (h : s.Kept) (hstep : s.next env action = some t) :
    t.Kept := by
  cases action with
  | request toolCallId toolName args approvalId createdAt expiresAt transitionId now faults =>
    simp only [next] at hstep
    split at hstep
    next hfree =>
      split at hstep
      · rw [← Option.some.inj hstep]
        exact h.frame rfl rfl rfl rfl (le_refl _)
      · rw [← Option.some.inj hstep]
        have hframe : ({ s with gateKnown := true, args := args } : GateState).Kept :=
          h.frame rfl rfl rfl rfl (le_refl _)
        refine hframe.enterRunner (registration_each hfree.2.2 rfl) (fun _ _ => trivial) ?_
        intro id hholder hraised
        cases hholder
        exact registered_pending hfree.2.2 rfl hraised
    · cases hstep
  | write =>
    simp only [next] at hstep
    split at hstep
    · next hbusy =>
      rw [← Option.some.inj hstep]
      exact h.write hbusy
    · cases hstep
  | leave =>
    simp only [next] at hstep
    split at hstep
    · next hbusy =>
      rw [← Option.some.inj hstep]
      exact h.leave hbusy rfl
    · cases hstep
  | poll expired =>
    simp only [next] at hstep
    split at hstep
    · next hphase => exact h.poll hphase hstep
    · cases hstep
  | confirm transitionId now faults =>
    simp only [next] at hstep
    split at hstep
    · next hphase _ => exact h.confirm hphase hstep
    · cases hstep
  | expire transitionId now faults =>
    simp only [next] at hstep
    split at hstep
    · next hphase _ => exact h.expire hphase hstep
    · cases hstep
  | look approvalId decision expired =>
    simp only [next] at hstep
    split at hstep
    · cases hstep
    · split at hstep
      · rw [← Option.some.inj hstep]
        exact h.frame rfl rfl rfl rfl (le_refl _)
      · cases hstep
  | decide index transitionId now faults =>
    simp only [next] at hstep
    split at hstep
    · split at hstep
      · cases hstep
      · rw [← Option.some.inj hstep]
        have hframe : ({ s with deciders := s.deciders.eraseIdx index } : GateState).Kept :=
          h.frame rfl rfl rfl rfl (le_refl _)
        exact hframe.applyDecision ..
    · cases hstep
  | cancel now fault =>
    simp only [next] at hstep
    split at hstep
    · cases hstep
    split at hstep
    · rw [← Option.some.inj hstep]
      exact h.enter trivial nofun (fun _ => Or.inr (Or.inl rfl)) fun _ hholder => nomatch hholder
    · rw [← Option.some.inj hstep]
      cases fault with
      | before =>
        exact h.enter trivial nofun (fun _ => Or.inr (Or.inl rfl)) fun _ hholder => nomatch hholder
      | none =>
        exact h.enter ⟨trivial, trivial⟩ (fun w hw => ⟨_, _, List.mem_singleton.mp hw⟩)
          (fun _ => Or.inr (Or.inl rfl)) fun _ hholder => nomatch hholder
      | after =>
        exact h.enter ⟨trivial, trivial⟩ (fun w hw => ⟨_, _, List.mem_singleton.mp hw⟩)
          (fun _ => Or.inr (Or.inl rfl)) fun _ hholder => nomatch hholder
  | cancelPending now faults =>
    simp only [next] at hstep
    split at hstep
    · cases hstep
    next hready =>
    rw [← Option.some.inj hstep]
    push Not at hready
    have htoken := h.cancelled (Nat.pos_of_ne_zero hready.1)
    have hframe : ({ s with cancelling := s.cancelling - 1 } : GateState).Kept :=
      h.frame rfl rfl rfl rfl (Nat.sub_le _ _)
    exact hframe.cancelPending now faults fun _ => htoken
  | mutate args =>
    rw [← Option.some.inj hstep]
    exact h.frame rfl rfl rfl rfl (le_refl _)
  | converge =>
    simp only [next] at hstep
    split at hstep
    next hidle =>
      rw [← Option.some.inj hstep]
      refine h.control rfl (Or.inr ⟨rfl, by rw [hidle]; exact nofun, rfl⟩) h.cancelled ?_
      intro id hid
      simp only at hid
      split at hid <;> exact hid.elim
    · cases hstep
  | clear now faults =>
    simp only [next] at hstep
    split at hstep
    · rw [← Option.some.inj hstep]
      exact h.enterRunner (cancelPending_each h.keys now faults) (fun _ _ => trivial)
        fun _ hholder => nomatch hholder
    · cases hstep
  | persist status stopReason finalAnswer now fault =>
    simp only [next] at hstep
    split at hstep
    · rw [← Option.some.inj hstep]
      refine h.enterRunner ?_ (fun _ _ => trivial) fun _ hholder => nomatch hholder
      cases fault with
      | before => trivial
      | none => exact ⟨trivial, trivial⟩
      | after => exact ⟨trivial, trivial⟩
    · cases hstep

/-! ## One outcome -/

/-- The write this move makes, if it makes one. -/
def writeOf (m : Move GateState GateAction) : Option (Holder × GateWrite) :=
  match m.act, m.pre.busy with
  | .write, some ⟨holder, w :: _, _, _⟩ => some (holder, w)
  | _, _ => none

/-- The move undoes a failed write of the approval. -/
def Undoes (m : Move GateState GateAction) (approvalId : String) : Prop :=
  ∃ holder, writeOf m = some (holder, .restoreApproval approvalId)

/-- The move rejects the approval because its digest no longer matches. -/
def Mismatches (m : Move GateState GateAction) (approvalId : String) : Prop :=
  ∃ w, writeOf m = some (.mismatch approvalId, w)

theorem store_leave (s : GateState) (region : Busy) : (s.leave region).store = s.store := by
  unfold GateState.leave
  cases region.holder <;> simp only <;> first | rfl | (split <;> rfl)

theorem store_poll {approvalId : String} {expired : Bool}
    (hstep : s.pollOnce approvalId expired = some t) : t.store = s.store := by
  unfold pollOnce at hstep
  split at hstep
  · cases hstep
  · rw [← Option.some.inj hstep]
  · rw [← Option.some.inj hstep]
  · rw [← Option.some.inj hstep]; rfl
  · rw [← Option.some.inj hstep]; rfl
  · split at hstep
    · rw [← Option.some.inj hstep]; rfl
    split at hstep <;> rw [← Option.some.inj hstep]

/-- A step changes the stores by the one write it makes. -/
theorem store_step {action : GateAction} (hstep : s.next env action = some t) :
    t.store = s.store ∨ ∃ holder w, writeOf ⟨s, action, t⟩ = some (holder, w) ∧
      t.store = s.store.write w ∧
      ∃ b, s.busy = some b ∧ b.holder = holder ∧ b.rest.head? = some w := by
  cases action with
  | write =>
    simp only [next] at hstep
    split at hstep
    · next holder w rest raised degraded hbusy =>
      rw [← Option.some.inj hstep]
      refine Or.inr ⟨holder, w, ?_, rfl, ⟨holder, w :: rest, raised, degraded⟩, hbusy, rfl, rfl⟩
      simp only [writeOf, hbusy]
    · cases hstep
  | request toolCallId toolName args approvalId createdAt expiresAt transitionId now faults =>
    simp only [next] at hstep
    split at hstep
    · split at hstep <;> (rw [← Option.some.inj hstep]; exact Or.inl rfl)
    · cases hstep
  | leave =>
    simp only [next] at hstep
    split at hstep
    · rw [← Option.some.inj hstep]; exact Or.inl (store_leave ..)
    · cases hstep
  | poll expired =>
    simp only [next] at hstep
    split at hstep
    · exact Or.inl (store_poll hstep)
    · cases hstep
  | confirm transitionId now faults =>
    simp only [next] at hstep
    split at hstep
    · unfold GateState.confirm at hstep
      split at hstep
      · rw [← Option.some.inj hstep]; exact Or.inl rfl
      split at hstep
      · cases hstep
      · split at hstep <;> (rw [← Option.some.inj hstep]; exact Or.inl rfl)
    · cases hstep
  | expire transitionId now faults =>
    simp only [next] at hstep
    split at hstep
    · unfold GateState.expire at hstep
      split at hstep
      · rw [← Option.some.inj hstep]; exact Or.inl rfl
      split at hstep
      · cases hstep
      · split at hstep <;> (rw [← Option.some.inj hstep]; exact Or.inl rfl)
    · cases hstep
  | look approvalId decision expired =>
    simp only [next] at hstep
    split at hstep
    · cases hstep
    · split at hstep
      · rw [← Option.some.inj hstep]; exact Or.inl rfl
      · cases hstep
  | decide index transitionId now faults =>
    simp only [next] at hstep
    split at hstep
    · split at hstep
      · cases hstep
      · rw [← Option.some.inj hstep]
        unfold GateState.applyDecision
        split
        · exact Or.inl rfl
        · split <;> exact Or.inl rfl
    · cases hstep
  | cancel now fault =>
    simp only [next] at hstep
    split at hstep
    · cases hstep
    · split at hstep <;> (rw [← Option.some.inj hstep]; exact Or.inl rfl)
  | cancelPending now faults =>
    simp only [next] at hstep
    split at hstep
    · cases hstep
    · rw [← Option.some.inj hstep]; exact Or.inl rfl
  | mutate args => rw [← Option.some.inj hstep]; exact Or.inl rfl
  | converge =>
    simp only [next] at hstep
    split at hstep
    · rw [← Option.some.inj hstep]; exact Or.inl rfl
    · cases hstep
  | clear now faults =>
    simp only [next] at hstep
    split at hstep
    · rw [← Option.some.inj hstep]; exact Or.inl rfl
    · cases hstep
  | persist status stopReason finalAnswer now fault =>
    simp only [next] at hstep
    split at hstep
    · rw [← Option.some.inj hstep]; exact Or.inl rfl
    · cases hstep

/-- **A decided approval** stays as it is through a step that undoes nothing of it, or was approved
and is rejected for its digest. -/
theorem outcome_settled {action : GateAction} (h : s.Kept) (hstep : s.next env action = some t)
    {approvalId : String} {status : ApprovalStatus}
    (hstatus : s.store.approvalStatus approvalId = some status) (hdecided : status ≠ .pending)
    (hundone : ¬ Undoes ⟨s, action, t⟩ approvalId) :
    t.store.approvalStatus approvalId = some status ∨
      status = .approved ∧ t.store.approvalStatus approvalId = some .rejected ∧
        Mismatches ⟨s, action, t⟩ approvalId := by
  rcases store_step hstep with hsame | ⟨holder, w, hwrite, hstore, b, hbusy, hholder, hhead⟩
  · exact Or.inl (by rw [hsame]; exact hstatus)
  rw [hstore]
  rcases approvalStatus_write hstatus w with hsame | ⟨status', _, _, _, rfl, hnew⟩ | ⟨rfl, -⟩
  · exact Or.inl hsame
  · have heach := h.each b hbusy
    cases hrest : b.rest with
    | nil => rw [hrest] at hhead; cases hhead
    | cons v rest =>
      rw [hrest] at hhead heach
      have hv : v = _ := Option.some.inj hhead
      subst hv
      rcases heach.1 with hpending | hagain | ⟨hmismatch, hrejected, happroved⟩
      · rw [hstatus] at hpending
        exact absurd (Option.some.inj hpending) hdecided
      · rw [hstatus] at hagain
        exact Or.inl (hnew.trans hagain.symm)
      · rw [hstatus] at happroved
        rw [hholder.symm.trans hmismatch] at hwrite
        exact Or.inr ⟨Option.some.inj happroved, hnew.trans (congrArg some hrejected), _, hwrite⟩
  · exact absurd ⟨holder, hwrite⟩ hundone

end GateState

end ThreadForge

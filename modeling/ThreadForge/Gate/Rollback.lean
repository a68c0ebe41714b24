import ThreadForge.Gate.State

/-!
# A gate section that raised is rolled back, or known not to be

A section that raises `PersistenceUnavailableError` undoes its writes. Where it cannot, it degrades
the service and leaves the transition open in the journal, for the next start to repair. Both can
be missed when the journal's commit takes effect and raises: the transition is then closed, and a
compensation that fails afterwards leaves a pair no restart will look at.

## Main results

* `GateOp.allOrNothing_iff` — exactly which faults a section survives.
-/

namespace ThreadForge

open Faults

/-! ## What each write changes -/

namespace GateStore

variable {s : GateStore}

@[simp] theorem task_write_begin (s : GateStore) (intent : OpenTransition) :
    (s.write (.begin intent)).task = s.task := rfl

@[simp] theorem task_write_commit (s : GateStore) (transitionId : String) :
    (s.write (.commit transitionId)).task = s.task := rfl

@[simp] theorem task_write_create (s : GateStore) (approval : Approval) :
    (s.write (.create approval)).task = s.task := rfl

@[simp] theorem task_write_decide (s : GateStore) (id : String) (status : ApprovalStatus)
    (decision now : String) (transitionId : Option String) :
    (s.write (.decide id status decision now transitionId)).task = s.task := rfl

@[simp] theorem task_write_restoreApproval (s : GateStore) (id : String) :
    (s.write (.restoreApproval id)).task = s.task := rfl

@[simp] theorem status_write_setPending (s : GateStore) (pending : PyDict)
    (transitionId : Option String) (now : String) :
    (s.write (.setPending pending transitionId now)).task.status = .waitingForApproval := rfl

@[simp] theorem pending_write_setPending (s : GateStore) (pending : PyDict)
    (transitionId : Option String) (now : String) :
    (s.write (.setPending pending transitionId now)).task.pendingApproval = some pending := rfl

@[simp] theorem status_write_clearPending (s : GateStore) (status : TaskStatus)
    (transitionId : Option String) (now : String) :
    (s.write (.clearPending status transitionId now)).task.status = status := rfl

@[simp] theorem pending_write_clearPending (s : GateStore) (status : TaskStatus)
    (transitionId : Option String) (now : String) :
    (s.write (.clearPending status transitionId now)).task.pendingApproval = none := rfl

@[simp] theorem status_write_restoreTask (s : GateStore) (pending : Option PyDict) (now : String) :
    (s.write (.restoreTask pending now)).task.status = .waitingForApproval := rfl

@[simp] theorem pending_write_restoreTask (s : GateStore) (pending : Option PyDict)
    (now : String) : (s.write (.restoreTask pending now)).task.pendingApproval = pending := rfl

/-- An update of one approval is seen at its key only. -/
theorem find?_updateApproval (approvals : List Approval) (id key : String)
    {fn : Approval → Approval} (hfn : ∀ a, (fn a).approvalId = a.approvalId) :
    (approvals.map fun a => if a.approvalId = id then fn a else a).find?
        (fun a => a.approvalId = key) =
      (approvals.find? fun a => a.approvalId = key).map fun a =>
        if a.approvalId = id then fn a else a := by
  have hkey : ∀ a : Approval, (if a.approvalId = id then fn a else a).approvalId = a.approvalId := by
    intro a
    split
    · exact hfn a
    · rfl
  rw [List.find?_map]
  congr 2
  funext a
  simp only [Function.comp_apply, hkey]

theorem approvalStatus_updateApproval {id : String} {fn : Approval → Approval}
    {status : ApprovalStatus} (hid : ∀ a, (fn a).approvalId = a.approvalId)
    (hstatus : ∀ a, (fn a).status = status) :
    (s.updateApproval id fn).approvalStatus id = (s.approvalStatus id).map fun _ => status := by
  unfold approvalStatus updateApproval
  rw [find?_updateApproval s.approvals id id hid]
  cases hfind : s.approvals.find? (fun a => a.approvalId = id) with
  | none => rfl
  | some a =>
    have hkey : a.approvalId = id := of_decide_eq_true (List.find?_some (p := fun a : Approval =>
      decide (a.approvalId = id)) hfind)
    simp only [Option.map_some, if_pos hkey, hstatus]

@[simp] theorem approvalStatus_write_decide (s : GateStore) (id : String)
    (status : ApprovalStatus) (decision now : String) (transitionId : Option String) :
    (s.write (.decide id status decision now transitionId)).approvalStatus id =
      (s.approvalStatus id).map fun _ => status :=
  approvalStatus_updateApproval (fun _ => rfl) fun _ => rfl

@[simp] theorem approvalStatus_write_restoreApproval (s : GateStore) (id : String) :
    (s.write (.restoreApproval id)).approvalStatus id =
      (s.approvalStatus id).map fun _ => .pending :=
  approvalStatus_updateApproval (fun _ => rfl) fun _ => rfl

theorem approvalStatus_write_create {id : String} (habsent : s.approvalStatus id = none)
    (approval : Approval) (hid : approval.approvalId = id) :
    (s.write (.create approval)).approvalStatus id = some approval.status := by
  unfold approvalStatus at habsent ⊢
  rw [Option.map_eq_none_iff] at habsent
  show ((s.approvals ++ [approval]).find? fun a => a.approvalId = id).map _ = _
  rw [List.find?_append, habsent, Option.none_or, List.find?_singleton, hid, decide_eq_true rfl]
  rfl

@[simp] theorem approvalStatus_write_begin (s : GateStore) (intent : OpenTransition) (id : String) :
    (s.write (.begin intent)).approvalStatus id = s.approvalStatus id := rfl

@[simp] theorem approvalStatus_write_commit (s : GateStore) (transitionId id : String) :
    (s.write (.commit transitionId)).approvalStatus id = s.approvalStatus id := rfl

@[simp] theorem approvalStatus_write_setPending (s : GateStore) (pending : PyDict)
    (transitionId : Option String) (now id : String) :
    (s.write (.setPending pending transitionId now)).approvalStatus id = s.approvalStatus id := rfl

@[simp] theorem approvalStatus_write_clearPending (s : GateStore) (status : TaskStatus)
    (transitionId : Option String) (now id : String) :
    (s.write (.clearPending status transitionId now)).approvalStatus id = s.approvalStatus id := rfl

@[simp] theorem approvalStatus_write_restoreTask (s : GateStore) (pending : Option PyDict)
    (now id : String) :
    (s.write (.restoreTask pending now)).approvalStatus id = s.approvalStatus id := rfl

/-! ## The journal -/

theorem incomplete_snoc (journal : List JournalRecord) (record : JournalRecord) :
    incomplete (journal ++ [record]) = readRecord (incomplete journal) record := by
  rw [incomplete, List.foldl_append]
  rfl

theorem listsOpen_begin (journal : List JournalRecord) (intent : OpenTransition) :
    ListsOpen (journal ++ [.begin intent]) intent.transitionId := by
  unfold ListsOpen
  rw [incomplete_snoc, readRecord]
  split
  · next hany =>
    obtain ⟨other, hother, hsame⟩ := List.any_eq_true.mp hany
    exact ⟨intent, List.mem_map.mpr ⟨other, hother, if_pos (of_decide_eq_true hsame)⟩, rfl⟩
  · exact ⟨intent, List.mem_append_right _ (List.mem_singleton_self _), rfl⟩

theorem not_listsOpen_commit (journal : List JournalRecord) (transitionId : String) :
    ¬ ListsOpen (journal ++ [.commit transitionId]) transitionId := by
  rintro ⟨intent, hmem, hid⟩
  rw [incomplete_snoc] at hmem
  exact of_decide_eq_true (List.mem_filter.mp hmem).2 hid

/-- The journal record a write appends. -/
def record : GateWrite → Option JournalRecord
  | .begin intent => some (.begin intent)
  | .commit transitionId => some (.commit transitionId)
  | _ => none

@[simp] theorem record_begin (intent : OpenTransition) :
    record (.begin intent) = some (.begin intent) := rfl

@[simp] theorem record_commit (transitionId : String) :
    record (.commit transitionId) = some (.commit transitionId) := rfl

theorem journal_writeAll (s : GateStore) (ws : List GateWrite) :
    (s.writeAll ws).journal = s.journal ++ ws.filterMap record := by
  induction ws generalizing s with
  | nil => simp [writeAll]
  | cons w rest ih =>
    have hrest := ih (s.write w)
    show ((s.write w).writeAll rest).journal = _
    rw [hrest]
    cases w <;> simp [write, updateTask, updateApproval, record, List.filterMap_cons]

theorem writeAll_append (s : GateStore) (ws vs : List GateWrite) :
    s.writeAll (ws ++ vs) = (s.writeAll ws).writeAll vs := applyAll_append write s ws vs

@[simp] theorem writeAll_nil (s : GateStore) : s.writeAll [] = s := rfl

@[simp] theorem writeAll_cons (s : GateStore) (w : GateWrite) (ws : List GateWrite) :
    s.writeAll (w :: ws) = (s.write w).writeAll ws := rfl

end GateStore

/-! ## A compensated section -/

section Compensated

open GateStore

variable {transitionId : String} {faults : GateFaults} {main undo : List (GateWrite × Fault)}

/-- The section raised for a write of its main part. -/
theorem raised_iff : (compensated transitionId faults main undo).raised = true ↔
    (attempt main).2 = false := by
  unfold compensated
  simp only
  by_cases htried : (attempt main).2 = true
  · rw [if_pos htried, htried]
    exact iff_of_false nofun nofun
  · rw [if_neg htried]
    exact iff_of_true rfl (Bool.eq_false_iff.mpr htried)

/-- A compensation failed: the service is degraded and the journal is left as it is. -/
theorem compensated_degraded (hraised : (compensated transitionId faults main undo).raised = true)
    (hundone : (tryEach undo).2 = false) :
    (compensated transitionId faults main undo).writes = (attempt main).1 ++ (tryEach undo).1 ∧
      (compensated transitionId faults main undo).degraded = true := by
  have htried : (attempt main).2 = false := raised_iff.mp hraised
  simp only [compensated, compensate, htried, hundone, Bool.false_eq_true, false_and, if_false,
    Bool.not_false, and_self]

/-- Whatever the compensations did, a commit is all that comes after them. -/
theorem compensated_writes (hraised : (compensated transitionId faults main undo).raised = true) :
    ∃ closed : List GateWrite, (closed = [] ∨ closed = [.commit transitionId]) ∧
      (compensated transitionId faults main undo).writes =
        (attempt main).1 ++ ((tryEach undo).1 ++ closed) := by
  have htried : (attempt main).2 = false := raised_iff.mp hraised
  simp only [compensated, compensate, htried, Bool.false_eq_true, if_false]
  by_cases hclose : (tryEach undo).2 = true ∧ faults.opening = .none
  · rw [if_pos hclose]
    refine ⟨(attempt [(GateWrite.commit transitionId, faults.reclosing)]).1, ?_, rfl⟩
    cases faults.reclosing with
    | none => exact Or.inr rfl
    | before => exact Or.inl rfl
    | after => exact Or.inr rfl
  · rw [if_neg hclose]
    exact ⟨[], Or.inl rfl, by rw [List.append_nil]⟩

/-- A section that does not raise writes its main part. -/
theorem compensated_quiet (hraised : (compensated transitionId faults main undo).raised = false) :
    (compensated transitionId faults main undo).writes = (attempt main).1 := by
  have htried : (attempt main).2 = true := by
    rw [← Bool.not_eq_false, ← raised_iff, hraised]
    exact nofun
  simp only [compensated, htried, if_true]

/-- What the main part leaves in the journal. -/
theorem records_attempt {intent : OpenTransition} {w₂ w₃ : GateWrite} {f₂ f₃ : Fault}
    (h₂ : record w₂ = none) (h₃ : record w₃ = none) :
    (attempt [(.begin intent, faults.opening), (w₂, f₂), (w₃, f₃),
        (.commit transitionId, faults.closing)]).1.filterMap record =
      if faults.opening = .before then []
      else if faults.opening = .none ∧ f₂ = .none ∧ f₃ = .none ∧ faults.closing.takesEffect then
        [.begin intent, .commit transitionId]
      else [.begin intent] := by
  cases faults.opening with
  | before => rfl
  | after => rfl
  | none =>
    cases f₂ with
    | before => rfl
    | after => simp [h₂]
    | none =>
      cases f₃ with
      | before => simp [h₂]
      | after => simp [h₂, h₃]
      | none =>
        cases faults.closing with
        | before => simp [h₂, h₃, Fault.takesEffect]
        | after => simp [h₂, h₃, Fault.takesEffect]
        | none => simp [h₂, h₃, Fault.takesEffect]

/-- The journal lists a fresh transition that began and was not committed. -/
theorem listsOpen_iff {journal : List JournalRecord} (hfresh : ¬ ListsOpen journal transitionId)
    {a b : Prop} [Decidable a] [Decidable b] {kind taskId approvalId : String} :
    ListsOpen (journal ++ if a then [] else if b then
        [.begin ⟨transitionId, kind, taskId, approvalId⟩, .commit transitionId]
      else [.begin ⟨transitionId, kind, taskId, approvalId⟩]) transitionId ↔ ¬ a ∧ ¬ b := by
  by_cases ha : a
  · rw [if_pos ha, List.append_nil]
    exact iff_of_false hfresh fun h => h.1 ha
  · rw [if_neg ha]
    by_cases hb : b
    · rw [if_pos hb]
      refine iff_of_false ?_ fun h => h.2 hb
      have hsplit : journal ++ [JournalRecord.begin ⟨transitionId, kind, taskId, approvalId⟩,
          .commit transitionId] =
          (journal ++ [JournalRecord.begin ⟨transitionId, kind, taskId, approvalId⟩]) ++
            [.commit transitionId] := by simp
      rw [hsplit]
      exact not_listsOpen_commit _ transitionId
    · rw [if_neg hb]
      exact iff_of_true (listsOpen_begin journal ⟨transitionId, kind, taskId, approvalId⟩) ⟨ha, hb⟩

end Compensated

/-! ## The sections of the gate -/

/-- A section that can raise: the registration in `request`, the resolution in `apply_decision`, and
the two resolutions `request` makes, of an expiry and of a digest that no longer matches. -/
inductive GateOp
  | register (approval : Approval)
  | applyDecision (approvalId decision : String)
  | expire (approvalId : String)
  | mismatch (approval : Approval)

/-- The status `apply_decision` stores. -/
def decidedStatus (decision : String) : ApprovalStatus :=
  if decision = "approved" then .approved else .rejected

namespace GateOp

open GateStore

/-- The section of an operation on the stores it finds. -/
def run (s : GateStore) (transitionId now : String) (faults : GateFaults) : GateOp → Section
  | .register approval => registration approval transitionId now faults
  | .applyDecision approvalId decision =>
    resolution s.task.taskId approvalId (decidedStatus decision) decision s.task.pendingApproval
      transitionId now faults
  | .expire approvalId =>
    resolution s.task.taskId approvalId .expired "expired" s.task.pendingApproval transitionId now
      faults
  | .mismatch approval =>
    resolution s.task.taskId approval.approvalId .rejected "digest_mismatch" s.task.pendingApproval
      transitionId now faults

/-- The pair each operation starts from: a running task, a task waiting for the approval, or a task
that runs because the approval was given. -/
def Ready (s : GateStore) : GateOp → Prop
  | .register approval =>
    s.task.status = .running ∧ s.task.pendingApproval = none ∧
      s.approvalStatus approval.approvalId = none ∧ approval.status = .pending
  | .applyDecision approvalId _ | .expire approvalId =>
    s.task.status = .waitingForApproval ∧ s.approvalStatus approvalId = some .pending
  | .mismatch approval =>
    s.task.status = .running ∧ s.task.pendingApproval = none ∧
      s.approvalStatus approval.approvalId = some .approved

/-- The pair of a request that never was. -/
def Unasked (s : GateStore) (approvalId : String) : Prop :=
  s.task.status = .running ∧ s.task.pendingApproval = none ∧
    (s.approvalStatus approvalId = none ∨ s.approvalStatus approvalId = some .cancelled)

/-- The pair of a request still open, with the entry the task showed. -/
def StillOpen (s : GateStore) (approvalId : String) (original : Option PyDict) : Prop :=
  s.task.status = .waitingForApproval ∧ s.task.pendingApproval = original ∧
    s.approvalStatus approvalId = some .pending

/-- The rolled back pairs of each operation. The two resolutions `request` makes may go back to
either; the entry a mismatched approval was shown with is its own. -/
def RolledBack (s s' : GateStore) : GateOp → Prop
  | .register approval => Unasked s' approval.approvalId
  | .applyDecision approvalId _ => StillOpen s' approvalId s.task.pendingApproval
  | .expire approvalId =>
    Unasked s' approvalId ∨ StillOpen s' approvalId s.task.pendingApproval
  | .mismatch approval =>
    Unasked s' approval.approvalId ∨
      StillOpen s' approval.approvalId (some (pendingEntry approval))

/-- The commit of the journal raised after it took effect. -/
def ClosedLate (faults : GateFaults) : Prop :=
  faults.opening = .none ∧ faults.approval = .none ∧ faults.task = .none ∧ faults.closing = .after

/-- The faults an operation survives. Rolling a mismatch back never gives a consistent pair, so
the journal alone can tell: it must list the transition, and a compensation or the second commit
must have failed. -/
def Survives (faults : GateFaults) : GateOp → Prop
  | .register _ | .applyDecision _ _ | .expire _ =>
    ¬ (ClosedLate faults ∧ (faults.undoApproval = .before ∨ faults.undoTask = .before))
  | .mismatch _ =>
    faults.opening ≠ .before ∧ ¬ ClosedLate faults ∧
      (faults.undoApproval ≠ .none ∨ faults.undoTask ≠ .none ∨
        faults.opening = .none ∧ faults.reclosing = .before)

variable {s : GateStore} {approvalId transitionId now : String} {faults : GateFaults}

/-- Two compensations: each that does not fail before it takes effect is written. -/
theorem tryEach_pair (u₁ u₂ : GateWrite) (f₁ f₂ : Fault) :
    tryEach [(u₁, f₁), (u₂, f₂)] =
      ((if f₁.takesEffect then [u₁] else []) ++ (if f₂.takesEffect then [u₂] else []),
        decide (f₁ = .none) && decide (f₂ = .none)) := by
  cases f₁ <;> cases f₂ <;> rfl

/-- A compensation that does not fail before it takes effect. -/
theorem takesEffect_iff (f : Fault) : f.takesEffect = true ↔ f ≠ .before := by
  cases f <;> decide

/-- A stored approval stays stored through the main part of a resolution. -/
theorem isSome_main (hstored : (s.approvalStatus approvalId).isSome = true) (taskId : String)
    (status : ApprovalStatus) (decision : String) :
    ((s.writeAll (attempt (resolutionMain taskId approvalId status decision transitionId now
      faults)).1).approvalStatus approvalId).isSome = true := by
  refine applyAll_invariant (fun t : GateStore => (t.approvalStatus approvalId).isSome = true)
    (fun w hw t ht => ?_) hstored
  have hmem := mem_of_mem_attempt hw
  simp only [resolutionMain, List.map_cons, List.map_nil, List.mem_cons, List.not_mem_nil,
    or_false] at hmem
  rcases hmem with rfl | rfl | rfl | rfl
  · exact ht
  · exact ht
  · rw [approvalStatus_write_decide, Option.isSome_map]
    exact ht
  · exact ht

/-- The journal after a resolution whose compensation failed. -/
theorem listsOpen_resolution (hfresh : ¬ ListsOpen s.journal transitionId)
    (taskId approvalId now : String) (faults : GateFaults) (status : ApprovalStatus) (decision : String) (prior : Option PyDict) :
    ListsOpen (s.writeAll ((attempt (resolutionMain taskId approvalId status decision transitionId
        now faults)).1 ++ (tryEach (rollbackResolution approvalId prior now faults)).1)).journal
        transitionId ↔
      ¬ faults.opening = .before ∧ ¬ (faults.opening = .none ∧ faults.task = .none ∧
        faults.approval = .none ∧ faults.closing.takesEffect) := by
  have hundo : (tryEach (rollbackResolution approvalId prior now faults)).1.filterMap record = [] := by
    rw [rollbackResolution, tryEach_pair]
    cases faults.undoApproval <;> cases faults.undoTask <;> rfl
  rw [journal_writeAll, List.filterMap_append, hundo, List.append_nil, resolutionMain,
    records_attempt rfl rfl]
  exact listsOpen_iff hfresh

/-- Under a section that raised, the commit of a main part without another fault raised late. -/
theorem closedLate_iff {main undo : List (GateWrite × Fault)}
    (hraised : (compensated transitionId faults main undo).raised = true)
    (hmain : (attempt main).2 = true ↔ faults.opening = .none ∧ faults.task = .none ∧
      faults.approval = .none ∧ faults.closing = .none) :
    (faults.opening = .none ∧ faults.task = .none ∧ faults.approval = .none ∧
      faults.closing.takesEffect = true) ↔ ClosedLate faults := by
  have hfailed : ¬ (attempt main).2 = true := by
    rw [raised_iff.mp hraised]
    exact nofun
  constructor
  · rintro ⟨ho, ht, ha, hc⟩
    refine ⟨ho, ha, ht, ?_⟩
    cases hclosing : faults.closing with
    | none => exact absurd (hmain.mpr ⟨ho, ht, ha, hclosing⟩) hfailed
    | before => rw [hclosing] at hc; cases hc
    | after => rfl
  · rintro ⟨ho, ha, ht, hc⟩
    exact ⟨ho, ht, ha, by rw [hc]; rfl⟩

theorem attempt_resolution_iff {taskId : String} {status : ApprovalStatus} {decision : String} :
    (attempt (resolutionMain taskId approvalId status decision transitionId now faults)).2 = true ↔
      faults.opening = .none ∧ faults.task = .none ∧ faults.approval = .none ∧
        faults.closing = .none := by
  rw [attempt_ok_iff]
  simp [resolutionMain]

/-- The main part of a resolution, whole. -/
theorem attempt_resolution_late (hlate : ClosedLate faults) (taskId : String)
    (status : ApprovalStatus) (decision : String) :
    (attempt (resolutionMain taskId approvalId status decision transitionId now faults)).1 =
      [.begin ⟨transitionId, "approval_resolution", taskId, approvalId⟩,
        .clearPending .running (some transitionId) now,
        .decide approvalId status decision now (some transitionId), .commit transitionId] := by
  obtain ⟨ho, ha, ht, hc⟩ := hlate
  simp only [resolutionMain, ho, ha, ht, hc, attempt_none, attempt_after]

/-- A compensation failed before it took effect. -/
theorem tryEach_resolution (h : faults.undoApproval = .before ∨ faults.undoTask = .before)
    (prior : Option PyDict) :
    (tryEach (rollbackResolution approvalId prior now faults)).2 = false := by
  rw [rollbackResolution, tryEach_pair]
  rcases h with h | h
  · rw [h]
    rfl
  · rw [h]
    exact Bool.and_false _

/-- A resolution of a waiting task that raised is rolled back, or degraded and still listed, unless
the journal was closed late and a compensation failed before it took effect. -/
theorem resolution_iff {taskId : String} {status : ApprovalStatus} {decision : String}
    (hwaiting : s.task.status = .waitingForApproval)
    (hpending : s.approvalStatus approvalId = some .pending) (hstatus : status ≠ .pending)
    (hfresh : ¬ ListsOpen s.journal transitionId) {r : Section}
    (hr : resolution taskId approvalId status decision s.task.pendingApproval transitionId now
      faults = r) (hraised : r.raised = true) :
    (StillOpen (s.writeAll r.writes) approvalId s.task.pendingApproval ∨
        r.degraded = true ∧ ListsOpen (s.writeAll r.writes).journal transitionId) ↔
      ¬ (ClosedLate faults ∧ (faults.undoApproval = .before ∨ faults.undoTask = .before)) := by
  subst hr
  unfold resolution at hraised ⊢
  by_cases heffect : faults.undoApproval ≠ .before ∧ faults.undoTask ≠ .before
  · -- both records are put back, whatever the main part had written
    refine iff_of_true (Or.inl ?_) ?_
    · obtain ⟨closed, hclosed, hwrites⟩ := compensated_writes hraised
      have hsome : ((s.writeAll (attempt (resolutionMain taskId approvalId status decision
          transitionId now faults)).1).approvalStatus approvalId).isSome = true :=
        isSome_main (by rw [hpending]; rfl) taskId status decision
      obtain ⟨old, hold⟩ := Option.isSome_iff_exists.mp hsome
      rw [hwrites, writeAll_append, writeAll_append, rollbackResolution, tryEach_pair,
        if_pos ((takesEffect_iff _).mpr heffect.1), if_pos ((takesEffect_iff _).mpr heffect.2)]
      refine ⟨?_, ?_, ?_⟩
      · rcases hclosed with rfl | rfl <;> rfl
      · rcases hclosed with rfl | rfl <;> rfl
      · rcases hclosed with rfl | rfl <;> simp [hold]
    · rintro ⟨-, h | h⟩
      · exact heffect.1 h
      · exact heffect.2 h
  · have hbefore : faults.undoApproval = .before ∨ faults.undoTask = .before :=
      (not_and_or.mp heffect).imp not_not.mp not_not.mp
    obtain ⟨hwrites, hdegraded⟩ :=
      compensated_degraded hraised (tryEach_resolution hbefore s.task.pendingApproval)
    have hopen := listsOpen_resolution hfresh taskId approvalId now faults status decision
      s.task.pendingApproval
    rw [closedLate_iff hraised attempt_resolution_iff] at hopen
    rw [hwrites, hopen, hdegraded]
    by_cases hlate : ClosedLate faults
    · -- the pair is whole again in one record at most, and the journal does not list it
      refine iff_of_false ?_ (not_not.mpr ⟨hlate, hbefore⟩)
      rintro (⟨hstill, -, happroval⟩ | ⟨-, -, hnot⟩)
      · rw [attempt_resolution_late hlate, writeAll_append, rollbackResolution, tryEach_pair]
          at hstill happroval
        rcases hbefore with h | h
        · have hdecided : some status = some ApprovalStatus.pending := by
            rw [h] at happroval
            cases htask : faults.undoTask <;>
              simpa [htask, Fault.takesEffect, hpending] using happroval
          exact hstatus (Option.some.inj hdecided)
        · rw [h] at hstill
          cases happroved : faults.undoApproval <;> (rw [happroved] at hstill; cases hstill)
      · exact hnot hlate
    · refine iff_of_true ?_ fun h => hlate h.1
      by_cases hbegin : faults.opening = .before
      · -- nothing was written before the compensations, and they change nothing
        refine Or.inl ?_
        rw [rollbackResolution, resolutionMain, hbegin, attempt_before, List.nil_append,
          tryEach_pair]
        cases faults.undoApproval <;> cases faults.undoTask <;>
          simp [StillOpen, Fault.takesEffect, hwaiting, hpending]
      · exact Or.inr ⟨rfl, hbegin, hlate⟩

/-! ## The registration -/

/-- The main part of the registration stored the approval. -/
def Stored (faults : GateFaults) : Prop :=
  faults.opening = .none ∧ faults.approval.takesEffect = true

instance (faults : GateFaults) : Decidable (Stored faults) := inferInstanceAs (Decidable (_ ∧ _))

variable {approval : Approval}

/-- The approval after the main part of its registration. -/
theorem approvalStatus_registration (habsent : s.approvalStatus approval.approvalId = none)
    (hpending : approval.status = .pending) (transitionId now : String) (faults : GateFaults) :
    (s.writeAll (attempt (registrationMain approval transitionId now faults)).1).approvalStatus
        approval.approvalId = if Stored faults then some .pending else none := by
  have hcreate : ∀ t : GateStore, t.approvalStatus approval.approvalId = none →
      (t.write (.create { approval with transitionId := some transitionId })).approvalStatus
        approval.approvalId = some .pending := by
    intro t ht
    exact (approvalStatus_write_create ht { approval with transitionId := some transitionId }
      rfl).trans (congrArg some hpending)
  obtain ⟨opening, stored, shown, closing, undoApproval, undoTask, reclosing⟩ := faults
  unfold registrationMain
  cases opening with
  | before => simp [Stored, habsent]
  | after => simp [Stored, habsent]
  | none =>
    cases stored with
    | before => simp [Stored, habsent, Fault.takesEffect]
    | after => simp [Stored, Fault.takesEffect, hcreate, habsent]
    | none =>
      cases shown with
      | before => simp [Stored, Fault.takesEffect, hcreate, habsent]
      | after => simp [Stored, Fault.takesEffect, hcreate, habsent]
      | none => cases closing <;> simp [Stored, Fault.takesEffect, hcreate, habsent]

theorem attempt_registration_iff :
    (attempt (registrationMain approval transitionId now faults)).2 = true ↔
      faults.opening = .none ∧ faults.task = .none ∧ faults.approval = .none ∧
        faults.closing = .none := by
  rw [attempt_ok_iff]
  simp only [registrationMain, List.mem_cons, List.not_mem_nil, or_false, forall_eq_or_imp,
    forall_eq]
  exact ⟨fun ⟨ho, ha, ht, hc⟩ => ⟨ho, ht, ha, hc⟩, fun ⟨ho, ht, ha, hc⟩ => ⟨ho, ha, ht, hc⟩⟩

/-- The journal after a registration whose compensation failed. -/
theorem listsOpen_registration (hfresh : ¬ ListsOpen s.journal transitionId) (approval : Approval)
    (now : String) (faults : GateFaults) :
    ListsOpen (s.writeAll ((attempt (registrationMain approval transitionId now faults)).1 ++
        (tryEach (rollbackRequest approval.approvalId now faults)).1)).journal transitionId ↔
      ¬ faults.opening = .before ∧ ¬ (faults.opening = .none ∧ faults.task = .none ∧
        faults.approval = .none ∧ faults.closing.takesEffect) := by
  have hundo : (tryEach (rollbackRequest approval.approvalId now faults)).1.filterMap record =
      [] := by
    unfold rollbackRequest
    by_cases hstored : faults.opening = .none ∧ faults.approval.takesEffect = true
    · rw [if_pos hstored, List.singleton_append, tryEach_pair]
      cases faults.undoApproval <;> cases faults.undoTask <;> rfl
    · rw [if_neg hstored, List.nil_append]
      cases faults.undoTask <;> rfl
  rw [journal_writeAll, List.filterMap_append, hundo, List.append_nil, registrationMain,
    records_attempt rfl rfl, listsOpen_iff hfresh]
  refine and_congr_right fun _ => not_congr ?_
  exact ⟨fun ⟨ho, ha, ht, hc⟩ => ⟨ho, ht, ha, hc⟩, fun ⟨ho, ht, ha, hc⟩ => ⟨ho, ha, ht, hc⟩⟩

/-- What `_rollback_request` wrote, and whether it failed. -/
theorem tryEach_rollbackRequest (approvalId now : String) (faults : GateFaults) :
    tryEach (rollbackRequest approvalId now faults) =
      if Stored faults then
        ((if faults.undoApproval.takesEffect then
            [.decide approvalId .cancelled "persistence_error" now none] else []) ++
          (if faults.undoTask.takesEffect then [.clearPending .running none now] else []),
        decide (faults.undoApproval = .none) && decide (faults.undoTask = .none))
      else
        (if faults.undoTask.takesEffect then [.clearPending .running none now] else [],
          decide (faults.undoTask = .none)) := by
  unfold rollbackRequest
  by_cases hstored : Stored faults
  · have hcondition : faults.opening = .none ∧ faults.approval.takesEffect = true := hstored
    rw [if_pos hcondition, if_pos hstored]
    exact tryEach_pair _ _ _ _
  · have hcondition : ¬ (faults.opening = .none ∧ faults.approval.takesEffect = true) := hstored
    rw [if_neg hcondition, if_neg hstored]
    cases faults.undoTask <;> rfl

/-- The registration of an approval that raised is rolled back, or degraded and still listed, unless
the journal was closed late and a compensation failed before it took effect. -/
theorem registration_iff (hrunning : s.task.status = .running)
    (hnone : s.task.pendingApproval = none) (habsent : s.approvalStatus approval.approvalId = none)
    (hpending : approval.status = .pending) (hfresh : ¬ ListsOpen s.journal transitionId)
    {r : Section} (hr : registration approval transitionId now faults = r)
    (hraised : r.raised = true) :
    (Unasked (s.writeAll r.writes) approval.approvalId ∨
        r.degraded = true ∧ ListsOpen (s.writeAll r.writes).journal transitionId) ↔
      ¬ (ClosedLate faults ∧ (faults.undoApproval = .before ∨ faults.undoTask = .before)) := by
  subst hr
  unfold registration at hraised ⊢
  have hstatus := approvalStatus_registration habsent hpending transitionId now faults
  by_cases heffect : (Stored faults → faults.undoApproval ≠ .before) ∧ faults.undoTask ≠ .before
  · -- the task is cleared, and the approval cancelled where it was stored
    refine iff_of_true (Or.inl ?_) ?_
    · obtain ⟨closed, hclosed, hwrites⟩ := compensated_writes hraised
      rw [hwrites, writeAll_append, writeAll_append, tryEach_rollbackRequest,
        if_pos ((takesEffect_iff _).mpr heffect.2)]
      by_cases hstored : Stored faults
      · rw [if_pos hstored] at hstatus
        rw [if_pos hstored, if_pos ((takesEffect_iff _).mpr (heffect.1 hstored))]
        refine ⟨?_, ?_, Or.inr ?_⟩
        · rcases hclosed with rfl | rfl <;> rfl
        · rcases hclosed with rfl | rfl <;> rfl
        · rcases hclosed with rfl | rfl <;> simp [hstatus]
      · rw [if_neg hstored] at hstatus
        rw [if_neg hstored]
        refine ⟨?_, ?_, Or.inl ?_⟩
        · rcases hclosed with rfl | rfl <;> rfl
        · rcases hclosed with rfl | rfl <;> rfl
        · rcases hclosed with rfl | rfl <;> simp [hstatus]
    · rintro ⟨⟨ho, ha, -, -⟩, h | h⟩
      · exact heffect.1 ⟨ho, by rw [ha]; rfl⟩ h
      · exact heffect.2 h
  · have hbefore : (Stored faults ∧ faults.undoApproval = .before) ∨ faults.undoTask = .before := by
      rcases not_and_or.mp heffect with h | h
      · push Not at h
        exact Or.inl h
      · exact Or.inr (not_not.mp h)
    have hundone : (tryEach (rollbackRequest approval.approvalId now faults)).2 = false := by
      rw [tryEach_rollbackRequest]
      rcases hbefore with ⟨hstored, h⟩ | h
      · rw [if_pos hstored, h]
        rfl
      · rw [h]
        split
        · exact Bool.and_false _
        · rfl
    obtain ⟨hwrites, hdegraded⟩ := compensated_degraded hraised hundone
    have hopen := listsOpen_registration hfresh approval now faults
    rw [closedLate_iff hraised attempt_registration_iff] at hopen
    rw [hwrites, hopen, hdegraded]
    by_cases hlate : ClosedLate faults
    · -- the approval is open, or the task waits, and the journal does not list it
      obtain ⟨ho, ha, ht, hc⟩ := hlate
      have hstored : Stored faults := ⟨ho, by rw [ha]; rfl⟩
      refine iff_of_false ?_ (not_not.mpr ⟨⟨ho, ha, ht, hc⟩, hbefore.imp And.right id⟩)
      rintro (⟨hcleared, -, happroval⟩ | ⟨-, -, hnot⟩)
      · rw [if_pos hstored] at hstatus
        rw [writeAll_append, tryEach_rollbackRequest, if_pos hstored] at hcleared happroval
        rcases hbefore with ⟨-, h⟩ | h
        · rw [h] at happroval
          cases htask : faults.undoTask <;>
            simp [htask, Fault.takesEffect, hstatus] at happroval
        · rw [h] at hcleared
          have hwaiting : (s.writeAll (attempt (registrationMain approval transitionId now
              faults)).1).task.status = .waitingForApproval := by
            simp [registrationMain, ho, ha, ht, hc]
          cases happroved : faults.undoApproval <;>
            simp [happroved, Fault.takesEffect, hwaiting] at hcleared
      · exact hnot ⟨ho, ha, ht, hc⟩
    · refine iff_of_true ?_ fun h => hlate h.1
      by_cases hbegin : faults.opening = .before
      · -- nothing was stored, and the task was not cleared
        have hstored : ¬ Stored faults := by
          rintro ⟨ho, -⟩
          rw [hbegin] at ho
          cases ho
        rcases hbefore with ⟨h, -⟩ | h
        · exact absurd h hstored
        · refine Or.inl ?_
          rw [tryEach_rollbackRequest, if_neg hstored, h, registrationMain, hbegin, attempt_before]
          exact ⟨hrunning, hnone, Or.inl habsent⟩
      · exact Or.inr ⟨rfl, hbegin, hlate⟩

/-! ## What a resolution can write -/

/-- The writes of `_resolve_locked` and of its rollback. -/
def ResolutionWrite (approvalId transitionId now : String) (status : ApprovalStatus)
    (decision : String) (prior : Option PyDict) (w : GateWrite) : Prop :=
  (∃ intent, w = .begin intent) ∨ w = .commit transitionId ∨
    w = .clearPending .running (some transitionId) now ∨
    w = .decide approvalId status decision now (some transitionId) ∨
    w = .restoreApproval approvalId ∨ w = .restoreTask prior now

theorem mem_resolution {taskId : String} {status : ApprovalStatus} {decision : String}
    {prior : Option PyDict} {w : GateWrite}
    (h : w ∈ (resolution taskId approvalId status decision prior transitionId now faults).writes) :
    ResolutionWrite approvalId transitionId now status decision prior w := by
  have hofMain : w ∈ (attempt (resolutionMain taskId approvalId status decision transitionId now
      faults)).1 → ResolutionWrite approvalId transitionId now status decision prior w := by
    intro hmain
    have hmem := mem_of_mem_attempt hmain
    simp only [resolutionMain, List.map_cons, List.map_nil, List.mem_cons, List.not_mem_nil,
      or_false] at hmem
    rcases hmem with rfl | rfl | rfl | rfl
    · exact Or.inl ⟨_, rfl⟩
    · exact Or.inr (Or.inr (Or.inl rfl))
    · exact Or.inr (Or.inr (Or.inr (Or.inl rfl)))
    · exact Or.inr (Or.inl rfl)
  unfold resolution at h
  cases hraised : (compensated transitionId faults
      (resolutionMain taskId approvalId status decision transitionId now faults)
      (rollbackResolution approvalId prior now faults)).raised with
  | false =>
    rw [compensated_quiet hraised] at h
    exact hofMain h
  | true =>
    obtain ⟨closed, hclosed, hwrites⟩ := compensated_writes hraised
    rw [hwrites] at h
    rcases List.mem_append.mp h with hmain | hrest
    · exact hofMain hmain
    rcases List.mem_append.mp hrest with hundo | hclose
    · have hmem := mem_of_mem_tryEach hundo
      simp only [rollbackResolution, List.map_cons, List.map_nil, List.mem_cons, List.not_mem_nil,
        or_false] at hmem
      rcases hmem with rfl | rfl
      · exact Or.inr (Or.inr (Or.inr (Or.inr (Or.inl rfl))))
      · exact Or.inr (Or.inr (Or.inr (Or.inr (Or.inr rfl))))
    · rcases hclosed with rfl | rfl
      · cases hclose
      · rw [List.mem_singleton.mp hclose]
        exact Or.inr (Or.inl rfl)

/-- The approval is as it was, decided, or pending. -/
def Between (s : GateStore) (approvalId : String) (old status : ApprovalStatus) : Prop :=
  s.approvalStatus approvalId = some old ∨ s.approvalStatus approvalId = some status ∨
    s.approvalStatus approvalId = some .pending

theorem ResolutionWrite.between {status old : ApprovalStatus} {decision : String}
    {prior : Option PyDict} {w : GateWrite}
    (hw : ResolutionWrite approvalId transitionId now status decision prior w)
    (h : Between s approvalId old status) : Between (s.write w) approvalId old status := by
  have hstored : ∃ current, s.approvalStatus approvalId = some current := by
    rcases h with h | h | h <;> exact ⟨_, h⟩
  obtain ⟨current, hstored⟩ := hstored
  rcases hw with ⟨intent, rfl⟩ | rfl | rfl | rfl | rfl | rfl
  · exact h
  · exact h
  · exact h
  · exact Or.inr (Or.inl (by rw [approvalStatus_write_decide, hstored]; rfl))
  · exact Or.inr (Or.inr (by rw [approvalStatus_write_restoreApproval, hstored]; rfl))
  · exact h

/-- No resolution gives an approval up that was not given up before. -/
theorem not_unasked_resolution {taskId : String} {status old : ApprovalStatus} {decision : String}
    {prior : Option PyDict}
    (hold : s.approvalStatus approvalId = some old) (hnot : old ≠ .cancelled)
    (hstatus : status ≠ .cancelled) :
    ¬ Unasked (s.writeAll (resolution taskId approvalId status decision prior transitionId now
      faults).writes) approvalId := by
  have hbetween : Between (s.writeAll (resolution taskId approvalId status decision prior
      transitionId now faults).writes) approvalId old status :=
    applyAll_invariant (fun t : GateStore => Between t approvalId old status)
      (fun w hw t ht => (mem_resolution hw).between ht) (Or.inl hold)
  rintro ⟨-, -, hgone⟩
  rcases hbetween with h | h | h
  · rw [h] at hgone
    rcases hgone with h' | h'
    · cases h'
    · exact hnot (Option.some.inj h')
  · rw [h] at hgone
    rcases hgone with h' | h'
    · cases h'
    · exact hstatus (Option.some.inj h')
  · rw [h] at hgone
    rcases hgone with h' | h' <;> cases h'

/-! ## The digest that no longer matches -/

/-- Where no entry was pending, rolling back shows none. -/
theorem not_stillOpen_resolution {taskId : String} {status : ApprovalStatus} {decision : String}
    (hnone : s.task.pendingApproval = none) (pending : PyDict) :
    ¬ StillOpen (s.writeAll (resolution taskId approvalId status decision none transitionId now
      faults).writes) approvalId (some pending) := by
  have hstill : (s.writeAll (resolution taskId approvalId status decision none transitionId now
      faults).writes).task.pendingApproval = none := by
    refine applyAll_invariant (fun t : GateStore => t.task.pendingApproval = none)
      (fun w hw t ht => ?_) hnone
    rcases mem_resolution hw with ⟨intent, rfl⟩ | rfl | rfl | rfl | rfl | rfl
    · exact ht
    · exact ht
    · rfl
    · exact ht
    · exact ht
    · rfl
  rintro ⟨-, hshown, -⟩
  rw [hstill] at hshown
  cases hshown

/-- A mismatched digest whose section raised: degraded, and the transition listed. -/
theorem mismatch_iff {taskId : String} (hfresh : ¬ ListsOpen s.journal transitionId) {r : Section}
    (hr : resolution taskId approvalId .rejected "digest_mismatch" none transitionId now faults = r)
    (hraised : r.raised = true) :
    (r.degraded = true ∧ ListsOpen (s.writeAll r.writes).journal transitionId) ↔
      faults.opening ≠ .before ∧ ¬ ClosedLate faults ∧
        (faults.undoApproval ≠ .none ∨ faults.undoTask ≠ .none ∨
          faults.opening = .none ∧ faults.reclosing = .before) := by
  subst hr
  unfold resolution at hraised ⊢
  have hopen := listsOpen_resolution hfresh taskId approvalId now faults .rejected
    "digest_mismatch" none
  rw [closedLate_iff hraised attempt_resolution_iff] at hopen
  by_cases hundone : faults.undoApproval = .none ∧ faults.undoTask = .none
  · -- both compensations went through, and the second commit decides
    have htried := raised_iff.mp hraised
    have hboth : (tryEach (rollbackResolution approvalId none now faults)).2 = true := by
      rw [rollbackResolution, tryEach_pair, hundone.1, hundone.2]
      rfl
    by_cases hbegan : faults.opening = .none
    · have hsection : compensated transitionId faults
          (resolutionMain taskId approvalId .rejected "digest_mismatch" transitionId now faults)
          (rollbackResolution approvalId none now faults) =
          ⟨(attempt (resolutionMain taskId approvalId .rejected "digest_mismatch" transitionId now
              faults)).1 ++ ((tryEach (rollbackResolution approvalId none now faults)).1 ++
              (attempt [(GateWrite.commit transitionId, faults.reclosing)]).1), true,
            !(attempt [(GateWrite.commit transitionId, faults.reclosing)]).2⟩ := by
        simp only [compensated, compensate, htried, Bool.false_eq_true, if_false, hboth, hbegan,
          and_self, if_true]
      rw [hsection]
      cases hclosing : faults.reclosing with
      | none =>
        refine iff_of_false (by simp) ?_
        rintro ⟨-, -, h | h | ⟨-, h⟩⟩
        · exact h hundone.1
        · exact h hundone.2
        · cases h
      | before =>
        simp only [attempt_before, List.append_nil, Bool.not_false, true_and, hopen, ne_eq,
          hundone, hbegan, not_true_eq_false, false_or, and_self, and_true, reduceCtorEq,
          not_false_eq_true]
      | after =>
        refine iff_of_false ?_ ?_
        · rintro ⟨-, hlisted⟩
          rw [journal_writeAll, attempt_after, List.filterMap_append, List.filterMap_append,
            ← List.append_assoc, ← List.append_assoc] at hlisted
          exact not_listsOpen_commit _ transitionId hlisted
        · rintro ⟨-, -, h | h | ⟨-, h⟩⟩
          · exact h hundone.1
          · exact h hundone.2
          · cases h
    · have hdegraded : (compensated transitionId faults
          (resolutionMain taskId approvalId .rejected "digest_mismatch" transitionId now faults)
          (rollbackResolution approvalId none now faults)).degraded = false := by
        simp only [compensated, compensate, htried, Bool.false_eq_true, if_false, hboth, hbegan,
          and_false, Bool.not_true]
      rw [hdegraded]
      refine iff_of_false (fun h => nomatch h.1) ?_
      rintro ⟨-, -, h | h | ⟨h, -⟩⟩
      · exact h hundone.1
      · exact h hundone.2
      · exact hbegan h
  · have hfailed : (tryEach (rollbackResolution approvalId none now faults)).2 = false := by
      rw [rollbackResolution, tryEach_pair]
      rcases not_and_or.mp hundone with h | h
      · rw [decide_eq_false h]
        rfl
      · rw [decide_eq_false h]
        exact Bool.and_false _
    obtain ⟨hwrites, hdegraded⟩ := compensated_degraded hraised hfailed
    rw [hwrites, hdegraded, hopen]
    refine ⟨fun ⟨_, hbegin, hlate⟩ => ⟨hbegin, hlate, ?_⟩, fun ⟨hbegin, hlate, _⟩ =>
      ⟨rfl, hbegin, hlate⟩⟩
    rcases not_and_or.mp hundone with h | h
    · exact Or.inl h
    · exact Or.inr (Or.inl h)

/-! ## Every section -/

/--
**A section that raised is rolled back, or known not to be, exactly when it survives its faults.**

Every operation of the gate on a pair it may find, with every choice of the writes that fail, of
whether they take effect, and of the compensations that fail with them: when it raises
`PersistenceUnavailableError`, the pair is rolled back or the service is degraded with the
transition listed, if and only if the faults are among those it survives.
-/
theorem allOrNothing_iff (op : GateOp) (hready : op.Ready s)
    (hfresh : ¬ ListsOpen s.journal transitionId)
    (hraised : (op.run s transitionId now faults).raised = true) :
    (op.RolledBack s (s.writeAll (op.run s transitionId now faults).writes) ∨
        (op.run s transitionId now faults).degraded = true ∧
          ListsOpen (s.writeAll (op.run s transitionId now faults).writes).journal transitionId) ↔
      op.Survives faults := by
  cases op with
  | register approval =>
    obtain ⟨hrunning, hnone, habsent, hpending⟩ := hready
    exact registration_iff hrunning hnone habsent hpending hfresh rfl hraised
  | applyDecision approvalId decision =>
    have hdecided : decidedStatus decision ≠ .pending := by
      rw [decidedStatus]
      split <;> nofun
    exact resolution_iff hready.1 hready.2 hdecided hfresh rfl hraised
  | expire approvalId =>
    have hnot : ¬ Unasked (s.writeAll ((GateOp.expire approvalId).run s transitionId now
        faults).writes) approvalId :=
      not_unasked_resolution hready.2 (by decide) (by decide : ApprovalStatus.expired ≠ .cancelled)
    have hiff := resolution_iff hready.1 hready.2 (by decide : ApprovalStatus.expired ≠ .pending)
      hfresh rfl hraised
    refine Iff.trans (or_congr_left ?_) hiff
    exact or_iff_right hnot
  | mismatch approval =>
    obtain ⟨hrunning, hnone, happroved⟩ := hready
    simp only [run, hnone] at hraised ⊢
    have hnever : ¬ RolledBack s (s.writeAll (resolution s.task.taskId approval.approvalId
        .rejected "digest_mismatch" none transitionId now faults).writes) (.mismatch approval) := by
      rintro (hunasked | hopen)
      · exact not_unasked_resolution happroved (by decide) (by decide) hunasked
      · exact not_stillOpen_resolution hnone (pendingEntry approval) hopen
    rw [or_iff_right hnever]
    exact mismatch_iff hfresh rfl hraised

/-! ## One approval -/

/-- A request for an approval. -/
def sampleApproval : Approval where
  approvalId := "apr_1"
  taskId := "task_1"
  runId := "run_1"
  ownerId := "owner"
  toolCallId := "call_1"
  toolName := "write_file"
  argsDigest := "digest"
  argsPreview := []
  createdAt := "t1"

/-- A running task, and nothing else. -/
def runningStore : GateStore where
  task :=
    { taskId := "task_1", sessionId := "ses_1", workspaceId := "ws_1", ownerId := "owner"
      runId := "run_1", input := "fix the build", status := .running, createdAt := "t0"
      updatedAt := "t0" }
  approvals := []
  journal := []

/-- The stores while the task waits for it. -/
def waitingStore : GateStore :=
  runningStore.writeAll (registration sampleApproval "txn_1" "t1" {}).writes

theorem allOrNothing_iff_taskFails :
    RolledBack waitingStore (waitingStore.writeAll
        ((GateOp.applyDecision "apr_1" "approved").run waitingStore "txn_2" "t2"
          { approval := .after }).writes) (.applyDecision "apr_1" "approved") ∨
      ((GateOp.applyDecision "apr_1" "approved").run waitingStore "txn_2" "t2"
          { approval := .after }).degraded = true ∧
        ListsOpen (waitingStore.writeAll ((GateOp.applyDecision "apr_1" "approved").run waitingStore
          "txn_2" "t2" { approval := .after }).writes).journal "txn_2" := by
  refine (allOrNothing_iff (.applyDecision "apr_1" "approved") ⟨rfl, rfl⟩ ?_ rfl).mpr ?_
  · rintro ⟨intent, hmem, -⟩
    have hnone : incomplete waitingStore.journal = [] := by decide
    rw [hnone] at hmem
    cases hmem
  · rintro ⟨⟨-, ha, -⟩, -⟩
    cases ha

/-- **A decision can be lost without a trace.** The journal's commit takes effect and raises, and
the approval cannot be put back: the task waits for an approval that was given, and the journal
lists nothing for a restart to repair. -/
theorem late_commit_loses_transition :
    ∃ r, (GateOp.applyDecision "apr_1" "approved").run waitingStore "txn_2" "t2"
        { closing := .after, undoApproval := .before } = r ∧ r.raised = true ∧
      ¬ (RolledBack waitingStore (waitingStore.writeAll r.writes)
            (.applyDecision "apr_1" "approved") ∨
          r.degraded = true ∧ ListsOpen (waitingStore.writeAll r.writes).journal "txn_2") ∧
      (waitingStore.writeAll r.writes).task.status = .waitingForApproval ∧
      (waitingStore.writeAll r.writes).approvalStatus "apr_1" = some .approved := by
  refine ⟨_, rfl, rfl, ?_, rfl, rfl⟩
  rintro (⟨-, -, hpending⟩ | ⟨-, intent, hmem, -⟩)
  · have happroved : some ApprovalStatus.approved = some ApprovalStatus.pending := hpending
    cases happroved
  · have hnone : incomplete (waitingStore.writeAll
        ((GateOp.applyDecision "apr_1" "approved").run waitingStore "txn_2" "t2"
          { closing := .after, undoApproval := .before }).writes).journal = [] := by decide
    rw [hnone] at hmem
    cases hmem

end GateOp

end ThreadForge

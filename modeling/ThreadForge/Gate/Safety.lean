import ThreadForge.Gate.Outcome

/-!
# When a request may return approved

`request` waits outside the gate and looks again inside it, on two paths. After an approval it reads
the arguments again but not the status, which a decision that failed may have taken back; at the
deadline it reads the status again but not the arguments.

## Main results

* `GateState.approved_iff` — every request that returned approved was entitled to, exactly when each
  path finds what it does not look at as it was; and an approval has one outcome.
-/

namespace ThreadForge

open Transition Faults GateStore

namespace GateState

variable {env : GateEnv} {s t : GateState}

/-- A run before its first request. -/
structure Started (s : GateState) : Prop where
  keys : (s.store.approvals.map Approval.approvalId).Nodup
  free : s.busy = none
  idle : s.phase = .idle
  uncancelled : s.tokenCancelled = false
  none_cancelling : s.cancelling = 0

theorem Started.kept (h : s.Started) : s.Kept where
  keys := h.keys
  each b hb := by rw [h.free] at hb; cases hb
  writes b hb := by rw [h.free] at hb; cases hb
  cancelled hpos := by rw [h.none_cancelling] at hpos; exact absurd hpos (Nat.lt_irrefl 0)
  outside b hb := by rw [h.free] at hb; cases hb
  registered b _ hb := by rw [h.free] at hb; cases hb
  live id hlive := by rw [h.idle] at hlive; exact hlive.elim

/-- The stored approval is approved, the run is not cancelled, and the arguments are the ones the
approval was given for. -/
def Entitled (env : GateEnv) (s : GateState) (approvalId : String) : Prop :=
  s.tokenCancelled = false ∧ ∃ current, s.store.getApproval approvalId = some current ∧
    current.status = .approved ∧ env.digest s.args = current.argsDigest

/-- A request that returned approved by this step was entitled to in the section it returned
from. -/
def ApprovedLaw (env : GateEnv) (s t : GateState) : Prop :=
  ∀ approvalId, t.returned = s.returned ++ [(approvalId, .approved)] → Entitled env s approvalId

/-- What a path of `request` does not look at is as it was: the status after an approval, the
arguments at the deadline. -/
def Rechecked (env : GateEnv) (s : GateState) : GateAction → Prop
  | .confirm _ _ _ => ∀ approvalId current, s.phase = .confirming approvalId →
      s.tokenCancelled = false → s.store.getApproval approvalId = some current →
      env.digest s.args = current.argsDigest → current.status = .approved
  | .expire _ _ _ => ∀ approvalId current, s.phase = .expiring approvalId →
      s.tokenCancelled = false → s.store.getApproval approvalId = some current →
      current.status = .approved → env.digest s.args = current.argsDigest
  | _ => True

/-! ## What a step returns -/

/-- Nothing was returned, or something that is not an approval. -/
def ReturnsOther (s t : GateState) : Prop :=
  t.returned = s.returned ∨
    ∃ approvalId outcome, t.returned = s.returned ++ [(approvalId, outcome)] ∧ outcome ≠ .approved

theorem ReturnsOther.law (h : ReturnsOther s t) : ApprovedLaw env s t := by
  intro approvalId happroved
  rcases h with hsame | ⟨other, outcome, hreturned, hne⟩
  · rw [hsame] at happroved
    exact absurd (congrArg List.length happroved) (by simp)
  · rw [hreturned] at happroved
    have hpair := List.append_cancel_left happroved
    exact absurd (Prod.mk.inj (List.cons.inj hpair).1).2 hne

theorem returnsOther_finish (s : GateState) (approvalId : String) {outcome : ApprovalOutcome}
    (hne : outcome ≠ .approved) : ReturnsOther s (s.finish approvalId outcome) :=
  Or.inr ⟨approvalId, outcome, rfl, hne⟩

theorem returnsOther_leave (s : GateState) (region : Busy) : ReturnsOther s (s.leave region) := by
  unfold GateState.leave
  cases region.holder with
  | mismatch approvalId =>
    simp only
    split
    · exact Or.inl rfl
    · exact Or.inr ⟨approvalId, .rejected, rfl, nofun⟩
  | expire approvalId =>
    simp only
    split
    · exact Or.inl rfl
    · exact Or.inr ⟨approvalId, .expired, rfl, nofun⟩
  | persist =>
    simp only
    split <;> exact Or.inl rfl
  | _ => exact Or.inl rfl

theorem returnsOther_poll {approvalId : String} {expired : Bool}
    (hstep : s.pollOnce approvalId expired = some t) : ReturnsOther s t := by
  unfold pollOnce at hstep
  split at hstep
  · cases hstep
  · rw [← Option.some.inj hstep]; exact Or.inl rfl
  · rw [← Option.some.inj hstep]; exact Or.inl rfl
  · rw [← Option.some.inj hstep]; exact returnsOther_finish s _ nofun
  · rw [← Option.some.inj hstep]; exact returnsOther_finish s _ nofun
  · split at hstep
    · rw [← Option.some.inj hstep]; exact returnsOther_finish s _ nofun
    split at hstep <;> (rw [← Option.some.inj hstep]; exact Or.inl rfl)

/-- After an approval: the arguments are read again, the status is not. -/
theorem confirm_law_iff {approvalId transitionId now : String} {faults : GateFaults}
    (hphase : s.phase = .confirming approvalId)
    (hstep : s.confirm env approvalId transitionId now faults = some t) :
    ApprovedLaw env s t ↔ Rechecked env s (.confirm transitionId now faults) := by
  unfold GateState.confirm at hstep
  split at hstep
  · next htoken =>
    rw [← Option.some.inj hstep]
    have hother : ApprovalOutcome.cancelled ≠ .approved := by decide
    refine iff_of_true (returnsOther_finish s approvalId hother).law ?_
    intro _ _ _ hfalse
    rw [htoken] at hfalse
    cases hfalse
  next htoken =>
  split at hstep
  · cases hstep
  next current hcurrent =>
  split at hstep
  · next hdigest =>
    rw [← Option.some.inj hstep]
    refine iff_of_true (show ReturnsOther s _ from Or.inl rfl).law ?_
    intro id other hid _ hother hsame
    rw [hphase] at hid
    rw [← GatePhase.confirming.inj hid, hcurrent] at hother
    rw [← Option.some.inj hother] at hsame
    exact absurd hsame hdigest
  · next hdigest =>
    rw [← Option.some.inj hstep]
    constructor
    · intro hlaw id other hid _ hother _
      obtain ⟨-, found, hfound, happroved, -⟩ := hlaw approvalId rfl
      rw [hphase] at hid
      rw [← GatePhase.confirming.inj hid, hfound] at hother
      rw [← Option.some.inj hother]
      exact happroved
    · intro hchecked id hreturned
      have hpair := List.append_cancel_left hreturned
      rw [← (Prod.mk.inj (List.cons.inj hpair).1).1]
      have hfalse := Bool.eq_false_iff.mpr htoken
      exact ⟨hfalse, current, hcurrent, hchecked approvalId current hphase hfalse hcurrent
        (not_not.mp hdigest), not_not.mp hdigest⟩

/-- At the deadline: the status is read again, the arguments are not. -/
theorem expire_law_iff {approvalId transitionId now : String} {faults : GateFaults}
    (hphase : s.phase = .expiring approvalId)
    (hstep : s.expire approvalId transitionId now faults = some t) :
    ApprovedLaw env s t ↔ Rechecked env s (.expire transitionId now faults) := by
  unfold GateState.expire at hstep
  split at hstep
  · next htoken =>
    rw [← Option.some.inj hstep]
    have hother : ApprovalOutcome.cancelled ≠ .approved := by decide
    refine iff_of_true (returnsOther_finish s approvalId hother).law ?_
    intro _ _ _ hfalse
    rw [htoken] at hfalse
    cases hfalse
  next htoken =>
  split at hstep
  · cases hstep
  next current hcurrent =>
  -- the request the thread stands in is this one
  have hsame : ∀ {id other}, s.phase = .expiring id → s.store.getApproval id = some other →
      other = current := by
    intro id other hid hother
    rw [hphase] at hid
    rw [← GatePhase.expiring.inj hid, hcurrent] at hother
    exact (Option.some.inj hother).symm
  split at hstep
  · next outcome houtcome =>
    rw [← Option.some.inj hstep]
    by_cases happroved : current.status = .approved
    · rw [happroved] at houtcome
      rw [← Option.some.inj houtcome]
      constructor
      · intro hlaw id other hid _ hother _
        obtain ⟨-, found, hfound, -, hdigest⟩ := hlaw approvalId rfl
        rw [hcurrent] at hfound
        rw [hsame hid hother, Option.some.inj hfound]
        exact hdigest
      · intro hchecked id hreturned
        have hpair := List.append_cancel_left hreturned
        rw [← (Prod.mk.inj (List.cons.inj hpair).1).1]
        have hfalse := Bool.eq_false_iff.mpr htoken
        exact ⟨hfalse, current, hcurrent, happroved,
          hchecked approvalId current hphase hfalse hcurrent happroved⟩
    · have hne : outcome ≠ .approved := by
        rintro rfl
        cases hstatus : current.status with
        | approved => exact happroved hstatus
        | _ => rw [hstatus] at houtcome; cases houtcome
      refine iff_of_true (returnsOther_finish s approvalId hne).law ?_
      intro id other hid _ hother hstatus
      rw [hsame hid hother] at hstatus
      exact absurd hstatus happroved
  · next houtcome =>
    rw [← Option.some.inj hstep]
    refine iff_of_true (show ReturnsOther s _ from Or.inl rfl).law ?_
    intro id other hid _ hother hstatus
    rw [hsame hid hother] at hstatus
    rw [hstatus] at houtcome
    cases houtcome

/-- Each step keeps the law exactly where it finds what it does not look at as it was. -/
theorem step_law_iff {action : GateAction} (hstep : s.next env action = some t) :
    ApprovedLaw env s t ↔ Rechecked env s action := by
  cases action with
  | confirm transitionId now faults =>
    simp only [next] at hstep
    split at hstep
    · next hphase _ => exact confirm_law_iff hphase hstep
    · cases hstep
  | expire transitionId now faults =>
    simp only [next] at hstep
    split at hstep
    · next hphase _ => exact expire_law_iff hphase hstep
    · cases hstep
  | request toolCallId toolName args approvalId createdAt expiresAt transitionId now faults =>
    refine iff_of_true (ReturnsOther.law ?_) trivial
    simp only [next] at hstep
    split at hstep
    · split at hstep <;> (rw [← Option.some.inj hstep]; exact Or.inl rfl)
    · cases hstep
  | write =>
    refine iff_of_true (ReturnsOther.law ?_) trivial
    simp only [next] at hstep
    split at hstep
    · rw [← Option.some.inj hstep]; exact Or.inl rfl
    · cases hstep
  | leave =>
    refine iff_of_true (ReturnsOther.law ?_) trivial
    simp only [next] at hstep
    split at hstep
    · rw [← Option.some.inj hstep]; exact returnsOther_leave ..
    · cases hstep
  | poll expired =>
    refine iff_of_true (ReturnsOther.law ?_) trivial
    simp only [next] at hstep
    split at hstep
    · exact returnsOther_poll hstep
    · cases hstep
  | look approvalId decision expired =>
    refine iff_of_true (ReturnsOther.law ?_) trivial
    simp only [next] at hstep
    split at hstep
    · cases hstep
    · split at hstep
      · rw [← Option.some.inj hstep]; exact Or.inl rfl
      · cases hstep
  | decide index transitionId now faults =>
    refine iff_of_true (ReturnsOther.law ?_) trivial
    simp only [next] at hstep
    split at hstep
    · split at hstep
      · cases hstep
      · rw [← Option.some.inj hstep]
        unfold GateState.applyDecision
        split
        · exact Or.inl rfl
        · split <;> exact Or.inl rfl
    · cases hstep
  | cancel now fault =>
    refine iff_of_true (ReturnsOther.law ?_) trivial
    simp only [next] at hstep
    split at hstep
    · cases hstep
    · split at hstep <;> (rw [← Option.some.inj hstep]; exact Or.inl rfl)
  | cancelPending now faults =>
    refine iff_of_true (ReturnsOther.law ?_) trivial
    simp only [next] at hstep
    split at hstep
    · cases hstep
    · rw [← Option.some.inj hstep]; exact Or.inl rfl
  | mutate args =>
    refine iff_of_true (ReturnsOther.law ?_) trivial
    rw [← Option.some.inj hstep]; exact Or.inl rfl
  | converge =>
    refine iff_of_true (ReturnsOther.law ?_) trivial
    simp only [next] at hstep
    split at hstep
    · rw [← Option.some.inj hstep]; exact Or.inl rfl
    · cases hstep
  | clear now faults =>
    refine iff_of_true (ReturnsOther.law ?_) trivial
    simp only [next] at hstep
    split at hstep
    · rw [← Option.some.inj hstep]; exact Or.inl rfl
    · cases hstep
  | persist status stopReason finalAnswer now fault =>
    refine iff_of_true (ReturnsOther.law ?_) trivial
    simp only [next] at hstep
    split at hstep
    · rw [← Option.some.inj hstep]; exact Or.inl rfl
    · cases hstep

/-! ## A whole run -/

/-- A decided approval keeps its outcome until a failed write of it is undone. -/
theorem Kept.outcome_stays {ms : List (Move GateState GateAction)} (h : s.Kept)
    (hrun : Run (GateStep env) s ms t) {approvalId : String} {status : ApprovalStatus}
    (hstatus : s.store.approvalStatus approvalId = some status) (hdecided : status ≠ .pending)
    (hundone : ∀ m ∈ ms, ¬ Undoes m approvalId) :
    t.store.approvalStatus approvalId = some status ∨
      status = .approved ∧ t.store.approvalStatus approvalId = some .rejected ∧
        ∃ m ∈ ms, Mismatches m approvalId := by
  induction hrun with
  | nil => exact Or.inl hstatus
  | @snoc ms t u a hrun hstep ih =>
    have hkept : t.Kept := hrun.invariant_of_step (fun _ _ _ hk hs => Kept.step hk hs) h
    have hlast := hundone ⟨t, a, u⟩ (List.mem_append_right _ (List.mem_singleton_self _))
    rcases ih fun m hm => hundone m (List.mem_append_left _ hm) with hsame | ⟨happroved, hrej, m, hm, hmis⟩
    · rcases outcome_settled hkept hstep hsame hdecided hlast with hkeep | ⟨happroved, hrej, hmis⟩
      · exact Or.inl hkeep
      · exact Or.inr ⟨happroved, hrej, _,
          List.mem_append_right _ (List.mem_singleton_self _), hmis⟩
    · rcases outcome_settled hkept hstep hrej (by decide) hlast with hkeep | ⟨hcontra, -⟩
      · exact Or.inr ⟨happroved, hkeep, m, List.mem_append_left _ hm, hmis⟩
      · cases hcontra

/--
**A request returns approved when it is entitled to, exactly when what it does not read again is as
it was; and an approval has one outcome.**

Every run from its first request on, with any number of decisions, cancels and deadlines and any
writes that fail. The requests that return approved find their approval approved, the run not
cancelled and the digest of the arguments unchanged, in the section they return from, if and only
if each section entered after an approval finds it still approved and each entered at the deadline
that finds it approved finds the arguments unchanged. And from any point of the run on, a decided
approval keeps its outcome, or goes from approved to rejected for its digest, unless a failed write
of it is undone.
-/
theorem approved_iff {ms : List (Move GateState GateAction)} (hs : s.Started)
    (hrun : Run (GateStep env) s ms t) :
    ((∀ m ∈ ms, ApprovedLaw env m.pre m.post) ↔ ∀ m ∈ ms, Rechecked env m.pre m.act) ∧
      ∀ ms₁ u ms₂, Run (GateStep env) s ms₁ u → Run (GateStep env) u ms₂ t → ms = ms₁ ++ ms₂ →
        ∀ approvalId status, u.store.approvalStatus approvalId = some status → status ≠ .pending →
          (∀ m ∈ ms₂, ¬ Undoes m approvalId) →
          t.store.approvalStatus approvalId = some status ∨
            status = .approved ∧ t.store.approvalStatus approvalId = some .rejected ∧
              ∃ m ∈ ms₂, Mismatches m approvalId := by
  constructor
  · constructor
    · intro hall m hm
      exact (step_law_iff (hrun.step_of_mem hm)).mp (hall m hm)
    · intro hall m hm
      exact (step_law_iff (hrun.step_of_mem hm)).mpr (hall m hm)
  · intro ms₁ u ms₂ hfirst hsecond _ approvalId status hstatus hdecided hundone
    have hkept : u.Kept := hfirst.invariant_of_step (fun _ _ _ hk hstep => Kept.step hk hstep) hs.kept
    exact hkept.outcome_stays hsecond hstatus hdecided hundone

/-! ## The two paths -/

namespace OneRequest

/-- Two argument objects are told apart by being empty. -/
def emptiness : GateEnv where
  digest args := if args = [] then "0" else "1"
  preview args := args

/-- A running task. -/
def start : GateState := { store := GateOp.runningStore }

theorem started : start.Started := ⟨List.nodup_nil, rfl, rfl, rfl, rfl⟩

/-- The request registers its approval and waits. -/
def register : List GateAction :=
  [.request "call_1" "write_file" [] "apr_1" "t1" "t9" "txn_1" "t1" {},
    .write, .write, .write, .write, .leave]

/-- A decision that takes effect. -/
def approve : List GateAction :=
  [.decide 0 "txn_2" "t2" {}, .write, .write, .write, .write, .leave]

/-- Approved in time. -/
def inTime : List GateAction :=
  register ++ [.look "apr_1" "approved" false] ++ approve ++ [.poll false, .confirm "txn_3" "t3" {}]

/-- The decision comes between the last round of `_wait` and the section it leads to, and the
arguments change. -/
def atDeadline : List GateAction :=
  register ++ [.look "apr_1" "approved" false, .poll true] ++ approve ++
    [.mutate [("path", .str "b.txt")], .expire "txn_3" "t9" {}]

/-- `_wait` reads the decision while the section that makes it is still to fail. -/
def beforeUndo : List GateAction :=
  register ++ [.look "apr_1" "approved" false,
    .decide 0 "txn_2" "t2" { closing := .before }, .write, .write, .write, .poll false,
    .write, .write, .write, .leave, .confirm "txn_3" "t3" {}]

theorem run_of_execute {actions : List GateAction} {s t : GateState}
    (h : execute (next emptiness) s actions = some t) :
    Run (GateStep emptiness) s (movesOf (next emptiness) s actions) t :=
  Run.of_execute (fun _ _ _ hnext => hnext) h

end OneRequest

theorem approved_iff_inTime : ∃ t, execute (next OneRequest.emptiness) OneRequest.start OneRequest.inTime =
      some t ∧ t.returned = [("apr_1", .approved)] ∧
    ((∀ m ∈ movesOf (next OneRequest.emptiness) OneRequest.start OneRequest.inTime,
        ApprovedLaw OneRequest.emptiness m.pre m.post) ↔
      ∀ m ∈ movesOf (next OneRequest.emptiness) OneRequest.start OneRequest.inTime,
        Rechecked OneRequest.emptiness m.pre m.act) := by
  obtain ⟨t, ht⟩ : ∃ t, execute (next OneRequest.emptiness) OneRequest.start OneRequest.inTime = some t :=
    ⟨_, rfl⟩
  refine ⟨t, ht, ?_, (approved_iff OneRequest.started (OneRequest.run_of_execute ht)).1⟩
  have hreturned : (execute (next OneRequest.emptiness) OneRequest.start OneRequest.inTime).map
      GateState.returned = some [("apr_1", .approved)] := by
    decide +kernel
  rw [ht] at hreturned
  exact Option.some.inj hreturned

/-- **Approved without being entitled to.** At the deadline a decision that has just been made is
returned without a look at the arguments, which have changed; and after an approval its status is
not looked at again, which a failed decision has put back to pending. -/
theorem approved_unchecked :
    (∃ s, execute (next OneRequest.emptiness) OneRequest.start (OneRequest.atDeadline.dropLast) = some s ∧
      ∃ t, s.next OneRequest.emptiness (.expire "txn_3" "t9" {}) = some t ∧
        t.returned = [("apr_1", .approved)] ∧ ¬ ApprovedLaw OneRequest.emptiness s t) ∧
    ∃ s, execute (next OneRequest.emptiness) OneRequest.start (OneRequest.beforeUndo.dropLast) = some s ∧
      ∃ t, s.next OneRequest.emptiness (.confirm "txn_3" "t3" {}) = some t ∧
        t.returned = [("apr_1", .approved)] ∧ s.store.approvalStatus "apr_1" = some .pending ∧
        ¬ ApprovedLaw OneRequest.emptiness s t := by
  constructor
  · refine ⟨_, rfl, _, rfl, rfl, ?_⟩
    intro hlaw
    obtain ⟨-, current, hcurrent, -, hdigest⟩ := hlaw "apr_1" rfl
    rw [← Option.some.inj hcurrent] at hdigest
    exact absurd hdigest (by decide)
  · refine ⟨_, rfl, _, rfl, rfl, rfl, ?_⟩
    intro hlaw
    obtain ⟨-, current, hcurrent, happroved, -⟩ := hlaw "apr_1" rfl
    rw [← Option.some.inj hcurrent] at happroved
    cases happroved

end GateState

end ThreadForge

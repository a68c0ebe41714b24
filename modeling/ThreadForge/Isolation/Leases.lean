import ThreadForge.Lib.Timestamps
import ThreadForge.Lib.Transition

/-!
# Workspace leases

`SqliteLeaseRepository`: one lease for each workspace, under the task that holds it. Whether a lease
has expired is decided by comparing the texts of two instants, so it depends on how an instant is
written.

## Main results

* `LeaseTable.acquire_cases` — what `acquire` finds and what it does.
* `LeaseState.lease_respected_iff` — when a lease keeps every other task out.
-/

namespace ThreadForge

open Timestamps Transition

/-! ## The table -/

/-- A row of `workspace_leases`. -/
structure WorkspaceLease where
  holderTaskId : String
  holderRunId : String
  ownerId : String
  leaseToken : String
  mode : String
  createdAt : String
  expiresAt : String
  deriving DecidableEq, Repr

/-- `workspace_leases`, whose key is the workspace. -/
abbrev LeaseTable := String → Option WorkspaceLease

/-- The token of a task's leases. -/
def leaseToken (holderTaskId : String) : String := "lease_" ++ holderTaskId

theorem leaseToken_injective {a b : String} (h : leaseToken a = leaseToken b) : a = b := by
  have htext : "lease_".toList ++ a.toList = "lease_".toList ++ b.toList := by
    rw [← String.toList_append, ← String.toList_append]
    exact congrArg String.toList h
  exact String.toList_injective (List.append_cancel_left htext)

namespace LeaseTable

/-- The `DELETE` of `acquire`: a stale lease of another task. -/
def deleteStale (t : LeaseTable) (workspaceId holderTaskId now : String) : LeaseTable :=
  match t workspaceId with
  | some lease =>
    if lease.expiresAt ≤ now ∧ lease.holderTaskId ≠ holderTaskId then
      Function.update t workspaceId none
    else t
  | none => t

/-- The `SELECT` of `acquire` and of `holder`: the lease that has not expired. -/
def holder (t : LeaseTable) (workspaceId now : String) : Option WorkspaceLease :=
  (t workspaceId).filter fun lease => now < lease.expiresAt

/-- `acquire`: the table after it, the token, and whether the lease was acquired. -/
def acquire (t : LeaseTable) (workspaceId holderTaskId holderRunId ownerId mode expiresAt
    now : String) : LeaseTable × String × Bool :=
  let t := t.deleteStale workspaceId holderTaskId now
  if (t.holder workspaceId now).any fun existing => existing.holderTaskId ≠ holderTaskId then
    (t, leaseToken holderTaskId, false)
  else
    (Function.update t workspaceId (some {
      holderTaskId := holderTaskId
      holderRunId := holderRunId
      ownerId := ownerId
      leaseToken := leaseToken holderTaskId
      mode := mode
      createdAt := now
      expiresAt := expiresAt }), leaseToken holderTaskId, true)

/-- `renew`: the table after it, and whether there was a lease with the token. -/
def renew (t : LeaseTable) (workspaceId token expiresAt : String) : LeaseTable × Bool :=
  match t workspaceId with
  | some lease =>
    if lease.leaseToken = token then
      (Function.update t workspaceId (some { lease with expiresAt := expiresAt }), true)
    else (t, false)
  | none => (t, false)

/-- `release`: the table after it, and whether there was a lease with the token. -/
def release (t : LeaseTable) (workspaceId token : String) : LeaseTable × Bool :=
  match t workspaceId with
  | some lease =>
    if lease.leaseToken = token then (Function.update t workspaceId none, true) else (t, false)
  | none => (t, false)

variable {t : LeaseTable} {workspaceId holderTaskId holderRunId ownerId mode expiresAt now : String}

/-- **What `acquire` finds and does**: a lease of another task whose text has not been reached keeps
the caller out and the table as it was; otherwise the lease is the caller's. -/
theorem acquire_cases (t : LeaseTable)
    (workspaceId holderTaskId holderRunId ownerId mode expiresAt now : String) :
    (∃ lease, t workspaceId = some lease ∧ lease.holderTaskId ≠ holderTaskId ∧
        now < lease.expiresAt ∧
        t.acquire workspaceId holderTaskId holderRunId ownerId mode expiresAt now =
          (t, leaseToken holderTaskId, false)) ∨
      ((∀ lease, t workspaceId = some lease → lease.holderTaskId ≠ holderTaskId →
          lease.expiresAt ≤ now) ∧
        t.acquire workspaceId holderTaskId holderRunId ownerId mode expiresAt now =
          (Function.update t workspaceId (some {
            holderTaskId := holderTaskId
            holderRunId := holderRunId
            ownerId := ownerId
            leaseToken := leaseToken holderTaskId
            mode := mode
            createdAt := now
            expiresAt := expiresAt }), leaseToken holderTaskId, true)) := by
  cases hrow : t workspaceId with
  | none =>
    right
    refine ⟨fun lease hlease => (by cases hlease), ?_⟩
    simp [acquire, deleteStale, holder, hrow]
  | some lease =>
    by_cases hother : lease.holderTaskId ≠ holderTaskId
    · by_cases hstale : lease.expiresAt ≤ now
      · right
        refine ⟨fun lease' hlease' _ => Option.some.inj hlease' ▸ hstale, ?_⟩
        have hdeleted : t.deleteStale workspaceId holderTaskId now =
            Function.update t workspaceId none := by
          rw [deleteStale, hrow]
          exact if_pos ⟨hstale, hother⟩
        simp [acquire, hdeleted, holder]
      · left
        refine ⟨lease, rfl, hother, not_le.mp hstale, ?_⟩
        have hkept : t.deleteStale workspaceId holderTaskId now = t := by
          rw [deleteStale, hrow]
          exact if_neg fun hboth => hstale hboth.1
        have hlive : t.holder workspaceId now = some lease := by
          rw [holder, hrow, Option.filter, if_pos (decide_eq_true (not_le.mp hstale))]
        simp [acquire, hkept, hlive, hother]
    · right
      refine ⟨fun lease' hlease' hne => absurd (Option.some.inj hlease' ▸ hne) hother, ?_⟩
      have hkept : t.deleteStale workspaceId holderTaskId now = t := by
        rw [deleteStale, hrow]
        exact if_neg fun hboth => hother hboth.2
      have hmine : lease.holderTaskId = holderTaskId := not_not.mp hother
      have hnobody : (t.holder workspaceId now).any
          (fun existing => existing.holderTaskId ≠ holderTaskId) = false := by
        rw [holder, hrow, Option.filter]
        split
        · simp [hmine]
        · rfl
      rw [acquire, hkept, hnobody, if_neg Bool.false_ne_true]

theorem renew_of_token {token : String} {lease : WorkspaceLease} (h : t workspaceId = some lease)
    (htoken : lease.leaseToken = token) : t.renew workspaceId token expiresAt =
      (Function.update t workspaceId (some { lease with expiresAt := expiresAt }), true) := by
  rw [renew, h]
  exact if_pos htoken

theorem renew_of_other {token : String}
    (h : ∀ lease, t workspaceId = some lease → lease.leaseToken ≠ token) :
    t.renew workspaceId token expiresAt = (t, false) := by
  rw [renew]
  split
  · next lease hlease => exact if_neg (h lease hlease)
  · rfl

theorem release_of_token {token : String} {lease : WorkspaceLease} (h : t workspaceId = some lease)
    (htoken : lease.leaseToken = token) :
    t.release workspaceId token = (Function.update t workspaceId none, true) := by
  rw [release, h]
  exact if_pos htoken

theorem release_of_other {token : String}
    (h : ∀ lease, t workspaceId = some lease → lease.leaseToken ≠ token) :
    t.release workspaceId token = (t, false) := by
  rw [release]
  split
  · next lease hlease => exact if_neg (h lease hlease)
  · rfl

end LeaseTable

/-! ## Tasks and time -/

/-- The leases, the time of the last call, and what each task was last granted on a workspace and has
not released. Nothing reads the last part. -/
structure LeaseState where
  leases : LeaseTable := fun _ => none
  clock : Nat := 0
  granted : String → String → Option Instant := fun _ _ => none

/-- One call of a task, with the instant its clock reads. -/
inductive LeaseAction
  | acquire (workspaceId taskId runId ownerId mode : String) (now : Instant)
  | renew (workspaceId taskId : String) (now : Instant)
  | release (workspaceId taskId : String) (now : Instant)

namespace LeaseAction

def workspaceId : LeaseAction → String
  | .acquire workspaceId .. | .renew workspaceId .. | .release workspaceId .. => workspaceId

def taskId : LeaseAction → String
  | .acquire _ taskId .. | .renew _ taskId _ | .release _ taskId _ => taskId

def now : LeaseAction → Instant
  | .acquire _ _ _ _ _ now | .renew _ _ now | .release _ _ now => now

end LeaseAction

namespace LeaseState

/-- What `acquire` makes of the table at an instant, with the expiry of `_expires_at`. -/
def acquireAt (s : LeaseState) (workspaceId taskId runId ownerId mode : String)
    (now expiry : Instant) : LeaseTable × String × Bool :=
  s.leases.acquire workspaceId taskId runId ownerId mode expiry.stamp now.stamp

/-- What a task holds on a workspace from now on. -/
def grant (s : LeaseState) (workspaceId taskId : String) (expiry : Option Instant) : LeaseState :=
  { s with
    granted := Function.update s.granted workspaceId
      (Function.update (s.granted workspaceId) taskId expiry) }

/-- The state after a call, where its clock is not behind and the calendar has its expiry. -/
def next (s : LeaseState) (action : LeaseAction) : Option LeaseState :=
  if action.now.micros < s.clock then none
  else match action with
    | .acquire workspaceId taskId runId ownerId mode now => now.plusHour.map fun expiry =>
      let result := s.acquireAt workspaceId taskId runId ownerId mode now expiry
      let after := { s with clock := now.micros, leases := result.1 }
      if result.2.2 then after.grant workspaceId taskId (some expiry) else after
    | .renew workspaceId taskId now => now.plusHour.map fun expiry =>
      let result := s.leases.renew workspaceId (leaseToken taskId) expiry.stamp
      let after := { s with clock := now.micros, leases := result.1 }
      if result.2 then after.grant workspaceId taskId (some expiry) else after
    | .release workspaceId taskId now =>
      let result := s.leases.release workspaceId (leaseToken taskId)
      let after := { s with clock := now.micros, leases := result.1 }
      some (after.grant workspaceId taskId none)

/-- The calls of the tasks as a transition system. -/
abbrev LeaseStep (s : LeaseState) (action : LeaseAction) (t : LeaseState) : Prop :=
  s.next action = some t

/-- No lease was ever granted. -/
structure Empty (s : LeaseState) : Prop where
  leases : ∀ workspaceId, s.leases workspaceId = none
  granted : ∀ workspaceId taskId, s.granted workspaceId taskId = none

/-- What `acquire` returns. -/
def acquired (s : LeaseState) : LeaseAction → Bool
  | .acquire workspaceId taskId runId ownerId mode now =>
    now.plusHour.any fun expiry => (s.acquireAt workspaceId taskId runId ownerId mode now expiry).2.2
  | .renew .. | .release .. => false

/-- While a task's lease has not expired, no call of another task acquires the workspace or changes
the lease. -/
def Respected (m : Move LeaseState LeaseAction) : Prop :=
  ∀ workspaceId holder expiry, m.pre.granted workspaceId holder = some expiry →
    m.act.now.micros < expiry.micros → m.act.taskId ≠ holder →
    (∃ lease, m.pre.leases workspaceId = some lease ∧ lease.holderTaskId = holder) ∧
      m.post.leases workspaceId = m.pre.leases workspaceId ∧
      (m.act.workspaceId = workspaceId → m.pre.acquired m.act = false)

/-- Where `acquire` finds a lease of another task that expires at a fraction of the very second, its
clock does not read the whole second. -/
def OffTheSecond (s : LeaseState) : LeaseAction → Prop
  | .acquire workspaceId taskId _ _ _ now =>
    ∀ lease, s.leases workspaceId = some lease → lease.holderTaskId ≠ taskId →
      ∀ expiry : Instant, lease.expiresAt = expiry.stamp → expiry.seconds = now.seconds →
        expiry.microsecond ≠ 0 → now.microsecond ≠ 0
  | .renew .. | .release .. => True

/-! ## The invariant -/

/-- Every row is what its holder was last granted. -/
def RowsGranted (s : LeaseState) : Prop :=
  ∀ workspaceId lease, s.leases workspaceId = some lease →
    lease.leaseToken = leaseToken lease.holderTaskId ∧
      ∃ expiry, s.granted workspaceId lease.holderTaskId = some expiry ∧
        lease.expiresAt = expiry.stamp

/-- Every grant that has not expired is a row. -/
def GrantsKept (s : LeaseState) : Prop :=
  ∀ workspaceId taskId expiry, s.granted workspaceId taskId = some expiry →
    s.clock < expiry.micros →
    ∃ lease, s.leases workspaceId = some lease ∧ lease.holderTaskId = taskId

variable {s t : LeaseState} {action : LeaseAction}

theorem Empty.rowsGranted (h : s.Empty) : s.RowsGranted := by
  intro workspaceId lease hlease
  rw [h.leases] at hlease
  cases hlease

theorem Empty.grantsKept (h : s.Empty) : s.GrantsKept := by
  intro workspaceId taskId expiry hgranted
  rw [h.granted] at hgranted
  cases hgranted

/-- Before it expires, a lease looks expired at the whole second of its expiry only. -/
theorem stamp_le_iff_of_lt {now expiry : Instant} (h : now.micros < expiry.micros) :
    expiry.stamp ≤ now.stamp ↔
      expiry.seconds = now.seconds ∧ expiry.microsecond ≠ 0 ∧ now.microsecond = 0 := by
  have hnow := now.microsecond_lt
  have hexpiry := expiry.microsecond_lt
  rw [Instant.stamp_le_iff]
  rw [Instant.micros, Instant.micros] at h
  omega

/-! ## What a call does -/

/-- The state after a call that takes the workspace. -/
def taken (s : LeaseState) (workspaceId : String) (now : Instant) (lease : WorkspaceLease)
    (expiry : Instant) : LeaseState :=
  { s with
    clock := now.micros
    leases := Function.update s.leases workspaceId (some lease) }.grant
      workspaceId lease.holderTaskId (some expiry)

theorem next_clock (h : s.next action = some t) :
    s.clock ≤ action.now.micros ∧ t.clock = action.now.micros := by
  unfold next at h
  split at h
  · cases h
  next hclock =>
  refine ⟨not_lt.mp hclock, ?_⟩
  cases action with
  | acquire workspaceId taskId runId ownerId mode now =>
    obtain ⟨expiry, _, heq⟩ := Option.map_eq_some_iff.mp h
    rw [← heq]
    dsimp only
    split <;> rfl
  | renew workspaceId taskId now =>
    obtain ⟨expiry, _, heq⟩ := Option.map_eq_some_iff.mp h
    rw [← heq]
    dsimp only
    split <;> rfl
  | release workspaceId taskId now =>
    rw [← Option.some.inj h]
    rfl

theorem next_acquire {workspaceId taskId runId ownerId mode : String} {now : Instant}
    (h : s.next (.acquire workspaceId taskId runId ownerId mode now) = some t) :
    (∃ lease, s.leases workspaceId = some lease ∧ lease.holderTaskId ≠ taskId ∧
        now.stamp < lease.expiresAt ∧ t = { s with clock := now.micros } ∧
        s.acquired (.acquire workspaceId taskId runId ownerId mode now) = false) ∨
      (∀ lease, s.leases workspaceId = some lease → lease.holderTaskId ≠ taskId →
          lease.expiresAt ≤ now.stamp) ∧
        s.acquired (.acquire workspaceId taskId runId ownerId mode now) = true ∧
        ∃ lease expiry, lease.holderTaskId = taskId ∧ lease.leaseToken = leaseToken taskId ∧
          lease.expiresAt = expiry.stamp ∧ t = s.taken workspaceId now lease expiry := by
  rw [next] at h
  split at h
  · cases h
  obtain ⟨expiry, hexpiry, heq⟩ := Option.map_eq_some_iff.mp h
  have hacquired : s.acquired (.acquire workspaceId taskId runId ownerId mode now) =
      (s.acquireAt workspaceId taskId runId ownerId mode now expiry).2.2 := by
    rw [acquired, hexpiry, Option.any_some]
  rcases s.leases.acquire_cases workspaceId taskId runId ownerId mode expiry.stamp now.stamp with
    ⟨lease, hlease, hother, hlive, hresult⟩ | ⟨hstale, hresult⟩
  · left
    refine ⟨lease, hlease, hother, hlive, ?_, by rw [hacquired, acquireAt, hresult]⟩
    rw [← heq]
    simp only [acquireAt, hresult, Bool.false_eq_true, if_false]
  · right
    refine ⟨hstale, by rw [hacquired, acquireAt, hresult], {
      holderTaskId := taskId
      holderRunId := runId
      ownerId := ownerId
      leaseToken := leaseToken taskId
      mode := mode
      createdAt := now.stamp
      expiresAt := expiry.stamp }, expiry, rfl, rfl, rfl, ?_⟩
    rw [← heq]
    simp only [acquireAt, hresult, if_true]
    rfl

theorem next_renew {workspaceId taskId : String} {now : Instant}
    (h : s.next (.renew workspaceId taskId now) = some t) :
    t = { s with clock := now.micros } ∨
      ∃ old lease expiry, s.leases workspaceId = some old ∧ old.leaseToken = leaseToken taskId ∧
        lease.holderTaskId = old.holderTaskId ∧ lease.leaseToken = old.leaseToken ∧
        lease.expiresAt = expiry.stamp ∧ t = { s with
          clock := now.micros
          leases := Function.update s.leases workspaceId (some lease) }.grant
            workspaceId taskId (some expiry) := by
  rw [next] at h
  split at h
  · cases h
  obtain ⟨expiry, _, heq⟩ := Option.map_eq_some_iff.mp h
  by_cases hmine : ∃ lease, s.leases workspaceId = some lease ∧
      lease.leaseToken = leaseToken taskId
  · obtain ⟨lease, hlease, htoken⟩ := hmine
    right
    refine ⟨lease, { lease with expiresAt := expiry.stamp }, expiry, hlease, htoken, rfl, rfl, rfl,
      ?_⟩
    rw [← heq]
    simp only [LeaseTable.renew_of_token hlease htoken, if_true]
  · left
    have hother : ∀ lease, s.leases workspaceId = some lease →
        lease.leaseToken ≠ leaseToken taskId :=
      fun lease hlease htoken => hmine ⟨lease, hlease, htoken⟩
    rw [← heq]
    simp only [LeaseTable.renew_of_other hother, Bool.false_eq_true, if_false]

theorem next_release {workspaceId taskId : String} {now : Instant}
    (h : s.next (.release workspaceId taskId now) = some t) :
    ∃ leases : LeaseTable, t = { s with clock := now.micros, leases := leases }.grant
        workspaceId taskId none ∧
      (leases = s.leases ∧ (∀ lease, s.leases workspaceId = some lease →
          lease.leaseToken ≠ leaseToken taskId) ∨
        ∃ lease, s.leases workspaceId = some lease ∧ lease.leaseToken = leaseToken taskId ∧
          leases = Function.update s.leases workspaceId none) := by
  rw [next] at h
  split at h
  · cases h
  refine ⟨_, (Option.some.inj h).symm, ?_⟩
  by_cases hmine : ∃ lease, s.leases workspaceId = some lease ∧
      lease.leaseToken = leaseToken taskId
  · obtain ⟨lease, hlease, htoken⟩ := hmine
    right
    exact ⟨lease, hlease, htoken, by rw [LeaseTable.release_of_token hlease htoken]⟩
  · left
    have hother : ∀ lease, s.leases workspaceId = some lease →
        lease.leaseToken ≠ leaseToken taskId :=
      fun lease hlease htoken => hmine ⟨lease, hlease, htoken⟩
    exact ⟨by rw [LeaseTable.release_of_other hother], hother⟩

/-! ## The invariant is kept -/

@[simp] theorem grant_leases (s : LeaseState) (workspaceId taskId : String)
    (expiry : Option Instant) : (s.grant workspaceId taskId expiry).leases = s.leases := rfl

@[simp] theorem grant_clock (s : LeaseState) (workspaceId taskId : String)
    (expiry : Option Instant) : (s.grant workspaceId taskId expiry).clock = s.clock := rfl

theorem grant_self (s : LeaseState) (workspaceId taskId : String) (expiry : Option Instant) :
    (s.grant workspaceId taskId expiry).granted workspaceId taskId = expiry := by
  simp [grant]

theorem grant_other (s : LeaseState) {workspaceId taskId workspaceId' taskId' : String}
    (expiry : Option Instant) (h : workspaceId' = workspaceId → taskId' ≠ taskId) :
    (s.grant workspaceId taskId expiry).granted workspaceId' taskId' =
      s.granted workspaceId' taskId' := by
  simp only [grant]
  by_cases hworkspace : workspaceId' = workspaceId
  · rw [hworkspace, Function.update_self, Function.update_of_ne (h hworkspace)]
  · rw [Function.update_of_ne hworkspace]

theorem RowsGranted.setClock (h : s.RowsGranted) (clock : Nat) :
    RowsGranted { s with clock := clock } := h

/-- A row is written together with its grant. -/
theorem RowsGranted.take (h : s.RowsGranted) {workspaceId : String} {lease : WorkspaceLease}
    {expiry : Instant} (clock : Nat) (htoken : lease.leaseToken = leaseToken lease.holderTaskId)
    (hexpiry : lease.expiresAt = expiry.stamp) :
    RowsGranted ({ s with
      clock := clock
      leases := Function.update s.leases workspaceId (some lease) }.grant
        workspaceId lease.holderTaskId (some expiry)) := by
  intro workspaceId' lease' hlease'
  simp only [grant_leases, Function.update_apply] at hlease'
  by_cases hworkspace : workspaceId' = workspaceId
  · rw [if_pos hworkspace] at hlease'
    rw [hworkspace, ← Option.some.inj hlease']
    exact ⟨htoken, expiry, grant_self _ _ _ _, hexpiry⟩
  · rw [if_neg hworkspace] at hlease'
    rw [grant_other _ _ fun heq => absurd heq hworkspace]
    exact h workspaceId' lease' hlease'

/-- A grant that is taken back has no row. -/
theorem RowsGranted.giveBack (h : s.RowsGranted) {workspaceId taskId : String}
    {leases : LeaseTable} (clock : Nat)
    (hleases : leases = s.leases ∧ (∀ lease, s.leases workspaceId = some lease →
        lease.leaseToken ≠ leaseToken taskId) ∨
      ∃ lease, s.leases workspaceId = some lease ∧ lease.leaseToken = leaseToken taskId ∧
        leases = Function.update s.leases workspaceId none) :
    RowsGranted ({ s with clock := clock, leases := leases }.grant workspaceId taskId none) := by
  intro workspaceId' lease hlease
  rw [grant_leases] at hlease
  have hold : s.leases workspaceId' = some lease ∧
      (workspaceId' = workspaceId → lease.leaseToken ≠ leaseToken taskId) := by
    rcases hleases with ⟨hsame, hother⟩ | ⟨mine, -, -, hsame⟩
    · rw [hsame] at hlease
      exact ⟨hlease, fun heq => hother lease (heq ▸ hlease)⟩
    · simp only [hsame, Function.update_apply] at hlease
      split at hlease
      · cases hlease
      · next hne => exact ⟨hlease, fun heq => absurd heq hne⟩
  obtain ⟨htoken, expiry, hgranted, hexpiry⟩ := h workspaceId' lease hold.1
  refine ⟨htoken, expiry, ?_, hexpiry⟩
  rw [grant_other _ _ fun heq htask => hold.2 heq (by rw [htoken, htask])]
  exact hgranted

theorem RowsGranted.next (h : s.RowsGranted) (hstep : s.next action = some t) : t.RowsGranted := by
  cases action with
  | acquire workspaceId taskId runId ownerId mode now =>
    rcases next_acquire hstep with ⟨_, -, -, -, rfl, -⟩ |
      ⟨-, -, lease, expiry, hholder, htoken, hexpiry, rfl⟩
    · exact h.setClock _
    · exact h.take _ (by rw [htoken, hholder]) hexpiry
  | renew workspaceId taskId now =>
    rcases next_renew hstep with rfl |
      ⟨old, lease, expiry, hold, hmine, hholder, htoken, hexpiry, rfl⟩
    · exact h.setClock _
    · obtain ⟨holdToken, -⟩ := h workspaceId old hold
      have htask : taskId = lease.holderTaskId := by
        rw [hholder]
        exact leaseToken_injective (hmine.symm.trans holdToken)
      rw [htask]
      exact h.take _ (by rw [htoken, holdToken, hholder]) hexpiry
  | release workspaceId taskId now =>
    obtain ⟨leases, rfl, hleases⟩ := next_release hstep
    exact h.giveBack _ hleases

/-- The workspace is taken once every other task's grant of it has expired. -/
theorem GrantsKept.take (h : s.GrantsKept) {workspaceId : String} {lease : WorkspaceLease}
    {expiry : Instant} {clock : Nat} (hclock : s.clock ≤ clock)
    (hexpired : ∀ taskId expiry', s.granted workspaceId taskId = some expiry' →
      clock < expiry'.micros → taskId = lease.holderTaskId) :
    GrantsKept ({ s with
      clock := clock
      leases := Function.update s.leases workspaceId (some lease) }.grant
        workspaceId lease.holderTaskId (some expiry)) := by
  intro workspaceId' taskId expiry' hgranted hlive
  rw [grant_clock] at hlive
  simp only [grant_leases, Function.update_apply]
  by_cases hworkspace : workspaceId' = workspaceId
  · rw [if_pos hworkspace]
    by_cases htask : taskId = lease.holderTaskId
    · exact ⟨lease, rfl, htask.symm⟩
    · rw [grant_other _ _ fun _ => htask, hworkspace] at hgranted
      exact absurd (hexpired taskId expiry' hgranted hlive) htask
  · rw [grant_other _ _ fun heq => absurd heq hworkspace] at hgranted
    rw [if_neg hworkspace]
    exact h workspaceId' taskId expiry' hgranted (lt_of_le_of_lt hclock hlive)

theorem GrantsKept.next (h : s.GrantsKept) (hrows : s.RowsGranted)
    (hguard : s.OffTheSecond action) (hstep : s.next action = some t) : t.GrantsKept := by
  obtain ⟨hclock, -⟩ := next_clock hstep
  cases action with
  | acquire workspaceId taskId runId ownerId mode now =>
    rcases next_acquire hstep with ⟨_, -, -, -, rfl, -⟩ |
      ⟨hstale, -, lease, expiry, hholder, -, -, rfl⟩
    · exact fun workspaceId' taskId' expiry' hgranted hlive =>
        h workspaceId' taskId' expiry' hgranted (lt_of_le_of_lt hclock hlive)
    · refine h.take hclock fun taskId' expiry' hgranted hlive => ?_
      by_contra hne
      -- the grant is a row, and the row looks expired although its time has not come
      obtain ⟨row, hrow, hrowHolder⟩ := h workspaceId taskId' expiry' hgranted
        (lt_of_le_of_lt hclock hlive)
      obtain ⟨-, expiry'', hgranted', hrowExpiry⟩ := hrows workspaceId row hrow
      rw [hrowHolder, hgranted] at hgranted'
      have hother : row.holderTaskId ≠ taskId := by
        rw [hrowHolder, ← hholder]
        exact hne
      have hlooks := hstale row hrow hother
      rw [hrowExpiry, ← Option.some.inj hgranted'] at hlooks
      obtain ⟨hsecond, hfraction, hwhole⟩ := (stamp_le_iff_of_lt hlive).mp hlooks
      exact hguard row hrow hother expiry' (by rw [hrowExpiry, Option.some.inj hgranted'])
        hsecond hfraction hwhole
  | renew workspaceId taskId now =>
    rcases next_renew hstep with rfl |
      ⟨old, lease, expiry, hold, hmine, hholder, htoken, hexpiry, rfl⟩
    · exact fun workspaceId' taskId' expiry' hgranted hlive =>
        h workspaceId' taskId' expiry' hgranted (lt_of_le_of_lt hclock hlive)
    · obtain ⟨holdToken, -⟩ := hrows workspaceId old hold
      have htask : taskId = lease.holderTaskId := by
        rw [hholder]
        exact leaseToken_injective (hmine.symm.trans holdToken)
      rw [htask]
      refine h.take hclock fun taskId' expiry' hgranted hlive => ?_
      obtain ⟨row, hrow, hrowHolder⟩ := h workspaceId taskId' expiry' hgranted
        (lt_of_le_of_lt hclock hlive)
      rw [hold] at hrow
      rw [hholder, Option.some.inj hrow, hrowHolder]
  | release workspaceId taskId now =>
    obtain ⟨leases, rfl, hleases⟩ := next_release hstep
    intro workspaceId' taskId' expiry' hgranted hlive
    rw [grant_clock] at hlive
    by_cases hmine : workspaceId' = workspaceId ∧ taskId' = taskId
    · rw [hmine.1, hmine.2, grant_self] at hgranted
      cases hgranted
    · rw [grant_other _ _ fun hw ht => hmine ⟨hw, ht⟩] at hgranted
      obtain ⟨row, hrow, hrowHolder⟩ := h workspaceId' taskId' expiry' hgranted
        (lt_of_le_of_lt hclock hlive)
      refine ⟨row, ?_, hrowHolder⟩
      rw [grant_leases]
      rcases hleases with ⟨hsame, -⟩ | ⟨mine, hmineRow, hmineToken, hsame⟩
      · rw [hsame]
        exact hrow
      · simp only [hsame, Function.update_apply]
        by_cases hworkspace : workspaceId' = workspaceId
        · rw [hworkspace, hmineRow] at hrow
          obtain ⟨hrowToken, -⟩ := hrows workspaceId mine hmineRow
          rw [Option.some.inj hrow, hrowHolder] at hrowToken
          rw [← Option.some.inj hrow] at hrowToken
          have hboth := leaseToken_injective (hmineToken.symm.trans hrowToken)
          exact absurd ⟨hworkspace, hboth.symm⟩ hmine
        · rw [if_neg hworkspace]
          exact hrow

/-! ## Mutual exclusion -/

/-- A call off the second leaves the leases of other tasks alone. -/
theorem respected_of_guard {m : Move LeaseState LeaseAction} (hrows : m.pre.RowsGranted)
    (hgrants : m.pre.GrantsKept) (hguard : m.pre.OffTheSecond m.act)
    (hstep : m.pre.next m.act = some m.post) : Respected m := by
  obtain ⟨pre, action, post⟩ := m
  simp only at hrows hgrants hguard hstep
  intro workspaceId holder expiry hgranted hlive hother
  simp only at hgranted hlive hother ⊢
  obtain ⟨hclock, -⟩ := next_clock hstep
  obtain ⟨row, hrow, hholder⟩ := hgrants workspaceId holder expiry hgranted
    (lt_of_le_of_lt hclock hlive)
  obtain ⟨htoken, expiry', hgranted', hexpiry⟩ := hrows workspaceId row hrow
  rw [hholder, hgranted] at hgranted'
  refine ⟨⟨row, hrow, hholder⟩, ?_⟩
  cases action with
  | acquire workspaceId' taskId runId ownerId mode now =>
    rcases next_acquire hstep with ⟨_, -, -, -, rfl, hrefused⟩ |
      ⟨hstale, -, lease, expiry'', -, -, -, rfl⟩
    · exact ⟨rfl, fun _ => hrefused⟩
    · by_cases hworkspace : workspaceId' = workspaceId
      · rw [hworkspace] at hstale
        have hne : row.holderTaskId ≠ taskId := by
          rw [hholder]
          exact hother.symm
        have hlooks := hstale row hrow hne
        rw [hexpiry, ← Option.some.inj hgranted'] at hlooks
        obtain ⟨hsecond, hfraction, hwhole⟩ := (stamp_le_iff_of_lt hlive).mp hlooks
        exact absurd hwhole (hguard row (hworkspace ▸ hrow) hne expiry
          (by rw [hexpiry, Option.some.inj hgranted']) hsecond hfraction)
      · refine ⟨?_, fun heq => absurd heq hworkspace⟩
        show Function.update pre.leases workspaceId' _ workspaceId = _
        rw [Function.update_of_ne (Ne.symm hworkspace)]
  | renew workspaceId' taskId now =>
    refine ⟨?_, fun _ => rfl⟩
    rcases next_renew hstep with rfl | ⟨old, lease, expiry'', hold, hmine, -, -, -, rfl⟩
    · rfl
    · rw [grant_leases]
      refine Function.update_of_ne (fun heq => ?_) _ _
      rw [← heq, hrow] at hold
      rw [← Option.some.inj hold, htoken, hholder] at hmine
      exact hother (leaseToken_injective hmine).symm
  | release workspaceId' taskId now =>
    refine ⟨?_, fun _ => rfl⟩
    obtain ⟨leases, rfl, hleases⟩ := next_release hstep
    rw [grant_leases]
    rcases hleases with ⟨hsame, -⟩ | ⟨mine, hmineRow, hmineToken, hsame⟩
    · rw [hsame]
    · rw [hsame]
      refine Function.update_of_ne (fun heq => ?_) _ _
      rw [← heq, hrow] at hmineRow
      rw [← Option.some.inj hmineRow, htoken, hholder] at hmineToken
      exact hother (leaseToken_injective hmineToken).symm

/-- A call on the second takes a lease away. -/
theorem guard_of_respected {m : Move LeaseState LeaseAction} (hrows : m.pre.RowsGranted)
    (hstep : m.pre.next m.act = some m.post) (h : Respected m) : m.pre.OffTheSecond m.act := by
  obtain ⟨pre, action, post⟩ := m
  simp only at hrows hstep ⊢
  cases action with
  | acquire workspaceId taskId runId ownerId mode now =>
    intro lease hlease hother expiry hexpiry hsecond hfraction hwhole
    obtain ⟨-, expiry', hgranted, hexpiry'⟩ := hrows workspaceId lease hlease
    have hmicros : expiry'.micros = expiry.micros :=
      Instant.micros_eq_of_stamp (hexpiry'.symm.trans hexpiry)
    have hlive : now.micros < expiry.micros := by
      rw [Instant.micros, Instant.micros]
      omega
    have hlive' : now.micros < expiry'.micros := by
      rw [hmicros]
      exact hlive
    obtain ⟨-, -, hrefused⟩ := h workspaceId lease.holderTaskId expiry' hgranted hlive'
      (Ne.symm hother)
    have hlooks : lease.expiresAt ≤ now.stamp := by
      rw [hexpiry]
      exact (stamp_le_iff_of_lt hlive).mpr ⟨hsecond, hfraction, hwhole⟩
    rcases next_acquire hstep with ⟨lease', hlease', -, hkept, -⟩ | ⟨-, hacquired, -⟩
    · rw [hlease] at hlease'
      rw [← Option.some.inj hlease'] at hkept
      exact absurd hlooks (not_le.mpr hkept)
    · have hfalse : pre.acquired (.acquire workspaceId taskId runId ownerId mode now) = false :=
        hrefused rfl
      rw [hacquired] at hfalse
      cases hfalse
  | renew workspaceId taskId now => trivial
  | release workspaceId taskId now => trivial

/--
**A lease keeps every other task out until it expires**, in a run of `acquire`, `renew` and
`release` on clocks that do not go back, exactly when no `acquire` reads a whole second in which a
lease of another task expires at a fraction.
-/
theorem lease_respected_iff {ms : List (Move LeaseState LeaseAction)} (hs : s.Empty)
    (h : Run LeaseStep s ms t) :
    (∀ m ∈ ms, Respected m) ↔ ∀ m ∈ ms, m.pre.OffTheSecond m.act := by
  constructor
  · intro hall m hm
    have hrows : m.pre.RowsGranted :=
      h.invariant_before (fun _ _ _ hinv hstep => hinv.next hstep) hs.rowsGranted m hm
    exact guard_of_respected hrows (h.step_of_mem hm) (hall m hm)
  · intro hall m hm
    have hkeep : ∀ s a t, RowsGranted s ∧ GrantsKept s → OffTheSecond s a → LeaseStep s a t →
        RowsGranted t ∧ GrantsKept t :=
      fun s a t hinv hguard hstep => ⟨hinv.1.next hstep, hinv.2.next hinv.1 hguard hstep⟩
    have hinv := (h.invariant hkeep ⟨hs.rowsGranted, hs.grantsKept⟩ hall).2 m hm
    exact respected_of_guard hinv.1 hinv.2 (hall m hm) (h.step_of_mem hm)

end LeaseState

/-! ## Two tasks at one workspace -/

namespace LeaseRace

def newYear : Date where
  year := 2026
  month := 1
  day := 1
  year_pos := Nat.le_of_ble_eq_true rfl
  year_le := Nat.le_of_ble_eq_true rfl
  month_pos := Nat.le_of_ble_eq_true rfl
  month_le := Nat.le_of_ble_eq_true rfl
  day_pos := Nat.le_of_ble_eq_true rfl
  day_le := Nat.le_of_ble_eq_true rfl

/-- An hour of the day, and a fraction of its first second. -/
def hourOf (hour microsecond : Nat) (hhour : hour < 24) (hfraction : microsecond < 1000000) :
    Instant where
  date := newYear
  hour := hour
  minute := 0
  second := 0
  microsecond := microsecond
  hour_lt := hhour
  minute_lt := by decide
  second_lt := by decide
  microsecond_lt := hfraction

/-- The first task takes the workspace half a second after midnight, until half a second after one. -/
def first : LeaseAction :=
  .acquire "ws_1" "task_a" "run_a" "owner" "write" (hourOf 0 500000
    (Nat.le_of_ble_eq_true rfl) (Nat.le_of_ble_eq_true rfl))

/-- The second asks for it at a fraction before that, or at one sharp. -/
def second (microsecond : Nat) (h : microsecond < 1000000) : LeaseAction :=
  .acquire "ws_1" "task_b" "run_b" "owner" "write" (hourOf 1 microsecond (by decide) h)

end LeaseRace

namespace LeaseState

/-- Two hundred milliseconds before it expires, the lease keeps the other task out. -/
theorem lease_respected_iff_kept : ∃ ms t,
    Run LeaseStep {} ms t ∧ ms.length = 2 ∧ ∀ m ∈ ms, Respected m := by
  obtain ⟨s, hs⟩ : ∃ s, next {} LeaseRace.first = some s :=
    Option.isSome_iff_exists.mp (by decide +kernel)
  obtain ⟨t, ht⟩ : ∃ t, next s (LeaseRace.second 300000 (by decide)) = some t := by
    have hsome : ((next {} LeaseRace.first).bind fun s =>
        next s (LeaseRace.second 300000 (by decide))).isSome = true := by decide +kernel
    rw [hs, Option.bind_some] at hsome
    exact Option.isSome_iff_exists.mp hsome
  have hrun : Run LeaseStep {} _ t := (Run.single hs).snoc ht
  refine ⟨_, t, hrun, rfl, (lease_respected_iff ⟨fun _ => rfl, fun _ _ => rfl⟩ hrun).mpr ?_⟩
  intro m hm
  rcases List.mem_append.mp hm with hm | hm
  · rw [List.mem_singleton.mp hm]
    intro lease hlease
    cases hlease
  · rw [List.mem_singleton.mp hm]
    exact fun _ _ _ _ _ _ _ => by decide

/-- At one sharp, the lease has half a second left and the other task acquires the workspace. -/
theorem lease_taken_early : ¬∀ (s t : LeaseState) (ms : List (Move LeaseState LeaseAction)),
    s.Empty → Run LeaseStep s ms t → ∀ m ∈ ms, Respected m := by
  intro hall
  obtain ⟨s, hs⟩ : ∃ s, next {} LeaseRace.first = some s :=
    Option.isSome_iff_exists.mp (by decide +kernel)
  obtain ⟨t, ht⟩ : ∃ t, next s (LeaseRace.second 0 (by decide)) = some t := by
    have hsome : ((next {} LeaseRace.first).bind fun s =>
        next s (LeaseRace.second 0 (by decide))).isSome = true := by decide +kernel
    rw [hs, Option.bind_some] at hsome
    exact Option.isSome_iff_exists.mp hsome
  have hrun : Run LeaseStep {} _ t := (Run.single hs).snoc ht
  have hlaw := hall {} t _ ⟨fun _ => rfl, fun _ _ => rfl⟩ hrun _
    (List.mem_append_right _ (List.mem_singleton_self _))
  obtain ⟨expiry, hgranted, hlive⟩ : ∃ expiry, s.granted "ws_1" "task_a" = some expiry ∧
      (LeaseRace.hourOf 1 0 (by decide) (by decide)).micros < expiry.micros := by
    have hany : ((next {} LeaseRace.first).bind fun s => s.granted "ws_1" "task_a").any
        (fun expiry => decide ((LeaseRace.hourOf 1 0 (by decide) (by decide)).micros <
          expiry.micros)) = true := by decide +kernel
    rw [hs, Option.bind_some] at hany
    cases hexpiry : s.granted "ws_1" "task_a" with
    | none =>
      rw [hexpiry] at hany
      cases hany
    | some expiry =>
      rw [hexpiry, Option.any_some] at hany
      exact ⟨expiry, rfl, of_decide_eq_true hany⟩
  have hrefused : s.acquired (LeaseRace.second 0 (by decide)) = false :=
    (hlaw "ws_1" "task_a" expiry hgranted hlive (show "task_b" ≠ "task_a" by decide)).2.2 rfl
  have hacquired : (next {} LeaseRace.first).any
      (fun s => s.acquired (LeaseRace.second 0 (by decide))) = true := by decide +kernel
  rw [hs, Option.any_some, hrefused] at hacquired
  cases hacquired

end LeaseState

end ThreadForge

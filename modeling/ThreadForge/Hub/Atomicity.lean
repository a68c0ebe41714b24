import ThreadForge.Hub.Approvals
import ThreadForge.Lib.Faults

/-!
# The hub's approval operations when a write fails

`resolve_approval` and `_handle_approval` each write an approval and a task. When a write raises,
the operation undoes one of the two records and raises `PersistenceUnavailableError`: the first
puts the approval back, the second the task. A write can raise after it took effect, so the record
that is not undone may have been written.

## Main results

* `HubState.atomic_iff` — an operation that raised and was undone left the task and its pending
  approvals alone unless its second write failed after it took effect.
-/

namespace ThreadForge

open Faults

/-! ## Repository writes -/

/-- `_restore_pending_approval` of the hub. -/
def restorePendingApproval (approval : Approval) : Approval :=
  { approval with status := .pending, decision := none, decidedAt := none }

/-- One repository write. -/
inductive HubWrite
  | createTask (task : Task)
  | task (taskId now : String) (fn : Task → Task)
  | scrub (sessionId ownerId now : String)
  | createApproval (approval : Approval)
  | decide (approvalId now : String) (status : ApprovalStatus) (decision : String)
  | restore (approvalId : String)

namespace HubState

/-- The repositories after a write. The texts a session loses when its Worker has persisted it are one
write here. -/
def write (s : HubState) : HubWrite → HubState
  | .createTask task => { s with
      tasks := Function.update s.tasks task.taskId (some { task with input := "" }) }
  | .task taskId now fn => s.updateTask taskId now fn
  | .scrub sessionId ownerId now => s.scrubLocalTaskContent sessionId ownerId now
  | .createApproval approval => { s with approvals := s.approvals ++ [approval] }
  | .decide approvalId now status decision =>
    s.updateApproval approvalId (setApprovalDecision now status decision)
  | .restore approvalId => s.updateApproval approvalId restorePendingApproval

/-- The repositories after writes. -/
def writeAll (s : HubState) (ws : List HubWrite) : HubState := applyAll write s ws

/-! ## The writes of each operation -/

/-- The two writes of `resolve_approval`. -/
def decisionWrites (approval : Approval) (decision now : String) : List HubWrite :=
  [.decide approval.approvalId now (decisionStatus decision) decision,
   .task approval.taskId now (clearApproval now)]

/-- The two writes of `_handle_approval`. -/
def registrationWrites (taskId : String) (approval : Approval) (now : String) : List HubWrite :=
  [.task taskId now (setPendingApproval now approval), .createApproval approval]

end HubState

/-! ## Operations with faults -/

/-- An operation that raised `PersistenceUnavailableError`: its task, the hub it left, and whether
its compensating write went through. -/
structure Interrupted where
  taskId : String
  hub : HubState
  undone : Bool

/-- How the writes of an operation end: its two writes, and the compensating one. -/
structure OperationFaults where
  first : Fault := .none
  second : Fault := .none
  undo : Fault := .none
  deriving DecidableEq, Repr

/-- The two operations that write an approval and a task. -/
inductive ApprovalOp
  | resolve (approvalId decision : String) (expired : Bool) (now : String)
  | register (connection : WorkerConnection) (message : PyDict)
      (approvalId createdAt expiresAt now : String)

namespace HubState

/-- The `try` block of an operation and its handler. -/
def interrupted (s : HubState) (taskId : String) (ws : List (HubWrite × Fault))
    (undo : HubWrite × Fault) : Option Interrupted :=
  if (attempt ws).2 then none
  else some ⟨taskId, (s.writeAll (attempt ws).1).writeAll (tryEach [undo]).1, (tryEach [undo]).2⟩

/-- `resolve_approval` with failing writes, where it raises for one of them. -/
def resolveApprovalFailing (s : HubState) (approvalId decision : String) (expired : Bool)
    (now : String) (faults : OperationFaults) : Option Interrupted :=
  match s.getApproval approvalId, s.resolveApproval approvalId decision expired now with
  | .ok approval, .ok _ =>
    if approval.status = .pending then
      s.interrupted approval.taskId
        ((decisionWrites approval decision now).zip [faults.first, faults.second])
        (.restore approvalId, faults.undo)
    else none
  | _, _ => none

/-- The approval id is in use. -/
def Taken (s : HubState) (approvalId : String) : Prop :=
  ∃ other ∈ s.approvals, other.approvalId = approvalId

instance (s : HubState) (approvalId : String) : Decidable (s.Taken approvalId) :=
  inferInstanceAs (Decidable (∃ other ∈ s.approvals, other.approvalId = approvalId))

/-- The lock region of `_handle_approval` with failing writes, where it raises for one of them. An
approval id that is in use cannot be created. -/
def persistApprovalFailing (s : HubState) (taskId : String) (approval : Approval) (now : String)
    (faults : OperationFaults) : Option Interrupted :=
  match s.tasks taskId with
  | none => none
  | some task =>
    if task.status ≠ .running ∨ task.pendingApproval ≠ none then none
    else s.interrupted taskId
      ((registrationWrites taskId approval now).zip
        [faults.first, if s.Taken approval.approvalId then .before else faults.second])
      (.task taskId now (clearApproval now), faults.undo)

/-- An operation with failing writes, where it raises for one of them. -/
def runFailing (env : HubEnv) (s : HubState) (faults : OperationFaults) :
    ApprovalOp → Option Interrupted
  | .resolve approvalId decision expired now =>
    s.resolveApprovalFailing approvalId decision expired now faults
  | .register connection message approvalId createdAt expiresAt now =>
    match s.approvalOfMessage env connection message approvalId createdAt expiresAt with
    | .ok approval => s.persistApprovalFailing approval.taskId approval now faults
    | .error _ => none

/-- The task has the status and the pending approval it had, and the same approvals pending. -/
structure Unchanged (s s' : HubState) (taskId : String) : Prop where
  task : (s'.tasks taskId).map (fun task => (task.status, task.pendingApproval)) =
    (s.tasks taskId).map fun task => (task.status, task.pendingApproval)
  approvals : ∀ approvalId,
    PendingFor s'.approvals taskId approvalId ↔ PendingFor s.approvals taskId approvalId

/-- The second write raises after it took effect. -/
def SecondWritten (s : HubState) (faults : OperationFaults) : ApprovalOp → Prop
  | .resolve .. => faults.first = .none ∧ faults.second = .after
  | .register _ _ approvalId _ _ _ =>
    faults.first = .none ∧ faults.second = .after ∧ ¬ s.Taken approvalId

variable {env : HubEnv} {s s' : HubState}

/-! ## Where a write can fail -/

/-- What two writes and a compensation that goes through leave, by the write that failed. -/
theorem interrupted_cases {taskId : String} {w₁ w₂ undo : HubWrite} {f₁ f₂ f : Fault}
    {r : Interrupted} (h : s.interrupted taskId [(w₁, f₁), (w₂, f₂)] (undo, f) = some r)
    (hundone : r.undone = true) :
    r.taskId = taskId ∧
      ((f₁ = .before ∧ r.hub = s.write undo) ∨
        (f₁ = .after ∧ r.hub = (s.write w₁).write undo) ∨
        (f₁ = .none ∧ f₂ = .before ∧ r.hub = (s.write w₁).write undo) ∨
        (f₁ = .none ∧ f₂ = .after ∧ r.hub = ((s.write w₁).write w₂).write undo)) := by
  unfold interrupted at h
  split at h
  · cases h
  next hfailed =>
  have hr := Option.some.inj h
  rw [← hr] at hundone ⊢
  have hquiet : f = .none := by
    simp only [tryEach, List.all_cons, List.all_nil, Bool.and_true, decide_eq_true_eq] at hundone
    exact hundone
  subst hquiet
  refine ⟨rfl, ?_⟩
  cases f₁ with
  | before => exact Or.inl ⟨rfl, rfl⟩
  | after => exact Or.inr (Or.inl ⟨rfl, rfl⟩)
  | none =>
    cases f₂ with
    | none => exact absurd rfl hfailed
    | before => exact Or.inr (Or.inr (Or.inl ⟨rfl, rfl, rfl⟩))
    | after => exact Or.inr (Or.inr (Or.inr ⟨rfl, rfl, rfl⟩))

/-! ## Restoring one record -/

/-- Restoring the one approval of a key after a decision on it, or after none. -/
theorem pendingFor_restore (hkeys : s.KeysUnique) {approval : Approval}
    (hmem : approval ∈ s.approvals) (hpending : approval.status = .pending)
    (fn : Approval → Approval)
    (hfn : ∀ a, (restorePendingApproval (fn a)).approvalId = a.approvalId ∧
      (restorePendingApproval (fn a)).taskId = a.taskId)
    (taskId id : String) :
    PendingFor (s.approvals.map fun a =>
        if a.approvalId = approval.approvalId then restorePendingApproval (fn a) else a) taskId id ↔
      PendingFor s.approvals taskId id := by
  constructor
  · rintro ⟨a', ha', hid, htask, hopen⟩
    obtain ⟨a, ha, hmap⟩ := List.mem_map.mp ha'
    by_cases hkey : a.approvalId = approval.approvalId
    · rw [if_pos hkey] at hmap
      have hsame : a = approval := List.inj_on_of_nodup_map hkeys ha hmem hkey
      refine ⟨a, ha, ?_, ?_, by rw [hsame]; exact hpending⟩
      · rw [← hid, ← hmap, (hfn a).1]
      · rw [← htask, ← hmap, (hfn a).2]
    · rw [if_neg hkey] at hmap
      rw [hmap] at ha
      exact ⟨a', ha, hid, htask, hopen⟩
  · rintro ⟨a, ha, hid, htask, hopen⟩
    by_cases hkey : a.approvalId = approval.approvalId
    · refine ⟨restorePendingApproval (fn a), List.mem_map.mpr ⟨a, ha, if_pos hkey⟩, ?_, ?_, rfl⟩
      · rw [(hfn a).1, hid]
      · rw [(hfn a).2, htask]
    · exact ⟨a, List.mem_map.mpr ⟨a, ha, if_neg hkey⟩, hid, htask, hopen⟩

/-- What the checks of `resolve_approval` establish. -/
theorem resolveApproval_waiting {approvalId decision now : String} {expired : Bool}
    {approval : Approval} (hget : s.getApproval approvalId = .ok approval)
    (hpending : approval.status = .pending)
    (h : s.resolveApproval approvalId decision expired now = .ok s') :
    ∃ task, s.tasks approval.taskId = some task ∧ task.status = .waitingForApproval := by
  unfold resolveApproval at h
  rw [hget] at h
  simp only at h
  rw [if_neg (not_not.mpr hpending)] at h
  split at h
  · cases h
  split at h
  · cases h
  split at h
  · cases h
  split at h
  · cases h
  split at h
  · cases h
  next task htask =>
  split at h
  · cases h
  next hwaiting =>
  refine ⟨task, ?_, not_not.mp hwaiting⟩
  unfold getTask at htask
  split at htask
  · next found hfound => rw [hfound, Except.ok.inj htask]
  · cases htask

theorem approvalOfMessage_ok {connection : WorkerConnection} {message : PyDict}
    {approvalId createdAt expiresAt : String} {approval : Approval}
    (h : s.approvalOfMessage env connection message approvalId createdAt expiresAt = .ok approval) :
    approval.approvalId = approvalId ∧ approval.status = .pending := by
  simp only [approvalOfMessage] at h
  split at h
  · cases h
  split at h
  · cases h
  split at h
  · split at h
    · cases h
    · rw [← Except.ok.inj h]
      exact ⟨rfl, rfl⟩
  · cases h

/-! ## The two operations -/

/-- Restored after its decision, or without one, the approval is pending again and the task was
never written. -/
theorem unchanged_restore (hkeys : s.KeysUnique) {approval : Approval}
    (hmem : approval ∈ s.approvals) (hpending : approval.status = .pending) (taskId now : String)
    (status : ApprovalStatus) (decision : String) :
    s.Unchanged (s.write (.restore approval.approvalId)) taskId ∧
      s.Unchanged ((s.write (.decide approval.approvalId now status decision)).write
        (.restore approval.approvalId)) taskId := by
  refine ⟨⟨rfl, fun id => ?_⟩, ⟨rfl, fun id => ?_⟩⟩
  · exact pendingFor_restore hkeys hmem hpending (fun a => a) (fun _ => ⟨rfl, rfl⟩) taskId id
  · have htwice : ((s.write (.decide approval.approvalId now status decision)).write
        (.restore approval.approvalId)).approvals = s.approvals.map fun a =>
          if a.approvalId = approval.approvalId then
            restorePendingApproval (setApprovalDecision now status decision a) else a := by
      simp only [write, updateApproval, List.map_map]
      refine List.map_congr_left fun a _ => ?_
      by_cases hkey : a.approvalId = approval.approvalId
      · have hstill : (setApprovalDecision now status decision a).approvalId =
            approval.approvalId := hkey
        simp only [Function.comp_apply, if_pos hkey, if_pos hstill]
      · simp only [Function.comp_apply, if_neg hkey]
    rw [htwice]
    exact pendingFor_restore hkeys hmem hpending (setApprovalDecision now status decision)
      (fun _ => ⟨rfl, rfl⟩) taskId id

/-- `resolve_approval` undoes its first write only. -/
theorem resolveApprovalFailing_iff (hkeys : s.KeysUnique) {approvalId decision now : String}
    {expired : Bool} {faults : OperationFaults} {r : Interrupted}
    (hraised : s.resolveApprovalFailing approvalId decision expired now faults = some r)
    (hundone : r.undone = true) :
    s.Unchanged r.hub r.taskId ↔ ¬ (faults.first = .none ∧ faults.second = .after) := by
  unfold resolveApprovalFailing at hraised
  cases hget : s.getApproval approvalId with
  | error e => rw [hget] at hraised; cases hraised
  | ok approval =>
    cases hresolve : s.resolveApproval approvalId decision expired now with
    | error e => rw [hget, hresolve] at hraised; cases hraised
    | ok s' =>
      rw [hget, hresolve] at hraised
      simp only at hraised
      by_cases hpending : approval.status = .pending
      · rw [if_pos hpending] at hraised
        obtain ⟨hmem, hid⟩ := getApproval_mem hget
        obtain ⟨task, htask, hwaiting⟩ := resolveApproval_waiting hget hpending hresolve
        obtain ⟨hrestored, hdecided⟩ := unchanged_restore hkeys hmem hpending approval.taskId now
          (decisionStatus decision) decision
        rw [← hid] at hraised
        obtain ⟨htaskId, hcases⟩ := interrupted_cases hraised hundone
        rw [htaskId]
        rcases hcases with ⟨hf, hhub⟩ | ⟨hf, hhub⟩ | ⟨-, hf, hhub⟩ | ⟨hf₁, hf₂, hhub⟩
        · rw [hhub, hf]
          exact iff_of_true hrestored (by rintro ⟨h, -⟩; cases h)
        · rw [hhub, hf]
          exact iff_of_true hdecided (by rintro ⟨h, -⟩; cases h)
        · rw [hhub, hf]
          exact iff_of_true hdecided (by rintro ⟨-, h⟩; cases h)
        · -- the task is running again, and nothing sets it back
          refine iff_of_false (fun hsame => ?_) (not_not.mpr ⟨hf₁, hf₂⟩)
          have hrunning := hsame.task
          rw [hhub, htask] at hrunning
          have hset : (((s.write (.decide approval.approvalId now (decisionStatus decision)
              decision)).write (.task approval.taskId now (clearApproval now))).write
                (.restore approval.approvalId)).tasks approval.taskId =
              some { clearApproval now task with updatedAt := now } := by
            show Function.update _ _ _ _ = _
            rw [Function.update_self]
            show (s.tasks approval.taskId).map _ = _
            rw [htask]
            rfl
          rw [hset] at hrunning
          have hstatus : TaskStatus.running = task.status :=
            congrArg Prod.fst (Option.some.inj hrunning)
          rw [hwaiting] at hstatus
          cases hstatus
      · rw [if_neg hpending] at hraised
        cases hraised

/-- Set waiting and put back, or put back at once, a running task is as it was. -/
theorem unchanged_clear {taskId : String} {task : Task} (htask : s.tasks taskId = some task)
    (hrunning : task.status = .running) (hnone : task.pendingApproval = none) (now : String)
    (approval : Approval) :
    s.Unchanged (s.write (.task taskId now (clearApproval now))) taskId ∧
      s.Unchanged ((s.write (.task taskId now (setPendingApproval now approval))).write
        (.task taskId now (clearApproval now))) taskId := by
  refine ⟨⟨?_, fun _ => Iff.rfl⟩, ⟨?_, fun _ => Iff.rfl⟩⟩
  · simp only [write, updateTask, Function.update_self, htask, Option.map_some, clearApproval,
      hrunning, hnone]
  · simp only [write, updateTask, Function.update_self, htask, Option.map_some, clearApproval,
      hrunning, hnone]

/-- `_handle_approval` undoes its first write only. -/
theorem persistApprovalFailing_iff {taskId now : String} {approval : Approval}
    (hpending : approval.status = .pending) (hown : approval.taskId = taskId)
    {faults : OperationFaults} {r : Interrupted}
    (hraised : s.persistApprovalFailing taskId approval now faults = some r)
    (hundone : r.undone = true) :
    s.Unchanged r.hub r.taskId ↔
      ¬ (faults.first = .none ∧ faults.second = .after ∧ ¬ s.Taken approval.approvalId) := by
  unfold persistApprovalFailing at hraised
  cases htask : s.tasks taskId with
  | none => rw [htask] at hraised; cases hraised
  | some task =>
    rw [htask] at hraised
    simp only at hraised
    by_cases hrefused : task.status ≠ .running ∨ task.pendingApproval ≠ none
    · rw [if_pos hrefused] at hraised
      cases hraised
    rw [if_neg hrefused] at hraised
    push Not at hrefused
    obtain ⟨hcleared, hset⟩ := unchanged_clear htask hrefused.1 hrefused.2 now approval
    obtain ⟨htaskId, hcases⟩ := interrupted_cases hraised hundone
    rw [htaskId]
    rcases hcases with ⟨hf, hhub⟩ | ⟨hf, hhub⟩ | ⟨-, hf, hhub⟩ | ⟨hf₁, hf₂, hhub⟩
    · rw [hhub, hf]
      exact iff_of_true hcleared (by rintro ⟨h, -⟩; cases h)
    · rw [hhub, hf]
      exact iff_of_true hset (by rintro ⟨h, -⟩; cases h)
    · rw [hhub]
      refine iff_of_true hset fun ⟨_, hafter, hfresh⟩ => ?_
      rw [if_neg hfresh, hafter] at hf
      cases hf
    · by_cases htaken : s.Taken approval.approvalId
      · rw [if_pos htaken] at hf₂
        cases hf₂
      rw [if_neg htaken] at hf₂
      -- the approval is stored and pending, and nothing takes it back
      refine iff_of_false (fun hsame => ?_) (not_not.mpr ⟨hf₁, hf₂, htaken⟩)
      have hstored : PendingFor r.hub.approvals taskId approval.approvalId := by
        rw [hhub]
        exact ⟨approval, List.mem_append_right _ (List.mem_singleton_self _), rfl, hown, hpending⟩
      obtain ⟨other, hother, hid, -⟩ := (hsame.approvals approval.approvalId).mp hstored
      exact htaken ⟨other, hother, hid⟩

/--
**The approval operations are atomic unless their second write fails late.**

Every `resolve_approval` and every approval request, on every hub and under every failing write:
when the operation raises `PersistenceUnavailableError` and its compensating write goes through,
the task has the status and the pending approval it had, and the same approvals pending, if and
only if the failing write is not the second one failing after it took effect.
-/
theorem atomic_iff (hkeys : s.KeysUnique) (op : ApprovalOp) (faults : OperationFaults)
    {r : Interrupted} (hraised : s.runFailing env faults op = some r)
    (hundone : r.undone = true) :
    s.Unchanged r.hub r.taskId ↔ ¬ s.SecondWritten faults op := by
  cases op with
  | resolve approvalId decision expired now =>
    exact resolveApprovalFailing_iff hkeys hraised hundone
  | register connection message approvalId createdAt expiresAt now =>
    simp only [runFailing] at hraised
    cases happroval : s.approvalOfMessage env connection message approvalId createdAt expiresAt with
    | error e => rw [happroval] at hraised; cases hraised
    | ok approval =>
      rw [happroval] at hraised
      obtain ⟨hid, hpending⟩ := approvalOfMessage_ok happroval
      have hiff := persistApprovalFailing_iff hpending rfl hraised hundone
      rw [hid] at hiff
      exact hiff

/-! ## One hub -/

/-- The approval of a task that waits. -/
def waitingApproval : Approval where
  approvalId := "apr_1"
  taskId := "task_1"
  runId := "run_1"
  ownerId := "owner"
  toolCallId := "call_1"
  toolName := "write_file"
  argsDigest := ""
  argsPreview := []
  createdAt := "t1"

/-- A hub whose only task waits for it. -/
def waitingHub : HubState := { OneTask.hub with
  tasks := fun id => if id = "task_1" then some (setPendingApproval "t1" waitingApproval OneTask.task)
    else none
  approvals := [waitingApproval]
  connections := fun id =>
    if id = "dev_1" then some { OneTask.connection with ready := true } else none
  deviceByTask := fun id => if id = "task_1" then some "dev_1" else none }

/-- The task write raises before it takes effect. -/
theorem atomic_iff_early :
    ∃ r, waitingHub.runFailing OneTask.env { second := .before }
        (.resolve "apr_1" "approved" false "t2") = some r ∧
      waitingHub.Unchanged r.hub r.taskId := by
  have hkeys : waitingHub.KeysUnique := List.nodup_singleton _
  obtain ⟨r, hr⟩ : ∃ r, waitingHub.runFailing OneTask.env { second := .before }
      (.resolve "apr_1" "approved" false "t2") = some r := ⟨_, rfl⟩
  have hundone : r.undone = true := by
    rw [← Option.some.inj hr]
    rfl
  refine ⟨r, hr, (atomic_iff hkeys _ _ hr hundone).mpr ?_⟩
  rintro ⟨-, h⟩
  cases h

/-- **A decision that failed late leaves the task running.** The task write takes effect and then
raises; the approval is put back, and waits for a task that no longer waits. -/
theorem late_failure_leaves_running :
    ∃ r, waitingHub.runFailing OneTask.env { second := .after }
        (.resolve "apr_1" "approved" false "t2") = some r ∧
      r.undone = true ∧ r.taskId = "task_1" ∧ ¬ waitingHub.Unchanged r.hub "task_1" ∧
      PendingFor r.hub.approvals "task_1" "apr_1" := by
  refine ⟨_, rfl, rfl, rfl, fun hsame => ?_, _, List.mem_singleton_self _, rfl, rfl, rfl⟩
  have hstatus : TaskStatus.running = TaskStatus.waitingForApproval :=
    congrArg Prod.fst (Option.some.inj hsame.task)
  cases hstatus

end HubState

end ThreadForge

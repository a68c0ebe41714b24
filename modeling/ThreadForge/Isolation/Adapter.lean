import ThreadForge.Isolation.WriteBack

/-!
# A run and its lease

`NativeRuntimeAdapter.run` takes the lease of the workspace in `prepare` and gives it back in
`finalize`. Between the two, and inside both, steps can raise.

## Main results

* `IsolationState.prepare_cases` — what `prepare` leaves of the lease.
* `IsolationState.finalize_leases` — `finalize` gives the lease back where it returns.
* `IsolationState.lease_freed_iff` — when a run that is over does not hold its workspace.
-/

namespace ThreadForge

open Timestamps

/-- The tree without what is excluded. -/
def withoutExcluded (t : PlainTree) : PlainTree where
  node? path := if excludedPath path then none else t.node? path
  paths := t.paths
  root := by
    rw [t.root, ite_self]
  listed path h := by
    split at h
    · exact absurd rfl h
    · exact t.listed path h
  closed path name h := by
    have hpath : excludedPath (path ++ [name]) = false := by
      by_contra hexcluded
      rw [Bool.not_eq_false] at hexcluded
      rw [if_pos hexcluded] at h
      exact h rfl
    have hparent : excludedPath path = false := by
      rw [excludedPath, List.any_append, Bool.or_eq_false_iff] at hpath
      exact hpath.1
    rw [hpath, if_neg Bool.false_ne_true] at h
    rw [hparent, if_neg Bool.false_ne_true]
    exact t.closed path name h

/-- What a run is started with. -/
structure AdapterRun where
  taskId : String
  runId : String
  workspaceId : String
  ownerId : String

/-- What `run_native` leaves: the state of the task, whether it raised, what became of the snapshot,
and what the user made of the workspace meanwhile. -/
structure NativeRun where
  status : String
  stopReason : String := ""
  finalAnswer : String := ""
  raised : Bool := false
  snapshot : PlainTree
  workspace : PlainTree

namespace IsolationState

variable (sha256 : List UInt8 → String) (faults : AdapterFaults) (s : IsolationState)
  (run : AdapterRun) (native : NativeRun) (expiresAt now : String)

/-- The `acquire` of `prepare`. -/
def acquireFor : LeaseTable × String × Bool :=
  s.leases.acquire run.workspaceId run.taskId run.runId run.ownerId "write" expiresAt now

/-- `prepare`: the handle, where it does not raise. Only the copy of the tree is guarded. -/
def prepare : IsolationState × Option IsolationHandle :=
  if faults.raises .recheck then (s, none)
  else
    let (leases, token, acquired) := s.acquireFor run expiresAt now
    if !acquired then ({ s with leases := leases }, none)
    else if faults.raises .copyTree then
      ({ s with leases := (leases.release run.workspaceId token).1 }, none)
    else
      let prepared : IsolationState :=
        { s with leases := leases, snapshot := withoutExcluded s.workspace }
      if faults.raises .manifest then (prepared, none)
      else (prepared, some {
        workspaceId := run.workspaceId
        baseline := manifest sha256 prepared.snapshot
        leaseToken := token })

/-- `NativeRuntimeAdapter.run`: the state after it, and whether it returned. -/
def runAdapter : IsolationState × Bool :=
  match s.prepare sha256 faults run expiresAt now with
  | (prepared, none) => (prepared, false)
  | (prepared, some handle) =>
    if faults.raises .buildContext then (prepared, false)
    else if faults.raises .buildPico then (prepared, false)
    else
      let ran := { prepared with snapshot := native.snapshot, workspace := native.workspace }
      match ran.finalize sha256 faults handle (native.status = "completed") with
      | (finalized, none) => (finalized, false)
      | (finalized, some result) =>
        if (result.applied ∨ result.conflicts ≠ []) ∧ faults.raises .publish then (finalized, false)
        else (finalized, !native.raised)

/-- The task does not hold the workspace, and the next one that asks gets it. -/
structure LeaseFreed (workspaceId taskId : String) : Prop where
  notHeld : ∀ lease, s.leases workspaceId = some lease → lease.holderTaskId ≠ taskId
  nextAcquires : ∀ taskId' runId ownerId mode expiresAt now,
    (s.leases.acquire workspaceId taskId' runId ownerId mode expiresAt now).2.2 = true

/-- `finalize` gets to its end: the snapshot can be read, and where the run is completed and changed
something, so can the workspace, and where nothing conflicts the changes go through. -/
structure FinalizeEnds (handle : IsolationHandle) (apply : Bool) : Prop where
  changedPaths : faults.raises .changedPaths = false
  conflicts : apply = true → s.changedPaths sha256 handle ≠ [] →
    faults.raises .conflicts = false
  applied : apply = true → s.changedPaths sha256 handle ≠ [] →
    IsolationState.conflicts sha256 handle.baseline s.workspace (s.changedPaths sha256 handle) = [] →
    ∃ t, IsolationState.apply faults s.snapshot (s.changedPaths sha256 handle) s.workspace = .ok t

variable {sha256 faults s run native expiresAt now}

/-! ## What becomes of the lease -/

/-- **`finalize` gives the lease back exactly where it gets to its end.** -/
theorem finalize_leases (handle : IsolationHandle) (apply : Bool) :
    FinalizeEnds sha256 faults s handle apply ∧
        (s.finalize sha256 faults handle apply).1.leases =
          (s.leases.release handle.workspaceId handle.leaseToken).1 ∨
      ¬FinalizeEnds sha256 faults s handle apply ∧
        (s.finalize sha256 faults handle apply).1.leases = s.leases := by
  rw [finalize]
  by_cases hchanged : faults.raises .changedPaths = true
  · right
    rw [if_pos hchanged]
    refine ⟨fun h => ?_, rfl⟩
    rw [h.changedPaths] at hchanged
    cases hchanged
  rw [if_neg hchanged]
  rw [Bool.not_eq_true] at hchanged
  simp only
  by_cases happly : apply = true ∧ s.changedPaths sha256 handle ≠ []
  · rw [if_pos happly]
    by_cases hconflicts : faults.raises .conflicts = true
    · right
      rw [if_pos hconflicts]
      refine ⟨fun h => ?_, rfl⟩
      rw [h.conflicts happly.1 happly.2] at hconflicts
      cases hconflicts
    rw [if_neg hconflicts]
    rw [Bool.not_eq_true] at hconflicts
    by_cases hclean : IsolationState.conflicts sha256 handle.baseline s.workspace
        (s.changedPaths sha256 handle) = []
    · rw [if_pos hclean]
      cases happlied : IsolationState.apply faults s.snapshot (s.changedPaths sha256 handle)
          s.workspace with
      | ok t => exact Or.inl ⟨⟨hchanged, fun _ _ => hconflicts, fun _ _ _ => ⟨t, happlied⟩⟩, rfl⟩
      | error t =>
        right
        refine ⟨fun h => ?_, rfl⟩
        obtain ⟨t', ht'⟩ := h.applied happly.1 happly.2 hclean
        rw [happlied] at ht'
        cases ht'
    · rw [if_neg hclean]
      exact Or.inl ⟨⟨hchanged, fun _ _ => hconflicts, fun _ _ h => absurd h hclean⟩, rfl⟩
  · rw [if_neg happly]
    exact Or.inl ⟨⟨hchanged, fun h h' => absurd ⟨h, h'⟩ happly,
      fun h h' => absurd ⟨h, h'⟩ happly⟩, rfl⟩

/-- The lease that `acquire` grants is the caller's. -/
theorem acquireFor_granted (h : (s.acquireFor run expiresAt now).2.2 = true) :
    (s.acquireFor run expiresAt now).2.1 = leaseToken run.taskId ∧
      ∃ lease, (s.acquireFor run expiresAt now).1 run.workspaceId = some lease ∧
        lease.holderTaskId = run.taskId ∧ lease.leaseToken = leaseToken run.taskId := by
  rcases s.leases.acquire_cases run.workspaceId run.taskId run.runId run.ownerId "write" expiresAt
    now with ⟨_, -, -, -, hresult⟩ | ⟨-, hresult⟩
  · rw [acquireFor, hresult] at h
    cases h
  · rw [acquireFor, hresult]
    exact ⟨rfl, _, Function.update_self .., rfl, rfl⟩

/-- What was released is free. -/
theorem freed_of_release {leases : LeaseTable} {lease : WorkspaceLease} {taskId token : String}
    {workspaceId : String} (hlease : leases workspaceId = some lease)
    (htoken : lease.leaseToken = token)
    (h : s.leases = (leases.release workspaceId token).1) : s.LeaseFreed workspaceId taskId := by
  have hnone : s.leases workspaceId = none := by
    rw [h, LeaseTable.release_of_token hlease htoken]
    exact Function.update_self ..
  refine ⟨fun found hfound => ?_, fun taskId' runId ownerId mode expiresAt now => ?_⟩
  · rw [hnone] at hfound
    cases hfound
  · rcases s.leases.acquire_cases workspaceId taskId' runId ownerId mode expiresAt now with
      ⟨found, hfound, -⟩ | ⟨-, hresult⟩
    · rw [hnone] at hfound
      cases hfound
    · rw [hresult]

/-- A task that is in the table is not free. -/
theorem not_freed_of_held {workspaceId taskId : String} {lease : WorkspaceLease}
    (hlease : s.leases workspaceId = some lease) (hholder : lease.holderTaskId = taskId) :
    ¬s.LeaseFreed workspaceId taskId := fun h => h.notHeld lease hlease hholder

/-- The state in which `run_native` leaves the two trees. -/
def afterNative (s : IsolationState) (leases : LeaseTable) (native : NativeRun) : IsolationState :=
  { s with leases := leases, snapshot := native.snapshot, workspace := native.workspace }

/-- The handle `prepare` returns. -/
def preparedHandle (sha256 : List UInt8 → String) (s : IsolationState) (run : AdapterRun) :
    IsolationHandle where
  workspaceId := run.workspaceId
  baseline := manifest sha256 (withoutExcluded s.workspace)
  leaseToken := leaseToken run.taskId

/-- The steps of a run that can leave its lease behind do not raise: those between `acquire` and the
`try` of `run`, and those of `finalize` before `_cleanup`. -/
structure LeaseSafe (sha256 : List UInt8 → String) (faults : AdapterFaults) (s : IsolationState)
    (run : AdapterRun) (native : NativeRun) (expiresAt now : String) : Prop where
  manifest : faults.raises .manifest = false
  buildContext : faults.raises .buildContext = false
  buildPico : faults.raises .buildPico = false
  finalize : FinalizeEnds sha256 faults
    (s.afterNative (s.acquireFor run expiresAt now).1 native) (preparedHandle sha256 s run)
    (native.status = "completed")

/--
**A run that is over does not hold its workspace**, however it ended, exactly when it could not copy
the tree or raised nowhere between `acquire` and the `try` of `run` nor in `finalize` before
`_cleanup`.
-/
theorem lease_freed_iff (sha256 : List UInt8 → String) (faults : AdapterFaults)
    (s : IsolationState) (run : AdapterRun) (native : NativeRun) (expiresAt now : String)
    (hfound : faults.raises .recheck = false)
    (hacquired : (s.acquireFor run expiresAt now).2.2 = true) :
    (s.runAdapter sha256 faults run native expiresAt now).1.LeaseFreed run.workspaceId run.taskId ↔
      faults.raises .copyTree = true ∨ LeaseSafe sha256 faults s run native expiresAt now := by
  obtain ⟨htoken, lease, hlease, hholder, hleaseToken⟩ := acquireFor_granted hacquired
  have hrecheck : ¬faults.raises .recheck = true := by
    rw [hfound]
    exact Bool.false_ne_true
  by_cases hcopy : faults.raises .copyTree = true
  · refine iff_of_true ?_ (Or.inl hcopy)
    refine freed_of_release hlease hleaseToken ?_
    simp only [runAdapter, prepare, if_neg hrecheck, hacquired, Bool.not_true, Bool.false_eq_true,
      if_false, if_pos hcopy, htoken]
  by_cases hmanifest : faults.raises .manifest = true
  · refine iff_of_false (not_freed_of_held ?_ hholder) ?_
    · simp only [runAdapter, prepare, if_neg hrecheck, hacquired, Bool.not_true, Bool.false_eq_true,
        if_false, if_neg hcopy, if_pos hmanifest]
      exact hlease
    · rintro (h | h)
      · exact hcopy h
      · rw [h.manifest] at hmanifest
        cases hmanifest
  have hprepared : s.prepare sha256 faults run expiresAt now =
      ({ s with
        leases := (s.acquireFor run expiresAt now).1
        snapshot := withoutExcluded s.workspace }, some (preparedHandle sha256 s run)) := by
    simp only [prepare, if_neg hrecheck, hacquired, Bool.not_true, Bool.false_eq_true, if_false,
      if_neg hcopy, if_neg hmanifest, htoken, preparedHandle]
  by_cases hcontext : faults.raises .buildContext = true
  · refine iff_of_false (not_freed_of_held ?_ hholder) ?_
    · simp only [runAdapter, hprepared, if_pos hcontext]
      exact hlease
    · rintro (h | h)
      · exact hcopy h
      · rw [h.buildContext] at hcontext
        cases hcontext
  by_cases hpico : faults.raises .buildPico = true
  · refine iff_of_false (not_freed_of_held ?_ hholder) ?_
    · simp only [runAdapter, hprepared, if_neg hcontext, if_pos hpico]
      exact hlease
    · rintro (h | h)
      · exact hcopy h
      · rw [h.buildPico] at hpico
        cases hpico
  -- from here on the lease is where `finalize` leaves it
  have hleases : (s.runAdapter sha256 faults run native expiresAt now).1.leases =
      ((s.afterNative (s.acquireFor run expiresAt now).1 native).finalize sha256 faults
        (preparedHandle sha256 s run) (native.status = "completed")).1.leases := by
    simp only [runAdapter, hprepared, if_neg hcontext, if_neg hpico, afterNative]
    split
    · next hfinal => rw [hfinal]
    · next hfinal =>
      rw [hfinal]
      split <;> rfl
  rcases finalize_leases (preparedHandle sha256 s run) (native.status = "completed") with
    ⟨hends, hend⟩ | ⟨hends, hend⟩
  · refine iff_of_true ?_ (Or.inr ?_)
    · exact freed_of_release hlease hleaseToken (hleases.trans hend)
    · exact ⟨Bool.not_eq_true _ ▸ hmanifest, Bool.not_eq_true _ ▸ hcontext,
        Bool.not_eq_true _ ▸ hpico, hends⟩
  · refine iff_of_false (not_freed_of_held ?_ hholder) ?_
    · rw [hleases, hend]
      exact hlease
    · rintro (h | h)
      · exact hcopy h
      · exact hends h.finalize

/-! ## Two runs -/

/-- A run of a task on an empty workspace. -/
def sampleRun : AdapterRun where
  taskId := "task_1"
  runId := "run_1"
  workspaceId := "ws_1"
  ownerId := "owner"

def sampleNative : NativeRun where
  status := "completed"
  snapshot := oneFile [1]
  workspace := emptyTree

theorem exists_ok_of_isSome {ε α : Type} {x : Except ε α} (h : x.toOption.isSome = true) :
    ∃ a, x = .ok a := by
  cases x with
  | ok a => exact ⟨a, rfl⟩
  | error e => cases h

/-- A run that creates a file and raises nowhere gives its workspace back. -/
theorem lease_freed_iff_returned :
    (({ workspace := emptyTree, snapshot := emptyTree } : IsolationState).runAdapter
      (fun content => toString content.length) {} sampleRun sampleNative
      "2026-01-01T01:00:00Z" "2026-01-01T00:00:00Z").1.LeaseFreed "ws_1" "task_1" := by
  refine (lease_freed_iff (fun content => toString content.length) {}
    { workspace := emptyTree, snapshot := emptyTree } sampleRun sampleNative
    "2026-01-01T01:00:00Z" "2026-01-01T00:00:00Z" rfl (by decide +kernel)).mpr (Or.inr ?_)
  refine ⟨rfl, rfl, rfl, rfl, fun _ _ => rfl, fun _ _ _ => ?_⟩
  exact exists_ok_of_isSome (by decide +kernel)

/-- A run whose `Pico` cannot be built keeps its workspace. -/
theorem lease_leaked : ¬∀ (sha256 : List UInt8 → String) (faults : AdapterFaults)
    (s : IsolationState) (run : AdapterRun) (native : NativeRun) (expiresAt now : String),
    faults.raises .recheck = false → (s.acquireFor run expiresAt now).2.2 = true →
    (s.runAdapter sha256 faults run native expiresAt now).1.LeaseFreed
      run.workspaceId run.taskId := by
  intro hall
  have h := hall (fun content => toString content.length)
    { raises := fun step => step = .buildPico } { workspace := emptyTree, snapshot := emptyTree }
    sampleRun sampleNative "2026-01-01T01:00:00Z" "2026-01-01T00:00:00Z" rfl (by decide +kernel)
  have hheld : ((({ workspace := emptyTree, snapshot := emptyTree } : IsolationState).runAdapter
      (fun content => toString content.length) { raises := fun step => step = .buildPico }
      sampleRun sampleNative "2026-01-01T01:00:00Z" "2026-01-01T00:00:00Z").1.leases "ws_1").any
      (fun lease => lease.holderTaskId = "task_1") = true := by decide +kernel
  cases hlease : (({ workspace := emptyTree, snapshot := emptyTree } : IsolationState).runAdapter
      (fun content => toString content.length) { raises := fun step => step = .buildPico }
      sampleRun sampleNative "2026-01-01T01:00:00Z" "2026-01-01T00:00:00Z").1.leases "ws_1" with
  | none =>
    rw [hlease] at hheld
    cases hheld
  | some lease =>
    rw [hlease, Option.any_some] at hheld
    exact h.notHeld lease hlease (of_decide_eq_true hheld)

end IsolationState

end ThreadForge

import ThreadForge.Isolation.Leases
import ThreadForge.Lib.PlainTree
import Mathlib.Data.List.Sort
import Mathlib.Data.List.Dedup

/-!
# Writing a run back to the workspace

A run works in a snapshot of the workspace. `finalize` compares the snapshot with what it was made
of, looks for conflicts with what the workspace is by now, and copies the changed files back.

## Main results

* `mem_diff` — what the changed paths are.
* `IsolationState.applyAll_ok` — when the changes go through, and what they leave.
* `IsolationState.written_back_iff` — when no change of the user is overwritten.
-/

namespace ThreadForge

/-! ## Manifests -/

/-- `_ISOLATION_EXCLUDED`. -/
def isolationExcluded : List String :=
  [".git", ".pico", "__pycache__", ".pytest_cache", ".ruff_cache", "node_modules"]

/-- A component of the path is excluded. -/
def excludedPath (path : List String) : Bool := path.any fun part => part ∈ isolationExcluded

/-- `as_posix()`. -/
def posix : List String → List Char
  | [] => []
  | [name] => name.toList
  | name :: rest => name.toList ++ '/' :: posix rest

/-- The digests of the files of a tree. -/
abbrev Manifest := List (List String × String)

/-- `_manifest`. -/
def manifest (sha256 : List UInt8 → String) (t : PlainTree) : Manifest :=
  t.paths.dedup.filterMap fun path =>
    if excludedPath path then none
    else (t.content? path).map fun content => (path, sha256 content)

/-- The order of `sorted`. -/
def posixLe (a b : List String) : Prop := posix a ≤ posix b

instance (a b : List String) : Decidable (posixLe a b) := inferInstanceAs (Decidable (_ ≤ _))

/-- `_diff`. -/
def diff (before after : Manifest) : List (List String) :=
  ((before.map Prod.fst ++ after.map Prod.fst).dedup.filter fun path =>
    before.lookup path ≠ after.lookup path).insertionSort posixLe

theorem lookup_filterMap {β : Type} (fn : List String → Option β) (path : List String) :
    ∀ paths : List (List String),
      (paths.filterMap fun q => (fn q).map fun value => (q, value)).lookup path =
        if path ∈ paths then fn path else none
  | [] => by simp
  | q :: paths => by
    rw [List.filterMap_cons]
    by_cases heq : path = q
    · subst heq
      rw [if_pos List.mem_cons_self]
      cases hfn : fn path with
      | some value =>
        show List.lookup path ((path, value) :: _) = some value
        rw [List.lookup_cons_self]
      | none =>
        simp only [Option.map_none]
        rw [lookup_filterMap fn path paths, hfn, ite_self]
    · have hmem : path ∈ q :: paths ↔ path ∈ paths := by
        rw [List.mem_cons]
        exact or_iff_right heq
      simp only [hmem]
      rw [← lookup_filterMap fn path paths]
      cases hfn : fn q with
      | some value =>
        show List.lookup path ((q, value) :: _) = _
        rw [List.lookup_cons, beq_eq_false_iff_ne.mpr heq]
      | none => rfl

/-- The digest of a file, where it is not excluded. -/
def digest? (sha256 : List UInt8 → String) (t : PlainTree) (path : List String) : Option String :=
  if excludedPath path then none else (t.content? path).map sha256

theorem lookup_manifest (sha256 : List UInt8 → String) (t : PlainTree) (path : List String) :
    (manifest sha256 t).lookup path = digest? sha256 t path := by
  have hshape : manifest sha256 t = t.paths.dedup.filterMap fun q =>
      (digest? sha256 t q).map fun value => (q, value) := by
    rw [manifest]
    congr 1
    funext q
    rw [digest?]
    split
    · rfl
    · rw [Option.map_map]
      rfl
  rw [hshape, lookup_filterMap]
  split
  · rfl
  · next hnot =>
    have hnone : t.content? path = none := by
      by_contra hcontent
      obtain ⟨content, hfile⟩ := Option.ne_none_iff_exists'.mp hcontent
      refine hnot (List.mem_dedup.mpr (t.listed path ?_))
      rw [PlainTree.content?_eq_some.mp hfile]
      exact Option.some_ne_none _
    rw [digest?, hnone, Option.map_none, ite_self]

theorem lookup_isSome_mem {path : List String} {table : Manifest}
    (h : table.lookup path ≠ none) : path ∈ table.map Prod.fst := by
  induction table with
  | nil => exact absurd rfl h
  | cons entry table ih =>
    rw [List.lookup_cons] at h
    by_cases heq : path = entry.1
    · rw [heq]
      exact List.mem_cons_self
    · rw [beq_eq_false_iff_ne.mpr heq] at h
      exact List.mem_cons_of_mem _ (ih h)

/-- **The changed paths** are those whose digests differ. -/
theorem mem_diff {before after : Manifest} {path : List String} :
    path ∈ diff before after ↔ before.lookup path ≠ after.lookup path := by
  rw [diff, List.mem_insertionSort, List.mem_filter, List.mem_dedup, List.mem_append,
    decide_eq_true_iff]
  refine ⟨fun h => h.2, fun h => ⟨?_, h⟩⟩
  by_cases hbefore : before.lookup path = none
  · right
    refine lookup_isSome_mem fun hafter => h ?_
    rw [hbefore, hafter]
  · exact Or.inl (lookup_isSome_mem hbefore)

instance : Std.Total posixLe := ⟨fun a b => le_total (posix a) (posix b)⟩

instance : IsTrans (List String) posixLe := ⟨fun _ _ _ hab hbc => le_trans hab hbc⟩

theorem diff_sorted (before after : Manifest) : (diff before after).Pairwise posixLe :=
  List.pairwise_insertionSort _ _

theorem diff_nodup (before after : Manifest) : (diff before after).Nodup :=
  ((List.perm_insertionSort _ _).nodup_iff).mpr ((List.nodup_dedup _).filter _)

/-- A directory is sorted before what lies in it. -/
theorem posix_lt_of_prefix : ∀ {q path : List String}, q ≠ [] → q <+: path → q ≠ path →
    posix q < posix path
  | [], _, h, _, _ => absurd rfl h
  | [name], path, _, hunder, hne => by
    obtain ⟨rest, rfl⟩ := hunder
    cases rest with
    | nil => exact absurd rfl hne
    | cons next rest =>
      show name.toList < name.toList ++ '/' :: posix (next :: rest)
      have hlt : name.toList ++ [] < name.toList ++ '/' :: posix (next :: rest) :=
        List.append_left_lt (List.nil_lt_cons _ _)
      rwa [List.append_nil] at hlt
  | name :: second :: q, path, _, hunder, hne => by
    obtain ⟨rest, rfl⟩ := hunder
    have hrest : second :: q ≠ (second :: q) ++ rest := fun heq => hne (by
      rw [List.cons_append, ← heq])
    have hlt := posix_lt_of_prefix (List.cons_ne_nil second q) (List.prefix_append _ rest) hrest
    show name.toList ++ '/' :: posix (second :: q) <
      name.toList ++ '/' :: posix (second :: (q ++ rest))
    exact List.append_left_lt (List.cons_lt_cons_iff.mpr (Or.inr ⟨rfl, hlt⟩))

/-! ## `finalize` -/

/-- The steps of a run around its workspace that can raise. -/
inductive AdapterStep
  | recheck
  | copyTree
  | manifest
  | buildContext
  | buildPico
  | changedPaths
  | conflicts
  | apply
  | publish
  deriving DecidableEq, Repr

/-- Which steps raise, and after how many paths `_apply` does. -/
structure AdapterFaults where
  raises : AdapterStep → Bool := fun _ => false
  applied : Nat := 0

/-- The leases, the workspace, and the snapshot the run works in. -/
structure IsolationState where
  leases : LeaseTable := fun _ => none
  workspace : PlainTree
  snapshot : PlainTree

/-- `IsolationHandle`. -/
structure IsolationHandle where
  workspaceId : String
  baseline : Manifest
  leaseToken : String

/-- What `finalize` returns. -/
structure FinalizeResult where
  changedPaths : List (List String)
  conflicts : List (List String) := []
  applied : Bool := false
  deriving DecidableEq, Repr

/-- The tree with nothing in it. -/
def emptyTree : PlainTree where
  node? := fun _ => none
  paths := []
  root := rfl
  listed := fun _ h => absurd rfl h
  closed := fun _ _ h => absurd rfl h

namespace IsolationState

/-- The test of `_conflicts` for one path: a new file whose place is taken, or a file whose content
is not the one of the baseline. A file that cannot be read has no digest. -/
def isConflict (sha256 : List UInt8 → String) (baseline : Manifest) (workspace : PlainTree)
    (relative : List String) : Bool :=
  match baseline.lookup relative with
  | none => workspace.holds relative
  | some digest =>
    match workspace.content? relative with
    | some content => sha256 content ≠ digest
    | none => false

/-- `_conflicts`. -/
def conflicts (sha256 : List UInt8 → String) (baseline : Manifest) (workspace : PlainTree)
    (changed : List (List String)) : List (List String) :=
  changed.filter fun relative => isConflict sha256 baseline workspace relative

/-- One path of `_apply`: the workspace after it, and in `error` the one it leaves when it raises. -/
def applyPath (snapshot workspace : PlainTree) (relative : List String) :
    Except PlainTree PlainTree :=
  match snapshot.content? relative with
  | none =>
    match workspace.unlink relative with
    | some t => .ok t
    | none => .error workspace
  | some content =>
    match workspace.mkdirs [] relative.dropLast with
    | none => .error workspace
    | some made =>
      match made.write relative content with
      | some t => .ok t
      | none => .error made

/-- `_apply`. -/
def applyAll (snapshot : PlainTree) : List (List String) → PlainTree → Except PlainTree PlainTree
  | [], workspace => .ok workspace
  | relative :: rest, workspace =>
    match applyPath snapshot workspace relative with
    | .ok t => applyAll snapshot rest t
    | .error t => .error t

/-- `_apply`, which may raise after some of the paths. -/
def apply (faults : AdapterFaults) (snapshot : PlainTree) (changed : List (List String))
    (workspace : PlainTree) : Except PlainTree PlainTree :=
  if faults.raises .apply then
    match applyAll snapshot (changed.take faults.applied) workspace with
    | .ok t | .error t => .error t
  else applyAll snapshot changed workspace

/-- `_cleanup`. -/
def cleanup (s : IsolationState) (handle : IsolationHandle) : IsolationState :=
  { s with
    leases := (s.leases.release handle.workspaceId handle.leaseToken).1
    snapshot := emptyTree }

/-- `changed_paths`. -/
def changedPaths (sha256 : List UInt8 → String) (s : IsolationState) (handle : IsolationHandle) :
    List (List String) :=
  diff handle.baseline (manifest sha256 s.snapshot)

/-- `finalize`: the state after it, and what it returns where it does not raise. -/
def finalize (sha256 : List UInt8 → String) (faults : AdapterFaults) (s : IsolationState)
    (handle : IsolationHandle) (apply : Bool) : IsolationState × Option FinalizeResult :=
  if faults.raises .changedPaths then (s, none)
  else
    let changed := s.changedPaths sha256 handle
    if apply ∧ changed ≠ [] then
      if faults.raises .conflicts then (s, none)
      else
        let conflicts := conflicts sha256 handle.baseline s.workspace changed
        if conflicts = [] then
          match IsolationState.apply faults s.snapshot changed s.workspace with
          | .ok workspace => ({ s with workspace := workspace }.cleanup handle,
              some { changedPaths := changed, applied := true })
          | .error workspace => ({ s with workspace := workspace }, none)
        else (s.cleanup handle, some { changedPaths := changed, conflicts := conflicts })
    else (s.cleanup handle, some { changedPaths := changed })

/-! ## When the changes go through -/

/-- The paths done so far are those of the snapshot, and a directory is one that was there or one of
the snapshot. -/
structure Applying (snapshot before workspace : PlainTree) (done : List (List String)) : Prop where
  content : ∀ q, workspace.content? q = if q ∈ done then snapshot.content? q else before.content? q
  dirs : ∀ q, workspace.node? q = some .dir →
    before.node? q = some .dir ∨ snapshot.node? q = some .dir

theorem Applying.start (snapshot before : PlainTree) : Applying snapshot before before [] :=
  ⟨fun _ => (if_neg List.not_mem_nil).symm, fun _ h => Or.inl h⟩

theorem Applying.snoc {snapshot before t t' : PlainTree} {done : List (List String)}
    {relative : List String} (h : Applying snapshot before t done)
    (hcontent : ∀ q, t'.content? q =
      if q = relative then snapshot.content? relative else t.content? q)
    (hdirs : ∀ q, t'.node? q = some .dir →
      t.node? q = some .dir ∨ snapshot.node? q = some .dir) :
    Applying snapshot before t' (done ++ [relative]) where
  content q := by
    rw [hcontent q]
    by_cases heq : q = relative
    · rw [if_pos heq, if_pos (List.mem_append_right _ (List.mem_singleton.mpr heq)), heq]
    · have hmem : q ∈ done ++ [relative] ↔ q ∈ done := by
        rw [List.mem_append, List.mem_singleton]
        exact or_iff_left heq
      rw [if_neg heq, h.content q]
      simp only [hmem]
  dirs q hq := by
    rcases hdirs q hq with hbefore | hsnapshot
    · exact h.dirs q hbefore
    · exact Or.inr hsnapshot

/-- **One path goes through**: a deleted file that is still there, or a file with no directory in
its place and no file on the way to it. -/
theorem applyPath_ok {snapshot before t : PlainTree} {done : List (List String)}
    {relative : List String} (h : Applying snapshot before t done) (hnew : relative ∉ done)
    (hfile : snapshot.content? relative = none → before.content? relative ≠ none)
    (hroom : snapshot.content? relative ≠ none → before.node? relative ≠ some .dir)
    (hfree : snapshot.content? relative ≠ none →
      ∀ q, q <+: relative → q ≠ relative → t.content? q = none) :
    ∃ t', applyPath snapshot t relative = .ok t' ∧
      Applying snapshot before t' (done ++ [relative]) := by
  cases hsnapshot : snapshot.content? relative with
  | none =>
    obtain ⟨content, hcontent⟩ := Option.ne_none_iff_exists'.mp (hfile hsnapshot)
    have hthere : t.content? relative = some content := by
      rw [h.content, if_neg hnew, hcontent]
    obtain ⟨t', ht'⟩ := PlainTree.unlink_of_file hthere
    refine ⟨t', by simp only [applyPath, hsnapshot, ht'], h.snoc (fun q => ?_) fun q hq => ?_⟩
    · by_cases heq : q = relative
      · rw [if_pos heq, hsnapshot, PlainTree.content?, PlainTree.unlink_eq_some ht' q, if_pos heq]
      · rw [if_neg heq]
        refine PlainTree.content?_eq_of_node? ?_
        rw [PlainTree.unlink_eq_some ht' q, if_neg heq]
    · rw [PlainTree.unlink_eq_some ht' q] at hq
      split at hq
      · cases hq
      · exact Or.inl hq
  | some content =>
    have hsome : snapshot.content? relative ≠ none := by
      rw [hsnapshot]
      exact Option.some_ne_none _
    have hentry : snapshot.node? relative ≠ none := by
      rw [PlainTree.content?_eq_some.mp hsnapshot]
      exact Option.some_ne_none _
    have hne : relative ≠ [] := by
      intro heq
      rw [heq, PlainTree.content?_root] at hsome
      exact hsome rfl
    have hlonger : ∀ q, q <+: relative.dropLast → q <+: relative ∧ q ≠ relative := by
      intro q hq
      refine ⟨hq.trans (List.dropLast_prefix _), fun heq => ?_⟩
      have hlength := hq.length_le
      have hpos := List.length_pos_of_ne_nil hne
      rw [heq, List.length_dropLast] at hlength
      omega
    obtain ⟨made, hmade⟩ : ∃ made, t.mkdirs [] relative.dropLast = some made := by
      refine PlainTree.mkdirs_eq_some (Or.inl rfl) fun q hq => ?_
      obtain ⟨hunder, hother⟩ := hlonger q hq
      exact hfree hsome q hunder hother
    obtain ⟨hcontent, hdirs, hparent⟩ := PlainTree.mkdirs_spec (Or.inl rfl) hmade
    have hmadeRoom : made.Room relative := by
      refine ⟨hne, hparent, fun hdir => ?_⟩
      rcases hdirs relative hdir with hbefore | hunder
      · rcases h.dirs relative hbefore with hdir | hdir
        · exact hroom hsome hdir
        · rw [PlainTree.content?, hdir] at hsome
          exact hsome rfl
      · exact (hlonger relative hunder).2 rfl
    obtain ⟨t', ht'⟩ : ∃ t', made.write relative content = some t' :=
      PlainTree.write_of_room hmadeRoom
    refine ⟨t', by simp only [applyPath, hsnapshot, hmade, ht'], h.snoc (fun q => ?_) fun q hq => ?_⟩
    · by_cases heq : q = relative
      · rw [if_pos heq, hsnapshot, PlainTree.content?, PlainTree.write_eq_some ht' q, if_pos heq]
      · rw [if_neg heq, ← hcontent q]
        refine PlainTree.content?_eq_of_node? ?_
        rw [PlainTree.write_eq_some ht' q, if_neg heq]
    · rw [PlainTree.write_eq_some ht' q] at hq
      split at hq
      · cases hq
      rcases hdirs q hq with hbefore | hunder
      · exact Or.inl hbefore
      · obtain ⟨⟨rest, hrest⟩, hother⟩ := hlonger q hunder
        have hrestNe : rest ≠ [] := fun hnil => hother (by rw [← hrest, hnil, List.append_nil])
        rw [← hrest] at hentry
        rcases PlainTree.dir_above rest hrestNe hentry with hroot | hdir
        · rw [hroot, made.root] at hq
          cases hq
        · exact Or.inr hdir

/-- **All paths go through** when each does, and no file but a changed one is on the way to a
changed file. Sorted paths are what makes a file give way before what comes in its place. -/
theorem applyAll_ok {snapshot before : PlainTree} {changed : List (List String)}
    (hsorted : changed.Pairwise posixLe) (hnodup : changed.Nodup)
    (hfile : ∀ p ∈ changed, snapshot.content? p = none → before.content? p ≠ none)
    (hroom : ∀ p ∈ changed, snapshot.content? p ≠ none → before.node? p ≠ some .dir)
    (hfree : ∀ p ∈ changed, snapshot.content? p ≠ none → ∀ q, q <+: p → q ≠ p →
      before.content? q ≠ none → q ∈ changed) :
    ∀ (rest done : List (List String)) (t : PlainTree), done ++ rest = changed →
      Applying snapshot before t done →
      ∃ t', applyAll snapshot rest t = .ok t' ∧ Applying snapshot before t' changed
  | [], done, t, hsplit, h => by
    rw [List.append_nil] at hsplit
    exact ⟨t, by rw [applyAll], hsplit ▸ h⟩
  | relative :: rest, done, t, hsplit, h => by
    have hmem : relative ∈ changed := by
      rw [← hsplit]
      exact List.mem_append_right _ List.mem_cons_self
    rw [← hsplit] at hsorted hnodup
    have hnew : relative ∉ done := fun hdone =>
      (List.nodup_append.mp hnodup).2.2 relative hdone relative List.mem_cons_self rfl
    have hway : snapshot.content? relative ≠ none →
        ∀ q, q <+: relative → q ≠ relative → t.content? q = none := by
      intro hsome q hunder hne
      rw [h.content q]
      have hentry : snapshot.node? relative ≠ none := by
        obtain ⟨content, hcontent⟩ := Option.ne_none_iff_exists'.mp hsome
        rw [PlainTree.content?_eq_some.mp hcontent]
        exact Option.some_ne_none _
      split
      · -- what the snapshot has there is a directory
        rcases hq : snapshot.content? q with _ | found
        · rfl
        · exact absurd (PlainTree.eq_of_file_above hq hunder hentry).symm hne
      · next hlater =>
        -- a file there is a changed one, so it comes earlier
        by_contra hthere
        have hchanged := hfree relative hmem hsome q hunder hne hthere
        rw [← hsplit] at hchanged
        have hroot : q ≠ [] := by
          intro heq
          rw [heq, PlainTree.content?_root] at hthere
          exact hthere rfl
        have hlt := posix_lt_of_prefix hroot hunder hne
        rcases List.mem_append.mp hchanged with hdone | hrest
        · exact hlater hdone
        · rcases List.mem_cons.mp hrest with heq | hrest
          · exact hne heq
          · have hle := (List.pairwise_cons.mp (List.pairwise_append.mp hsorted).2.1).1 q hrest
            exact absurd hle (not_le.mpr hlt)
    obtain ⟨t₁, ht₁, happlying⟩ := applyPath_ok h hnew (hfile relative hmem)
      (hroom relative hmem) hway
    have hsplit' : (done ++ [relative]) ++ rest = changed := by
      rw [List.append_assoc]
      exact hsplit
    rw [hsplit] at hsorted hnodup
    obtain ⟨t', ht', hend⟩ := applyAll_ok hsorted hnodup hfile hroom hfree rest _ t₁ hsplit'
      happlying
    exact ⟨t', by simp only [applyAll, ht₁, ht'], hend⟩

/-! ## No change of the user is overwritten -/

section WriteBack

variable (sha256 : List UInt8 → String) (s : IsolationState) (handle : IsolationHandle)
  (before : PlainTree)

/-- The handle of a snapshot that was made of a tree. -/
def handleOf : IsolationHandle := { handle with baseline := manifest sha256 before }

/-- `finalize(handle, apply=True)` leaves the workspace as it is and reports conflicts, or makes it
the snapshot at exactly the changed paths; it does the former whenever the workspace has at a
changed path something else than the snapshot was made of. -/
def WrittenBack : Prop :=
  ∃ result, (s.finalize sha256 {} (handleOf sha256 handle before) true).2 = some result ∧
    ((s.finalize sha256 {} (handleOf sha256 handle before) true).1.workspace = s.workspace ∧
        result.conflicts ≠ [] ∨
      (∀ path, (s.finalize sha256 {} (handleOf sha256 handle before) true).1.workspace.content? path
          ≠ s.workspace.content? path ↔ path ∈ result.changedPaths) ∧
        ∀ path ∈ result.changedPaths,
          (s.finalize sha256 {} (handleOf sha256 handle before) true).1.workspace.content? path =
            s.snapshot.content? path) ∧
    ((∃ path ∈ result.changedPaths, s.workspace.content? path ≠ before.content? path) →
      (s.finalize sha256 {} (handleOf sha256 handle before) true).1.workspace = s.workspace ∧
        result.conflicts ≠ [])

/-- The paths the run changed: their digest in the snapshot is not the one it had. -/
def RunChanged (path : List String) : Prop :=
  digest? sha256 before path ≠ digest? sha256 s.snapshot path

/-- The place of a new file is taken, or the user gave the file a content of another digest. -/
def UserChanged (path : List String) : Prop :=
  before.content? path = none ∧ s.workspace.holds path = true ∨
    ∃ old new, before.content? path = some old ∧ s.workspace.content? path = some new ∧
      sha256 new ≠ sha256 old

/-- The files the run changed are all as they were, and no file of the user is where the snapshot has
a directory above one of them. -/
structure Unchallenged : Prop where
  kept : ∀ path, RunChanged sha256 s before path → before.content? path ≠ none →
    s.workspace.content? path = before.content? path
  way : ∀ path, RunChanged sha256 s before path → s.snapshot.content? path ≠ none →
    ∀ q, q <+: path → q ≠ path → s.workspace.content? q ≠ none → RunChanged sha256 s before q

variable {sha256 s handle before}

theorem mem_changedPaths (handle : IsolationHandle) {path : List String} :
    path ∈ s.changedPaths sha256 (handleOf sha256 handle before) ↔
      RunChanged sha256 s before path := by
  rw [changedPaths, mem_diff, handleOf, lookup_manifest, lookup_manifest, RunChanged]

theorem RunChanged.not_excluded {path : List String} (h : RunChanged sha256 s before path) :
    excludedPath path = false := by
  rw [RunChanged, digest?, digest?] at h
  by_contra hexcluded
  rw [Bool.not_eq_false] at hexcluded
  rw [if_pos hexcluded, if_pos hexcluded] at h
  exact h rfl

/-- A changed path is changed in content. -/
theorem RunChanged.content_ne {path : List String} (h : RunChanged sha256 s before path) :
    before.content? path ≠ s.snapshot.content? path := by
  intro heq
  rw [RunChanged, digest?, digest?, heq] at h
  exact h rfl

/-- **What `_conflicts` finds** is what the user changed, where it can tell. -/
theorem isConflict_iff {path : List String} (h : RunChanged sha256 s before path) :
    isConflict sha256 (manifest sha256 before) s.workspace path = true ↔
      UserChanged sha256 s before path := by
  have hlookup : (manifest sha256 before).lookup path = (before.content? path).map sha256 := by
    rw [lookup_manifest, digest?, h.not_excluded, if_neg Bool.false_ne_true]
  rw [isConflict, hlookup, UserChanged]
  cases hbefore : before.content? path with
  | none => simp
  | some old =>
    cases hnow : s.workspace.content? path with
    | none => simp
    | some new => simp

theorem conflicts_eq_nil_iff :
    conflicts sha256 (handleOf sha256 handle before).baseline s.workspace
        (s.changedPaths sha256 (handleOf sha256 handle before)) = [] ↔
      ∀ path, RunChanged sha256 s before path → ¬UserChanged sha256 s before path := by
  rw [conflicts, List.filter_eq_nil_iff]
  constructor
  · intro h path hchanged huser
    exact h path ((mem_changedPaths handle).mpr hchanged) ((isConflict_iff hchanged).mpr huser)
  · intro h path hmem hconflict
    have hchanged := (mem_changedPaths handle).mp hmem
    exact h path hchanged ((isConflict_iff hchanged).mp hconflict)

/-- A conflict is reported and nothing is written. -/
theorem finalize_conflict (handle : IsolationHandle) {path : List String} (hchanged : RunChanged sha256 s before path)
    (huser : UserChanged sha256 s before path) : ∃ result,
      (s.finalize sha256 {} (handleOf sha256 handle before) true).2 = some result ∧
      (s.finalize sha256 {} (handleOf sha256 handle before) true).1.workspace = s.workspace ∧
      result.conflicts ≠ [] := by
  have hconflicts : conflicts sha256 (handleOf sha256 handle before).baseline s.workspace
      (s.changedPaths sha256 (handleOf sha256 handle before)) ≠ [] :=
    fun hnil => conflicts_eq_nil_iff.mp hnil path hchanged huser
  have hsome : s.changedPaths sha256 (handleOf sha256 handle before) ≠ [] :=
    List.ne_nil_of_mem ((mem_changedPaths handle).mpr hchanged)
  rw [finalize, if_neg Bool.false_ne_true]
  simp only
  rw [if_pos ⟨trivial, hsome⟩, if_neg Bool.false_ne_true, if_neg hconflicts]
  exact ⟨_, rfl, rfl, hconflicts⟩

/-- Without a change there is nothing to write. -/
theorem finalize_unchanged (handle : IsolationHandle)
    (h : ∀ path, ¬RunChanged sha256 s before path) :
    (s.finalize sha256 {} (handleOf sha256 handle before) true).2 = some { changedPaths := [] } ∧
      (s.finalize sha256 {} (handleOf sha256 handle before) true).1.workspace = s.workspace := by
  have hnil : s.changedPaths sha256 (handleOf sha256 handle before) = [] :=
    List.eq_nil_iff_forall_not_mem.mpr fun path hmem => h path ((mem_changedPaths handle).mp hmem)
  rw [finalize, if_neg Bool.false_ne_true]
  simp only [hnil, ne_eq, not_true, and_false, if_false]
  exact ⟨trivial, rfl⟩

/-- Where no conflict is found, the changed paths are applied. -/
theorem finalize_apply (handle : IsolationHandle)
    (hclean : ∀ path, RunChanged sha256 s before path → ¬UserChanged sha256 s before path) {path : List String}
    (hchanged : RunChanged sha256 s before path) :
    s.finalize sha256 {} (handleOf sha256 handle before) true =
      match applyAll s.snapshot (s.changedPaths sha256 (handleOf sha256 handle before))
        s.workspace with
      | .ok workspace =>
        ({ s with workspace := workspace }.cleanup (handleOf sha256 handle before),
          some {
            changedPaths := s.changedPaths sha256 (handleOf sha256 handle before)
            applied := true })
      | .error workspace => ({ s with workspace := workspace }, none) := by
  have hsome : s.changedPaths sha256 (handleOf sha256 handle before) ≠ [] :=
    List.ne_nil_of_mem ((mem_changedPaths handle).mpr hchanged)
  rw [finalize, if_neg Bool.false_ne_true]
  simp only
  rw [if_pos ⟨trivial, hsome⟩, if_neg Bool.false_ne_true, if_pos (conflicts_eq_nil_iff.mpr hclean),
    IsolationState.apply, if_neg Bool.false_ne_true]

/-- Unchallenged changes go through. -/
theorem writtenBack_of_unchallenged (hclean : ∀ path, RunChanged sha256 s before path →
      ¬UserChanged sha256 s before path) (h : Unchallenged sha256 s before) :
    WrittenBack sha256 s handle before := by
  by_cases hany : ∃ path, RunChanged sha256 s before path
  · obtain ⟨path₀, hpath₀⟩ := hany
    -- a changed path is in the workspace what it was in the baseline
    have hsame : ∀ path, RunChanged sha256 s before path →
        s.workspace.content? path = before.content? path := by
      intro path hchanged
      by_cases hnew : before.content? path = none
      · have hfree : s.workspace.holds path ≠ true := fun hholds =>
          hclean path hchanged (Or.inl ⟨hnew, hholds⟩)
        rw [hnew, PlainTree.content?, Option.not_isSome_iff_eq_none.mp hfree]
      · exact h.kept path hchanged hnew
    have hroom : ∀ path, RunChanged sha256 s before path →
        s.workspace.node? path ≠ some .dir := by
      intro path hchanged hdir
      have hnone : s.workspace.content? path = none := by rw [PlainTree.content?, hdir]
      rw [hsame path hchanged] at hnone
      refine hclean path hchanged (Or.inl ⟨hnone, ?_⟩)
      rw [PlainTree.holds, hdir]
      rfl
    have hgone : ∀ path ∈ s.changedPaths sha256 (handleOf sha256 handle before),
        s.snapshot.content? path = none → s.workspace.content? path ≠ none := by
      intro path hmem hnone hgone
      have hchanged := (mem_changedPaths handle).mp hmem
      rw [hsame path hchanged] at hgone
      exact hchanged.content_ne (hgone.trans hnone.symm)
    have hfree : ∀ path ∈ s.changedPaths sha256 (handleOf sha256 handle before),
        s.snapshot.content? path ≠ none → ∀ q, q <+: path → q ≠ path →
          s.workspace.content? q ≠ none →
          q ∈ s.changedPaths sha256 (handleOf sha256 handle before) := by
      intro path hmem hsome q hunder hne hthere
      exact (mem_changedPaths handle).mpr
        (h.way path ((mem_changedPaths handle).mp hmem) hsome q hunder hne hthere)
    have hsorted : (s.changedPaths sha256 (handleOf sha256 handle before)).Pairwise posixLe :=
      diff_sorted _ _
    have hnodup : (s.changedPaths sha256 (handleOf sha256 handle before)).Nodup := diff_nodup _ _
    obtain ⟨t, ht, happlying⟩ := applyAll_ok hsorted hnodup hgone
      (fun path hmem _ => hroom path ((mem_changedPaths handle).mp hmem)) hfree
      _ [] s.workspace (List.nil_append _) (Applying.start _ _)
    have hfinalize := finalize_apply handle hclean hpath₀
    rw [ht] at hfinalize
    rw [WrittenBack, hfinalize]
    refine ⟨_, rfl, Or.inr ⟨fun path => ?_, fun path hmem => ?_⟩, ?_⟩
    · show t.content? path ≠ s.workspace.content? path ↔ _
      rw [happlying.content path]
      by_cases hmem : path ∈ s.changedPaths sha256 (handleOf sha256 handle before)
      · have hchanged := (mem_changedPaths handle).mp hmem
        have hdiffers : s.snapshot.content? path ≠ s.workspace.content? path := by
          rw [hsame path hchanged]
          exact hchanged.content_ne.symm
        exact iff_of_true (by rw [if_pos hmem]; exact hdiffers) hmem
      · exact iff_of_false (by rw [if_neg hmem]; exact fun hne => hne rfl) hmem
    · show t.content? path = _
      rw [happlying.content path]
      exact if_pos hmem
    · rintro ⟨path, hmem, hne⟩
      exact absurd (hsame path ((mem_changedPaths handle).mp hmem)) hne
  · have hnone : ∀ path, ¬RunChanged sha256 s before path := not_exists.mp hany
    obtain ⟨hresult, hworkspace⟩ := finalize_unchanged handle hnone
    refine ⟨_, hresult, Or.inr ⟨fun path => ?_, fun path hmem => absurd hmem List.not_mem_nil⟩, ?_⟩
    · rw [hworkspace]
      simp
    · rintro ⟨path, hmem, -⟩
      exact absurd hmem List.not_mem_nil

/-- What is written back where the user changed nothing was unchallenged. -/
theorem unchallenged_of_writtenBack (hclean : ∀ path, RunChanged sha256 s before path →
      ¬UserChanged sha256 s before path) (h : WrittenBack sha256 s handle before) :
    Unchallenged sha256 s before := by
  obtain ⟨result, hresult, houtcome, hfirst⟩ := h
  -- no conflict is reported, so the changed paths are applied
  have hreported : (∃ path, RunChanged sha256 s before path) →
      result.conflicts = [] ∧
        result.changedPaths = s.changedPaths sha256 (handleOf sha256 handle before) := by
    rintro ⟨path₀, hpath₀⟩
    rw [finalize_apply handle hclean hpath₀] at hresult
    split at hresult
    · rw [← Option.some.inj hresult]
      exact ⟨rfl, rfl⟩
    · cases hresult
  constructor
  · intro path hchanged _
    obtain ⟨hnone, hpaths⟩ := hreported ⟨path, hchanged⟩
    by_contra hne
    have hmem : path ∈ result.changedPaths := by
      rw [hpaths]
      exact (mem_changedPaths handle).mpr hchanged
    exact (hfirst ⟨path, hmem, hne⟩).2 hnone
  · intro path hchanged hsome q hunder hne hthere
    obtain ⟨hnone, hpaths⟩ := hreported ⟨path, hchanged⟩
    rcases houtcome with ⟨-, hconflicts⟩ | ⟨hexactly, hsnapshot⟩
    · exact absurd hnone hconflicts
    by_contra hunchanged
    have hmem : path ∈ result.changedPaths := by
      rw [hpaths]
      exact (mem_changedPaths handle).mpr hchanged
    have hkept := (hexactly q).not.mpr fun hq => hunchanged (by
      rw [hpaths] at hq
      exact (mem_changedPaths handle).mp hq)
    rw [not_not] at hkept
    -- the file the user put there is still there, above the file of the snapshot
    obtain ⟨found, hfound⟩ := Option.ne_none_iff_exists'.mp hthere
    have hwritten := hsnapshot path hmem
    obtain ⟨content, hcontent⟩ := Option.ne_none_iff_exists'.mp hsome
    rw [hcontent, PlainTree.content?_eq_some] at hwritten
    refine hne (PlainTree.eq_of_file_above (hkept.trans hfound) hunder ?_).symm
    rw [hwritten]
    exact Option.some_ne_none _

/--
**No change of the user is overwritten**: for every tree the snapshot was made of, every snapshot
and every workspace, `finalize` reports a conflict and writes nothing, or writes exactly the changed
paths, exactly when the user visibly changed one of them or challenged none.
-/
theorem written_back_iff (sha256 : List UInt8 → String) (s : IsolationState)
    (handle : IsolationHandle) (before : PlainTree) :
    WrittenBack sha256 s handle before ↔
      (∃ path, RunChanged sha256 s before path ∧ UserChanged sha256 s before path) ∨
        Unchallenged sha256 s before := by
  by_cases hany : ∃ path, RunChanged sha256 s before path ∧ UserChanged sha256 s before path
  · obtain ⟨path, hchanged, huser⟩ := hany
    obtain ⟨result, hresult, hworkspace, hconflicts⟩ :=
      finalize_conflict handle hchanged huser
    exact iff_of_true ⟨result, hresult, Or.inl ⟨hworkspace, hconflicts⟩,
      fun _ => ⟨hworkspace, hconflicts⟩⟩ (Or.inl ⟨path, hchanged, huser⟩)
  · have hclean : ∀ path, RunChanged sha256 s before path → ¬UserChanged sha256 s before path :=
      fun path hchanged huser => hany ⟨path, hchanged, huser⟩
    constructor
    · exact fun h => Or.inr (unchallenged_of_writtenBack hclean h)
    · rintro (hconflict | hunchallenged)
      · exact absurd hconflict hany
      · exact writtenBack_of_unchallenged hclean hunchallenged

end WriteBack

/-! ## A file the user deleted -/

/-- A workspace with one file. -/
def oneFile (content : List UInt8) : PlainTree where
  node? := Function.update (fun _ => none) ["notes.txt"] (some (.file content))
  paths := [["notes.txt"]]
  root := rfl
  listed path h := by
    by_cases heq : path = ["notes.txt"]
    · rw [heq]
      exact List.mem_singleton_self _
    · rw [Function.update_of_ne heq] at h
      exact absurd rfl h
  closed path name h := by
    by_cases heq : path ++ [name] = ["notes.txt"]
    · have hlength := congrArg List.length heq
      rw [List.length_append, List.length_singleton, List.length_singleton] at hlength
      exact Or.inl (List.length_eq_zero_iff.mp (by omega))
    · rw [Function.update_of_ne heq] at h
      exact absurd rfl h

/-- The run edited the file, the user deleted it: the file is written again and no conflict is
reported. -/
theorem deleted_file_returns : ¬∀ (sha256 : List UInt8 → String) (s : IsolationState)
    (handle : IsolationHandle) (before : PlainTree), WrittenBack sha256 s handle before := by
  intro hall
  have h := hall (fun content => toString content.length)
    { workspace := emptyTree, snapshot := oneFile [1, 2] }
    { workspaceId := "ws_1", baseline := [], leaseToken := "lease_task_1" } (oneFile [1])
  obtain ⟨result, hresult, -, hfirst⟩ := h
  have hfound : some result = some {
      changedPaths := [["notes.txt"]], conflicts := [], applied := true } :=
    hresult.symm.trans (by decide +kernel)
  rw [Option.some.inj hfound] at hfirst
  have hdeleted : emptyTree.content? ["notes.txt"] ≠ (oneFile [1]).content? ["notes.txt"] := by
    decide +kernel
  exact (hfirst ⟨_, List.mem_singleton_self _, hdeleted⟩).2 rfl

end IsolationState

end ThreadForge

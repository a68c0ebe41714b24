import ThreadForge.Isolation.WriteBack

/-!
# Finalising a run twice

The first `finalize` removes the snapshot. To the second one every file of the baseline is then a
file that the run deleted.

## Main results

* `IsolationState.applyAll_applied` — how far `_apply` comes, and what it leaves there.
* `IsolationState.idempotent_iff` — when a second call leaves the workspace as it is.
-/

namespace ThreadForge

namespace IsolationState

/-! ## What a call leaves -/

section Spec

variable (sha256 : List UInt8 → String) (s : IsolationState) (handle : IsolationHandle)
  (before : PlainTree)

/-- A second call of `finalize`, and a call once the snapshot is gone, leave the workspace as the
first call left it. -/
def Idempotent (apply : Bool) : Prop :=
  let handle := handleOf sha256 handle before
  let first := (s.finalize sha256 {} handle apply).1
  (∀ path, (first.finalize sha256 {} handle apply).1.workspace.node? path =
    first.workspace.node? path) ∧
  ∀ path, (({ first with snapshot := emptyTree } : IsolationState).finalize sha256 {} handle
    apply).1.workspace.node? path = first.workspace.node? path

instance (path : List String) : Decidable (RunChanged sha256 s before path) :=
  inferInstanceAs (Decidable (_ ≠ _))

/-- The file the run wants at a path. -/
def intended (path : List String) : Option (List UInt8) :=
  if RunChanged sha256 s before path then s.snapshot.content? path else s.workspace.content? path

/-- `_apply` raises at the path: a directory has its place, or a file is on the way to it. -/
def stopsAt (path : List String) : Bool :=
  s.workspace.node? path = some .dir ||
    path.inits.any fun q => q ≠ path ∧ (intended sha256 s before q).isSome

/-- The paths a call with `apply` writes or deletes. -/
def written : List (List String) :=
  if conflicts sha256 (handleOf sha256 handle before).baseline s.workspace
      (s.changedPaths sha256 (handleOf sha256 handle before)) = [] then
    (s.changedPaths sha256 (handleOf sha256 handle before)).takeWhile fun path =>
      !stopsAt sha256 s before path
  else []

/-- The file it leaves at a path. -/
def leftContent (path : List String) : Option (List UInt8) :=
  if path ∈ written sha256 s handle before then s.snapshot.content? path
  else s.workspace.content? path

/-- It leaves a directory at the path. -/
def LeavesDir (path : List String) : Prop :=
  s.workspace.node? path = some .dir ∨ path ≠ [] ∧ ∃ file ∈ written sha256 s handle before,
    s.snapshot.content? file ≠ none ∧ path <+: file ∧ path ≠ file

/-- No file is left at a path of the list, up to the first that cannot be unlinked: a directory, or
a path under a file. -/
def NothingLeft : List (List String) → Prop
  | [] => True
  | path :: rest => (LeavesDir sha256 s handle before path ∨
      ∃ q, q <+: path ∧ q ≠ path ∧ leftContent sha256 s handle before q ≠ none) ∨
    leftContent sha256 s handle before path = none ∧ NothingLeft rest

/-- A file of the baseline is left with another content. -/
def Differs : Prop :=
  ∃ path old new, excludedPath path = false ∧ before.content? path = some old ∧
    leftContent sha256 s handle before path = some new ∧ sha256 new ≠ sha256 old

end Spec

/-! ## Without a snapshot every file is deleted -/

/-- No path of the list has a file, up to the first that cannot be unlinked. -/
def NothingToDelete (t : PlainTree) : List (List String) → Prop
  | [] => True
  | path :: rest => (t.node? path = some .dir ∨ t.blocked path = true) ∨
    t.content? path = none ∧ NothingToDelete t rest

/-- The tree of an end of `_apply`, whether it raised or not. -/
def ended : Except PlainTree PlainTree → PlainTree
  | .ok t | .error t => t

theorem applyPath_of_absent {snapshot t : PlainTree} {path : List String}
    (h : snapshot.content? path = none) : applyPath snapshot t path =
      match t.unlink path with
      | some t' => .ok t'
      | none => .error t := by
  cases hunlink : t.unlink path with
  | none => simp only [applyPath, h, hunlink]
  | some t' => simp only [applyPath, h, hunlink]

/-- What is deleted stays away. -/
theorem applyAll_emptyTree_none (paths : List (List String)) {t : PlainTree} {path : List String}
    (h : t.node? path = none) : (ended (applyAll emptyTree paths t)).node? path = none := by
  induction paths generalizing t with
  | nil => exact h
  | cons first rest ih =>
    rw [applyAll, applyPath_of_absent rfl]
    cases hunlink : t.unlink first with
    | none => exact h
    | some t' =>
      refine ih ?_
      rw [PlainTree.unlink_eq_some hunlink]
      split
      · rfl
      · exact h

/-- Applying a snapshot that is gone leaves the tree exactly where there is nothing to delete. -/
theorem applyAll_emptyTree_iff (paths : List (List String)) (t : PlainTree) :
    (∀ q, (ended (applyAll emptyTree paths t)).node? q = t.node? q) ↔ NothingToDelete t paths := by
  induction paths with
  | nil => exact iff_of_true (fun _ => rfl) trivial
  | cons first rest ih =>
    rw [applyAll, applyPath_of_absent rfl]
    by_cases hstops : t.node? first = some .dir ∨ t.blocked first = true
    · rw [PlainTree.unlink_eq_none_iff.mpr hstops]
      exact iff_of_true (fun _ => rfl) (Or.inl hstops)
    obtain ⟨hdir, hblocked⟩ := not_or.mp hstops
    rw [Bool.not_eq_true] at hblocked
    cases hcontent : t.content? first with
    | none =>
      have hnone := PlainTree.node?_eq_none hcontent hdir
      rw [PlainTree.unlink_of_absent hnone hblocked]
      refine ih.trans ?_
      unfold NothingToDelete
      rw [or_iff_right hstops, and_iff_right hcontent]
      cases rest <;> rfl
    | some content =>
      obtain ⟨t', ht'⟩ := PlainTree.unlink_of_file hcontent
      rw [ht']
      refine iff_of_false (fun hsame => ?_) ?_
      · have hgone : t'.node? first = none := by rw [PlainTree.unlink_eq_some ht', if_pos rfl]
        have hkept := hsame first
        rw [PlainTree.content?_eq_some.mp hcontent] at hkept
        rw [applyAll_emptyTree_none rest hgone] at hkept
        cases hkept
      · rintro (h | ⟨h, -⟩)
        · exact hstops h
        · rw [hcontent] at h
          cases h

/-! ## How far `_apply` comes -/

/-- The tree once the paths of a list are done: the directories above the written files are
there. -/
structure Applied (snapshot before t : PlainTree) (done : List (List String)) : Prop where
  content : ∀ q, t.content? q = if q ∈ done then snapshot.content? q else before.content? q
  dirs : ∀ q, t.node? q = some .dir ↔ before.node? q = some .dir ∨ q ≠ [] ∧
    ∃ file ∈ done, snapshot.content? file ≠ none ∧ q <+: file ∧ q ≠ file

section Applied

variable {snapshot before t t' : PlainTree} {done : List (List String)} {path : List String}

theorem Applied.start (snapshot before : PlainTree) : Applied snapshot before before [] :=
  ⟨fun _ => (if_neg List.not_mem_nil).symm,
    fun _ => (or_iff_left fun ⟨_, _, h, _⟩ => (by cases h)).symm⟩

/-- One more path is done. -/
theorem Applied.snoc (h : Applied snapshot before t done)
    (hcontent : ∀ q, t'.content? q = if q = path then snapshot.content? path else t.content? q)
    (hdirs : ∀ q, t'.node? q = some .dir ↔ t.node? q = some .dir ∨
      q ≠ [] ∧ snapshot.content? path ≠ none ∧ q <+: path ∧ q ≠ path) :
    Applied snapshot before t' (done ++ [path]) where
  content q := by
    rw [hcontent q]
    by_cases heq : q = path
    · rw [if_pos heq, if_pos (List.mem_append_right _ (List.mem_singleton.mpr heq)), heq]
    · have hmem : q ∈ done ++ [path] ↔ q ∈ done := by
        rw [List.mem_append, List.mem_singleton]
        exact or_iff_left heq
      rw [if_neg heq, h.content q]
      simp only [hmem]
  dirs q := by
    rw [hdirs q, h.dirs q, or_assoc]
    refine or_congr_right ?_
    rw [← and_or_left]
    refine and_congr_right fun _ => ?_
    constructor
    · rintro (⟨file, hfile, hrest⟩ | hpath)
      · exact ⟨file, List.mem_append_left _ hfile, hrest⟩
      · exact ⟨path, List.mem_append_right _ (List.mem_singleton_self _), hpath⟩
    · rintro ⟨file, hfile, hrest⟩
      rcases List.mem_append.mp hfile with hdone | hlast
      · exact Or.inl ⟨file, hdone, hrest⟩
      · exact Or.inr (List.mem_singleton.mp hlast ▸ hrest)

/-- What is above a path that is not the root lies in its parent or is it. -/
theorem prefix_dropLast_iff {q path : List String} (hne : path ≠ []) :
    q <+: path.dropLast ↔ q <+: path ∧ q ≠ path := by
  constructor
  · intro hq
    refine ⟨hq.trans (List.dropLast_prefix _), fun heq => ?_⟩
    have hlength := hq.length_le
    have hpos := List.length_pos_of_ne_nil hne
    rw [heq, List.length_dropLast] at hlength
    omega
  · rintro ⟨hunder, hother⟩
    have hsplit := List.dropLast_concat_getLast hne
    rw [← hsplit] at hunder
    rcases List.prefix_concat_iff.mp hunder with heq | hq
    · rw [hsplit] at heq
      exact absurd heq hother
    · exact hq

/-- A path goes through: no directory has its place, and no file is on the way to it. -/
theorem applyPath_go (h : Applied snapshot before t done) (hdir : t.node? path ≠ some .dir)
    (hfree : t.blocked path = false) :
    ∃ t', applyPath snapshot t path = .ok t' ∧ Applied snapshot before t' (done ++ [path]) := by
  cases hsnapshot : snapshot.content? path with
  | none =>
    have hunlink : t.unlink path ≠ none := fun hnone =>
      (PlainTree.unlink_eq_none_iff.mp hnone).elim hdir fun hblocked => by
        rw [hfree] at hblocked
        cases hblocked
    obtain ⟨t', ht'⟩ := Option.ne_none_iff_exists'.mp hunlink
    refine ⟨t', by rw [applyPath_of_absent hsnapshot, ht'], h.snoc (fun q => ?_) fun q => ?_⟩
    · by_cases heq : q = path
      · rw [if_pos heq, hsnapshot, PlainTree.content?, PlainTree.unlink_eq_some ht', if_pos heq]
      · rw [if_neg heq]
        refine PlainTree.content?_eq_of_node? ?_
        rw [PlainTree.unlink_eq_some ht', if_neg heq]
    · rw [PlainTree.unlink_eq_some ht', hsnapshot]
      by_cases heq : q = path
      · rw [if_pos heq, heq]
        exact iff_of_false (fun h => (by cases h)) (not_or.mpr ⟨hdir, fun h => h.2.1 rfl⟩)
      · rw [if_neg heq]
        exact (or_iff_left fun h => h.2.1 rfl).symm
  | some content =>
    have hne : path ≠ [] := by
      rintro rfl
      rw [PlainTree.content?_root] at hsnapshot
      cases hsnapshot
    rw [PlainTree.blocked_eq_false_iff] at hfree
    obtain ⟨made, hmade⟩ : ∃ made, t.mkdirs [] path.dropLast = some made :=
      PlainTree.mkdirs_eq_some (Or.inl rfl) fun q hq =>
        hfree q ((prefix_dropLast_iff hne).mp hq).1 ((prefix_dropLast_iff hne).mp hq).2
    obtain ⟨hcontent, hdirs, hparent⟩ := PlainTree.mkdirs_spec (Or.inl rfl) hmade
    rw [List.nil_append] at hdirs hparent
    -- the directories there are now: those there were, and those above the path
    have hmadeDirs : ∀ q, made.node? q = some .dir ↔
        t.node? q = some .dir ∨ q ≠ [] ∧ q <+: path ∧ q ≠ path := by
      intro q
      constructor
      · intro hq
        rcases hdirs q hq with hbefore | hunder
        · exact Or.inl hbefore
        · refine Or.inr ⟨?_, (prefix_dropLast_iff hne).mp hunder⟩
          rintro rfl
          rw [made.root] at hq
          cases hq
      · rintro (hbefore | ⟨hroot, hunder⟩)
        · exact PlainTree.mkdirs_keeps_dir hmade q hbefore
        · rw [← prefix_dropLast_iff hne] at hunder
          by_cases heq : q = path.dropLast
          · rw [heq]
            exact hparent.resolve_left (heq ▸ hroot)
          · refine PlainTree.dir_of_prefix hunder heq hroot ?_
            rcases hparent with hnil | hparent
            · rw [hnil, List.prefix_nil] at hunder
              exact absurd hunder hroot
            · rw [hparent]
              exact Option.some_ne_none _
    have hroom : made.Room path := by
      refine ⟨hne, hparent, fun hmadeDir => ?_⟩
      rcases (hmadeDirs path).mp hmadeDir with hbefore | ⟨-, -, hself⟩
      · exact hdir hbefore
      · exact hself rfl
    obtain ⟨t', ht'⟩ : ∃ t', made.write path content = some t' := PlainTree.write_of_room hroom
    refine ⟨t', by simp only [applyPath, hsnapshot, hmade, ht'], h.snoc (fun q => ?_) fun q => ?_⟩
    · by_cases heq : q = path
      · rw [if_pos heq, hsnapshot, PlainTree.content?, PlainTree.write_eq_some ht', if_pos heq]
      · rw [if_neg heq, ← hcontent q]
        refine PlainTree.content?_eq_of_node? ?_
        rw [PlainTree.write_eq_some ht', if_neg heq]
    · rw [PlainTree.write_eq_some ht', hsnapshot]
      by_cases heq : q = path
      · rw [if_pos heq, heq]
        exact iff_of_false (fun h => (by cases h)) (not_or.mpr ⟨hdir, fun h => h.2.2.2 rfl⟩)
      · rw [if_neg heq, hmadeDirs q]
        refine or_congr_right (and_congr_right fun _ => ?_)
        exact (and_iff_right (Option.some_ne_none _)).symm

/-- A path raises and leaves the tree: a directory has its place, or a file is on the way to it. -/
theorem applyPath_stop (h : t.node? path = some .dir ∨ t.blocked path = true) :
    applyPath snapshot t path = .error t := by
  cases hsnapshot : snapshot.content? path with
  | none => rw [applyPath_of_absent hsnapshot, PlainTree.unlink_eq_none_iff.mpr h]
  | some content =>
    have hne : path ≠ [] := by
      rintro rfl
      rw [PlainTree.content?_root] at hsnapshot
      cases hsnapshot
    rcases h with hdir | hblocked
    · -- the directories above it are all there
      have hthere : t.node? path ≠ none := by
        rw [hdir]
        exact Option.some_ne_none _
      have hmade : t.mkdirs [] path.dropLast = some t :=
        PlainTree.mkdirs_of_dirs fun q hq hroot => by
          obtain ⟨hunder, hother⟩ := (prefix_dropLast_iff hne).mp hq
          exact PlainTree.dir_of_prefix hunder hother hroot hthere
      have hwrite : t.write path content = none := dif_neg fun hroom => hroom.2.2 hdir
      simp only [applyPath, hsnapshot, hmade, hwrite]
    · have hmade : t.mkdirs [] path.dropLast = none := by
        by_contra hsome
        obtain ⟨made, hmade⟩ := Option.ne_none_iff_exists'.mp hsome
        obtain ⟨hcontent, -, hparent⟩ := PlainTree.mkdirs_spec (Or.inl rfl) hmade
        rw [List.nil_append] at hparent
        have hfree : t.blocked path = false := by
          rw [PlainTree.blocked_eq_false_iff]
          intro q hunder hother
          by_contra hfile
          obtain ⟨found, hfound⟩ := Option.ne_none_iff_exists'.mp hfile
          rw [← hcontent q] at hfound
          have hq := (prefix_dropLast_iff hne).mpr ⟨hunder, hother⟩
          rcases hparent with hnil | hparent
          · rw [hnil, List.prefix_nil] at hq
            rw [hq, PlainTree.content?_root] at hfound
            cases hfound
          · have hself := PlainTree.eq_of_file_above hfound hq (by
              rw [hparent]
              exact Option.some_ne_none _)
            rw [PlainTree.content?_eq_some, ← hself, hparent] at hfound
            cases hfound
        rw [hfree] at hblocked
        cases hblocked
      simp only [applyPath, hsnapshot, hmade]

end Applied

section Calls

variable {sha256 : List UInt8 → String} {s : IsolationState} {before : PlainTree}
  (handle : IsolationHandle)

theorem intended_root : intended sha256 s before [] = none := by
  unfold intended
  rw [PlainTree.content?_root, PlainTree.content?_root, ite_self]

/-- In the middle of the changed paths, the next one raises exactly where it was said to: what is
above it comes before it. -/
theorem stopsAt_iff {done rest : List (List String)} {path : List String} {t : PlainTree}
    (hsplit : done ++ path :: rest = s.changedPaths sha256 (handleOf sha256 handle before))
    (h : Applied s.snapshot s.workspace t done) :
    (t.node? path = some .dir ∨ t.blocked path = true) ↔ stopsAt sha256 s before path = true := by
  have hsorted : (done ++ path :: rest).Pairwise posixLe := hsplit ▸ diff_sorted _ _
  obtain ⟨-, hlater, hearlier⟩ := List.pairwise_append.mp hsorted
  have hdirs : t.node? path = some .dir ↔ s.workspace.node? path = some .dir := by
    rw [h.dirs]
    refine or_iff_left ?_
    rintro ⟨hroot, file, hfile, -, hunder, hne⟩
    have hle : posixLe file path := hearlier file hfile path List.mem_cons_self
    exact absurd hle (not_le.mpr <| posix_lt_of_prefix hroot hunder hne)
  have hcontent : ∀ q, q <+: path → q ≠ path → t.content? q = intended sha256 s before q := by
    intro q hunder hne
    by_cases hroot : q = []
    · rw [hroot, PlainTree.content?_root, intended_root]
    · have hlt := posix_lt_of_prefix hroot hunder hne
      have hmem : q ∈ done ↔ RunChanged sha256 s before q := by
        rw [← mem_changedPaths handle, ← hsplit, List.mem_append, List.mem_cons]
        refine (or_iff_left ?_).symm
        rintro (heq | hrest)
        · exact hne heq
        · have hle : posixLe path q := (List.pairwise_cons.mp hlater).1 q hrest
          exact absurd hle (not_le.mpr hlt)
      rw [h.content, intended]
      simp only [hmem]
  have hblocked : t.blocked path = path.inits.any fun q =>
      q ≠ path ∧ (intended sha256 s before q).isSome := by
    rw [Bool.eq_iff_iff, PlainTree.blocked, List.any_eq_true, List.any_eq_true]
    refine exists_congr fun q => and_congr_right fun hmem => ?_
    rw [decide_eq_true_iff, decide_eq_true_iff]
    refine and_congr_right fun hne => ?_
    rw [hcontent q ((List.mem_inits q path).mp hmem) hne]
  rw [hdirs, hblocked, stopsAt, Bool.or_eq_true, decide_eq_true_iff]

/-- The changed paths are done up to the first that raises. -/
theorem applyAll_applied (rest done : List (List String)) (t : PlainTree)
    (hsplit : done ++ rest = s.changedPaths sha256 (handleOf sha256 handle before))
    (h : Applied s.snapshot s.workspace t done) : ∃ t', Applied s.snapshot s.workspace t'
      (done ++ rest.takeWhile fun path => !stopsAt sha256 s before path) ∧
      (applyAll s.snapshot rest t = .ok t' ∨
        applyAll s.snapshot rest t = .error t' ∧ ∃ path rest', done ++ rest =
          (done ++ rest.takeWhile fun path => !stopsAt sha256 s before path) ++ path :: rest' ∧
          applyPath s.snapshot t' path = .error t') := by
  induction rest generalizing done t with
  | nil => exact ⟨t, by simpa using h, Or.inl rfl⟩
  | cons path rest ih =>
    have hexact := stopsAt_iff handle hsplit h
    rw [applyAll]
    cases hstops : stopsAt sha256 s before path with
    | true =>
      have hraise : applyPath s.snapshot t path = .error t := applyPath_stop (hexact.mpr hstops)
      rw [List.takeWhile_cons_of_neg (by rw [hstops]; decide), List.append_nil, hraise]
      exact ⟨t, h, Or.inr ⟨rfl, path, rest, rfl, hraise⟩⟩
    | false =>
      have hgoes : ¬ (t.node? path = some .dir ∨ t.blocked path = true) := by
        rw [hexact, hstops]
        decide
      obtain ⟨hdir, hfree⟩ := not_or.mp hgoes
      obtain ⟨t₁, ht₁, hdone⟩ := applyPath_go h hdir (Bool.not_eq_true _ ▸ hfree)
      have hsplit' : (done ++ [path]) ++ rest =
          s.changedPaths sha256 (handleOf sha256 handle before) := by
        rw [List.append_assoc]
        exact hsplit
      obtain ⟨t', happlied, hend⟩ := ih _ t₁ hsplit' hdone
      rw [List.takeWhile_cons_of_pos (by rw [hstops]; decide), ht₁]
      have hassoc : ∀ tail : List (List String),
          (done ++ [path]) ++ tail = done ++ path :: tail := fun tail => by
        rw [List.append_assoc, List.singleton_append]
      rw [hassoc] at happlied
      rw [hassoc, hassoc] at hend
      exact ⟨t', happlied, hend⟩

/-! ## One call -/

/-- Without `apply` nothing is written. -/
theorem finalize_false : (s.finalize sha256 {} (handleOf sha256 handle before) false).1.workspace =
    s.workspace := by
  rw [finalize, if_neg Bool.false_ne_true]
  simp only [Bool.false_eq_true, false_and, if_false]
  rfl

/-- The workspace after a call with `apply`. -/
theorem finalize_workspace :
    (s.finalize sha256 {} (handleOf sha256 handle before) true).1.workspace =
      if conflicts sha256 (handleOf sha256 handle before).baseline s.workspace
          (s.changedPaths sha256 (handleOf sha256 handle before)) = [] then
        ended (applyAll s.snapshot (s.changedPaths sha256 (handleOf sha256 handle before))
          s.workspace)
      else s.workspace := by
  generalize hchanged : s.changedPaths sha256 (handleOf sha256 handle before) = changed
  rw [finalize, if_neg Bool.false_ne_true]
  simp only [hchanged]
  by_cases hnil : changed = []
  · subst hnil
    rw [if_neg fun h => h.2 rfl]
    exact (ite_self _).symm
  rw [if_pos ⟨trivial, hnil⟩, if_neg Bool.false_ne_true]
  by_cases hclean :
      conflicts sha256 (handleOf sha256 handle before).baseline s.workspace changed = []
  · rw [if_pos hclean, if_pos hclean, IsolationState.apply, if_neg Bool.false_ne_true]
    cases applyAll s.snapshot changed s.workspace with
    | ok t => rfl
    | error t => rfl
  · rw [if_neg hclean, if_neg hclean]
    rfl

variable (sha256 s before) in
/-- The snapshot is removed, unless `_apply` raised. -/
theorem finalize_snapshot (apply : Bool) :
    (s.finalize sha256 {} (handleOf sha256 handle before) apply).1.snapshot = emptyTree ∨
      apply = true ∧
      conflicts sha256 (handleOf sha256 handle before).baseline s.workspace
        (s.changedPaths sha256 (handleOf sha256 handle before)) = [] ∧
      ∃ t, applyAll s.snapshot (s.changedPaths sha256 (handleOf sha256 handle before)) s.workspace =
          .error t ∧
        (s.finalize sha256 {} (handleOf sha256 handle before) apply).1 =
          { s with workspace := t } := by
  generalize hchanged : s.changedPaths sha256 (handleOf sha256 handle before) = changed
  rw [finalize, if_neg Bool.false_ne_true]
  simp only [hchanged]
  by_cases happly : apply = true ∧ changed ≠ []
  swap
  · rw [if_neg happly]
    exact Or.inl rfl
  rw [if_pos happly, if_neg Bool.false_ne_true]
  by_cases hclean :
      conflicts sha256 (handleOf sha256 handle before).baseline s.workspace changed = []
  swap
  · rw [if_neg hclean]
    exact Or.inl rfl
  rw [if_pos hclean, IsolationState.apply, if_neg Bool.false_ne_true]
  cases hend : applyAll s.snapshot changed s.workspace with
  | ok t => exact Or.inl rfl
  | error t => exact Or.inr ⟨happly.1, hclean, t, rfl, rfl⟩

variable (sha256 s before) in
/-- What a call with `apply` leaves. -/
theorem finalize_applied : Applied s.snapshot s.workspace
    (s.finalize sha256 {} (handleOf sha256 handle before) true).1.workspace
    (written sha256 s handle before) := by
  rw [finalize_workspace, written]
  split
  · obtain ⟨t, happlied, hend⟩ := applyAll_applied handle _ [] s.workspace (List.nil_append _)
      (Applied.start _ _)
    rcases hend with hok | ⟨herror, -⟩
    · rw [hok]
      exact happlied
    · rw [herror]
      exact happlied
  · exact Applied.start _ _

/-! ## A call that raised -/

/-- Where every path of a list is done or raises without a change, so is the list. -/
theorem applyAll_steady {snapshot t : PlainTree} {paths : List (List String)}
    (h : ∀ path ∈ paths, applyPath snapshot t path = .ok t ∨ applyPath snapshot t path = .error t)
    (tail : List (List String)) {path : List String}
    (hstop : applyPath snapshot t path = .error t) :
    ended (applyAll snapshot (paths ++ path :: tail) t) = t := by
  induction paths with
  | nil =>
    rw [List.nil_append, applyAll, hstop]
    rfl
  | cons first rest ih =>
    rw [List.cons_append, applyAll]
    rcases h first List.mem_cons_self with hok | herror
    · rw [hok]
      exact ih fun path hin => h path (List.mem_cons_of_mem _ hin)
    · rw [herror]
      rfl

/-- When `_apply` raised, a second call finds what is done in conflict, or does it again and raises
at the same path. -/
theorem finalize_again {t : PlainTree}
    (hend : applyAll s.snapshot (s.changedPaths sha256 (handleOf sha256 handle before))
      s.workspace = .error t) :
    (({ s with workspace := t } : IsolationState).finalize sha256 {} (handleOf sha256 handle before)
      true).1.workspace = t := by
  obtain ⟨t', happlied, hresult⟩ := applyAll_applied handle _ [] s.workspace (List.nil_append _)
    (Applied.start _ _)
  rw [hend] at hresult
  obtain ⟨he, path, rest, hsplit, hstop⟩ := hresult.resolve_left fun h => (by cases h)
  obtain rfl : t = t' := Except.error.inj he
  rw [List.nil_append, List.nil_append] at hsplit
  rw [List.nil_append] at happlied
  generalize hdone : (s.changedPaths sha256 (handleOf sha256 handle before)).takeWhile
    (fun path => !stopsAt sha256 s before path) = done at hsplit happlied
  rw [finalize_workspace]
  split
  · next hclean =>
    have hclean' := conflicts_eq_nil_iff.mp hclean
    have hchanged : ({ s with workspace := t } : IsolationState).changedPaths sha256
        (handleOf sha256 handle before) = done ++ path :: rest := hsplit
    rw [hchanged]
    refine applyAll_steady (fun other hin => ?_) rest hstop
    have hrun : RunChanged sha256 s before other := (mem_changedPaths handle).mp (by
      rw [hsplit]
      exact List.mem_append_left _ hin)
    have hleft : t.content? other = s.snapshot.content? other := by
      rw [happlied.content, if_pos hin]
    have hgone : s.snapshot.content? other = none := by
      -- a file that was written is in conflict by now
      by_contra hsome
      obtain ⟨content, hcontent⟩ := Option.ne_none_iff_exists'.mp hsome
      refine hclean' other hrun ?_
      have hnow : t.content? other = some content := hleft.trans hcontent
      cases hbefore : before.content? other with
      | none =>
        refine Or.inl ⟨hbefore, ?_⟩
        show t.holds other = true
        rw [PlainTree.holds, PlainTree.content?_eq_some.mp hnow]
        rfl
      | some old =>
        refine Or.inr ⟨old, content, hbefore, hnow, fun heq => hrun ?_⟩
        rw [digest?, digest?, hrun.not_excluded, hbefore, hcontent]
        exact congrArg some heq.symm
    rw [applyPath_of_absent hgone]
    rw [hgone] at hleft
    by_cases hstops : t.node? other = some .dir ∨ t.blocked other = true
    · rw [PlainTree.unlink_eq_none_iff.mpr hstops]
      exact Or.inr rfl
    obtain ⟨hdir, hblocked⟩ := not_or.mp hstops
    have hnone : t.node? other = none := PlainTree.node?_eq_none hleft hdir
    rw [PlainTree.unlink_of_absent hnone (Bool.not_eq_true _ ▸ hblocked)]
    exact Or.inl rfl
  · rfl

/-! ## A call without the snapshot -/

/-- The paths of the baseline, as a call without the snapshot goes through them. -/
def recorded (sha256 : List UInt8 → String) (before : PlainTree) : List (List String) :=
  diff (manifest sha256 before) []

theorem nothingToDelete_iff {t : PlainTree} (h : Applied s.snapshot s.workspace t
    (written sha256 s handle before)) (paths : List (List String)) :
    NothingToDelete t paths ↔ NothingLeft sha256 s handle before paths := by
  induction paths with
  | nil => exact Iff.rfl
  | cons path rest ih =>
    have hblocked : t.blocked path = true ↔ ∃ q, q <+: path ∧ q ≠ path ∧
        leftContent sha256 s handle before q ≠ none := by
      rw [PlainTree.blocked_iff]
      refine exists_congr fun q => ?_
      rw [h.content]
      rfl
    unfold NothingToDelete NothingLeft
    rw [ih, hblocked]
    refine or_congr (or_congr_left (h.dirs path)) (and_congr_left fun _ => ?_)
    rw [h.content]
    rfl

/-- Without the snapshot every file of the baseline was deleted by the run. -/
theorem runChanged_of_gone {gone : IsolationState} (h : gone.snapshot = emptyTree)
    {path : List String} : RunChanged sha256 gone before path ↔
      excludedPath path = false ∧ before.content? path ≠ none := by
  have hempty : digest? sha256 gone.snapshot path = none := by
    rw [h, digest?]
    split
    · rfl
    · rfl
  rw [RunChanged, hempty, digest?]
  cases hexcluded : excludedPath path with
  | true => exact iff_of_false (fun h => h rfl) fun h => (by cases h.1)
  | false =>
    rw [if_neg Bool.false_ne_true, ne_eq, Option.map_eq_none_iff]
    exact (and_iff_right rfl).symm

/-- A conflict is found exactly where a file of the baseline has another content. -/
theorem conflicts_of_gone {gone : IsolationState} (hgone : gone.snapshot = emptyTree)
    (h : Applied s.snapshot s.workspace gone.workspace (written sha256 s handle before)) :
    conflicts sha256 (handleOf sha256 handle before).baseline gone.workspace
        (gone.changedPaths sha256 (handleOf sha256 handle before)) = [] ↔
      ¬ Differs sha256 s handle before := by
  have hleft : ∀ path, leftContent sha256 s handle before path = gone.workspace.content? path :=
    fun path => (h.content path).symm
  rw [conflicts_eq_nil_iff]
  constructor
  · rintro hclean ⟨path, old, new, hexcluded, hbefore, hnew, hne⟩
    rw [hleft] at hnew
    refine hclean path ((runChanged_of_gone hgone).mpr ⟨hexcluded, ?_⟩)
      (Or.inr ⟨old, new, hbefore, hnew, hne⟩)
    rw [hbefore]
    exact Option.some_ne_none _
  · intro hsame path hchanged huser
    obtain ⟨hexcluded, hthere⟩ := (runChanged_of_gone hgone).mp hchanged
    rcases huser with ⟨hnone, -⟩ | ⟨old, new, hbefore, hnew, hne⟩
    · exact hthere hnone
    · exact hsame ⟨path, old, new, hexcluded, hbefore, (hleft path).trans hnew, hne⟩

/-- A call without the snapshot leaves the workspace exactly where a conflict is found, or no file
is left to delete. -/
theorem gone_iff {gone : IsolationState} (hgone : gone.snapshot = emptyTree)
    (h : Applied s.snapshot s.workspace gone.workspace (written sha256 s handle before)) :
    (∀ path, (gone.finalize sha256 {} (handleOf sha256 handle before) true).1.workspace.node? path =
        gone.workspace.node? path) ↔
      Differs sha256 s handle before ∨
        NothingLeft sha256 s handle before (recorded sha256 before) := by
  have hclean := conflicts_of_gone handle hgone h
  rw [finalize_workspace]
  by_cases hdiffers : Differs sha256 s handle before
  · rw [if_neg fun hnil => hclean.mp hnil hdiffers]
    exact iff_of_true (fun _ => rfl) (Or.inl hdiffers)
  · have hpaths : gone.changedPaths sha256 (handleOf sha256 handle before) =
        recorded sha256 before := by
      rw [changedPaths, hgone]
      rfl
    rw [if_pos (hclean.mpr hdiffers), hgone, hpaths, applyAll_emptyTree_iff,
      nothingToDelete_iff handle h]
    exact (or_iff_right hdiffers).symm

end Calls

/-- **A second call leaves the workspace** exactly when the first was one without `apply`, or a file
of the baseline is left with another content, so that a conflict is found, or no file is left at the
paths of the baseline, as far as they can be deleted. -/
theorem idempotent_iff (sha256 : List UInt8 → String) (s : IsolationState)
    (handle : IsolationHandle) (before : PlainTree) (apply : Bool) :
    Idempotent sha256 s handle before apply ↔
      apply = false ∨ Differs sha256 s handle before ∨
        NothingLeft sha256 s handle before (recorded sha256 before) := by
  cases apply with
  | false =>
    refine iff_of_true ⟨fun path => ?_, fun path => ?_⟩ (Or.inl rfl)
    · rw [finalize_false]
    · rw [finalize_false]
  | true =>
    have happlied := finalize_applied sha256 s before handle
    generalize hfirst : (s.finalize sha256 {} (handleOf sha256 handle before) true).1 = first
    rw [hfirst] at happlied
    have hempty : ({ first with snapshot := emptyTree } : IsolationState).snapshot
        = emptyTree := rfl
    have hremoved := gone_iff handle hempty happlied
    rw [or_iff_right (by decide : ¬ true = false), ← hremoved]
    unfold Idempotent
    simp only [hfirst]
    refine and_iff_right_of_imp fun hgone path => ?_
    have hsnapshot := finalize_snapshot sha256 s before handle true
    rw [hfirst] at hsnapshot
    rcases hsnapshot with hempty | ⟨-, -, t, hend, hkept⟩
    · have hself : ({ first with snapshot := emptyTree } : IsolationState) = first := by
        rw [← hempty]
      rw [hself] at hgone
      exact hgone path
    · rw [hkept, finalize_again handle hend]

/-- Of a run that changed nothing, the second call deletes the files of the workspace. -/
theorem not_idempotent : ¬ ∀ (sha256 : List UInt8 → String) (s : IsolationState)
    (handle : IsolationHandle) (before : PlainTree) (apply : Bool),
    Idempotent sha256 s handle before apply := by
  intro hclaim
  have hsame := (hclaim (fun content => toString content.length)
    { workspace := oneFile [1], snapshot := oneFile [1] }
    { workspaceId := "ws_1", baseline := [], leaseToken := "lease_task_1" } (oneFile [1]) true).1
    ["notes.txt"]
  revert hsame
  decide +kernel

end IsolationState

end ThreadForge

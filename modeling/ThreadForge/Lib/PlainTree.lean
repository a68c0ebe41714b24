import Mathlib.Logic.Function.Basic
import Mathlib.Data.List.Infix

/-!
# Trees of files and directories

A tree of regular files and directories under a root, without links. What a tree holds lies in its
directories: this is a field of the tree, so that every operation keeps it.

## Main results

* `PlainTree.eq_of_file_above` — nothing lies under a file.
* `PlainTree.mkdirs_eq_some` — `mkdir -p` goes through unless a file stands in the way.
-/

/-- What is at a path. -/
inductive PlainEntry
  | dir
  | file (content : List UInt8)
  deriving DecidableEq, Repr

/-- A tree under a root, and a list that names everything in it. -/
structure PlainTree where
  node? : List String → Option PlainEntry
  paths : List (List String)
  root : node? [] = none
  listed : ∀ path, node? path ≠ none → path ∈ paths
  closed : ∀ path name, node? (path ++ [name]) ≠ none → path = [] ∨ node? path = some .dir

namespace PlainTree

variable {t t' : PlainTree} {path q : List String}

/-! ## Reading -/

/-- The content of the file at a path. -/
def content? (t : PlainTree) (path : List String) : Option (List UInt8) :=
  match t.node? path with
  | some (.file content) => some content
  | some .dir | none => none

/-- Something is at the path. -/
def holds (t : PlainTree) (path : List String) : Bool := (t.node? path).isSome

/-- A file is on the way to the path. -/
def blocked (t : PlainTree) (path : List String) : Bool :=
  path.inits.any fun q => q ≠ path ∧ (t.content? q).isSome

theorem content?_eq_some {content : List UInt8} :
    t.content? path = some content ↔ t.node? path = some (.file content) := by
  unfold content?
  split
  · next found h =>
    rw [h, Option.some.injEq, Option.some.injEq, PlainEntry.file.injEq]
  · next h =>
    rw [h]
    simp
  · next h =>
    rw [h]
    simp

theorem content?_root (t : PlainTree) : t.content? [] = none := by
  rw [content?, t.root]

theorem content?_eq_of_node? (h : t'.node? path = t.node? path) :
    t'.content? path = t.content? path := by
  rw [content?, content?, h]

/-- Where there is neither a file nor a directory, there is nothing. -/
theorem node?_eq_none (hfile : t.content? path = none) (hdir : t.node? path ≠ some .dir) :
    t.node? path = none := by
  cases hnode : t.node? path with
  | none => rfl
  | some entry =>
    cases entry with
    | dir => exact absurd hnode hdir
    | file content =>
      rw [content?_eq_some.mpr hnode] at hfile
      cases hfile

/-- What lies somewhere lies in a directory. -/
theorem dir_above : ∀ (rest : List String), rest ≠ [] → t.node? (path ++ rest) ≠ none →
    path = [] ∨ t.node? path = some .dir := by
  intro rest
  induction rest using List.reverseRecOn with
  | nil => exact fun h => absurd rfl h
  | append_singleton rest name ih =>
    intro _ hentry
    rw [← List.append_assoc] at hentry
    rcases t.closed (path ++ rest) name hentry with hroot | hdir
    · exact Or.inl (List.append_eq_nil_iff.mp hroot).1
    · by_cases hrest : rest = []
      · rw [hrest, List.append_nil] at hdir
        exact Or.inr hdir
      · exact ih hrest (by rw [hdir]; exact Option.some_ne_none _)

/-- **Nothing lies under a file.** -/
theorem eq_of_file_above {content : List UInt8} (hq : t.content? q = some content)
    (hunder : q <+: path) (hpath : t.node? path ≠ none) : path = q := by
  obtain ⟨rest, rfl⟩ := hunder
  by_cases hrest : rest = []
  · rw [hrest, List.append_nil]
  · rcases dir_above rest hrest hpath with hroot | hdir
    · rw [hroot, content?_root] at hq
      cases hq
    · rw [content?_eq_some, hdir] at hq
      cases hq

theorem blocked_eq_false_iff :
    t.blocked path = false ↔ ∀ q, q <+: path → q ≠ path → t.content? q = none := by
  rw [blocked, List.any_eq_false]
  constructor
  · intro h q hunder hne
    have hnot := h q ((List.mem_inits q path).mpr hunder)
    simpa [hne] using hnot
  · intro h q hmem
    rw [List.mem_inits] at hmem
    by_cases hne : q = path
    · simp [hne]
    · simp [h q hmem hne]

theorem blocked_iff :
    t.blocked path = true ↔ ∃ q, q <+: path ∧ q ≠ path ∧ t.content? q ≠ none := by
  rw [blocked, List.any_eq_true]
  refine exists_congr fun q => ?_
  rw [List.mem_inits, decide_eq_true_iff, Option.isSome_iff_ne_none]

/-- A file does not block the way to itself. -/
theorem blocked_of_there (h : t.node? path ≠ none) : t.blocked path = false := by
  rw [blocked_eq_false_iff]
  intro q hunder hne
  rcases hq : t.content? q with _ | found
  · rfl
  · exact absurd (eq_of_file_above hq hunder h).symm hne

/-- Above what is there are directories. -/
theorem dir_of_prefix (hunder : q <+: path) (hne : q ≠ path) (hroot : q ≠ [])
    (h : t.node? path ≠ none) : t.node? q = some .dir := by
  obtain ⟨rest, rfl⟩ := hunder
  have hrest : rest ≠ [] := by
    rintro rfl
    exact hne (List.append_nil q).symm
  exact (dir_above rest hrest h).resolve_left hroot

/-! ## Changing the tree -/

/-- Where an entry can be put: in a directory, and not in place of one. -/
def Room (t : PlainTree) (path : List String) : Prop :=
  path ≠ [] ∧ (path.dropLast = [] ∨ t.node? path.dropLast = some .dir) ∧
    t.node? path ≠ some .dir

instance (t : PlainTree) (path : List String) : Decidable (t.Room path) :=
  inferInstanceAs (Decidable (_ ∧ _ ∧ _))

/-- The tree with an entry put at a path. -/
def put (t : PlainTree) (path : List String) (entry : PlainEntry) (h : t.Room path) : PlainTree where
  node? := Function.update t.node? path (some entry)
  paths := path :: t.paths
  root := by rw [Function.update_of_ne h.1.symm, t.root]
  listed q hq := by
    by_cases heq : q = path
    · exact heq ▸ List.mem_cons_self
    · rw [Function.update_of_ne heq] at hq
      exact List.mem_cons_of_mem _ (t.listed q hq)
  closed q name hq := by
    have hparent : q = [] ∨ t.node? q = some .dir := by
      by_cases heq : q ++ [name] = path
      · obtain ⟨-, hdirectory, -⟩ := h
        rw [← heq, List.dropLast_concat] at hdirectory
        exact hdirectory
      · rw [Function.update_of_ne heq] at hq
        exact t.closed q name hq
    rcases hparent with hroot | hdir
    · exact Or.inl hroot
    · right
      have hne : q ≠ path := fun heq => h.2.2 (heq ▸ hdir)
      rw [Function.update_of_ne hne]
      exact hdir

/-- The tree without the file at a path. -/
def remove (t : PlainTree) (path : List String) (h : t.node? path ≠ some .dir) : PlainTree where
  node? := Function.update t.node? path none
  paths := t.paths
  root := by
    by_cases heq : path = []
    · rw [heq, Function.update_self]
    · rw [Function.update_of_ne (Ne.symm heq), t.root]
  listed q hq := by
    by_cases heq : q = path
    · rw [heq, Function.update_self] at hq
      exact absurd rfl hq
    · rw [Function.update_of_ne heq] at hq
      exact t.listed q hq
  closed q name hq := by
    by_cases heq : q ++ [name] = path
    · rw [heq, Function.update_self] at hq
      exact absurd rfl hq
    · rw [Function.update_of_ne heq] at hq
      rcases t.closed q name hq with hroot | hdir
      · exact Or.inl hroot
      · right
        have hne : q ≠ path := fun heq => h (heq ▸ hdir)
        rw [Function.update_of_ne hne]
        exact hdir

/-- Write a file: `none` where a directory has its place, or no directory is there to hold it. -/
def write (t : PlainTree) (path : List String) (content : List UInt8) : Option PlainTree :=
  if h : t.Room path then some (t.put path (.file content) h) else none

/-- `unlink(missing_ok=True)`: `none` for a directory, and where a file is on the way. -/
def unlink (t : PlainTree) (path : List String) : Option PlainTree :=
  if h : t.node? path = some .dir then none
  else if t.blocked path then none
  else some (t.remove path h)

/-- `mkdir(parents=True, exist_ok=True)` of `base ++ rest`, where `base` is there: `none` where a
file stands in the way. -/
def mkdirs (t : PlainTree) : List String → List String → Option PlainTree
  | _, [] => some t
  | base, name :: rest =>
    match t.node? (base ++ [name]) with
    | some .dir => mkdirs t (base ++ [name]) rest
    | some (.file _) => none
    | none =>
      if h : t.Room (base ++ [name]) then
        mkdirs (t.put (base ++ [name]) .dir h) (base ++ [name]) rest
      else none

@[simp] theorem mkdirs_nil (t : PlainTree) (base : List String) : t.mkdirs base [] = some t := rfl

theorem mkdirs_cons (t : PlainTree) (base : List String) (name : String) (rest : List String) :
    t.mkdirs base (name :: rest) =
      match t.node? (base ++ [name]) with
      | some .dir => t.mkdirs (base ++ [name]) rest
      | some (.file _) => none
      | none =>
        if h : t.Room (base ++ [name]) then
          (t.put (base ++ [name]) .dir h).mkdirs (base ++ [name]) rest
        else none := rfl

/-! ## What the changes do -/

theorem node?_put {entry : PlainEntry} (h : t.Room path) (q : List String) :
    (t.put path entry h).node? q = if q = path then some entry else t.node? q :=
  Function.update_apply ..

/-- A directory where nothing was hides no file. -/
theorem content?_put_dir (h : t.Room path) (hnone : t.node? path = none) (q : List String) :
    (t.put path .dir h).content? q = t.content? q := by
  unfold content?
  rw [node?_put]
  by_cases heq : q = path
  · rw [if_pos heq, heq, hnone]
  · rw [if_neg heq]

/-- What a written file changes: its own path only. -/
theorem write_eq_some {content : List UInt8} (h : t.write path content = some t') :
    ∀ q, t'.node? q = if q = path then some (.file content) else t.node? q := by
  intro q
  rw [write] at h
  split at h
  · next hroom =>
    rw [← Option.some.inj h]
    exact node?_put hroom q
  · cases h

/-- What an unlinked file changes: its own path only. -/
theorem unlink_eq_some (h : t.unlink path = some t') :
    ∀ q, t'.node? q = if q = path then none else t.node? q := by
  intro q
  rw [unlink] at h
  split at h
  · cases h
  split at h
  · cases h
  rw [← Option.some.inj h]
  exact Function.update_apply ..

/-- A file that is there can be unlinked. -/
theorem unlink_of_file {content : List UInt8} (h : t.content? path = some content) :
    ∃ t', t.unlink path = some t' := by
  have hentry := content?_eq_some.mp h
  have hdir : t.node? path ≠ some .dir := by
    rw [hentry]
    exact fun heq => PlainEntry.noConfusion (Option.some.inj heq)
  have hfree : t.blocked path = false := blocked_of_there (by
    rw [hentry]
    exact Option.some_ne_none _)
  exact ⟨t.remove path hdir, by rw [unlink, dif_neg hdir, hfree, if_neg Bool.false_ne_true]⟩

/-- What `unlink` raises at. -/
theorem unlink_eq_none_iff :
    t.unlink path = none ↔ t.node? path = some .dir ∨ t.blocked path = true := by
  unfold unlink
  by_cases hdir : t.node? path = some .dir
  · rw [dif_pos hdir]
    exact iff_of_true rfl (Or.inl hdir)
  rw [dif_neg hdir]
  by_cases hblocked : t.blocked path = true
  · rw [if_pos hblocked]
    exact iff_of_true rfl (Or.inr hblocked)
  · rw [if_neg hblocked]
    exact iff_of_false (Option.some_ne_none _) (not_or.mpr ⟨hdir, hblocked⟩)

/-- Where there is nothing, `unlink` changes nothing. -/
theorem unlink_of_absent (h : t.node? path = none) (hblocked : t.blocked path = false) :
    t.unlink path = some t := by
  have hdir : t.node? path ≠ some .dir := by
    rw [h]
    exact (Option.some_ne_none _).symm
  rw [unlink, dif_neg hdir, hblocked, if_neg Bool.false_ne_true]
  have hsame : Function.update t.node? path none = t.node? :=
    Function.update_eq_self_iff.mpr h.symm
  unfold remove
  cases t
  simp only at hsame
  simp only [hsame]

/-- Where all directories are there, `mkdir` makes none. -/
theorem mkdirs_of_dirs : ∀ {base rest : List String},
    (∀ q, q <+: base ++ rest → q ≠ [] → t.node? q = some .dir) → t.mkdirs base rest = some t
  | base, [], _ => mkdirs_nil t base
  | base, name :: rest, hdirs => by
    have happend : base ++ name :: rest = (base ++ [name]) ++ rest := by simp
    rw [happend] at hdirs
    have hhere : t.node? (base ++ [name]) = some .dir :=
      hdirs _ (List.prefix_append _ _) (by simp)
    rw [mkdirs_cons, hhere]
    exact mkdirs_of_dirs hdirs

/-- `mkdir` makes directories, at most those of its path, and changes no file. -/
theorem mkdirs_spec : ∀ {t : PlainTree} {base rest : List String},
    (base = [] ∨ t.node? base = some .dir) → t.mkdirs base rest = some t' →
      (∀ q, t'.content? q = t.content? q) ∧
        (∀ q, t'.node? q = some .dir → t.node? q = some .dir ∨ q <+: base ++ rest) ∧
        (base ++ rest = [] ∨ t'.node? (base ++ rest) = some .dir)
  | t, base, [], hbase, h => by
    rw [mkdirs_nil] at h
    rw [← Option.some.inj h, List.append_nil]
    exact ⟨fun _ => rfl, fun _ hq => Or.inl hq, hbase⟩
  | t, base, name :: rest, hbase, h => by
    have happend : base ++ name :: rest = (base ++ [name]) ++ rest := by simp
    rw [mkdirs_cons] at h
    split at h
    · next hdir =>
      rw [happend]
      exact mkdirs_spec (Or.inr hdir) h
    · cases h
    · next hnone =>
      split at h
      · next hroom =>
        have hmade : (t.put (base ++ [name]) .dir hroom).node? (base ++ [name]) = some .dir := by
          rw [node?_put, if_pos rfl]
        obtain ⟨hcontent, hdirs, hlast⟩ := mkdirs_spec (Or.inr hmade) h
        rw [happend]
        refine ⟨fun q => (hcontent q).trans (content?_put_dir hroom hnone q), ?_, hlast⟩
        intro q hq
        rcases hdirs q hq with hbefore | hunder
        · rw [node?_put] at hbefore
          split at hbefore
          · next heq => exact Or.inr (heq ▸ List.prefix_append _ _)
          · exact Or.inl hbefore
        · exact Or.inr hunder
      · cases h

/-- `mkdir` leaves the directories there are. -/
theorem mkdirs_keeps_dir : ∀ {t : PlainTree} {base rest : List String},
    t.mkdirs base rest = some t' → ∀ q, t.node? q = some .dir → t'.node? q = some .dir
  | t, base, [], h => by
    rw [mkdirs_nil] at h
    rw [← Option.some.inj h]
    exact fun _ hq => hq
  | t, base, name :: rest, h => by
    intro q hq
    rw [mkdirs_cons] at h
    split at h
    · exact mkdirs_keeps_dir h q hq
    · cases h
    · split at h
      · next hroom =>
        refine mkdirs_keeps_dir h q ?_
        rw [node?_put]
        split
        · rfl
        · exact hq
      · cases h

/-- **`mkdir -p` goes through** where no file is at its path or on the way to it. -/
theorem mkdirs_eq_some : ∀ {t : PlainTree} {base rest : List String},
    (base = [] ∨ t.node? base = some .dir) →
      (∀ q, q <+: base ++ rest → t.content? q = none) → ∃ t', t.mkdirs base rest = some t'
  | t, base, [], _, _ => ⟨t, mkdirs_nil t base⟩
  | t, base, name :: rest, hbase, hfree => by
    have happend : base ++ name :: rest = (base ++ [name]) ++ rest := by simp
    rw [happend] at hfree
    rw [mkdirs_cons]
    split
    · next hdir => exact mkdirs_eq_some (Or.inr hdir) hfree
    · next content hfile =>
      have hnone := hfree (base ++ [name]) (List.prefix_append _ _)
      rw [content?_eq_some.mpr hfile] at hnone
      cases hnone
    · next hnone =>
      have hroom : t.Room (base ++ [name]) := by
        refine ⟨by simp, ?_, ?_⟩
        · rw [List.dropLast_concat]
          exact hbase
        · rw [hnone]
          exact (Option.some_ne_none _).symm
      rw [dif_pos hroom]
      refine mkdirs_eq_some (Or.inr ?_) fun q hq => ?_
      · rw [node?_put, if_pos rfl]
      · rw [content?_put_dir hroom hnone]
        exact hfree q hq

/-- A file can be written into a directory where no directory has its name. -/
theorem write_of_room {content : List UInt8} (h : t.Room path) :
    ∃ t', t.write path content = some t' :=
  ⟨t.put path (.file content) h, by rw [write, dif_pos h]⟩

end PlainTree

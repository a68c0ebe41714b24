import ThreadForge.Lib.Effects
import ThreadForge.Lib.PyString

/-!
# Files, directories and symbolic links

The file tree a Worker runs its tools on: regular files, directories and symbolic links under the
root `/`, with the two ways a path is followed in it. `realpath` is `os.path.realpath`, which
resolves what it can and keeps the rest; `locate` is what the kernel does when a path is opened.

## Plain paths

A path is plain when no part of it is a symbolic link. `realpath` returns plain paths
(`plain_of_realpath`), and the kernel opens a plain path where it says (`locate_plain`).
-/

namespace ThreadForge

/-- The components of an absolute path, from the root `/`. -/
abbrev Parts := List String

/-- A path as it is written: `Path(text)` drops empty components and `.`, and keeps `..`. -/
structure PathText where
  absolute : Bool
  parts : List String
  deriving DecidableEq, Repr

/-- `Path(text)`. -/
def parsePath (text : String) : PathText where
  absolute := pyStartsWith text "/"
  parts := (pySplit text '/').filter fun part => part ≠ "" ∧ part ≠ "."

/-- What is at a path. -/
inductive Node
  | dir
  | file (content : List UInt8)
  | link (target : PathText)
  deriving DecidableEq, Repr

/-- A tree of nodes. The root `/` is always a directory, and nothing is called `..`. -/
structure FileTree where
  nodes : List (Parts × Node)
  noUp : ∀ entry ∈ nodes, ".." ∉ entry.1 := by decide

namespace FileTree

/-- `os.lstat(path)`: what is at a path, links not followed. -/
def node? (t : FileTree) (path : Parts) : Option Node :=
  if path = [] then some .dir else t.nodes.lookup path

/-- The target of the symbolic link at a path. -/
def link? (t : FileTree) (path : Parts) : Option PathText :=
  match t.node? path with
  | some (.link target) => some target
  | _ => none

/-! ## `os.path.realpath` -/

/-- `_joinrealpath` through the components `rest`, where `follow` resolves the target of a link. -/
def resolveWith (t : FileTree) (follow : Parts → List String → Option Parts) :
    Parts → List String → Option Parts
  | path, [] => some path
  | path, name :: rest =>
    if name = ".." then resolveWith t follow path.dropLast rest
    else match t.link? (path ++ [name]) with
      | none => resolveWith t follow (path ++ [name]) rest
      | some target =>
        (follow (if target.absolute then [] else path) target.parts).bind fun resolved =>
          resolveWith t follow resolved rest

/-- `_joinrealpath`, with links nested at most `depth` deep. -/
def joinRealpath (t : FileTree) : Nat → Parts → List String → Option Parts
  | 0 => resolveWith t fun _ _ => none
  | depth + 1 => resolveWith t (joinRealpath t depth)

/-- `Path.resolve()` of an absolute path: `none` where links go round in a loop, which is where they
nest deeper than the tree has nodes. -/
def realpath (t : FileTree) (path : Parts) : Option Parts := t.joinRealpath t.nodes.length [] path

/-! ## Opening a path -/

/-- Follow the components `rest`, where `jump` goes on from the target of a link. -/
def locateWith (t : FileTree) (jump : Parts → List String → Option Parts) :
    Parts → List String → Option Parts
  | here, [] => some here
  | here, name :: rest =>
    if t.node? here ≠ some .dir then none
    else if name = ".." then locateWith t jump here.dropLast rest
    else match t.node? (here ++ [name]) with
      | none => none
      | some (.link target) => jump (if target.absolute then [] else here) (target.parts ++ rest)
      | some _ => locateWith t jump (here ++ [name]) rest

/-- Follow a path through at most `links` symbolic links. -/
def locateFrom (t : FileTree) : Nat → Parts → List String → Option Parts
  | 0 => locateWith t fun _ _ => none
  | links + 1 => locateWith t (locateFrom t links)

/-- The most symbolic links the kernel follows for one path. -/
def maxLinks : Nat := 40

/-- Where the kernel ends when a path is opened. -/
def locate (t : FileTree) (path : Parts) : Option Parts := t.locateFrom maxLinks [] path

/-- The node a path leads to, links followed. -/
def stat? (t : FileTree) (path : Parts) : Option Node := (t.locate path).bind t.node?

/-- `path.is_dir()`. -/
def isDir (t : FileTree) (path : Parts) : Bool := t.stat? path = some .dir

/-- The content of the file a path leads to. -/
def content? (t : FileTree) (path : Parts) : Option (List UInt8) :=
  match t.stat? path with
  | some (.file content) => some content
  | _ => none

/-- `path.is_file()`. -/
def isFile (t : FileTree) (path : Parts) : Bool := (t.content? path).isSome

/-- `path.exists()`. -/
def exists? (t : FileTree) (path : Parts) : Bool := (t.stat? path).isSome

/-- The names in a directory, in the order the directory keeps them. -/
def children (t : FileTree) (path : Parts) : List String :=
  t.nodes.filterMap fun entry =>
    if entry.1.dropLast = path ∧ entry.1 ≠ [] then entry.1.getLast? else none

/-! ## Changing the tree -/

/-- Put a node at a path, in its place when there is one. -/
def putIn (path : Parts) (node : Node) : List (Parts × Node) → List (Parts × Node)
  | [] => [(path, node)]
  | (p, n) :: rest => if p = path then (path, node) :: rest else (p, n) :: putIn path node rest

theorem mem_putIn {path : Parts} {node : Node} {entry : Parts × Node} :
    ∀ {nodes : List (Parts × Node)}, entry ∈ putIn path node nodes →
      entry.1 = path ∨ entry ∈ nodes
  | [], h => by
    rw [putIn, List.mem_singleton] at h
    exact Or.inl (by rw [h])
  | (p, n) :: rest, h => by
    rw [putIn] at h
    split at h
    · rcases List.mem_cons.mp h with rfl | h
      · exact Or.inl rfl
      · exact Or.inr (List.mem_cons_of_mem _ h)
    · rcases List.mem_cons.mp h with rfl | h
      · exact Or.inr List.mem_cons_self
      · rcases mem_putIn h with h | h
        · exact Or.inl h
        · exact Or.inr (List.mem_cons_of_mem _ h)

/-- The tree with a node put at a path. Nothing can be put under the name `..`. -/
def put (t : FileTree) (path : Parts) (node : Node) : FileTree :=
  if h : ".." ∈ path then t
  else
    { nodes := putIn path node t.nodes
      noUp := fun entry hentry => by
        rcases mem_putIn hentry with heq | hmem
        · rw [heq]
          exact h
        · exact t.noUp entry hmem }

/-- `path.mkdir(parents=True, exist_ok=True)` of `base ++ rest`, with `base` there: `none` where
something that is not a directory stands in the way. -/
def mkdirs (t : FileTree) : Parts → List String → Option FileTree
  | _, [] => some t
  | base, name :: rest =>
    match t.node? (base ++ [name]) with
    | none => mkdirs (t.put (base ++ [name]) .dir) (base ++ [name]) rest
    | some .dir => mkdirs t (base ++ [name]) rest
    | some _ => none

/-! ## Lemmas on nodes -/

@[simp] theorem node?_root (t : FileTree) : t.node? [] = some .dir := by
  rw [node?, if_pos rfl]

theorem node?_of_ne_nil (t : FileTree) {path : Parts} (h : path ≠ []) :
    t.node? path = t.nodes.lookup path := by
  rw [node?, if_neg h]

theorem link?_eq_some {t : FileTree} {path : Parts} {target : PathText} :
    t.link? path = some target ↔ t.node? path = some (.link target) := by
  unfold link?
  split
  · next found h =>
    rw [h]
    constructor
    · intro heq
      rw [Option.some.inj heq]
    · intro heq
      rw [Node.link.inj (Option.some.inj heq)]
  · next h =>
    constructor
    · intro heq
      cases heq
    · intro heq
      exact absurd heq (h target)

theorem link?_eq_none {t : FileTree} {path : Parts} :
    t.link? path = none ↔ ∀ target, t.node? path ≠ some (.link target) := by
  constructor
  · intro h target hnode
    rw [link?_eq_some.mpr hnode] at h
    cases h
  · intro h
    rcases hl : t.link? path with _ | target
    · rfl
    · exact absurd (link?_eq_some.mp hl) (h target)

theorem lookup_putIn (path p : Parts) (node : Node) (nodes : List (Parts × Node)) :
    (putIn path node nodes).lookup p = if p = path then some node else nodes.lookup p := by
  induction nodes with
  | nil =>
    rw [putIn, List.lookup_cons]
    by_cases h : p = path
    · rw [if_pos h, beq_iff_eq.mpr h]
    · rw [if_neg h, beq_eq_false_iff_ne.mpr h]
  | cons entry rest ih =>
    obtain ⟨q, n⟩ := entry
    rw [putIn]
    by_cases hq : q = path
    · subst hq
      rw [if_pos rfl, List.lookup_cons, List.lookup_cons]
      by_cases h : p = q
      · rw [if_pos h, beq_iff_eq.mpr h]
      · rw [if_neg h, beq_eq_false_iff_ne.mpr h]
    · rw [if_neg hq, List.lookup_cons, List.lookup_cons, ih]
      by_cases h : p = q
      · have hp : p ≠ path := h ▸ hq
        rw [beq_iff_eq.mpr h, if_neg hp, if_neg hp]
      · rw [beq_eq_false_iff_ne.mpr h]

/-- `..` is not a component of the path. -/
def NoUp (path : Parts) : Prop := ".." ∉ path

/-- What is put is what is found, and nothing else changes. -/
theorem node?_put (t : FileTree) {path : Parts} (hpath : path ≠ []) (hup : NoUp path) (node : Node)
    (p : Parts) : (t.put path node).node? p = if p = path then some node else t.node? p := by
  rw [put, dif_neg hup]
  by_cases hp : p = []
  · subst hp
    rw [node?_root, node?_root, if_neg (Ne.symm hpath)]
  · rw [node?_of_ne_nil _ hp, node?_of_ne_nil _ hp, lookup_putIn]

/-- A directory put where nothing was is no link, and hides none. -/
theorem link?_put_dir {t : FileTree} {path : Parts} (hpath : path ≠ [])
    (hnone : t.node? path = none) (p : Parts) : (t.put path .dir).link? p = t.link? p := by
  by_cases hup : ".." ∈ path
  · rw [put, dif_pos hup]
  unfold link?
  rw [node?_put t hpath hup]
  by_cases hp : p = path
  · rw [if_pos hp, hp, hnone]
  · rw [if_neg hp]

/-- `mkdir` makes directories only. -/
theorem link?_mkdirs {t' : FileTree} :
    ∀ {t : FileTree} {base : Parts} {rest : List String}, t.mkdirs base rest = some t' →
      ∀ p, t'.link? p = t.link? p
  | t, base, [], h, p => by
    rw [mkdirs] at h
    rw [Option.some.inj h]
  | t, base, name :: rest, h, p => by
    rw [mkdirs] at h
    split at h
    · next hnone => rw [link?_mkdirs h p, link?_put_dir (by simp) hnone]
    · exact link?_mkdirs h p
    · cases h

/-- No part of the path is a symbolic link. -/
def Plain (t : FileTree) (path : Parts) : Prop :=
  ∀ p, p <+: path → t.link? p = none

theorem Plain.nil (t : FileTree) : t.Plain [] := by
  intro p hp
  rw [List.prefix_nil.mp hp, link?_eq_none]
  intro target h
  rw [node?_root] at h
  cases h

theorem Plain.of_prefix {t : FileTree} {path p : Parts} (h : t.Plain path) (hp : p <+: path) :
    t.Plain p := fun _ hq => h _ (hq.trans hp)

theorem Plain.dropLast {t : FileTree} {path : Parts} (h : t.Plain path) : t.Plain path.dropLast :=
  h.of_prefix path.dropLast_prefix

theorem Plain.snoc {t : FileTree} {path : Parts} {name : String} (h : t.Plain path)
    (hname : t.link? (path ++ [name]) = none) : t.Plain (path ++ [name]) := by
  intro p hp
  rcases List.prefix_concat_iff.mp hp with rfl | hp
  · exact hname
  · exact h p hp

/-- Resolving from a plain path ends at a plain path, when following links does. -/
theorem plain_of_resolveWith {t : FileTree} {follow : Parts → List String → Option Parts}
    (hfollow : ∀ path rest resolved, t.Plain path → follow path rest = some resolved →
      t.Plain resolved) :
    ∀ (rest : List String) (path resolved : Parts), t.Plain path →
      t.resolveWith follow path rest = some resolved → t.Plain resolved := by
  intro rest
  induction rest with
  | nil =>
    intro path resolved hpath h
    rw [resolveWith] at h
    rw [← Option.some.inj h]
    exact hpath
  | cons name rest ih =>
    intro path resolved hpath h
    rw [resolveWith] at h
    by_cases hup : name = ".."
    · rw [if_pos hup] at h
      exact ih _ _ hpath.dropLast h
    rw [if_neg hup] at h
    rcases hlink : t.link? (path ++ [name]) with _ | target
    · rw [hlink] at h
      exact ih _ _ (hpath.snoc hlink) h
    · rw [hlink] at h
      obtain ⟨next, hnext, h⟩ := Option.bind_eq_some_iff.mp h
      refine ih _ _ (hfollow _ _ _ ?_ hnext) h
      split
      · exact Plain.nil t
      · exact hpath

theorem plain_of_joinRealpath {t : FileTree} :
    ∀ (depth : Nat) (path : Parts) (rest : List String) (resolved : Parts), t.Plain path →
      t.joinRealpath depth path rest = some resolved → t.Plain resolved
  | 0, path, rest, resolved, hpath, h =>
    plain_of_resolveWith (fun _ _ _ _ h => by cases h) rest path resolved hpath h
  | depth + 1, path, rest, resolved, hpath, h =>
    plain_of_resolveWith (plain_of_joinRealpath depth) rest path resolved hpath h

/-- **A resolved path has no symbolic link in it.** -/
theorem plain_of_realpath {t : FileTree} {path resolved : Parts}
    (h : t.realpath path = some resolved) : t.Plain resolved :=
  plain_of_joinRealpath _ _ _ _ (Plain.nil t) h

theorem noUp_of_resolveWith {t : FileTree} {follow : Parts → List String → Option Parts}
    (hfollow : ∀ path rest resolved, NoUp path → follow path rest = some resolved →
      NoUp resolved) :
    ∀ (rest : List String) (path resolved : Parts), NoUp path →
      t.resolveWith follow path rest = some resolved → NoUp resolved := by
  intro rest
  induction rest with
  | nil =>
    intro path resolved hpath h
    rw [resolveWith] at h
    rw [← Option.some.inj h]
    exact hpath
  | cons name rest ih =>
    intro path resolved hpath h
    rw [resolveWith] at h
    have hdrop : NoUp path.dropLast := fun hmem => hpath (path.dropLast_subset hmem)
    by_cases hup : name = ".."
    · rw [if_pos hup] at h
      exact ih _ _ hdrop h
    rw [if_neg hup] at h
    have hsnoc : NoUp (path ++ [name]) := by
      intro hmem
      rcases List.mem_append.mp hmem with hmem | hmem
      · exact hpath hmem
      · exact hup (List.mem_singleton.mp hmem).symm
    rcases hlink : t.link? (path ++ [name]) with _ | target
    · rw [hlink] at h
      exact ih _ _ hsnoc h
    · rw [hlink] at h
      obtain ⟨next, hnext, h⟩ := Option.bind_eq_some_iff.mp h
      refine ih _ _ (hfollow _ _ _ ?_ hnext) h
      split
      · exact List.not_mem_nil
      · exact hpath

theorem noUp_of_joinRealpath {t : FileTree} :
    ∀ (depth : Nat) (path : Parts) (rest : List String) (resolved : Parts), NoUp path →
      t.joinRealpath depth path rest = some resolved → NoUp resolved
  | 0, path, rest, resolved, hpath, h =>
    noUp_of_resolveWith (fun _ _ _ _ h => by cases h) rest path resolved hpath h
  | depth + 1, path, rest, resolved, hpath, h =>
    noUp_of_resolveWith (noUp_of_joinRealpath depth) rest path resolved hpath h

theorem noUp_of_realpath {t : FileTree} {path resolved : Parts}
    (h : t.realpath path = some resolved) : NoUp resolved :=
  noUp_of_joinRealpath _ _ _ _ (List.not_mem_nil) h

/-- From a plain path on, the kernel goes where the components say. -/
theorem locateWith_plain {t : FileTree} {jump : Parts → List String → Option Parts} :
    ∀ (rest : List String) (here loc : Parts), t.Plain (here ++ rest) → NoUp rest →
      t.locateWith jump here rest = some loc → loc = here ++ rest := by
  intro rest
  induction rest with
  | nil =>
    intro here loc _ _ h
    rw [locateWith] at h
    rw [← Option.some.inj h, List.append_nil]
  | cons name rest ih =>
    intro here loc hplain hup h
    rw [locateWith] at h
    have hname : name ≠ ".." := fun heq => hup (heq ▸ List.mem_cons_self)
    have hrest : NoUp rest := fun hmem => hup (List.mem_cons_of_mem _ hmem)
    have happ : here ++ name :: rest = (here ++ [name]) ++ rest := by simp
    have hlink : t.link? (here ++ [name]) = none :=
      hplain _ (happ ▸ List.prefix_append _ _)
    by_cases hdir : t.node? here ≠ some .dir
    · rw [if_pos hdir] at h
      cases h
    rw [if_neg hdir, if_neg hname] at h
    rw [happ] at hplain ⊢
    split at h
    · cases h
    · next target hnode => exact absurd hnode (link?_eq_none.mp hlink target)
    · exact ih _ _ hplain hrest h

/-- **The kernel opens a plain path where it says.** -/
theorem locate_plain {t : FileTree} {path loc : Parts} (hplain : t.Plain path) (hup : NoUp path)
    (h : t.locate path = some loc) : loc = path :=
  locateWith_plain path [] loc hplain hup h

end FileTree

end ThreadForge

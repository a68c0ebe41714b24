import ThreadForge.Lib.SplitJoin
import ThreadForge.Pico.FileWrites
import ThreadForge.Pico.ToolResults
import Mathlib.Data.List.Sort
import Mathlib.Data.List.Dedup
import Mathlib.Data.List.DropRight

/-!
# The paths that a call affected

The executor compares digests of files from before and after a call of a risky tool: of the whole
workspace, or of the one path that the arguments name under `path`, whichever tool it is. The first
also reads through symbolic links, and the second calls the file what the arguments call it.

## Main results

* `workspaceDiff_eq_iff`, `pathDiff_eq_iff` : when the two comparisons find the files that changed
* `affected_paths_iff` : when the result of a call names them
-/

namespace ThreadForge

open Eff AgentM

variable {X : Type} {env : AgentEnv X}

/-! ## The files of the workspace -/

/-- The components of a path under the root that is not ignored. -/
structure Listed (parts : Parts) : Prop where
  nonempty : parts ≠ []
  names : ∀ part ∈ parts, PathName part
  kept : ∀ part ∈ parts, part ∉ ignoredPathNames

/-- `path.relative_to(root).as_posix()`. -/
def posixText (parts : Parts) : String := "/".intercalate parts

theorem posixText_injective {parts parts' : Parts} (h : Listed parts) (h' : Listed parts')
    (heq : posixText parts = posixText parts') : parts = parts' := by
  have hjoint : "/".toList = ['/'] := rfl
  rw [← pySplit_intercalate hjoint h.nonempty fun part hpart => (h.names part hpart).1,
    ← pySplit_intercalate hjoint h'.nonempty fun part hpart => (h'.names part hpart).1]
  exact congrArg (pySplit · '/') heq

/-- What `read` gives for the nodes of the workspace that are not ignored, by their relative
paths. -/
def indexOf {A : Type} (env : AgentEnv X) (t : FileTree) (read : Parts → Option A) :
    List (String × A) :=
  t.nodes.filterMap fun entry =>
    let relative := entry.1.drop env.files.root.length
    if env.files.root.isPrefixOf entry.1 ∧ relative ≠ [] ∧
        ∀ part ∈ relative, part ∉ ignoredPathNames then
      (read entry.1).map fun a => (posixText relative, a)
    else none

/-- What is at a path of the workspace, as `read` gives it. -/
def shown {A : Type} (env : AgentEnv X) (t : FileTree) (read : Parts → Option A) (parts : Parts) :
    Option A :=
  if t.node? (env.files.root ++ parts) = none then none else read (env.files.root ++ parts)

theorem captureWorkspaceSnapshot_eq (t : FileTree) :
    captureWorkspaceSnapshot env t =
      indexOf env t fun path => (t.content? path).map env.digest := by
  unfold captureWorkspaceSnapshot indexOf
  refine congrArg (fun f => List.filterMap f t.nodes) (funext fun entry => ?_)
  dsimp only
  split
  · rw [Option.map_map]
    rfl
  · rfl

theorem mem_indexOf {A : Type} {t : FileTree} (hreal : t.Real) {read : Parts → Option A}
    {r : String} {a : A} (h : (r, a) ∈ indexOf env t read) :
    ∃ parts, Listed parts ∧ r = posixText parts ∧ shown env t read parts = some a := by
  obtain ⟨entry, hentry, hread⟩ := List.mem_filterMap.mp h
  dsimp only at hread
  split at hread
  · next hlisted =>
    obtain ⟨rest, hrest⟩ := List.isPrefixOf_iff_prefix.mp hlisted.1
    have hdrop : entry.1.drop env.files.root.length = rest := by
      rw [← hrest, List.drop_left]
    rw [hdrop] at hlisted hread
    obtain ⟨b, hb, hpair⟩ := Option.map_eq_some_iff.mp hread
    obtain ⟨rfl, rfl⟩ := Prod.mk.inj hpair
    refine ⟨rest, ⟨hlisted.2.1, fun part hpart => ?_, hlisted.2.2⟩, rfl, ?_⟩
    · exact hreal.names entry hentry part (hrest ▸ List.mem_append_right _ hpart)
    · rw [shown, hrest, if_neg (FileTree.node?_ne_none_of_mem hentry), hb]
  · cases hread

theorem indexOf_of_shown {A : Type} {t : FileTree} {read : Parts → Option A} {parts : Parts} {a : A}
    (hlisted : Listed parts) (h : shown env t read parts = some a) :
    (posixText parts, a) ∈ indexOf env t read := by
  unfold shown at h
  split at h
  · cases h
  next hnode =>
  have hne : env.files.root ++ parts ≠ [] := List.append_ne_nil_of_right_ne_nil _ hlisted.nonempty
  rcases hfound : t.node? (env.files.root ++ parts) with _ | node
  · exact absurd hfound hnode
  obtain ⟨entry, hentry, hpath⟩ := FileTree.mem_of_node? hne hfound
  refine List.mem_filterMap.mpr ⟨entry, hentry, ?_⟩
  dsimp only
  have hdrop : entry.1.drop env.files.root.length = parts := by rw [hpath, List.drop_left]
  rw [hdrop, if_pos ⟨List.isPrefixOf_iff_prefix.mpr (hpath ▸ List.prefix_append _ _),
    hlisted.nonempty, hlisted.kept⟩, hpath, h]
  rfl

/-- The index at the path of a file that it can list. -/
theorem lookup_indexOf {A : Type} {t : FileTree} (hreal : t.Real) (read : Parts → Option A)
    {parts : Parts} (hlisted : Listed parts) :
    (indexOf env t read).lookup (posixText parts) = shown env t read parts := by
  rcases hlookup : (indexOf env t read).lookup (posixText parts) with _ | a
  · rcases hshown : shown env t read parts with _ | a
    · rfl
    · have hmem := indexOf_of_shown hlisted hshown
      have hnone := List.lookup_eq_none_iff.mp hlookup _ hmem
      exact absurd hnone (by simp)
  · obtain ⟨l₁, l₂, heq, -⟩ := List.lookup_eq_some_iff.mp hlookup
    have hmem : (posixText parts, a) ∈ indexOf env t read := by
      rw [heq]
      exact List.mem_append_right _ List.mem_cons_self
    obtain ⟨parts', hlisted', htext, hshown⟩ := mem_indexOf hreal hmem
    rw [posixText_injective hlisted hlisted' htext, hshown]

theorem lookup_indexOf_none {A : Type} {t : FileTree} (hreal : t.Real) (read : Parts → Option A)
    {r : String} (h : ∀ parts, Listed parts → r ≠ posixText parts) :
    (indexOf env t read).lookup r = none := by
  rcases hlookup : (indexOf env t read).lookup r with _ | a
  · rfl
  · obtain ⟨l₁, l₂, heq, -⟩ := List.lookup_eq_some_iff.mp hlookup
    have hmem : (r, a) ∈ indexOf env t read := by
      rw [heq]
      exact List.mem_append_right _ List.mem_cons_self
    obtain ⟨parts, hlisted, htext, -⟩ := mem_indexOf hreal hmem
    exact absurd htext (h parts hlisted)

/-! ## The differences of two indexes -/

section Changes

variable {A B : Type} [DecidableEq A] [DecidableEq B]

/-- The keys whose values differ, sorted. -/
def changedKeys (before after : List (String × A)) : List String :=
  (((before ++ after).map Prod.fst).dedup.insertionSort (· ≤ ·)).filter fun key =>
    before.lookup key ≠ after.lookup key

theorem diffSnapshots_eq (before after : Snapshot) :
    (diffSnapshots before after).1 = changedKeys before after := rfl

omit [DecidableEq A] in
theorem mem_keys_of_lookup {entries : List (String × A)} {key : String} {a : A}
    (h : entries.lookup key = some a) : key ∈ entries.map Prod.fst := by
  obtain ⟨l₁, l₂, rfl, -⟩ := List.lookup_eq_some_iff.mp h
  rw [List.map_append]
  exact List.mem_append_right _ List.mem_cons_self

theorem mem_changedKeys {before after : List (String × A)} {key : String} :
    key ∈ changedKeys before after ↔ before.lookup key ≠ after.lookup key := by
  unfold changedKeys
  rw [List.mem_filter, List.mem_insertionSort, List.mem_dedup, List.map_append, List.mem_append,
    decide_eq_true_iff]
  refine and_iff_right_of_imp fun hne => ?_
  rcases hbefore : before.lookup key with _ | a
  · rcases hafter : after.lookup key with _ | a
    · exact absurd (hbefore.trans hafter.symm) hne
    · exact Or.inr (mem_keys_of_lookup hafter)
  · exact Or.inl (mem_keys_of_lookup hbefore)

/-- Two differences are equal when they have the same keys. -/
theorem changedKeys_eq_iff {before after : List (String × A)} {before' after' : List (String × B)} :
    changedKeys before after = changedKeys before' after' ↔
      ∀ key, key ∈ changedKeys before after ↔ key ∈ changedKeys before' after' := by
  refine ⟨fun h key => by rw [h], fun h => ?_⟩
  have hsorted : ∀ {C : Type} [DecidableEq C] (b a : List (String × C)),
      (changedKeys b a).Pairwise (· ≤ ·) ∧ (changedKeys b a).Nodup := by
    intro C _ b a
    refine ⟨List.Pairwise.filter _ (List.pairwise_insertionSort _ _), List.Nodup.filter _ ?_⟩
    exact (List.perm_insertionSort _ _).nodup_iff.mpr (List.nodup_dedup _)
  have hperm :=
    (List.perm_ext_iff_of_nodup (hsorted before after).2 (hsorted before' after').2).mpr h
  exact hperm.eq_of_pairwise' (hsorted before after).1 (hsorted before' after').1

end Changes

/-! ## The files that changed -/

/-- The relative paths of the regular files of the workspace that changed, sorted. -/
def changedFiles (env : AgentEnv X) (t t' : FileTree) : List String :=
  changedKeys (indexOf env t t.regular?) (indexOf env t' t'.regular?)

/-- The regular file at a path changed. -/
def Changed (env : AgentEnv X) (t t' : FileTree) (parts : Parts) : Prop :=
  Listed parts ∧
    t.regular? (env.files.root ++ parts) ≠ t'.regular? (env.files.root ++ parts)

theorem shown_regular (t : FileTree) (parts : Parts) :
    shown env t t.regular? parts = t.regular? (env.files.root ++ parts) := by
  unfold shown
  split
  · next hnone =>
    rw [FileTree.regular?, hnone]
  · rfl

/-- The differences of two indexes, path by path. -/
theorem mem_changedKeys_indexOf {A : Type} [DecidableEq A] {t t' : FileTree} (hreal : t.Real)
    (hreal' : t'.Real) (read read' : Parts → Option A) {key : String} :
    key ∈ changedKeys (indexOf env t read) (indexOf env t' read') ↔
      ∃ parts, Listed parts ∧ key = posixText parts ∧
        shown env t read parts ≠ shown env t' read' parts := by
  rw [mem_changedKeys]
  by_cases hkey : ∃ parts, Listed parts ∧ key = posixText parts
  · obtain ⟨parts, hlisted, rfl⟩ := hkey
    rw [lookup_indexOf hreal read hlisted, lookup_indexOf hreal' read' hlisted]
    constructor
    · exact fun hne => ⟨parts, hlisted, rfl, hne⟩
    · rintro ⟨parts', hlisted', htext, hne⟩
      rwa [posixText_injective hlisted hlisted' htext]
  · have hnone : ∀ parts, Listed parts → key ≠ posixText parts :=
      fun parts hlisted heq => hkey ⟨parts, hlisted, heq⟩
    rw [lookup_indexOf_none hreal read hnone, lookup_indexOf_none hreal' read' hnone]
    constructor
    · exact fun hne => absurd rfl hne
    · rintro ⟨parts, hlisted, htext, -⟩
      exact absurd htext (hnone parts hlisted)

theorem mem_changedFiles {t t' : FileTree} (hreal : t.Real) (hreal' : t'.Real) {key : String} :
    key ∈ changedFiles env t t' ↔ ∃ parts, Changed env t t' parts ∧ key = posixText parts := by
  unfold changedFiles
  rw [mem_changedKeys_indexOf hreal hreal']
  constructor
  · rintro ⟨parts, hlisted, htext, hne⟩
    rw [shown_regular, shown_regular] at hne
    exact ⟨parts, ⟨hlisted, hne⟩, htext⟩
  · rintro ⟨parts, ⟨hlisted, hne⟩, htext⟩
    refine ⟨parts, hlisted, htext, ?_⟩
    rwa [shown_regular, shown_regular]

/-! ## Comparing the workspace -/

/-- What reading a path of the workspace gives, links followed. -/
def readThrough (env : AgentEnv X) (t : FileTree) (parts : Parts) : Option (List UInt8) :=
  shown env t t.content? parts

theorem shown_digest (t : FileTree) (parts : Parts) :
    shown env t (fun path => (t.content? path).map env.digest) parts =
      (readThrough env t parts).map env.digest := by
  unfold readThrough shown
  split
  · rfl
  · rfl

/-- Reading a path that is no link gives the regular file there. -/
theorem readThrough_of_not_link {t : FileTree} (hreal : t.Real) {parts : Parts}
    (hlisted : Listed parts) (hlink : t.link? (env.files.root ++ parts) = none) :
    readThrough env t parts = t.regular? (env.files.root ++ parts) := by
  unfold readThrough shown
  split
  · next hnone =>
    rw [FileTree.regular?, hnone]
  · next hsome =>
    obtain ⟨node, hnode⟩ := Option.ne_none_iff_exists'.mp hsome
    have hne : env.files.root ++ parts ≠ [] :=
      List.append_ne_nil_of_right_ne_nil _ hlisted.nonempty
    obtain ⟨entry, hentry, hpath⟩ := FileTree.mem_of_node? hne hnode
    have hup : FileTree.NoUp (env.files.root ++ parts) := hpath ▸ t.noUp entry hentry
    have hnolink : ∀ target, node ≠ .link target := by
      rintro target rfl
      rw [FileTree.link?_eq_some.mpr hnode] at hlink
      cases hlink
    exact hreal.content?_plain (hreal.plain_node hnode hnolink) hup

/-- Where a path is a symbolic link before or after, what reading it gives changes exactly if the
regular file there does. -/
def LinksAgree (env : AgentEnv X) (t t' : FileTree) : Prop :=
  ∀ parts, Listed parts →
    t.link? (env.files.root ++ parts) ≠ none ∨ t'.link? (env.files.root ++ parts) ≠ none →
    (readThrough env t parts ≠ readThrough env t' parts ↔
      t.regular? (env.files.root ++ parts) ≠ t'.regular? (env.files.root ++ parts))

/-- What the comparison of the workspace finds. -/
theorem mem_workspaceDiff_iff (hdigest : Function.Injective env.digest) {t t' : FileTree}
    (hreal : t.Real) (hreal' : t'.Real) {key : String} :
    key ∈ (diffSnapshots (captureWorkspaceSnapshot env t) (captureWorkspaceSnapshot env t')).1 ↔
      ∃ parts, Listed parts ∧ key = posixText parts ∧
        readThrough env t parts ≠ readThrough env t' parts := by
  rw [diffSnapshots_eq, captureWorkspaceSnapshot_eq, captureWorkspaceSnapshot_eq,
    mem_changedKeys_indexOf hreal hreal']
  refine exists_congr fun parts => and_congr_right fun _ => and_congr_right fun _ => ?_
  rw [shown_digest, shown_digest, Ne, (Option.map_injective hdigest).eq_iff]

theorem workspaceDiff_eq_iff (hdigest : Function.Injective env.digest) {t t' : FileTree}
    (hreal : t.Real) (hreal' : t'.Real) :
    (diffSnapshots (captureWorkspaceSnapshot env t) (captureWorkspaceSnapshot env t')).1 =
        changedFiles env t t' ↔ LinksAgree env t t' := by
  rw [diffSnapshots_eq, changedFiles, changedKeys_eq_iff]
  have hfound := fun key : String => @mem_workspaceDiff_iff X env hdigest t t' hreal hreal' key
  have hchanged := fun key : String => @mem_changedFiles X env t t' hreal hreal' key
  constructor
  · intro h parts hlisted _
    have hkey := (hfound (posixText parts)).symm.trans ((h _).trans (hchanged (posixText parts)))
    constructor
    · intro hne
      obtain ⟨parts', ⟨hlisted', hne'⟩, htext⟩ := hkey.mp ⟨parts, hlisted, rfl, hne⟩
      rwa [posixText_injective hlisted hlisted' htext]
    · intro hne
      obtain ⟨parts', hlisted', htext, hne'⟩ := hkey.mpr ⟨parts, ⟨hlisted, hne⟩, rfl⟩
      rwa [posixText_injective hlisted hlisted' htext]
  · intro h key
    refine (hfound key).trans (Iff.trans ?_ (hchanged key).symm)
    have hsame : ∀ parts, Listed parts →
        (readThrough env t parts ≠ readThrough env t' parts ↔
          t.regular? (env.files.root ++ parts) ≠ t'.regular? (env.files.root ++ parts)) := by
      intro parts hlisted
      by_cases hlink : t.link? (env.files.root ++ parts) = none ∧
          t'.link? (env.files.root ++ parts) = none
      · rw [readThrough_of_not_link hreal hlisted hlink.1,
          readThrough_of_not_link hreal' hlisted hlink.2]
      · exact h parts hlisted (not_and_or.mp hlink)
    constructor
    · rintro ⟨parts, hlisted, htext, hne⟩
      exact ⟨parts, ⟨hlisted, (hsame parts hlisted).mp hne⟩, htext⟩
    · rintro ⟨parts, ⟨hlisted, hne⟩, htext⟩
      exact ⟨parts, hlisted, htext, (hsame parts hlisted).mpr hne⟩

/-! ## Comparing one path -/

/-- What reading the path of the arguments gives. -/
def leadsTo (env : AgentEnv X) (t : FileTree) (key : String) : Option (List UInt8) :=
  match picoPathIn env.files t (.str key) with
  | .ok path => t.content? path
  | .error _ => none

theorem lookup_capturePathSnapshot (t : FileTree) (key r : String) :
    (capturePathSnapshot env t key).lookup r =
      if r = key then (leadsTo env t key).map env.digest else none := by
  unfold capturePathSnapshot leadsTo
  rcases picoPathIn env.files t (.str key) with exc | path
  · exact (ite_self _).symm
  · dsimp only
    rcases t.content? path with _ | content
    · exact (ite_self _).symm
    · show [(key, env.digest content)].lookup r = _
      rw [List.lookup_cons]
      by_cases hr : r = key
      · rw [beq_iff_eq.mpr hr, if_pos hr]
        rfl
      · rw [beq_eq_false_iff_ne.mpr hr, if_neg hr]
        rfl

theorem mem_pathDiff_iff (hdigest : Function.Injective env.digest) {t t' : FileTree}
    {key r : String} :
    r ∈ (diffSnapshots (capturePathSnapshot env t key) (capturePathSnapshot env t' key)).1 ↔
      r = key ∧ leadsTo env t key ≠ leadsTo env t' key := by
  rw [diffSnapshots_eq, mem_changedKeys, lookup_capturePathSnapshot, lookup_capturePathSnapshot]
  by_cases hr : r = key
  · rw [if_pos hr, if_pos hr, Ne, (Option.map_injective hdigest).eq_iff]
    exact (and_iff_right hr).symm
  · rw [if_neg hr, if_neg hr]
    exact iff_of_false (fun h => h rfl) fun h => hr h.1

/-- No file changed but the one that is called `key` from the root, and this one did exactly if what
the path `key` leads to did. -/
def OnlyNamed (env : AgentEnv X) (t t' : FileTree) (key : String) : Prop :=
  (∀ parts, Changed env t t' parts → posixText parts = key) ∧
    (leadsTo env t key ≠ leadsTo env t' key ↔
      ∃ parts, Changed env t t' parts ∧ posixText parts = key)

theorem pathDiff_eq_iff (hdigest : Function.Injective env.digest) {t t' : FileTree}
    (hreal : t.Real) (hreal' : t'.Real) {key : String} :
    (diffSnapshots (capturePathSnapshot env t key) (capturePathSnapshot env t' key)).1 =
        changedFiles env t t' ↔ OnlyNamed env t t' key := by
  rw [diffSnapshots_eq, changedFiles, changedKeys_eq_iff]
  have hfound := fun r : String => @mem_pathDiff_iff X env hdigest t t' key r
  have hchanged := fun r : String => @mem_changedFiles X env t t' hreal hreal' r
  constructor
  · intro h
    have hboth := fun r => (hfound r).symm.trans ((h r).trans (hchanged r))
    refine ⟨fun parts hparts => ((hboth _).mpr ⟨parts, hparts, rfl⟩).1, ?_⟩
    constructor
    · intro hne
      obtain ⟨parts, hparts, htext⟩ := (hboth key).mp ⟨rfl, hne⟩
      exact ⟨parts, hparts, htext.symm⟩
    · rintro ⟨parts, hparts, htext⟩
      exact ((hboth key).mpr ⟨parts, hparts, htext.symm⟩).2
  · rintro ⟨honly, hleads⟩ r
    refine (hfound r).trans (Iff.trans ?_ (hchanged r).symm)
    constructor
    · rintro ⟨rfl, hne⟩
      obtain ⟨parts, hparts, htext⟩ := hleads.mp hne
      exact ⟨parts, hparts, htext.symm⟩
    · rintro ⟨parts, hparts, rfl⟩
      exact ⟨honly parts hparts, (honly parts hparts) ▸
        hleads.mpr ⟨parts, hparts, honly parts hparts⟩⟩

/-! ## Writing one file -/

/-- The relative path of a file is read as what it was written from. -/
theorem parsePath_posixText {parts : Parts} (h : Listed parts) :
    parsePath (posixText parts) = { absolute := false, parts := parts } :=
  parsePath_intercalate h.names

/-- What the relative path of a file leads to. -/
theorem leadsTo_posixText {t : FileTree} (hreal : t.Real) {parts : Parts} (hlisted : Listed parts)
    (hplain : t.Plain (env.files.root ++ parts)) (hup : FileTree.NoUp (env.files.root ++ parts))
    (hgood : env.files.badPath (posixText parts) = false) :
    leadsTo env t (posixText parts) = t.regular? (env.files.root ++ parts) := by
  have hpath : picoPathIn env.files t (.str (posixText parts)) = .ok (env.files.root ++ parts) := by
    unfold picoPathIn
    dsimp only
    rw [if_neg (by rw [hgood]; exact Bool.false_ne_true), parsePath_posixText hlisted,
      if_neg (by exact Bool.false_ne_true), FileTree.realpath_plain hplain hup]
    dsimp only
    rw [if_pos (List.isPrefixOf_iff_prefix.mpr (List.prefix_append _ _))]
  unfold leadsTo
  rw [hpath]
  exact hreal.content?_plain hplain hup

/-- Where one file is written at most, it is found exactly if it did not change or the arguments
call it by its relative path. -/
theorem onlyNamed_iff_of_writesAt {t t' : FileTree} (hreal : t.Real) (hreal' : t'.Real)
    {parts : Parts} {key : String} (hlisted : Listed parts)
    (hplain : t.Plain (env.files.root ++ parts)) (hup : FileTree.NoUp (env.files.root ++ parts))
    (hgood : env.files.badPath key = false)
    (hwrites : FileTree.WritesAt t t' (env.files.root ++ parts)) :
    OnlyNamed env t t' key ↔
      t'.regular? (env.files.root ++ parts) = t.regular? (env.files.root ++ parts) ∨
        posixText parts = key := by
  constructor
  · intro h
    by_cases hsame : t'.regular? (env.files.root ++ parts) = t.regular? (env.files.root ++ parts)
    · exact Or.inl hsame
    · exact Or.inr (h.1 parts ⟨hlisted, Ne.symm hsame⟩)
  · rintro (hsame | rfl)
    · rw [hwrites.idle hsame]
      refine ⟨fun parts' hchanged => absurd rfl hchanged.2, ?_⟩
      exact iff_of_false (fun h => h rfl) fun ⟨_, hchanged, _⟩ => hchanged.2 rfl
    · have hplain' : t'.Plain (env.files.root ++ parts) :=
        fun p hp => (hwrites.links p).trans (hplain p hp)
      refine ⟨fun parts' hchanged => ?_, ?_⟩
      · by_cases heq : parts' = parts
        · rw [heq]
        · refine absurd (hwrites.others _ fun h => heq ?_).symm hchanged.2
          exact List.append_cancel_left h
      · rw [leadsTo_posixText hreal hlisted hplain hup hgood,
          leadsTo_posixText hreal' hlisted hplain' hup hgood]
        constructor
        · exact fun hne => ⟨parts, ⟨hlisted, hne⟩, rfl⟩
        · rintro ⟨parts', hchanged, htext⟩
          rw [← posixText_injective hchanged.1 hlisted htext]
          exact hchanged.2

/-! ## The path of the arguments -/

theorem mem_of_mem_replaceAll {old new : List Char} {c : Char} :
    ∀ {skip : Nat} {cs : List Char}, c ∈ PyChars.replaceAll old new skip cs → c ∈ new ∨ c ∈ cs
  | _, [], h => by
    cases ‹Nat› with
    | zero => cases h
    | succ skip => cases h
  | skip + 1, a :: cs, h => by
    rw [PyChars.replaceAll] at h
    exact (mem_of_mem_replaceAll h).imp_right (List.mem_cons_of_mem a)
  | 0, a :: cs, h => by
    rw [PyChars.replaceAll] at h
    split at h
    · rcases List.mem_append.mp h with hnew | hrest
      · exact Or.inl hnew
      · exact (mem_of_mem_replaceAll hrest).imp_right (List.mem_cons_of_mem a)
    · rcases List.mem_cons.mp h with rfl | hrest
      · exact Or.inr List.mem_cons_self
      · exact (mem_of_mem_replaceAll hrest).imp_right (List.mem_cons_of_mem a)

/-- The path that is compared is one the operating system takes where the path of the arguments
is. -/
theorem badPath_snapshotPathOf {args : PyDict} {text : String}
    (hslash : env.txt.surrogate '/' = false) (hraw : args.get? "path" = some (.str text))
    (hgood : env.files.badPath text = false) :
    env.files.badPath (snapshotPathOf env args) = false := by
  unfold FileEnv.badPath at hgood ⊢
  rw [List.any_eq_false] at hgood ⊢
  intro c hc
  unfold snapshotPathOf at hc
  rw [hraw] at hc
  unfold pyReplace at hc
  rw [show (String.ofList (PyChars.replaceAll "\\".toList "/".toList 0
    (pyStrip env.txt text).toList)).toList = _ from String.toList_ofList] at hc
  rcases mem_of_mem_replaceAll hc with hnew | hold
  · obtain rfl : c = '/' := List.mem_singleton.mp hnew
    have hsurrogate : env.files.txt.surrogate '/' = false := hslash
    rw [hsurrogate, Bool.false_and, Bool.or_false]
    decide
  · refine hgood c ?_
    unfold pyStrip at hold
    rw [String.toList_ofList] at hold
    have hkept : c ∈ text.toList.dropWhile env.txt.isSpace :=
      (List.rdropWhile_prefix _ _).subset hold
    exact (List.dropWhile_suffix _).subset hkept

/-! ## One call -/

/-- What admission looked at before a call. -/
def LooksAt (env : AgentEnv X) (args : PyDict) (t : FileTree) {name : PyValue} :
    ToolResult ⊕ ReadyCall env name → Prop
  | .inl _ => True
  | .inr call => call.snapshotPath = snapshotPathOf env args ∧
      call.before = captureSnapshot env t call.tool call.snapshotPath

theorem prepareCall_looksAt {name : PyValue} {tool : ToolName} {named : name = .str tool.text}
    {permitted : tool.risky = true → env.refusing = false} {args : PyDict} {s t : AgentState X}
    {r : ToolResult ⊕ ReadyCall env name}
    (h : (prepareCall env tool named permitted args).run s = (.ok r, t)) :
    LooksAt env args t.world.files r := by
  unfold prepareCall at h
  obtain ⟨_, _, _, h⟩ := bind_eq_ok h
  obtain ⟨_, _, _, h⟩ := bind_eq_ok h
  obtain ⟨_, _, hget, h⟩ := bind_eq_ok h
  cases hget
  cases h
  exact ⟨rfl, rfl⟩

theorem approveCall_looksAt {name : PyValue} {tool : ToolName} {named : name = .str tool.text}
    {args : PyDict} {s t : AgentState X} {r : ToolResult ⊕ ReadyCall env name}
    (h : (approveCall env tool named args).run s = (.ok r, t)) :
    LooksAt env args t.world.files r := by
  unfold approveCall at h
  obtain ⟨outcome, u, _, h⟩ := bind_eq_ok h
  rcases outcome with ⟨_ | _ | _ | _, happroved⟩
  · exact prepareCall_looksAt h
  · obtain ⟨_, _, _, h⟩ := bind_eq_ok h
    obtain ⟨result, _, _, h⟩ := bind_eq_ok h
    cases h
    exact trivial
  · obtain ⟨result, _, _, h⟩ := bind_eq_ok h
    cases h
    exact trivial
  · cases h

theorem admitCall_looksAt {name : PyValue} {args : PyDict} {s t : AgentState X}
    {r : ToolResult ⊕ ReadyCall env name}
    (h : (admitCall env name args).run s = (.ok r, t)) : LooksAt env args t.world.files r := by
  unfold admitCall at h
  split at h
  · obtain ⟨_, _, _, h⟩ := bind_eq_ok h
    cases h
    exact trivial
  split at h
  · cases h
    exact trivial
  · obtain ⟨problem, u, _, h⟩ := bind_eq_ok h
    cases problem with
    | some problem =>
      obtain ⟨result, _, _, h⟩ := bind_eq_ok h
      cases h
      exact trivial
    | none =>
      dsimp only at h
      obtain ⟨s', _, _, h⟩ := bind_eq_ok h
      split at h
      · cases h
        exact trivial
      · obtain ⟨_, _, _, h⟩ := bind_eq_ok h
        split at h
        · exact approveCall_looksAt h
        · exact prepareCall_looksAt h

/-- The comparison that the result of a call is made of, whether the runner returned or raised. -/
theorem conclude_affectedPaths {name : PyValue} {call : ReadyCall env name} {args : PyDict}
    {outcome : Except String String} {s t : AgentState X} {result : ToolResult}
    (h : (conclude env call args outcome).run s = (.ok result, t)) :
    result.affectedPaths = (diffSnapshots call.before
      (captureSnapshot env s.world.files call.tool call.snapshotPath)).1 := by
  cases outcome with
  | ok content =>
    unfold conclude concludeReturned at h
    obtain ⟨_, _, hget, h⟩ := bind_eq_ok h
    cases hget
    dsimp only at h
    obtain ⟨_, _, _, h⟩ := bind_eq_ok h
    obtain ⟨_, _, _, h⟩ := bind_eq_ok h
    obtain ⟨_, _, _, h⟩ := bind_eq_ok h
    cases h
    rfl
  | error problem =>
    unfold conclude concludeFailed at h
    obtain ⟨_, _, hget, h⟩ := bind_eq_ok h
    cases hget
    dsimp only at h
    obtain ⟨_, _, _, h⟩ := bind_eq_ok h
    obtain ⟨_, _, _, h⟩ := bind_eq_ok h
    obtain ⟨_, _, _, h⟩ := bind_eq_ok h
    cases h
    rfl

/-- What performing a call of a tool on files leaves of the files, where nothing else runs. -/
theorem perform_files (hquiet : ∀ w, (env.oracle w).2.files = w.files) {name : PyValue}
    {route : Route} {call : ReadyCall env name} {args : PyDict} {s t : AgentState X}
    {outcome : Except String String} (htool : call.tool ≠ .runShell)
    (h : (perform env route call args).run s = (.ok outcome, t)) :
    ∃ oracle, t.world.files =
      ((runFileTool env.files oracle call.tool args).run ⟨s.world.files, []⟩).2.tree := by
  have hfiles : ∀ {r : Except Failure String} {w : AgentState X},
      (runTool env route call.tool args).run s = (r, w) → ∃ oracle, w.world.files =
        ((runFileTool env.files oracle call.tool args).run ⟨s.world.files, []⟩).2.tree := by
    intro r w hrun
    unfold runTool at hrun
    have hnote : (note (Event.started route call.tool) : AgentM X Unit).run s =
        (.ok (), { s with log := s.log ++ [.started route call.tool] }) := rfl
    rw [run_bind_ok hnote, if_neg htool] at hrun
    have hobserve : ∀ s' : AgentState X, (observe env.oracle : AgentM X SearchOracle).run s' =
        (.ok (env.oracle s'.world).1, { s' with world := (env.oracle s'.world).2 }) :=
      fun _ => rfl
    rw [run_bind_ok (hobserve _)] at hrun
    refine ⟨(env.oracle s.world).1, ?_⟩
    have hsame := hquiet s.world
    rcases onFiles_cases (runFileTool env.files (env.oracle s.world).1 call.tool args)
        { s with log := s.log ++ [.started route call.tool], world := (env.oracle s.world).2 } with
      ⟨a, x, hfiles, hon⟩ | ⟨exc, x, hfiles, hon⟩
    · rw [hon] at hrun
      cases hrun
      rw [← hsame, hfiles]
    · rw [hon] at hrun
      cases hrun
      rw [← hsame, hfiles]
  unfold perform at h
  rw [run_tryExcept] at h
  rcases hrun : (runTool env route call.tool args).run s with ⟨failure | text, w⟩
  · rw [run_bind_error hrun] at h
    dsimp only at h
    split at h
    · cases h
      exact hfiles hrun
    · cases h
  · rw [run_bind_ok hrun] at h
    cases h
    exact hfiles hrun

/-- When the paths in the result of a call are the files that changed while it was performed. Where
the workspace is compared: the links agree. Where one path is: only the file of this name changed,
and for a tool that writes one file, the path of the arguments is its name or it did not change. -/
theorem affected_paths_iff (hdigest : Function.Injective env.digest)
    (hquiet : ∀ w, (env.oracle w).2.files = w.files) (hslash : env.txt.surrogate '/' = false)
    {route : Route} {name : PyValue} {args : PyDict} {s u v t : AgentState X}
    {call : ReadyCall env name} {outcome : Except String String} {result : ToolResult}
    (hadmitted : (admitCall env name args).run s = (.ok (.inr call), u))
    (hperform : (perform env route call args).run u = (.ok outcome, v))
    (hexecute : (ToolExecutor.execute env route name args).run s = (.ok result, t))
    (hrisky : call.tool.risky = true) (hreal : u.world.files.Real) (hreal' : v.world.files.Real) :
    (result.workspaceChanged = true ↔ result.affectedPaths ≠ []) ∧
    (snapshotPathOf env args = "" →
      (result.affectedPaths = changedFiles env u.world.files v.world.files ↔
        LinksAgree env u.world.files v.world.files)) ∧
    (snapshotPathOf env args ≠ "" →
      (result.affectedPaths = changedFiles env u.world.files v.world.files ↔
        OnlyNamed env u.world.files v.world.files (snapshotPathOf env args)) ∧
      ∀ (text : String) (parts : Parts), call.tool ≠ .runShell →
        args.get? "path" = some (.str text) → Listed parts →
        picoPathIn env.files u.world.files (.str text) = .ok (env.files.root ++ parts) →
        (result.affectedPaths = changedFiles env u.world.files v.world.files ↔
          v.world.files.regular? (env.files.root ++ parts) =
              u.world.files.regular? (env.files.root ++ parts) ∨
            posixText parts = snapshotPathOf env args)) := by
  obtain ⟨hpath, hbefore⟩ := admitCall_looksAt hadmitted
  have hconclude : (conclude env call args outcome).run v = (.ok result, t) := by
    unfold ToolExecutor.execute at hexecute
    rw [run_bind_ok hadmitted] at hexecute
    dsimp only at hexecute
    rwa [run_bind_ok hperform] at hexecute
  have haffected := conclude_affectedPaths hconclude
  rw [hbefore, hpath] at haffected
  refine ⟨?_, fun hwhole => ?_, fun hone => ?_⟩
  · unfold ToolResult.workspaceChanged
    rw [Bool.not_eq_true', List.isEmpty_eq_false_iff]
  · have hcapture : ∀ t : FileTree, captureSnapshot env t call.tool (snapshotPathOf env args) =
        captureWorkspaceSnapshot env t := by
      intro t
      unfold captureSnapshot
      rw [if_neg (by rw [hrisky]; exact Bool.false_ne_true), if_pos hwhole]
    rw [haffected, hcapture, hcapture]
    exact workspaceDiff_eq_iff hdigest hreal hreal'
  · have hcapture : ∀ t : FileTree, captureSnapshot env t call.tool (snapshotPathOf env args) =
        capturePathSnapshot env t (snapshotPathOf env args) := by
      intro t
      unfold captureSnapshot
      rw [if_neg (by rw [hrisky]; exact Bool.false_ne_true), if_neg hone]
    have hnamed : result.affectedPaths = changedFiles env u.world.files v.world.files ↔
        OnlyNamed env u.world.files v.world.files (snapshotPathOf env args) := by
      rw [haffected, hcapture, hcapture]
      exact pathDiff_eq_iff hdigest hreal hreal'
    refine ⟨hnamed, fun text parts htool hraw hlisted hresolve => hnamed.trans ?_⟩
    have hresolved := resolved_of_picoPathIn hresolve
    have hgood : env.files.badPath text = false := by
      unfold picoPathIn at hresolve
      dsimp only at hresolve
      split at hresolve
      · cases hresolve
      · next hgood => exact Bool.eq_false_iff.mpr hgood
    refine onlyNamed_iff_of_writesAt hreal hreal' hlisted hresolved.plain hresolved.noUp
      (badPath_snapshotPathOf hslash hraw hgood) ?_
    obtain ⟨oracle, hfiles⟩ := perform_files hquiet htool hperform
    rw [hfiles]
    rcases hkind : call.tool with _ | _ | _ | _ | _ | _
    · rw [hkind] at hrisky
      cases hrisky
    · rw [hkind] at hrisky
      cases hrisky
    · rw [hkind] at hrisky
      cases hrisky
    · exact absurd hkind htool
    · exact toolWriteFile_writesAt hreal hraw hresolve
    · exact toolPatchFile_writesAt hreal hraw hresolve

/-! ## One file under two names -/

def writer : AgentEnv Script := .scripted [] .auto false false

/-- A call that writes `hi` at a path. -/
def writeArgs (path : String) : PyDict := [("path", .str path), ("content", .str "hi")]

/-- The files after `write_file` ran. -/
def filesWritten (path : String) : FileTree :=
  ((toolWriteFile writer.files (writeArgs path)).run
    ⟨(AgentState.fresh ({} : Script)).world.files, []⟩).2.tree

theorem digest_injective_writer : Function.Injective writer.digest := by
  intro a b h
  refine List.map_injective_iff.mpr (fun x y hxy => ?_) (String.ofList_injective h)
  have hvalid : ∀ z : UInt8, (Char.ofNat z.toNat).toNat = z.toNat := by
    intro z
    have hlt := z.toNat_lt
    have hscalar : z.toNat.isValidChar := Or.inl (by omega)
    rw [Char.ofNat, dif_pos hscalar]
    rfl
  have hnat := congrArg Char.toNat hxy
  rw [hvalid, hvalid] at hnat
  exact UInt8.toNat_inj.mp hnat

/-- The result of a call that was not turned away comes from the call. -/
theorem execute_performed {route : Route} {name : PyValue} {args : PyDict} {s t : AgentState X}
    {result : ToolResult}
    (h : (ToolExecutor.execute env route name args).run s = (.ok result, t))
    (hstatus : result.status ≠ .rejected) :
    ∃ call u outcome v, (admitCall env name args).run s = (.ok (.inr call), u) ∧
      (perform env route call args).run u = (.ok outcome, v) := by
  unfold ToolExecutor.execute at h
  obtain ⟨admitted, u, hadmitted, h⟩ := bind_eq_ok h
  rcases admitted with rejected | call
  · cases h
    exact absurd (admitCall_ok hadmitted) hstatus
  · obtain ⟨outcome, v, hperform, -⟩ := bind_eq_ok h
    exact ⟨call, u, outcome, v, hadmitted, hperform⟩

/-- A file that is called by its relative path. -/
theorem affected_paths_iff_named :
    ∃ result t, (ToolExecutor.execute writer .main (.str "write_file") (writeArgs "a")).run
        (.fresh {}) = (.ok result, t) ∧
      result.affectedPaths = changedFiles writer (AgentState.fresh ({} : Script)).world.files
        (filesWritten "a") := by
  have hreturns : ((ToolExecutor.execute writer .main (.str "write_file") (writeArgs "a")).run
      (.fresh {})).1.toOption.map ToolResult.status = some .ok := by decide +kernel
  rcases hrun : (ToolExecutor.execute writer .main (.str "write_file") (writeArgs "a")).run
    (.fresh {}) with ⟨_ | result, t⟩
  · rw [hrun] at hreturns
    cases hreturns
  rw [hrun] at hreturns
  have hstatus : result.status = .ok := Option.some.inj hreturns
  obtain ⟨call, u, outcome, v, hadmitted, hperform⟩ :=
    execute_performed hrun (by rw [hstatus]; decide)
  have htool : call.tool = .writeFile := by
    have hnamed := PyValue.str.inj call.named
    have hfound := ToolName.ofText?_text call.tool
    rw [← hnamed] at hfound
    exact (Option.some.inj hfound).symm
  have hbefore : u.world.files = (AgentState.fresh ({} : Script)).world.files := by
    have hsame : ((admitCall writer (.str "write_file") (writeArgs "a")).run
        (.fresh {})).2.world.files.nodes = (AgentState.fresh ({} : Script)).world.files.nodes := by
      decide +kernel
    rw [hadmitted] at hsame
    exact FileTree.eq_of_nodes hsame
  have hafter : v.world.files = filesWritten "a" := by
    obtain ⟨oracle, hfiles⟩ := perform_files (fun _ => rfl) (by rw [htool]; decide) hperform
    rw [hfiles, htool, hbefore]
    rfl
  have hreal : u.world.files.Real := by
    rw [hbefore]
    exact FileTree.real_of_entries (by decide +kernel)
  have hreal' : v.world.files.Real := by
    rw [hafter]
    exact FileTree.real_of_entries (by decide +kernel)
  refine ⟨result, t, rfl, ?_⟩
  have hexact := affected_paths_iff digest_injective_writer (fun _ => rfl) (by decide) hadmitted
    hperform hrun (by rw [htool]; rfl) hreal hreal'
  rw [← hbefore, ← hafter]
  refine ((hexact.2.2 (by decide)).2 "a" ["a"] (by rw [htool]; decide) rfl
    ⟨by decide, by decide, by decide⟩ ?_).mpr (Or.inr (by decide))
  rw [hbefore]
  decide +kernel

/-- The file `a` under the name that a call has for it. -/
theorem affected_under_two_names :
    (((ToolExecutor.execute writer .main (.str "write_file") (writeArgs "./a")).run
        (.fresh {})).1.toOption.map ToolResult.affectedPaths = some ["./a"]) ∧
      changedFiles writer (AgentState.fresh ({} : Script)).world.files (filesWritten "./a") =
        ["a"] := by
  decide +kernel

end ThreadForge

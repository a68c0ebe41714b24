import ThreadForge.Pico.Containment
import ThreadForge.Pico.PathNames
import Mathlib.Data.List.Induction

/-!
# What the file tools change

In the tree of a file system everything above a node is a directory (`FileTree.Real`), so a path
without links is read where it says. `write_file` and `patch_file` change one regular file, or
nothing (`toolWriteFile_writesAt`, `toolPatchFile_writesAt`).
-/

namespace ThreadForge

open Eff FileTree FileM

/-! ## Trees of a file system -/

namespace FileTree

/-- What every file system has: names without `/` that are not empty and not `.`, and a directory
above every node. -/
structure Real (t : FileTree) : Prop where
  names : ∀ entry ∈ t.nodes, ∀ part ∈ entry.1, '/' ∉ part.toList ∧ part ≠ "" ∧ part ≠ "."
  rooted : ∀ path name, t.node? (path ++ [name]) ≠ none → t.node? path = some .dir

/-- The content of the regular file at a path, links not followed. -/
def regular? (t : FileTree) (path : Parts) : Option (List UInt8) :=
  match t.node? path with
  | some (.file content) => some content
  | _ => none

variable {t : FileTree}

/-- A tree is one of a file system when its entries are. -/
theorem real_of_entries
    (h : ∀ entry ∈ t.nodes, (∀ part ∈ entry.1, '/' ∉ part.toList ∧ part ≠ "" ∧ part ≠ ".") ∧
      t.node? entry.1.dropLast = some .dir) : t.Real where
  names entry hentry := (h entry hentry).1
  rooted path name hnode := by
    have hne : path ++ [name] ≠ [] :=
      List.append_ne_nil_of_right_ne_nil _ (List.cons_ne_nil name [])
    rw [node?_of_ne_nil t hne] at hnode
    obtain ⟨node, hfound⟩ := Option.ne_none_iff_exists'.mp hnode
    obtain ⟨l₁, l₂, heq, -⟩ := List.lookup_eq_some_iff.mp hfound
    have hdir := (h (path ++ [name], node)
      (by rw [heq]; exact List.mem_append_right _ List.mem_cons_self)).2
    rwa [List.dropLast_concat] at hdir

theorem mem_of_node? {path : Parts} {node : Node} (hpath : path ≠ [])
    (h : t.node? path = some node) : ∃ entry ∈ t.nodes, entry.1 = path := by
  rw [node?_of_ne_nil t hpath] at h
  obtain ⟨l₁, l₂, heq, -⟩ := List.lookup_eq_some_iff.mp h
  exact ⟨(path, node), by rw [heq]; exact List.mem_append_right _ List.mem_cons_self, rfl⟩

theorem node?_ne_none_of_mem {entry : Parts × Node} (h : entry ∈ t.nodes) :
    t.node? entry.1 ≠ none := by
  intro hnone
  by_cases hpath : entry.1 = []
  · rw [hpath, node?_root] at hnone
    cases hnone
  · rw [node?_of_ne_nil t hpath, List.lookup_eq_none_iff] at hnone
    exact absurd (hnone entry h) (by simp)

/-- Everything above a node is a directory. -/
theorem Real.dir_of_prefix (hreal : t.Real) {path : Parts} :
    ∀ {rest : List String}, rest ≠ [] → t.node? (path ++ rest) ≠ none →
      t.node? path = some .dir := by
  intro rest
  induction rest using List.reverseRecOn with
  | nil => exact fun hne => absurd rfl hne
  | append_singleton rest name ih =>
    intro _ hnode
    rw [← List.append_assoc] at hnode
    have hdir := hreal.rooted _ _ hnode
    by_cases hrest : rest = []
    · rw [hrest, List.append_nil] at hdir
      exact hdir
    · exact ih hrest (by rw [hdir]; exact (Option.some_ne_none _))

/-- A node that is no link is found where it is, if only directories are above it. -/
theorem locate_of_dirs {path : Parts} {node : Node} (hup : NoUp path)
    (hdirs : ∀ p, p <+: path → p ≠ path → t.node? p = some .dir)
    (hnode : t.node? path = some node) (hlink : ∀ target, node ≠ .link target) :
    t.locate path = some path := by
  have hwalk : ∀ (jump : Parts → List String → Option Parts) (rest : List String) (here : Parts),
      here ++ rest = path → t.locateWith jump here rest = some path := by
    intro jump rest
    induction rest with
    | nil =>
      intro here heq
      rw [List.append_nil] at heq
      rw [locateWith, heq]
    | cons name rest ih =>
      intro here heq
      have habove : ∀ (p : Parts) {rest : List String}, p ++ rest = path → rest ≠ [] →
          t.node? p = some .dir := by
        intro p rest hp hrest
        refine hdirs p ⟨rest, hp⟩ fun hself => hrest ?_
        rw [← hself] at hp
        exact List.self_eq_append_right.mp hp.symm
      have hhere : t.node? here = some .dir := habove here heq (List.cons_ne_nil name rest)
      have hname : name ≠ ".." := by
        rintro rfl
        exact hup (heq ▸ List.mem_append_right _ List.mem_cons_self)
      have happ : (here ++ [name]) ++ rest = path := by
        rw [List.append_assoc]
        exact heq
      rw [locateWith, if_neg (by rw [hhere]; exact fun h => h rfl), if_neg hname]
      by_cases hrest : rest = []
      · have hlast : here ++ [name] = path := by rw [← happ, hrest, List.append_nil]
        rw [hlast, hnode]
        have hrest' : path ++ rest = path := by rw [hrest, List.append_nil]
        rcases node with _ | content | target
        · exact ih path hrest'
        · exact ih path hrest'
        · exact absurd rfl (hlink target)
      · rw [habove _ happ hrest]
        exact ih _ happ
  exact hwalk _ path [] rfl

/-- A node that is no link is found where it is. -/
theorem Real.locate_node (hreal : t.Real) {path : Parts} {node : Node} (hup : NoUp path)
    (hnode : t.node? path = some node) (hlink : ∀ target, node ≠ .link target) :
    t.locate path = some path := by
  refine locate_of_dirs hup ?_ hnode hlink
  rintro p ⟨rest, rfl⟩ hne
  have hrest : rest ≠ [] := by
    rintro rfl
    exact hne (List.append_nil p).symm
  exact hreal.dir_of_prefix hrest (by rw [hnode]; exact Option.some_ne_none _)

/-- Nothing above a node is a link. -/
theorem Real.plain_node (hreal : t.Real) {path : Parts} {node : Node}
    (hnode : t.node? path = some node) (hlink : ∀ target, node ≠ .link target) : t.Plain path := by
  rintro p ⟨rest, rfl⟩
  rw [link?_eq_none]
  intro target htarget
  by_cases hrest : rest = []
  · rw [hrest, List.append_nil, htarget] at hnode
    exact hlink target (Option.some.inj hnode).symm
  · have hdir := hreal.dir_of_prefix hrest (by rw [hnode]; exact Option.some_ne_none _)
    rw [hdir] at htarget
    cases htarget

/-- On a plain path, what is read is the regular file there. -/
theorem Real.content?_plain (hreal : t.Real) {path : Parts} (hplain : t.Plain path)
    (hup : NoUp path) : t.content? path = t.regular? path := by
  unfold content? stat? regular?
  rcases hnode : t.node? path with _ | node
  · rcases hlocate : t.locate path with _ | location
    · rfl
    · rw [locate_plain hplain hup hlocate, Option.bind_some, hnode]
  · have hlink : ∀ target, node ≠ .link target := by
      rintro target rfl
      have hnone := hplain path (List.prefix_refl _)
      rw [link?_eq_some.mpr hnode] at hnone
      cases hnone
    have hlocated := hreal.locate_node hup hnode hlink
    rcases node with _ | content | target
    · rw [hlocated, Option.bind_some, hnode]
    · rw [hlocated, Option.bind_some, hnode]
    · rw [hlocated, Option.bind_some, hnode]

/-! ## Making directories -/

theorem putIn_same {path : Parts} {node : Node} :
    ∀ {nodes : List (Parts × Node)}, nodes.lookup path = some node → putIn path node nodes = nodes
  | [], h => by cases h
  | (p, n) :: rest, h => by
    rw [putIn]
    by_cases hp : p = path
    · subst hp
      rw [List.lookup_cons, beq_self_eq_true] at h
      rw [if_pos rfl, Option.some.inj h]
    · rw [List.lookup_cons, beq_eq_false_iff_ne.mpr (Ne.symm hp)] at h
      rw [if_neg hp, putIn_same h]

theorem eq_of_nodes {t t' : FileTree} (h : t.nodes = t'.nodes) : t = t' := by
  cases t
  cases t'
  cases h
  rfl

/-- Putting what is there changes nothing. -/
theorem put_same {path : Parts} {node : Node} (hpath : path ≠ [])
    (h : t.node? path = some node) : t.put path node = t := by
  unfold put
  split
  · rfl
  · rw [node?_of_ne_nil t hpath] at h
    exact eq_of_nodes (putIn_same h)

/-- What `mkdir` did: it made the directories that were missing. -/
structure Made (t t' : FileTree) (base : Parts) (rest : List String) : Prop where
  node : ∀ p, t'.node? p = t.node? p ∨ (t.node? p = none ∧ t'.node? p = some .dir)
  others : ∀ p, ¬p <+: base ++ rest → t'.node? p = t.node? p
  dirs : ∀ p, base <+: p → p <+: base ++ rest → t'.node? p = some .dir

theorem made_of_mkdirs {t' : FileTree} {rest : List String} :
    ∀ {t : FileTree} {base : Parts}, NoUp (base ++ rest) → t.node? base = some .dir →
      t.mkdirs base rest = some t' → Made t t' base rest := by
  induction rest with
  | nil =>
    intro t base _ hbase h
    rw [mkdirs] at h
    cases h
    refine ⟨fun p => Or.inl rfl, fun p _ => rfl, fun p hp hp' => ?_⟩
    rw [List.append_nil] at hp'
    rwa [← hp.eq_of_length_le hp'.length_le]
  | cons name rest ih =>
    intro t base hup hbase h
    have happ : base ++ name :: rest = (base ++ [name]) ++ rest := by
      rw [List.append_assoc]
      rfl
    have hne : base ++ [name] ≠ [] := List.append_ne_nil_of_right_ne_nil _ (List.cons_ne_nil _ _)
    rw [happ] at hup
    have hupName : NoUp (base ++ [name]) := fun hmem => hup (List.mem_append_left _ hmem)
    -- The path itself, and what lies below the next directory.
    have hbelow : ∀ p, base <+: p → p <+: base ++ name :: rest →
        p = base ∨ base ++ [name] <+: p := by
      rintro p ⟨more, rfl⟩ hp
      rw [List.prefix_append_right_inj] at hp
      cases more with
      | nil => exact Or.inl (List.append_nil _)
      | cons name' more =>
        rw [List.cons_prefix_cons] at hp
        refine Or.inr ?_
        rw [List.prefix_append_right_inj, hp.1]
        exact ⟨more, rfl⟩
    have hbase' : ∀ {t'' : FileTree}, Made t'' t' (base ++ [name]) rest →
        t''.node? base = some .dir → t'.node? base = some .dir := by
      intro t'' hmade hdir
      rcases hmade.node base with hsame | hnew
      · rw [hsame, hdir]
      · exact hnew.2
    rw [mkdirs] at h
    split at h
    · next hmissing =>
      have hput := node?_put t hne hupName .dir
      have hmade := ih hup (by rw [hput, if_pos rfl]) h
      refine ⟨fun p => ?_, fun p hp => ?_, fun p hp hp' => ?_⟩
      · have hnode := hmade.node p
        rw [hput] at hnode
        by_cases hp : p = base ++ [name]
        · rw [if_pos hp] at hnode
          refine Or.inr ⟨hp ▸ hmissing, ?_⟩
          rcases hnode with hsame | hnew
          · exact hsame
          · exact hnew.2
        · rwa [if_neg hp] at hnode
      · have hself : p ≠ base ++ [name] := by
          rintro rfl
          exact hp (happ ▸ List.prefix_append _ _)
        rw [hmade.others p (happ ▸ hp), hput, if_neg hself]
      · rcases hbelow p hp hp' with rfl | hp''
        · refine hbase' hmade ?_
          have hself : p ≠ p ++ [name] := fun heq =>
            absurd (List.self_eq_append_right.mp heq) (List.cons_ne_nil _ _)
          rw [hput, if_neg hself, hbase]
        · exact hmade.dirs p hp'' (happ ▸ hp')
    · next hdir =>
      have hmade := ih hup hdir h
      refine ⟨hmade.node, fun p hp => hmade.others p (happ ▸ hp), fun p hp hp' => ?_⟩
      rcases hbelow p hp hp' with rfl | hp''
      · exact hbase' hmade hbase
      · exact hmade.dirs p hp'' (happ ▸ hp')
    · cases h

/-- Where the directories are there, nothing is made. -/
theorem mkdirs_of_dirs {rest : List String} :
    ∀ {base : Parts}, (∀ p, base <+: p → p <+: base ++ rest → t.node? p = some .dir) →
      t.mkdirs base rest = some t := by
  induction rest with
  | nil =>
    intro base _
    rw [mkdirs]
  | cons name rest ih =>
    intro base hdirs
    have happ : base ++ name :: rest = (base ++ [name]) ++ rest := by
      rw [List.append_assoc]
      rfl
    rw [mkdirs, hdirs (base ++ [name]) (List.prefix_append _ _) (happ ▸ List.prefix_append _ _)]
    exact ih fun p hp hp' => hdirs p ((List.prefix_append _ _).trans hp) (happ ▸ hp')

/-- The parents of a node need not be made. -/
theorem Real.mkdirs_parents (hreal : t.Real) {path : Parts} (hne : path ≠ [])
    (hnode : t.node? path ≠ none) : t.mkdirs [] path.dropLast = some t := by
  refine mkdirs_of_dirs fun p _ hp => ?_
  obtain ⟨rest, hrest⟩ := hp.trans path.dropLast_prefix
  have hrest' : rest ≠ [] := by
    rintro rfl
    rw [List.append_nil] at hrest
    have hlen := hp.length_le
    have hpos := List.length_pos_iff.mpr hne
    rw [hrest, List.nil_append, List.length_dropLast] at hlen
    omega
  exact hreal.dir_of_prefix hrest' (by rw [hrest]; exact hnode)

/-! ## Writing one file -/

/-- No regular file changed but the one at the path, no link did, and nothing at all did unless this
file did. -/
structure WritesAt (t t' : FileTree) (path : Parts) : Prop where
  links : ∀ p, t'.link? p = t.link? p
  others : ∀ p, p ≠ path → t'.regular? p = t.regular? p
  idle : t'.regular? path = t.regular? path → t' = t

theorem WritesAt.refl (t : FileTree) (path : Parts) : WritesAt t t path :=
  ⟨fun _ => rfl, fun _ _ => rfl, fun _ => rfl⟩

end FileTree

variable {env : FileEnv} {t : FileTree}

/-- Writing at a resolved path, after its parents were made. -/
theorem writeText_writesAt (hreal : t.Real) {path : Parts} (hpath : Resolved env t path)
    {t' : FileTree} (hmk : t.mkdirs [] path.dropLast = some t') (content : String)
    (accesses : List Access) :
    WritesAt t ((writeText env path content).run ⟨t', accesses⟩).2.tree path := by
  have hdropUp : NoUp path.dropLast := fun hmem => hpath.noUp (path.dropLast_subset hmem)
  have hmade : Made t t' [] path.dropLast := made_of_mkdirs hdropUp (node?_root t) hmk
  have hlinks := link?_mkdirs hmk
  have hregular : ∀ p, t'.regular? p = t.regular? p := by
    intro p
    unfold regular?
    rcases hmade.node p with hsame | ⟨hnone, hdir⟩
    · rw [hsame]
    · rw [hnone, hdir]
  have hpath' : Resolved env t' path :=
    ⟨fun p hp => (hlinks p).trans (hpath.plain p hp), hpath.noUp, hpath.inside⟩
  -- Where the path was a node already, its parents were there.
  have hkept : path ≠ [] → t.node? path ≠ none → t' = t := by
    intro hne hnode
    rw [hreal.mkdirs_parents hne hnode] at hmk
    exact (Option.some.inj hmk).symm
  have hself : path ≠ [] → t'.node? path = t.node? path := by
    intro hne
    refine hmade.others path fun hp => ?_
    have hlen := hp.length_le
    have hpos := List.length_pos_iff.mpr hne
    rw [List.nil_append, List.length_dropLast] at hlen
    omega
  unfold writeText
  dsimp only
  split
  · next location hopen =>
    obtain rfl : location = path := hpath'.openForWriting hopen
    have hne : location ≠ [] := by
      rintro rfl
      unfold FileM.openForWriting at hopen
      rw [show t'.locate [] = some [] from rfl] at hopen
      dsimp only at hopen
      rw [if_pos (node?_root t')] at hopen
      cases hopen
    have hput : ∀ bytes, WritesAt t (t'.put location (.file bytes)) location := by
      intro bytes
      have hnode := node?_put t' hne hpath.noUp (.file bytes)
      refine ⟨fun p => ?_, fun p hp => ?_, fun hsame => ?_⟩
      · rw [← hlinks p]
        unfold link?
        rw [hnode]
        by_cases hp : p = location
        · have hplain := link?_eq_none.mp (hpath'.plain p (hp ▸ List.prefix_refl _))
          rw [if_pos hp]
          rcases hfound : t'.node? p with _ | _ | _ | target
          · rfl
          · rfl
          · rfl
          · exact absurd hfound (hplain target)
        · rw [if_neg hp]
      · rw [← hregular p]
        unfold regular?
        rw [hnode, if_neg hp]
      · rw [regular?, hnode, if_pos rfl] at hsame
        have hthere : t.node? location = some (.file bytes) := by
          unfold regular? at hsame
          rcases hfound : t.node? location with _ | _ | content | target
          · rw [hfound] at hsame
            cases hsame
          · rw [hfound] at hsame
            cases hsame
          · rw [hfound] at hsame
            rw [Option.some.inj hsame]
          · rw [hfound] at hsame
            cases hsame
        have heq := hkept hne (by rw [hthere]; exact Option.some_ne_none _)
        rw [heq]
        exact put_same hne hthere
    split
    · exact hput _
    · exact hput _
  · next hopen =>
    refine ⟨hlinks, fun p _ => hregular p, fun _ => ?_⟩
    by_cases hne : path = []
    · subst hne
      exact (Option.some.inj hmk).symm
    refine hkept hne fun hnone => ?_
    -- A new name in a directory can be opened.
    obtain ⟨name, hname⟩ := Option.ne_none_iff_exists'.mp
      (fun h => hne (List.getLast?_eq_none_iff.mp h) : path.getLast? ≠ none)
    have hparent : t'.locate path.dropLast = some path.dropLast :=
      locate_of_dirs hdropUp
        (fun p hp _ => hmade.dirs p List.nil_prefix hp)
        (hmade.dirs _ List.nil_prefix (List.prefix_refl _)) fun target h => by cases h
    have hwhole := List.dropLast_append_getLast? name hname
    have hnode : t'.node? (path.dropLast ++ [name]) = none := by
      rw [hwhole, hself hne, hnone]
    unfold FileM.openForWriting at hopen
    split at hopen
    · next found hfound =>
      rw [hpath'.locate hfound, hself hne, hnone, if_neg (by exact fun h => by cases h)] at hopen
      cases hopen
    · rw [hparent, hname] at hopen
      dsimp only at hopen
      rw [if_pos ⟨hmade.dirs _ List.nil_prefix (List.prefix_refl _), hnode⟩] at hopen
      cases hopen

/-- `write_file` changes the file that its path leads to, or nothing. -/
theorem toolWriteFile_writesAt (hreal : t.Real) {args : PyDict} {raw : PyValue} {path : Parts}
    (hraw : args.get? "path" = some raw) (hpath : picoPathIn env t raw = .ok path) :
    WritesAt t ((toolWriteFile env args).run ⟨t, []⟩).2.tree path := by
  have hargument : (pathArgument env args).run ⟨t, []⟩ = (.ok path, ⟨t, []⟩) := by
    unfold pathArgument
    rw [hraw]
    exact run_picoPath_ok env hpath
  unfold toolWriteFile
  rw [run_bind_ok hargument]
  rcases args.get? "content" with _ | value
  · exact WritesAt.refl t path
  · dsimp only
    rcases makeParents_cases path.dropLast (⟨t, []⟩ : FileState) with ⟨t', hmk, hrun⟩ | hrun
    · rw [run_bind_ok hrun]
      have hwrites := writeText_writesAt hreal (resolved_of_picoPathIn hpath) hmk
        (value.text env.txt) []
      rcases hwrite : (writeText env path (value.text env.txt)).run ⟨t', []⟩ with ⟨_ | _, u⟩
      · rw [run_bind_error hwrite]
        rwa [hwrite] at hwrites
      · rw [run_bind_ok hwrite]
        rwa [hwrite] at hwrites
    · rw [run_bind_error hrun]
      exact WritesAt.refl t path

theorem readText_tree (path : Parts) (s : FileState) :
    ((readText env path).run s).2.tree = s.tree := by
  unfold readText
  rcases readBytes_cases path s with ⟨location, content, _, _, hrun⟩ | hrun
  · rw [run_bind_ok hrun]
    split
    · rfl
    · rfl
  · rw [run_bind_error hrun]

/-- What the arguments of `patch_file` say, with nothing changed. -/
theorem patchArguments_cases {args : PyDict} {raw : PyValue} {path : Parts}
    (hraw : args.get? "path" = some raw) (hpath : picoPathIn env t raw = .ok path) :
    (∃ old new text accesses, t.isFile path = true ∧
      (patchArguments env args).run ⟨t, []⟩ = (.ok (path, old, new, text), ⟨t, accesses⟩)) ∨
    ∃ exc u, (patchArguments env args).run ⟨t, []⟩ = (.error exc, u) ∧ u.tree = t := by
  have hargument : (pathArgument env args).run ⟨t, []⟩ = (.ok path, ⟨t, []⟩) := by
    unfold pathArgument
    rw [hraw]
    exact run_picoPath_ok env hpath
  unfold patchArguments fileArgument
  rcases hfile : t.isFile path with _ | _
  · refine Or.inr ⟨.value "path is not a file", ⟨t, []⟩, ?_, rfl⟩
    refine run_bind_error ?_
    rw [run_bind_ok hargument, run_look_bind, hfile]
    rfl
  have hfound : (do
      let path ← pathArgument env args
      let isFile ← look fun t => t.isFile path
      if isFile then pure path else fail "path is not a file" : FileM Parts).run ⟨t, []⟩ =
      (.ok path, ⟨t, []⟩) := by
    rw [run_bind_ok hargument, run_look_bind, hfile]
    rfl
  rw [run_bind_ok hfound]
  dsimp only
  split
  · exact Or.inr ⟨_, _, rfl, rfl⟩
  split
  · exact Or.inr ⟨_, _, rfl, rfl⟩
  next new _ =>
  rcases hread : (readText env path).run ⟨t, []⟩ with ⟨exc | text, u⟩
  · have htree := @readText_tree env path ⟨t, []⟩
    rw [hread] at htree
    exact Or.inr ⟨exc, u, run_bind_error hread, htree⟩
  · have htree := @readText_tree env path ⟨t, []⟩
    rw [hread] at htree
    rw [run_bind_ok hread]
    obtain ⟨tree, accesses⟩ := u
    cases htree
    split
    · exact Or.inr ⟨_, _, rfl, rfl⟩
    · exact Or.inl ⟨_, _, _, _, rfl, rfl⟩

/-- `patch_file` changes the file that its path leads to, or nothing. -/
theorem toolPatchFile_writesAt (hreal : t.Real) {args : PyDict} {raw : PyValue} {path : Parts}
    (hraw : args.get? "path" = some raw) (hpath : picoPathIn env t raw = .ok path) :
    WritesAt t ((toolPatchFile env args).run ⟨t, []⟩).2.tree path := by
  unfold toolPatchFile
  rcases patchArguments_cases hraw hpath with
    ⟨old, new, text, accesses, hfile, hrun⟩ | ⟨exc, u, hrun, htree⟩
  · rw [run_bind_ok hrun]
    dsimp only
    have hresolved := resolved_of_picoPathIn hpath
    have hnode : t.node? path ≠ none := by
      intro hnone
      unfold isFile at hfile
      rw [hreal.content?_plain hresolved.plain hresolved.noUp, regular?, hnone] at hfile
      cases hfile
    have hne : path ≠ [] := by
      rintro rfl
      unfold isFile at hfile
      rw [hreal.content?_plain hresolved.plain hresolved.noUp, regular?, node?_root] at hfile
      cases hfile
    have hwrites := writeText_writesAt hreal hresolved (hreal.mkdirs_parents hne hnode)
      (pyReplaceFirst text old (new.text env.txt)) accesses
    rcases hwrite : (writeText env path (pyReplaceFirst text old (new.text env.txt))).run
      ⟨t, accesses⟩ with ⟨_ | _, u⟩
    · rw [run_bind_error hwrite]
      rwa [hwrite] at hwrites
    · rw [run_bind_ok hwrite]
      rwa [hwrite] at hwrites
  · rw [run_bind_error hrun]
    show WritesAt t u.tree path
    rw [htree]
    exact WritesAt.refl t path

end ThreadForge

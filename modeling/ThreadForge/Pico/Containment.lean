import ThreadForge.Pico.Tools

/-!
# Which files a call reaches

Every file tool asks `Pico.path` for its path, and what that returns is a resolved path under the
root: the kernel opens it where it says. Two routes open paths that were not resolved: `search`
opens what it meets below its path, symbolic links to files included, and the `grep:` criterion of a
checklist opens the path its text names.
-/

namespace ThreadForge

open Eff FileM FileTree

variable (env : FileEnv)

/-! ## Statements -/

/-- A place under the root of the workspace. -/
def Inside (location : Parts) : Prop := env.root <+: location

instance (location : Parts) : Decidable (Inside env location) :=
  inferInstanceAs (Decidable (env.root <+: location))

/-- The calls by which the agent reaches files. -/
inductive FileCall
  | tool (name : ToolName) (args : PyDict) (oracle : SearchOracle)
  | criterion (doneWhen : String)

/-- The `file:` and `grep:` forms of `_verify_done_when`. -/
def verifyOnFiles (doneWhen : String) : FileM PyValue :=
  match parseCriterion env.txt doneWhen with
  | .file path => do
    let met ← verifyFile env path
    pure (.bool met)
  | .grep path pattern => do
    let met ← verifyGrep env path pattern
    pure (.bool met)
  | .malformed => pure (.bool false)
  | .cmd _ | .freeText => pure .none

def FileCall.run : FileCall → FileM PyValue
  | .tool name args oracle => do
    let content ← runFileTool env oracle name args
    pure (.str content)
  | .criterion doneWhen => verifyOnFiles env doneWhen

/-- What `Pico.path` promises of a path it returns. -/
structure Resolved (t : FileTree) (path : Parts) : Prop where
  plain : t.Plain path
  noUp : NoUp path
  inside : Inside env path

variable {env}

theorem resolved_of_picoPathIn {t : FileTree} {raw : PyValue} {path : Parts}
    (h : picoPathIn env t raw = .ok path) : Resolved env t path := by
  unfold picoPathIn at h
  cases raw with
  | str text =>
    dsimp only at h
    split at h
    · cases h
    split at h
    · cases h
    next resolved hresolved =>
    split at h
    · next hinside =>
      rw [← Except.ok.inj h]
      exact ⟨plain_of_realpath hresolved, noUp_of_realpath hresolved,
        List.isPrefixOf_iff_prefix.mp hinside⟩
    · cases h
  | _ => cases h

theorem Resolved.locate {t : FileTree} {path location : Parts} (h : Resolved env t path)
    (hlocate : t.locate path = some location) : location = path :=
  locate_plain h.plain h.noUp hlocate

/-- A resolved path is written where it says. -/
theorem Resolved.openForWriting {t : FileTree} {path location : Parts} (h : Resolved env t path)
    (hopen : openForWriting t path = some location) : location = path := by
  unfold FileM.openForWriting at hopen
  split at hopen
  · next found hfound =>
    split at hopen
    · cases hopen
    · rw [← Option.some.inj hopen]
      exact h.locate hfound
  · split at hopen
    · next parent name hparent hname =>
      split at hopen
      · rw [← Option.some.inj hopen]
        have hdrop : NoUp path.dropLast := fun hmem => h.noUp (path.dropLast_subset hmem)
        rw [locate_plain h.plain.dropLast hdrop hparent]
        exact List.dropLast_append_getLast? name hname
      · cases hopen
    · cases hopen

/-! ## The file operations stay where they are told -/

/-- Everything opened so far lies under the root. -/
def AllInside (env : FileEnv) (s : FileState) : Prop :=
  ∀ access ∈ s.accesses, Inside env access.location

theorem AllInside.snoc {s : FileState} {access : Access} {t : FileTree} (h : AllInside env s)
    (hinside : Inside env access.location) : AllInside env ⟨t, s.accesses ++ [access]⟩ := by
  intro a ha
  rcases List.mem_append.mp ha with ha | ha
  · exact h a ha
  · rw [List.mem_singleton.mp ha]
    exact hinside

/-- The tree has not changed, and everything opened lies under the root. -/
def Quiet (env : FileEnv) (t : FileTree) (s : FileState) : Prop := s.tree = t ∧ AllInside env s

/-- A computation that only looks. -/
abbrev Looks (env : FileEnv) (t : FileTree) {α : Type} (m : FileM α) (Q : α → Prop) : Prop :=
  Triple (Quiet env t) m (fun a s => Quiet env t s ∧ Q a) (fun _ => AllInside env)

variable {t : FileTree}

theorem Looks.pure {α : Type} {a : α} {Q : α → Prop} (h : Q a) :
    Looks env t (pure a : FileM α) Q := fun _ hs => ⟨hs, h⟩

theorem Looks.fail {α : Type} {message : String} {Q : α → Prop} :
    Looks env t (fail message : FileM α) Q := fun _ hs => hs.2

theorem Looks.raise {α : Type} {exc : PyExc} {Q : α → Prop} :
    Looks env t (Eff.raise exc : FileM α) Q := fun _ hs => hs.2

theorem Looks.python {α : Type} (x : Except PyError α) :
    Looks env t (python x) fun _ => True := by
  cases x with
  | ok a => exact Looks.pure trivial
  | error kind => exact Looks.raise

theorem Looks.look {α : Type} (f : FileTree → α) : Looks env t (look f) fun _ => True :=
  fun _ hs => ⟨hs, trivial⟩

theorem Looks.bind {α β : Type} {m : FileM α} {k : α → FileM β} {Q : α → Prop} {R : β → Prop}
    (hm : Looks env t m Q) (hk : ∀ a, Q a → Looks env t (k a) R) : Looks env t (m >>= k) R :=
  Triple.bind hm fun a => Triple.assume fun ha => hk a ha

theorem Looks.picoPath (raw : PyValue) : Looks env t (picoPath env raw) (Resolved env t) := by
  intro s hs
  rcases h : picoPathIn env s.tree raw with exc | path
  · rw [run_picoPath_error env h]
    exact hs.2
  · rw [run_picoPath_ok env h]
    exact ⟨hs, hs.1 ▸ resolved_of_picoPathIn h⟩

theorem Looks.readBytes {path : Parts} (hpath : Resolved env t path) :
    Looks env t (readBytes path) fun _ => True := by
  rintro s ⟨rfl, hin⟩
  rcases readBytes_cases path s with ⟨location, content, hlocate, _, hrun⟩ | hrun
  · rw [hrun]
    have hloc : Inside env location := hpath.locate hlocate ▸ hpath.inside
    exact ⟨⟨rfl, hin.snoc hloc⟩, trivial⟩
  · rw [hrun]
    exact hin

theorem Looks.readText {path : Parts} (hpath : Resolved env t path) :
    Looks env t (readText env path) fun _ => True := by
  refine Looks.bind (Looks.readBytes hpath) fun content _ => ?_
  split
  · exact Looks.pure trivial
  · exact Looks.raise

theorem Looks.readTextWith {decode : List UInt8 → String} {path : Parts}
    (hpath : Resolved env t path) : Looks env t (readTextWith decode path) fun _ => True :=
  Looks.bind (Looks.readBytes hpath) fun _ _ => Looks.pure trivial

theorem Looks.pathArgument (args : PyDict) :
    Looks env t (pathArgument env args) (Resolved env t) := by
  unfold ThreadForge.pathArgument
  split
  · exact Looks.picoPath _
  · exact Looks.raise

theorem Looks.fileArgument (args : PyDict) :
    Looks env t (fileArgument env args) (Resolved env t) := by
  refine Looks.bind (Looks.pathArgument args) fun path hpath => ?_
  refine Looks.bind (Looks.look _) fun isFile _ => ?_
  split
  · exact Looks.pure hpath
  · exact Looks.fail

theorem Looks.dirArgument (args : PyDict) :
    Looks env t (dirArgument env args) (Resolved env t) := by
  refine Looks.bind (Looks.picoPath _) fun path hpath => ?_
  refine Looks.bind (Looks.look _) fun isDir _ => ?_
  split
  · exact Looks.pure hpath
  · exact Looks.fail

theorem Looks.lineRange (args : PyDict) : Looks env t (lineRange env args) fun _ => True := by
  refine Looks.bind (Looks.python _) fun start _ => Looks.bind (Looks.python _) fun stop _ => ?_
  split
  · exact Looks.fail
  · exact Looks.pure trivial

theorem Looks.patchArguments (args : PyDict) :
    Looks env t (patchArguments env args) fun parts => Resolved env t parts.1 := by
  refine Looks.bind (Looks.fileArgument args) fun path hpath => ?_
  dsimp only
  split
  · exact Looks.fail
  split
  · exact Looks.fail
  refine Looks.bind (Looks.readText hpath) fun text _ => ?_
  split
  · exact Looks.fail
  · exact Looks.pure hpath

/-! ## The tools that open resolved paths only -/

end ThreadForge

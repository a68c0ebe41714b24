import ThreadForge.Lib.SplitJoin
import ThreadForge.Pico.Tools

/-!
# The names of a path

A path that was resolved has no links and no `..` in it. So it resolves to itself (`realpath_plain`),
and it is read back from its text (`parsePath_intercalate`).
-/

namespace ThreadForge

/-- A name that a path can have: it has no `/`, and `Path` does not drop it. -/
def PathName (part : String) : Prop := '/' ∉ part.toList ∧ part ≠ "" ∧ part ≠ "."

instance : DecidablePred PathName := fun _ => inferInstanceAs (Decidable (_ ∧ _))

theorem filter_pathName {parts : List String} (h : ∀ part ∈ parts, PathName part) :
    parts.filter (fun part => part ≠ "" ∧ part ≠ ".") = parts :=
  List.filter_eq_self.mpr fun part hpart => decide_eq_true (h part hpart).2

/-- Names joined are read back. -/
theorem parsePath_intercalate {parts : List String} (h : ∀ part ∈ parts, PathName part) :
    parsePath ("/".intercalate parts) = { absolute := false, parts := parts } := by
  by_cases hne : parts = []
  · subst hne
    rfl
  have hsplit : pySplit ("/".intercalate parts) '/' = parts :=
    pySplit_intercalate rfl hne fun part hpart => (h part hpart).1
  have habsolute : pyStartsWith ("/".intercalate parts) "/" = false := by
    rw [Bool.eq_false_iff]
    intro hstart
    obtain ⟨rest, hrest⟩ := List.isPrefixOf_iff_prefix.mp hstart
    have hfirst : pySplit ("/".intercalate parts) '/' = "" :: pySplit (String.ofList rest) '/' :=
      pySplit_append hrest.symm List.not_mem_nil
    rw [hsplit] at hfirst
    exact (h "" (hfirst ▸ List.mem_cons_self)).2.1 rfl
  unfold parsePath
  rw [habsolute, hsplit, filter_pathName h]

namespace FileTree

variable {t : FileTree}

/-- A plain path without `..` resolves to itself. -/
theorem realpath_plain {path : Parts} (hplain : t.Plain path) (hup : NoUp path) :
    t.realpath path = some path := by
  have hwalk : ∀ (follow : Parts → List String → Option Parts) (rest : List String) (here : Parts),
      here ++ rest = path → t.resolveWith follow here rest = some path := by
    intro follow rest
    induction rest with
    | nil =>
      intro here heq
      rw [List.append_nil] at heq
      rw [resolveWith, heq]
    | cons name rest ih =>
      intro here heq
      have happ : (here ++ [name]) ++ rest = path := by
        rw [List.append_assoc]
        exact heq
      have hname : name ≠ ".." := by
        rintro rfl
        exact hup (heq ▸ List.mem_append_right _ List.mem_cons_self)
      rw [resolveWith, if_neg hname, hplain _ (happ ▸ List.prefix_append _ _)]
      exact ih _ happ
  unfold realpath
  cases t.nodes.length with
  | zero => exact hwalk _ path [] rfl
  | succ depth => exact hwalk _ path [] rfl

end FileTree

end ThreadForge

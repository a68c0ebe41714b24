import ThreadForge.Lib.PyValue
import Mathlib.Data.List.Forall2

/-!
# Lists of computations that may raise

What `mapM` returns over `Except`: it returns when every computation does, and then what the
computations returned.
-/

theorem Except.map_eq_ok {ε α β : Type} {f : α → β} {x : Except ε α} {b : β}
    (h : x.map f = .ok b) : ∃ a, x = .ok a ∧ f a = b := by
  cases x with
  | error e => cases h
  | ok a => exact ⟨a, rfl, Except.ok.inj h⟩

section Traverse

variable {ε : Type*} {α β : Type}

/-- `mapM` returns the values of its computations. -/
theorem List.mapM_eq_ok_iff {f : α → Except ε β} : ∀ {l : List α} {values : List β},
    l.mapM f = .ok values ↔ List.Forall₂ (fun a b => f a = .ok b) l values
  | [], values => by
    rw [List.mapM_nil, List.forall₂_nil_left_iff]
    exact ⟨fun h => (Except.ok.inj h).symm, fun h => by rw [h]; rfl⟩
  | a :: l, values => by
    rw [List.mapM_cons, List.forall₂_cons_left_iff]
    constructor
    · intro h
      obtain ⟨b, hb, h⟩ := Except.bind_eq_ok h
      obtain ⟨rest, hrest, h⟩ := Except.bind_eq_ok h
      cases h
      exact ⟨b, rest, hb, List.mapM_eq_ok_iff.mp hrest, rfl⟩
    · rintro ⟨b, rest, hb, hrest, rfl⟩
      rw [hb, List.mapM_eq_ok_iff.mpr hrest]
      rfl

/-- Computations that all return. -/
theorem List.mapM_eq_ok_map {f : α → Except ε β} {g : α → β} {l : List α}
    (h : ∀ a ∈ l, f a = .ok (g a)) : l.mapM f = .ok (l.map g) :=
  List.mapM_eq_ok_iff.mpr (List.forall₂_map_right_iff.mpr (List.forall₂_same.mpr h))

/-- Every computation has its value. -/
theorem List.exists_of_mem_of_mapM_eq_ok {f : α → Except ε β} {l : List α} {values : List β}
    (h : l.mapM f = .ok values) {a : α} (ha : a ∈ l) : ∃ b ∈ values, f a = .ok b := by
  have hall := List.mapM_eq_ok_iff.mp h
  clear h
  induction hall with
  | nil => cases ha
  | cons hhead _ ih =>
    rcases List.mem_cons.mp ha with rfl | ha
    · exact ⟨_, List.mem_cons_self, hhead⟩
    · obtain ⟨b, hb, hfa⟩ := ih ha
      exact ⟨b, List.mem_cons_of_mem _ hb, hfa⟩

end Traverse

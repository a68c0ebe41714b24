import Mathlib.Data.List.Nodup
import Mathlib.Data.List.Perm.Subperm

/-!
# A table with a primary key

A table is its rows, no two of them with the same key. The operations are the statements of a
database on one row, each of which goes by the key: a row is found by it, inserted where it is free,
upserted, changed or deleted. What each of them does is said by `find?` alone.

## Main results

`find?_insertNew`, `find?_upsert`, `find?_changeAll` and `find?_delete` — what is found after each
operation.
-/

/-! ## The first of each key -/

theorem List.eraseDups_sublist {α : Type*} [BEq α] [LawfulBEq α] (l : List α) :
    l.eraseDups.Sublist l := by
  suffices hall : ∀ n (l : List α), l.length ≤ n → l.eraseDups.Sublist l from
    hall _ l (Nat.le_refl _)
  intro n
  induction n with
  | zero =>
    intro l hl
    rw [List.eq_nil_of_length_eq_zero (Nat.le_zero.mp hl)]
    exact List.Sublist.refl _
  | succ n ih =>
    intro l hl
    cases l with
    | nil => exact List.Sublist.refl _
    | cons a l =>
      rw [List.eraseDups_cons]
      have hlength := List.length_filter_le (fun b => !b == a) l
      have hrest := ih (l.filter fun b => !b == a)
        (Nat.le_trans hlength (Nat.le_of_succ_le_succ hl))
      exact (hrest.trans List.filter_sublist).cons_cons a

theorem List.nodup_eraseDups {α : Type*} [BEq α] [LawfulBEq α] (l : List α) :
    l.eraseDups.Nodup := by
  suffices hall : ∀ n (l : List α), l.length ≤ n → l.eraseDups.Nodup from hall _ l (Nat.le_refl _)
  intro n
  induction n with
  | zero =>
    intro l hl
    rw [List.eq_nil_of_length_eq_zero (Nat.le_zero.mp hl)]
    exact List.nodup_nil
  | succ n ih =>
    intro l hl
    cases l with
    | nil => exact List.nodup_nil
    | cons a l =>
      rw [List.eraseDups_cons, List.nodup_cons]
      have hlength := List.length_filter_le (fun b => !b == a) l
      refine ⟨fun hmem => ?_, ih _ (Nat.le_trans hlength (Nat.le_of_succ_le_succ hl))⟩
      have hne := (List.mem_filter.mp (List.mem_eraseDups.mp hmem)).2
      simp at hne

theorem List.eraseDups_eq_self {α : Type*} [BEq α] [LawfulBEq α] {l : List α} (h : l.Nodup) :
    l.eraseDups = l := by
  induction l with
  | nil => rfl
  | cons a l ih =>
    obtain ⟨ha, hl⟩ := List.nodup_cons.mp h
    rw [List.eraseDups_cons, List.filter_eq_self.mpr fun b hb => ?_, ih hl]
    have hne : b ≠ a := fun heq => ha (heq ▸ hb)
    simpa using hne

/-! ## Tables -/

/-- The rows of a table, with the key of a row. -/
structure Table {ρ κ : Type*} (key : ρ → κ) where
  rows : List ρ := []
  nodup : (rows.map key).Nodup := by decide
  deriving DecidableEq

namespace Table

variable {ρ κ : Type*} {key : ρ → κ} {t u : Table key} {r r' old : ρ} {k : κ}

/-! ## Rows and keys -/

theorem eq_of_key (hr : r ∈ t.rows) (hr' : r' ∈ t.rows) (h : key r = key r') : r = r' :=
  List.inj_on_of_nodup_map t.nodup hr hr' h

/-- A change of rows that leaves their keys. -/
def changeAll (t : Table key) (fn : ρ → ρ) (hfn : ∀ r, key (fn r) = key r) : Table key where
  rows := t.rows.map fn
  nodup := by
    rw [List.map_map, show key ∘ fn = key from funext hfn]
    exact t.nodup

/-- The rows that meet a condition. -/
def keep (t : Table key) (p : ρ → Bool) : Table key where
  rows := t.rows.filter p
  nodup := t.nodup.sublist ((List.filter_sublist).map _)

theorem mem_keep {p : ρ → Bool} : r ∈ (t.keep p).rows ↔ r ∈ t.rows ∧ p r = true := List.mem_filter

variable [DecidableEq κ]

/-- The row of a key. -/
def find? (t : Table key) (k : κ) : Option ρ := t.rows.find? fun r => key r = k

theorem find?_eq_some : t.find? k = some r ↔ r ∈ t.rows ∧ key r = k := by
  unfold find?
  constructor
  · intro h
    have hkey : key r = k := by simpa using List.find?_some h
    exact ⟨List.mem_of_find?_eq_some h, hkey⟩
  · rintro ⟨hr, hkey⟩
    have hsome : (t.rows.find? fun r => key r = k).isSome = true :=
      List.find?_isSome.mpr ⟨r, hr, decide_eq_true hkey⟩
    obtain ⟨r', hr'⟩ := Option.isSome_iff_exists.mp hsome
    have hkey' : key r' = k := by simpa using List.find?_some hr'
    rw [hr', eq_of_key (List.mem_of_find?_eq_some hr') hr (hkey'.trans hkey.symm)]

theorem find?_eq_none : t.find? k = none ↔ ∀ r ∈ t.rows, key r ≠ k := by
  unfold find?
  rw [List.find?_eq_none]
  simp only [decide_eq_true_eq, ne_eq]

theorem key_of_find? (h : t.find? k = some r) : key r = k := (find?_eq_some.mp h).2

/-- What a table finds says what its rows are. -/
theorem mem_iff_find? : r ∈ t.rows ↔ t.find? (key r) = some r :=
  ⟨fun h => find?_eq_some.mpr ⟨h, rfl⟩, fun h => (find?_eq_some.mp h).1⟩

theorem filterMap_find?_keys : (t.rows.map key).filterMap t.find? = t.rows := by
  rw [List.filterMap_map]
  refine (List.filterMap_congr fun r hr => ?_).trans List.filterMap_some
  exact find?_eq_some.mpr ⟨hr, rfl⟩

/-! ## The operations -/

/-- `INSERT`, where the key is free. -/
def insertNew (t : Table key) (r : ρ) (h : t.find? (key r) = none) : Table key where
  rows := t.rows ++ [r]
  nodup := by
    rw [List.map_append, List.nodup_append]
    refine ⟨t.nodup, List.nodup_singleton _, fun a ha b hb hab => ?_⟩
    obtain ⟨r', hr', rfl⟩ := List.mem_map.mp ha
    rw [List.map_singleton, List.mem_singleton] at hb
    exact find?_eq_none.mp h r' hr' (hab.trans hb)

/-- `UPDATE` of the row with a key, where there is one. -/
def change (t : Table key) (k : κ) (fn : ρ → ρ) (hfn : ∀ r, key r = k → key (fn r) = k) :
    Table key :=
  t.changeAll (fun r => if key r = k then fn r else r) fun r => by
    by_cases h : key r = k
    · rw [if_pos h, hfn r h, h]
    · rw [if_neg h]

theorem keys_change {fn : ρ → ρ} {hfn : ∀ r, key r = k → key (fn r) = k} :
    (t.change k fn hfn).rows.map key = t.rows.map key := by
  unfold change changeAll
  rw [List.map_map]
  refine List.map_congr_left fun r _ => ?_
  by_cases h : key r = k
  · simp [h, hfn r h]
  · simp [h]

/-- `INSERT … ON CONFLICT DO UPDATE`. -/
def upsert (t : Table key) (r : ρ) (onConflict : ρ → ρ)
    (hkey : ∀ old, key old = key r → key (onConflict old) = key r) : Table key :=
  if h : t.find? (key r) = none then t.insertNew r h else t.change (key r) onConflict hkey

/-- `DELETE` of the row with a key. -/
def delete (t : Table key) (k : κ) : Table key := t.keep fun r => key r ≠ k

/-! ## What is found after each -/

@[simp] theorem find?_empty :
    ({ rows := [], nodup := List.nodup_nil } : Table key).find? k = none :=
  rfl

theorem find?_changeAll (fn : ρ → ρ) (hfn : ∀ r, key (fn r) = key r) :
    (t.changeAll fn hfn).find? k = (t.find? k).map fn := by
  unfold find? changeAll
  rw [List.find?_map]
  refine congrArg (Option.map fn) (congrArg (fun p => t.rows.find? p) (funext fun r => ?_))
  exact decide_eq_decide.mpr (by rw [hfn])

theorem find?_insertNew (h : t.find? (key r) = none) :
    (t.insertNew r h).find? k = if k = key r then some r else t.find? k := by
  by_cases hk : k = key r
  · rw [if_pos hk]
    exact find?_eq_some.mpr ⟨List.mem_append_right _ (List.mem_singleton_self r), hk.symm⟩
  · have hnot : ¬ key r = k := fun he => hk he.symm
    rw [if_neg hk, find?, insertNew, List.find?_append,
      List.find?_cons_of_neg (by rw [decide_eq_true_eq]; exact hnot), List.find?_nil,
      Option.or_none]
    rfl

theorem find?_change (fn : ρ → ρ) (hfn : ∀ r, key r = k → key (fn r) = k) (k' : κ) :
    (t.change k fn hfn).find? k' = if k' = k then (t.find? k).map fn else t.find? k' := by
  rw [change, find?_changeAll]
  by_cases hk : k' = k
  · subst hk
    rw [if_pos rfl]
    cases hfound : t.find? k' with
    | none => rfl
    | some r => simp only [Option.map_some, if_pos (key_of_find? hfound)]
  · rw [if_neg hk]
    cases hfound : t.find? k' with
    | none => rfl
    | some r =>
      have hne : ¬ key r = k := fun he => hk ((key_of_find? hfound).symm.trans he)
      simp only [Option.map_some, if_neg hne]

theorem find?_upsert (onConflict : ρ → ρ)
    (hkey : ∀ old, key old = key r → key (onConflict old) = key r) (k : κ) :
    (t.upsert r onConflict hkey).find? k =
      if k = key r then some ((t.find? (key r)).elim r onConflict) else t.find? k := by
  unfold upsert
  by_cases hfree : t.find? (key r) = none
  · rw [dif_pos hfree, find?_insertNew, hfree]
    rfl
  · rw [dif_neg hfree, find?_change]
    obtain ⟨old, hold⟩ := Option.ne_none_iff_exists'.mp hfree
    rw [hold]
    rfl

theorem find?_delete (k' : κ) :
    (t.delete k).find? k' = if k' = k then none else t.find? k' := by
  by_cases hk : k' = k
  · subst hk
    rw [if_pos rfl, find?_eq_none]
    intro r hr
    simpa using (List.mem_filter.mp hr).2
  · rw [if_neg hk]
    refine Option.ext fun r => ?_
    rw [find?_eq_some, find?_eq_some, delete, mem_keep]
    constructor
    · exact fun h => ⟨h.1.1, h.2⟩
    · rintro ⟨hr, hkey⟩
      exact ⟨⟨hr, decide_eq_true fun he => hk (hkey.symm.trans he)⟩, hkey⟩

end Table

import Mathlib.Data.List.Basic
import Mathlib.Data.List.Nodup
import Mathlib.Data.List.Perm.Subperm
import Mathlib.Logic.Function.Basic

/-!
# Working copies of one log

A log is kept in a file. A worker takes a copy of it, appends its records to the copy, and writes
the whole copy back. Nothing is held between taking the copy and writing it, and nothing is merged:
what others wrote in between is gone.

## The lineage

The contents of a copy come from the file its worker loaded, the contents of the file from the
worker that wrote it last. `lineage` follows this back through the actions and collects the records
it passes. The file has all records exactly where all of them are on its lineage (`whole_iff`), and
then two holders are equally long exactly where their lineages are the same (`lineage_eq_iff`).

Lists of actions have the latest first. A holder is a worker, or `none` for the file.
-/

namespace WorkingCopies

/-- What a worker does with its copy. -/
inductive Action (ι α : Type*)
  | load (i : ι)
  | save (i : ι)
  | record (i : ι) (x : α)
  /-- The worker says how long its copy is. -/
  | report (i : ι)
  deriving DecidableEq

/-- The file, and the copy of each worker. -/
structure State (ι α : Type*) where
  file : List α
  held : ι → List α

variable {ι α : Type*}

/-- What a holder holds. -/
def State.holds (s : State ι α) : Option ι → List α
  | none => s.file
  | some i => s.held i

/-- The records, the oldest first. -/
def recorded : List (Action ι α) → List α
  | [] => []
  | .record _ x :: past => recorded past ++ [x]
  | .load _ :: past | .save _ :: past | .report _ :: past => recorded past

variable [DecidableEq ι]

/-! ## The contents and where they come from -/

def State.after (s : State ι α) : Action ι α → State ι α
  | .load i => { s with held := Function.update s.held i s.file }
  | .save i => { s with file := s.held i }
  | .record i x =>
    { file := s.held i ++ [x], held := Function.update s.held i (s.held i ++ [x]) }
  | .report _ => s

/-- The state after the actions. Before them every worker has a copy of the file. -/
def afterAll (base : List α) : List (Action ι α) → State ι α
  | [] => { file := base, held := fun _ => base }
  | a :: past => (afterAll base past).after a

/-- Whose contents a holder has after the action. -/
def Action.source : Action ι α → Option ι → Option ι
  | .load i, holder => if holder = some i then none else holder
  | .save i, holder => if holder = none then some i else holder
  | .record i _, holder => if holder = none then some i else holder
  | .report _, holder => holder

/-- The positions of the records on the way back from a holder. -/
def lineage : List (Action ι α) → Option ι → List Nat
  | [], _ => []
  | .record i x :: past, holder =>
    if (Action.record i x).source holder = some i then
      (recorded past).length :: lineage past (some i)
    else lineage past ((Action.record i x).source holder)
  | .load i :: past, holder => lineage past ((Action.load (α := α) i).source holder)
  | .save i :: past, holder => lineage past ((Action.save (α := α) i).source holder)
  | .report _ :: past, holder => lineage past holder

/-- Every record is on the lineage of the holder. -/
def Covers (past : List (Action ι α)) (holder : Option ι) : Prop :=
  ∀ p < (recorded past).length, p ∈ lineage past holder

variable {base : List α} {past : List (Action ι α)} {holder : Option ι}

/-! ## One action -/

omit [DecidableEq ι] in
theorem recorded_record (i : ι) (x : α) (past : List (Action ι α)) :
    recorded (.record i x :: past) = recorded past ++ [x] := rfl

theorem lineage_record (i : ι) (x : α) (past : List (Action ι α)) (holder : Option ι) :
    lineage (.record i x :: past) holder =
      if (Action.record i x).source holder = some i then
        (recorded past).length :: lineage past (some i)
      else lineage past ((Action.record i x).source holder) := rfl

theorem holds_load (s : State ι α) (i : ι) (holder : Option ι) :
    (s.after (.load i)).holds holder = s.holds ((Action.load (α := α) i).source holder) := by
  cases holder with
  | none => rfl
  | some j =>
    by_cases hj : j = i
    · subst hj
      simp [State.after, State.holds, Action.source]
    · simp [State.after, State.holds, Action.source, hj]

theorem holds_save (s : State ι α) (i : ι) (holder : Option ι) :
    (s.after (.save i)).holds holder = s.holds ((Action.save (α := α) i).source holder) := by
  cases holder with
  | none => rfl
  | some j => rfl

/-- The record is the last of the copy and of the file; the other copies stay. -/
theorem holds_record (s : State ι α) (i : ι) (x : α) (holder : Option ι) :
    (s.after (.record i x)).holds holder =
      if (Action.record i x).source holder = some i then s.holds (some i) ++ [x]
      else s.holds ((Action.record i x).source holder) := by
  cases holder with
  | none => simp [State.after, State.holds, Action.source]
  | some j =>
    by_cases hj : j = i
    · subst hj
      simp [State.after, State.holds, Action.source]
    · simp [State.after, State.holds, Action.source, hj]

/-! ## Lengths -/

/-- A holder has the log before, and the records on its lineage. -/
theorem length_holds (base : List α) (past : List (Action ι α)) (holder : Option ι) :
    ((afterAll base past).holds holder).length = base.length + (lineage past holder).length := by
  induction past generalizing holder with
  | nil => cases holder <;> rfl
  | cons a past ih =>
    cases a with
    | load i =>
      rw [afterAll, holds_load, ih]
      rfl
    | save i =>
      rw [afterAll, holds_save, ih]
      rfl
    | record i x =>
      rw [afterAll, holds_record, lineage_record]
      split
      · rw [List.length_append, List.length_singleton, ih, List.length_cons]
        omega
      · exact ih _
    | report i => exact ih holder

theorem lineage_lt {p : Nat} (h : p ∈ lineage past holder) : p < (recorded past).length := by
  induction past generalizing holder with
  | nil => cases h
  | cons a past ih =>
    cases a with
    | load i => exact ih h
    | save i => exact ih h
    | record i x =>
      rw [recorded_record, List.length_append, List.length_singleton]
      rw [lineage_record] at h
      split at h
      · rcases List.mem_cons.mp h with rfl | hbefore
        · omega
        · exact Nat.lt_succ_of_lt (ih hbefore)
      · exact Nat.lt_succ_of_lt (ih h)
    | report i => exact ih h

theorem lineage_nodup (past : List (Action ι α)) (holder : Option ι) :
    (lineage past holder).Nodup := by
  induction past generalizing holder with
  | nil => exact List.nodup_nil
  | cons a past ih =>
    cases a with
    | load i => exact ih _
    | save i => exact ih _
    | record i x =>
      rw [lineage_record]
      split
      · refine List.nodup_cons.mpr ⟨fun hmem => ?_, ih _⟩
        exact absurd (lineage_lt hmem) (Nat.lt_irrefl _)
      · exact ih _
    | report i => exact ih _

theorem lineage_subperm (past : List (Action ι α)) (holder : Option ι) :
    (lineage past holder).Subperm (List.range (recorded past).length) :=
  List.subperm_of_subset (lineage_nodup past holder) fun _ hp => List.mem_range.mpr (lineage_lt hp)

theorem covers_iff_length :
    Covers past holder ↔ (recorded past).length ≤ (lineage past holder).length := by
  constructor
  · intro h
    have hsub : (List.range (recorded past).length).Subperm (lineage past holder) :=
      List.subperm_of_subset List.nodup_range fun p hp => h p (List.mem_range.mp hp)
    have hlength := hsub.length_le
    rwa [List.length_range] at hlength
  · intro h p hp
    have hperm := (lineage_subperm past holder).perm_of_length_le (by rwa [List.length_range])
    exact hperm.mem_iff.mpr (List.mem_range.mpr hp)

/-! ## All records -/

/-- What covers the records was the copy of whoever made the last of them. -/
theorem Covers.of_record {i : ι} {x : α} (h : Covers (.record i x :: past) holder) :
    (Action.record i x).source holder = some i ∧ Covers past (some i) := by
  have hlast := h (recorded past).length (by
    rw [recorded_record, List.length_append, List.length_singleton]
    omega)
  have hsource : (Action.record i x).source holder = some i := by
    by_contra hother
    rw [lineage_record, if_neg hother] at hlast
    exact absurd (lineage_lt hlast) (Nat.lt_irrefl _)
  refine ⟨hsource, fun p hp => ?_⟩
  have hbefore := h p (by
    rw [recorded_record, List.length_append]
    omega)
  rw [lineage_record, if_pos hsource] at hbefore
  rcases List.mem_cons.mp hbefore with rfl | hmem
  · exact absurd hp (Nat.lt_irrefl _)
  · exact hmem

/-- What covers the records has them, in the order they were made. -/
theorem Covers.holds (h : Covers past holder) :
    (afterAll base past).holds holder = base ++ recorded past := by
  induction past generalizing holder with
  | nil =>
    rw [show recorded ([] : List (Action ι α)) = [] from rfl, List.append_nil]
    cases holder <;> rfl
  | cons a past ih =>
    cases a with
    | load i =>
      rw [afterAll, holds_load]
      exact ih h
    | save i =>
      rw [afterAll, holds_save]
      exact ih h
    | record i x =>
      obtain ⟨hsource, hcovers⟩ := h.of_record
      rw [afterAll, holds_record, if_pos hsource, ih hcovers, recorded_record, List.append_assoc]
    | report i => exact ih h

/-- **The file has every record exactly where each is on its lineage.** -/
theorem whole_iff :
    (base ++ recorded past).Subperm ((afterAll base past).holds holder) ↔ Covers past holder := by
  constructor
  · intro h
    have hlength := h.length_le
    rw [List.length_append, length_holds] at hlength
    exact covers_iff_length.mpr (by omega)
  · intro h
    rw [h.holds]

/-! ## Equal lengths -/

/-- Every record was made on a copy that had all before it. -/
def Straight : List (Action ι α) → Prop
  | [] => True
  | .record i _ :: past => Covers past (some i) ∧ Straight past
  | .load _ :: past | .save _ :: past | .report _ :: past => Straight past

theorem Covers.straight (h : Covers past holder) : Straight past := by
  induction past generalizing holder with
  | nil => trivial
  | cons a past ih =>
    cases a with
    | load i => exact ih h
    | save i => exact ih h
    | record i x => exact ⟨h.of_record.2, ih h.of_record.2⟩
    | report i => exact ih h

/-- Then every lineage is the records up to some time. -/
theorem Straight.segment (h : Straight past) (holder : Option ι) :
    ∃ n, lineage past holder = (List.range n).reverse := by
  induction past generalizing holder with
  | nil => exact ⟨0, rfl⟩
  | cons a past ih =>
    cases a with
    | load i => exact ih h _
    | save i => exact ih h _
    | record i x =>
      obtain ⟨hcovers, hbefore⟩ := h
      rw [lineage_record]
      split
      · obtain ⟨n, hn⟩ := ih hbefore (some i)
        have hall : n = (recorded past).length := by
          have hle := (lineage_subperm past (some i)).length_le
          have hge := covers_iff_length.mp hcovers
          rw [hn, List.length_reverse, List.length_range] at hle hge
          rw [List.length_range] at hle
          omega
        refine ⟨n + 1, ?_⟩
        rw [hn, ← hall, List.range_succ, List.reverse_append]
        rfl
      · exact ih hbefore _
    | report i => exact ih h _

/-- **Then two holders are equally long exactly where their lineages are the same.** -/
theorem Straight.lineage_eq_iff (h : Straight past) (a b : Option ι) :
    ((afterAll base past).holds a).length = ((afterAll base past).holds b).length ↔
      lineage past a = lineage past b := by
  rw [length_holds, length_holds]
  constructor
  · intro hlength
    obtain ⟨n, hn⟩ := h.segment a
    obtain ⟨m, hm⟩ := h.segment b
    have hsame : n = m := by
      rw [hn, hm, List.length_reverse, List.length_reverse, List.length_range,
        List.length_range] at hlength
      omega
    rw [hn, hm, hsame]
  · intro hsame
    rw [hsame]

/-! ## Reports -/

/-- Every report is of a worker that has the property, after the actions before it. -/
def EveryReport (property : ι → List (Action ι α) → Prop) : List (Action ι α) → Prop
  | [] => True
  | .report i :: past => property i past ∧ EveryReport property past
  | .load _ :: past | .save _ :: past | .record _ _ :: past => EveryReport property past

/-- All records are on the lineage of the file, and a worker that reports has the lineage of the
file. -/
def Traced (past : List (Action ι α)) : Prop :=
  Covers past none ∧
    EveryReport (fun i older => lineage older (some i) = lineage older none) past

theorem Straight.everyReport_iff (h : Straight past) :
    EveryReport (fun i older =>
        ((afterAll base older).held i).length = (afterAll base older).file.length) past ↔
      EveryReport (fun i older => lineage older (some i) = lineage older none) past := by
  induction past with
  | nil => exact Iff.rfl
  | cons a past ih =>
    cases a with
    | load i => exact ih h
    | save i => exact ih h
    | record i x => exact ih h.2
    | report i =>
      have hbefore : Straight past := h
      exact and_congr (hbefore.lineage_eq_iff (some i) none) (ih h)

/-- **No record is missing from the file and every report says how long the file is, exactly along
the traced lists of actions.** -/
theorem kept_iff_traced :
    ((base ++ recorded past).Subperm (afterAll base past).file ∧
      EveryReport (fun i older =>
        ((afterAll base older).held i).length = (afterAll base older).file.length) past) ↔
      Traced past := by
  have hwhole : (base ++ recorded past).Subperm ((afterAll base past).holds none) ↔
      Covers past none := whole_iff
  show (base ++ recorded past).Subperm ((afterAll base past).holds none) ∧ _ ↔ _
  rw [hwhole]
  exact and_congr_right fun hcovers => hcovers.straight.everyReport_iff

end WorkingCopies

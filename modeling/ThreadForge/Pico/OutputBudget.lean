import Mathlib.Data.List.Induction

/-!
# The output of a command

Two threads read what a command writes, and share one `_OutputBudget`. What a reader does between
two calls of `take` is its own, so that a run of both is a list of their calls in the order in which
they get the lock. A chunk is what one `read` returned, as bytes; an empty one, with which a reader
stops, would change nothing.

## Main results

* `drained` — what one call of `take` keeps true.
* `output_within_budget` — what is kept of both streams, whatever the order.
-/

namespace ThreadForge

/-! ## The budget -/

/-- `_OutputBudget`. -/
structure OutputBudget where
  remaining : Nat
  truncated : Bool := false

namespace OutputBudget

/-- `_OutputBudget(limit)`. -/
def ofLimit (limit : Int) : OutputBudget := { remaining := limit.toNat }

/-- `take`: what is kept of the chunk, and what is left. -/
def take (budget : OutputBudget) (chunk : List UInt8) : List UInt8 × OutputBudget :=
  if budget.remaining < chunk.length then
    (chunk.take budget.remaining, { remaining := 0, truncated := true })
  else (chunk, { budget with remaining := budget.remaining - chunk.length })

/-- Either the chunk is kept and paid for, or the budget is used up and the rest is dropped. -/
theorem take_cases (budget : OutputBudget) (chunk : List UInt8) :
    (chunk.length ≤ budget.remaining ∧ (budget.take chunk).1 = chunk ∧
        (budget.take chunk).2 = { budget with remaining := budget.remaining - chunk.length }) ∨
      (budget.remaining < chunk.length ∧
        (budget.take chunk).1 = chunk.take budget.remaining ∧
        (budget.take chunk).2 = { remaining := 0, truncated := true }) := by
  unfold take
  by_cases hover : budget.remaining < chunk.length
  · rw [if_pos hover]
    exact Or.inr ⟨hover, rfl, rfl⟩
  · rw [if_neg hover]
    exact Or.inl ⟨Nat.le_of_not_lt hover, rfl, rfl⟩

end OutputBudget

/-! ## The readers -/

/-- The two pipes of a command. -/
inductive Pipe
  | stdout
  | stderr
  deriving DecidableEq

/-- `_PipeReader`. -/
structure PipeReader where
  chunks : List (List UInt8) := []
  size : Nat := 0
  truncated : Bool := false

/-- `b"".join(self._chunks)`. -/
def PipeReader.kept (reader : PipeReader) : List UInt8 := reader.chunks.flatten

/-- The rest of a round of `run`, after `take`. -/
def PipeReader.store (reader : PipeReader) (chunk kept : List UInt8) : PipeReader where
  chunks := if kept = [] then reader.chunks else reader.chunks ++ [kept]
  size := reader.size + kept.length
  truncated := reader.truncated || kept.length ≠ chunk.length

/-- Both readers, with their budget. -/
structure Readers where
  budget : OutputBudget
  reader : Pipe → PipeReader

namespace Readers

/-- A round of one of them. -/
def read (s : Readers) (call : Pipe × List UInt8) : Readers where
  budget := (s.budget.take call.2).2
  reader := Function.update s.reader call.1
    ((s.reader call.1).store call.2 (s.budget.take call.2).1)

/-- What is kept of a pipe. -/
def kept (s : Readers) (pipe : Pipe) : List UInt8 := (s.reader pipe).kept

/-- Both readers, after some calls. -/
def run (limit : Int) (calls : List (Pipe × List UInt8)) : Readers :=
  calls.foldl read { budget := .ofLimit limit, reader := fun _ => {} }

end Readers

/-- What the command has written to a pipe, as far as it was read. -/
def written (calls : List (Pipe × List UInt8)) (pipe : Pipe) : List UInt8 :=
  (calls.filter fun call => call.1 = pipe).flatMap Prod.snd

/-! ## What holds after any calls -/

theorem PipeReader.kept_store (reader : PipeReader) (chunk kept : List UInt8) :
    (reader.store chunk kept).kept = reader.kept ++ kept := by
  unfold PipeReader.kept PipeReader.store
  by_cases hempty : kept = []
  · simp [hempty]
  · simp [hempty]

/-- A call adds to what is kept of its own pipe. -/
theorem Readers.kept_read (s : Readers) (call : Pipe × List UInt8) (pipe : Pipe) :
    (s.read call).kept pipe =
      if pipe = call.1 then s.kept pipe ++ (s.budget.take call.2).1 else s.kept pipe := by
  unfold Readers.kept Readers.read
  by_cases hpipe : pipe = call.1
  · subst hpipe
    simp only [Function.update_self, if_pos, PipeReader.kept_store]
  · simp only [Function.update_of_ne hpipe, if_neg hpipe]

/-- And to what was written to it. -/
theorem written_concat (calls : List (Pipe × List UInt8)) (call : Pipe × List UInt8) (pipe : Pipe) :
    written (calls ++ [call]) pipe =
      if pipe = call.1 then written calls pipe ++ call.2 else written calls pipe := by
  unfold written
  by_cases hpipe : pipe = call.1
  · subst hpipe
    simp
  · simp [hpipe, Ne.symm hpipe]

/-- What is paid for is kept, and as long as the budget lasts nothing is dropped. -/
structure Drained (limit : Int) (calls : List (Pipe × List UInt8)) (s : Readers) : Prop where
  paid : s.budget.remaining + ((s.kept .stdout).length + (s.kept .stderr).length) = limit.toNat
  begins : ∀ pipe, s.kept pipe <+: written calls pipe
  whole : s.budget.truncated = false → ∀ pipe, s.kept pipe = written calls pipe
  dropped : s.budget.truncated = true → s.budget.remaining = 0 ∧
    ∃ pipe, (s.kept pipe).length < (written calls pipe).length

/-- A call of `take` in either pipe keeps this true. -/
theorem drained {limit : Int} {calls : List (Pipe × List UInt8)} {s : Readers}
    (h : Drained limit calls s) (call : Pipe × List UInt8) :
    Drained limit (calls ++ [call]) (s.read call) := by
  obtain ⟨hpaid, hbegins, hwhole, hdropped⟩ := h
  have hlength : ((s.read call).kept .stdout).length + ((s.read call).kept .stderr).length =
      (s.kept .stdout).length + (s.kept .stderr).length + (s.budget.take call.2).1.length := by
    rw [s.kept_read, s.kept_read]
    cases call.1 with
    | stdout => simp only [if_pos, reduceCtorEq, if_false, List.length_append]; omega
    | stderr => simp only [if_pos, reduceCtorEq, if_false, List.length_append]; omega
  have hbudget : (s.read call).budget = (s.budget.take call.2).2 := rfl
  rcases s.budget.take_cases call.2 with ⟨hfits, hall, hleft⟩ | ⟨hover, hpart, hleft⟩
  · -- the chunk is kept
    refine ⟨?_, fun pipe => ?_, fun htruncated pipe => ?_, fun htruncated => ?_⟩
    · rw [hlength, hbudget, hleft, hall]
      dsimp only
      omega
    · rw [s.kept_read, written_concat, hall]
      split
      · next hpipe =>
        -- a chunk that is kept after a dropped one is empty
        by_cases hstate : s.budget.truncated = true
        · have hnone : call.2 = [] := List.eq_nil_of_length_eq_zero (by
            have hspent := (hdropped hstate).1
            omega)
          rw [hnone, List.append_nil, List.append_nil]
          exact hbegins pipe
        · simp only [hwhole (Bool.eq_false_iff.mpr hstate) pipe, List.prefix_rfl]
      · exact hbegins pipe
    · rw [hbudget, hleft] at htruncated
      rw [s.kept_read, written_concat, hall, hwhole htruncated pipe]
    · rw [hbudget, hleft] at htruncated ⊢
      obtain ⟨hspent, pipe, hshort⟩ := hdropped htruncated
      refine ⟨by dsimp only; omega, pipe, ?_⟩
      rw [s.kept_read, written_concat, hall]
      split
      · rw [List.length_append, List.length_append]
        omega
      · exact hshort
  · -- the budget is used up
    have hshort : (s.budget.take call.2).1.length < call.2.length := by
      rw [hpart, List.length_take]
      omega
    refine ⟨?_, fun pipe => ?_, fun htruncated => ?_, fun _ => ⟨?_, call.1, ?_⟩⟩
    · rw [hlength, hbudget, hleft, hpart, List.length_take]
      dsimp only
      omega
    · rw [s.kept_read, written_concat, hpart]
      split
      · by_cases hstate : s.budget.truncated = true
        · rw [(hdropped hstate).1, List.take_zero, List.append_nil]
          exact (hbegins pipe).trans (List.prefix_append _ _)
        · rw [hwhole (Bool.eq_false_iff.mpr hstate) pipe]
          exact (List.prefix_append_right_inj _).mpr (List.take_prefix _ _)
      · exact hbegins pipe
    · rw [hbudget, hleft] at htruncated
      cases htruncated
    · rw [hbudget, hleft]
    · rw [s.kept_read, written_concat, if_pos rfl, if_pos rfl, List.length_append,
        List.length_append]
      have hle := (hbegins call.1).length_le
      omega

/-- So it is true after any calls. -/
theorem drained_run (limit : Int) (calls : List (Pipe × List UInt8)) :
    Drained limit calls (Readers.run limit calls) := by
  induction calls using List.reverseRecOn with
  | nil => exact ⟨rfl, fun _ => List.prefix_rfl, fun _ _ => rfl, fun h => nomatch h⟩
  | append_singleton calls call ih =>
    rw [Readers.run, List.foldl_append, List.foldl_cons, List.foldl_nil]
    exact drained ih call

/--
**The two readers keep no more than the budget, each the beginning of what was written to its pipe,
and the budget is marked exactly where a byte was dropped.**

Any limit, any chunks, and any order of the calls of `take`. A limit below zero is zero.
-/
theorem output_within_budget (limit : Int) (calls : List (Pipe × List UInt8)) :
    (((Readers.run limit calls).kept .stdout).length : Int) +
        ((Readers.run limit calls).kept .stderr).length ≤ max 0 limit ∧
      (∀ pipe, (Readers.run limit calls).kept pipe <+: written calls pipe) ∧
      ((Readers.run limit calls).budget.truncated = true ↔
        ∃ pipe, (Readers.run limit calls).kept pipe ≠ written calls pipe) := by
  obtain ⟨hpaid, hbegins, hwhole, hdropped⟩ := drained_run limit calls
  refine ⟨by omega, hbegins, fun htruncated => ?_, fun ⟨pipe, hpipe⟩ => ?_⟩
  · obtain ⟨-, pipe, hshort⟩ := hdropped htruncated
    refine ⟨pipe, fun hsame => ?_⟩
    rw [hsame] at hshort
    omega
  · by_contra hstate
    exact hpipe (hwhole (Bool.eq_false_iff.mpr hstate) pipe)

end ThreadForge

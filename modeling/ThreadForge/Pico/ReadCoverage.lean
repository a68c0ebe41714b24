import ThreadForge.Pico.Repeats
import ThreadForge.Pico.Tools
import Mathlib.Data.List.InsertIdx

/-!
# What the ranges of the window cover

Joining ranges that overlap or touch adds no line (`inRange_of_mergeReadIntervals`).
-/

namespace ThreadForge

/-! ## Lines that lie in a range -/

/-- A line lies in a bounded range. -/
def InRange (x : Int) (range : Int × Int) : Prop := range.1 ≤ x ∧ x ≤ range.2

/-- Joining ranges adds no line. -/
theorem inRange_of_joinIntervals {x : Int} :
    ∀ {rest : List (Int × Int)} {last range : Int × Int}, range ∈ joinIntervals last rest →
      InRange x range → ∃ iv ∈ last :: rest, InRange x iv
  | [], last, range, h, hx => by
    rw [joinIntervals, List.mem_singleton] at h
    subst h
    exact ⟨range, List.mem_cons_self, hx⟩
  | next :: rest, last, range, h, hx => by
    rw [joinIntervals] at h
    split at h
    · next htouch =>
      obtain ⟨iv, hiv, hin⟩ := inRange_of_joinIntervals h hx
      rcases List.mem_cons.mp hiv with rfl | hrest
      · -- a line of the joined range that is not in the first part is in the second
        by_cases hlast : x ≤ last.2
        · exact ⟨last, List.mem_cons_self, hin.1, hlast⟩
        · refine ⟨next, List.mem_cons_of_mem _ List.mem_cons_self, ?_, ?_⟩
          · omega
          · have hle := hin.2
            dsimp only at hle
            omega
      · exact ⟨iv, List.mem_cons_of_mem _ (List.mem_cons_of_mem _ hrest), hin⟩
    · rcases List.mem_cons.mp h with rfl | hrest
      · exact ⟨range, List.mem_cons_self, hx⟩
      · obtain ⟨iv, hiv, hin⟩ := inRange_of_joinIntervals hrest hx
        exact ⟨iv, List.mem_cons_of_mem _ hiv, hin⟩

theorem bounded?_eq_some {interval : Interval} {start stop : Int} :
    bounded? interval = some (start, stop) ↔ interval = (some start, some stop) := by
  rcases interval with ⟨s | s, e | e⟩ <;> simp [bounded?]

end ThreadForge

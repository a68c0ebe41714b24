import ThreadForge.Pico.BatchReads
import Mathlib.Data.Finset.Card
import Mathlib.Data.List.Chain

/-!
# How many lines a read adds

`_uncovered_read_lines` sorts the merged ranges and counts the lines between them. It is the number
of lines that no bounded range covers, unless the sort compares `None` with a number, or a range
that ends before it starts moves the cursor back.

A call of `sorted` that returns has compared each two neighbours of its result, and one that raises
has met two elements that cannot be compared (`pySorted_cases`). So the order in which long lists are
sorted, which `pySorted` leaves out, does not matter here.

## Main results

* `pySorted_cases` — what `sorted` returns, or why it raises.
* `canSort_iff` — when the merged ranges can be sorted.
* `countUncovered_spec` — what the sweep counts.
* `readsExact_iff` — when the two functions do what they are for.
-/

namespace ThreadForge

/-! ## `sorted` -/

section Sorted

variable {α ε : Type} {lt : α → α → Except ε Bool}

/-- Neighbours that were compared, in their order. -/
def InOrder (lt : α → α → Except ε Bool) (a b : α) : Prop := lt b a = .ok false ∨ lt a b = .ok true

/-- Two of the elements cannot be compared, and the call raises. -/
def Raises {β : Type} (lt : α → α → Except ε Bool) (xs : List α) (result : Except ε β) : Prop :=
  (∃ a ∈ xs, ∃ b ∈ xs, ∃ e, lt a b = .error e) ∧ ∃ e, result = .error e

theorem Raises.mono {β γ : Type} {xs ys : List α} {result : Except ε β} {result' : Except ε γ}
    (h : Raises lt xs result) (hsub : ∀ x ∈ xs, x ∈ ys) (he : ∃ e, result' = .error e) :
    Raises lt ys result' := by
  obtain ⟨⟨a, ha, b, hb, hfails⟩, -⟩ := h
  exact ⟨⟨a, hsub a ha, b, hsub b hb, hfails⟩, he⟩

variable (lt) in
theorem ascendingRun_cases (last : α) (xs : List α) :
    (∃ run rest, ascendingRun lt last xs = .ok (run, rest) ∧ xs = run ++ rest ∧
        (last :: run).IsChain (InOrder lt)) ∨
      Raises lt (last :: xs) (ascendingRun lt last xs) := by
  induction xs generalizing last with
  | nil => exact Or.inl ⟨[], [], rfl, rfl, List.isChain_singleton _⟩
  | cons x xs ih =>
    rw [ascendingRun]
    cases hless : lt x last with
    | error e => exact Or.inr ⟨⟨x, by simp, last, by simp, e, hless⟩, e, rfl⟩
    | ok less =>
      cases less with
      | true => exact Or.inl ⟨[], x :: xs, rfl, rfl, List.isChain_singleton _⟩
      | false =>
        rcases ih x with ⟨run, rest, hrun, hsplit, hchain⟩ | hraises
        · refine Or.inl ⟨x :: run, rest, ?_, ?_, ?_⟩
          · rw [hrun]
            rfl
          · rw [hsplit, List.cons_append]
          · exact List.isChain_cons_cons.mpr ⟨Or.inl hless, hchain⟩
        · obtain ⟨e, he⟩ := hraises.2
          exact Or.inr (hraises.mono (fun y hy => List.mem_cons_of_mem _ hy) ⟨e, by rw [he]; rfl⟩)

variable (lt) in
theorem descendingRun_cases (last : α) (xs : List α) :
    (∃ run rest, descendingRun lt last xs = .ok (run, rest) ∧ xs = run ++ rest ∧
        (last :: run).IsChain fun a b => InOrder lt b a) ∨
      Raises lt (last :: xs) (descendingRun lt last xs) := by
  induction xs generalizing last with
  | nil => exact Or.inl ⟨[], [], rfl, rfl, List.isChain_singleton _⟩
  | cons x xs ih =>
    rw [descendingRun]
    cases hless : lt x last with
    | error e => exact Or.inr ⟨⟨x, by simp, last, by simp, e, hless⟩, e, rfl⟩
    | ok less =>
      cases less with
      | false => exact Or.inl ⟨[], x :: xs, rfl, rfl, List.isChain_singleton _⟩
      | true =>
        rcases ih x with ⟨run, rest, hrun, hsplit, hchain⟩ | hraises
        · refine Or.inl ⟨x :: run, rest, ?_, ?_, ?_⟩
          · rw [hrun]
            rfl
          · rw [hsplit, List.cons_append]
          · exact List.isChain_cons_cons.mpr ⟨Or.inr hless, hchain⟩
        · obtain ⟨e, he⟩ := hraises.2
          exact Or.inr (hraises.mono (fun y hy => List.mem_cons_of_mem _ hy) ⟨e, by rw [he]; rfl⟩)

variable (lt) in
/-- The bisection ends between two elements with which the pivot was compared. -/
theorem bisect_cases (pivot : α) {sorted : List α} (fuel : Nat) {lo hi : Nat} (hle : lo ≤ hi)
    (hhi : hi ≤ sorted.length) (hfuel : hi - lo ≤ fuel)
    (hbelow : ∀ x ∈ (sorted.take lo).getLast?, InOrder lt x pivot)
    (habove : ∀ x ∈ (sorted.drop hi).head?, InOrder lt pivot x) :
    (∃ place, bisect lt pivot sorted fuel lo hi = .ok place ∧ place ≤ sorted.length ∧
        (∀ x ∈ (sorted.take place).getLast?, InOrder lt x pivot) ∧
        ∀ x ∈ (sorted.drop place).head?, InOrder lt pivot x) ∨
      Raises lt (pivot :: sorted) (bisect lt pivot sorted fuel lo hi) := by
  induction fuel generalizing lo hi with
  | zero =>
    have hmet : lo = hi := by omega
    subst hmet
    exact Or.inl ⟨lo, rfl, hhi, hbelow, habove⟩
  | succ fuel ih =>
    rw [bisect]
    by_cases hmore : lo < hi
    · rw [if_pos hmore]
      have hmid : (lo + hi) / 2 < sorted.length := by omega
      have hget := List.getElem?_eq_getElem hmid
      rw [hget]
      have hin : lo ≤ (lo + hi) / 2 ∧ (lo + hi) / 2 < hi := by omega
      cases hless : lt pivot sorted[(lo + hi) / 2] with
      | error e => exact Or.inr ⟨⟨pivot, by simp, _, by simp, e, hless⟩, e, by simp [hless]; rfl⟩
      | ok less =>
        cases less with
        | true =>
          simp only [hless]
          refine ih (by omega) (by omega) (by omega) hbelow fun x hx => ?_
          rw [List.head?_drop, hget] at hx
          exact Or.inr ((Option.some.inj hx) ▸ hless)
        | false =>
          simp only [hless]
          refine ih (by omega) hhi (by omega) (fun x hx => ?_) habove
          rw [List.getLast?_take, if_neg (by omega), Nat.add_sub_cancel, hget] at hx
          exact Or.inl ((Option.some.inj hx) ▸ hless)
    · rw [if_neg hmore]
      have hmet : lo = hi := by omega
      subst hmet
      exact Or.inl ⟨lo, rfl, hhi, hbelow, habove⟩

theorem insertIdx_split (pivot : α) : ∀ (sorted : List α) {place : Nat},
    place ≤ sorted.length →
      sorted.insertIdx place pivot = sorted.take place ++ pivot :: sorted.drop place
  | _, 0, _ => rfl
  | x :: xs, _ + 1, h => congrArg (x :: ·) (insertIdx_split pivot xs (Nat.le_of_succ_le_succ h))

theorem binaryInsert_cases (xs : List α) {sorted : List α} (hsorted : sorted.IsChain (InOrder lt)) :
    (∃ ys, binaryInsert lt sorted xs = .ok ys ∧ ys.Perm (sorted ++ xs) ∧
        ys.IsChain (InOrder lt)) ∨
      Raises lt (sorted ++ xs) (binaryInsert lt sorted xs) := by
  induction xs generalizing sorted with
  | nil => exact Or.inl ⟨sorted, rfl, by rw [List.append_nil], hsorted⟩
  | cons pivot xs ih =>
    rw [binaryInsert]
    have hplaces : ∀ x ∈ pivot :: sorted, x ∈ sorted ++ pivot :: xs := by
      intro x hx
      rcases List.mem_cons.mp hx with rfl | hx
      · exact List.mem_append_right _ List.mem_cons_self
      · exact List.mem_append_left _ hx
    rcases bisect_cases lt pivot sorted.length (Nat.zero_le _) le_rfl
        (Nat.sub_le _ _) (by simp) (by simp) with ⟨place, hplace, hle, hbelow, habove⟩ | hraises
    · have hchain : (sorted.insertIdx place pivot).IsChain (InOrder lt) := by
        rw [insertIdx_split pivot sorted hle, List.isChain_append]
        rw [← List.take_append_drop place sorted, List.isChain_append] at hsorted
        obtain ⟨hfront, hback, -⟩ := hsorted
        refine ⟨hfront, ?_, fun x hx y hy => ?_⟩
        · exact hback.cons habove
        · rw [List.head?_cons] at hy
          exact Option.some.inj hy ▸ hbelow x hx
      have hperm : (sorted.insertIdx place pivot ++ xs).Perm (sorted ++ pivot :: xs) :=
        ((List.perm_insertIdx pivot sorted hle).append_right xs).trans List.perm_middle.symm
      rw [hplace]
      rcases ih hchain with ⟨ys, hys, hpermys, hchainys⟩ | hraises
      · exact Or.inl ⟨ys, hys, hpermys.trans hperm, hchainys⟩
      · exact Or.inr (hraises.mono (fun x hx => hperm.mem_iff.mp hx) hraises.2)
    · obtain ⟨e, he⟩ := hraises.2
      exact Or.inr (hraises.mono hplaces ⟨e, by rw [he]; rfl⟩)

variable (lt) in
/-- **`sorted` returns the elements in their order, or two of them cannot be compared.** -/
theorem pySorted_cases (xs : List α) :
    (∃ ys, pySorted lt xs = .ok ys ∧ ys.Perm xs ∧ ys.IsChain (InOrder lt)) ∨
      Raises lt xs (pySorted lt xs) := by
  rcases xs with _ | ⟨first, _ | ⟨second, rest⟩⟩
  · exact Or.inl ⟨[], rfl, List.Perm.refl _, List.isChain_nil⟩
  · exact Or.inl ⟨[first], rfl, List.Perm.refl _, List.isChain_singleton _⟩
  rw [pySorted]
  have htail : ∀ x ∈ second :: rest, x ∈ first :: second :: rest := fun x hx =>
    List.mem_cons_of_mem _ hx
  -- the run at the start is ascending now, and the rest is inserted
  have hinsert : ∀ {run later : List α}, run.IsChain (InOrder lt) →
      (run ++ later).Perm (first :: second :: rest) →
      (∃ ys, binaryInsert lt run later = .ok ys ∧ ys.Perm (first :: second :: rest) ∧
          ys.IsChain (InOrder lt)) ∨
        Raises lt (first :: second :: rest) (binaryInsert lt run later) := by
    intro run later hrun hperm
    rcases binaryInsert_cases later hrun with ⟨ys, hys, hpermys, hchain⟩ | hraises
    · exact Or.inl ⟨ys, hys, hpermys.trans hperm, hchain⟩
    · exact Or.inr (hraises.mono (fun x hx => hperm.mem_iff.mp hx) hraises.2)
  cases hless : lt second first with
  | error e => exact Or.inr ⟨⟨second, by simp, first, by simp, e, hless⟩, e, rfl⟩
  | ok less =>
    cases less with
    | true =>
      rcases descendingRun_cases lt second rest with
        ⟨run, later, hrun, hsplit, hchain⟩ | hraises
      · rw [hrun]
        refine hinsert (List.isChain_reverse.mpr
          (List.isChain_cons_cons.mpr ⟨Or.inr hless, hchain⟩)) ?_
        rw [hsplit]
        exact (List.reverse_perm _).append_right later
      · obtain ⟨e, he⟩ := hraises.2
        exact Or.inr (hraises.mono htail ⟨e, by rw [he]; rfl⟩)
    | false =>
      rcases ascendingRun_cases lt second rest with
        ⟨run, later, hrun, hsplit, hchain⟩ | hraises
      · rw [hrun]
        refine hinsert (List.isChain_cons_cons.mpr ⟨Or.inl hless, hchain⟩) ?_
        rw [hsplit]
        rfl
      · obtain ⟨e, he⟩ := hraises.2
        exact Or.inr (hraises.mono htail ⟨e, by rw [he]; rfl⟩)

end Sorted

/-! ## Ranges that can be compared -/

/-- `<` of two ranges does not raise. -/
def Comparable (a b : Interval) : Prop := ∃ less, intervalLt a b = .ok less

/-- One end lies before the other. -/
def Below (x y : Option Int) : Prop := ∃ s t, x = some s ∧ y = some t ∧ s < t

/-- The order of tuples, as far as it is defined. -/
def IntervalLe (a b : Interval) : Prop := a = b ∨ Below a.1 b.1 ∨ (a.1 = b.1 ∧ Below a.2 b.2)

theorem not_below_self (x : Option Int) : ¬Below x x := by
  rintro ⟨s, t, rfl, ht, hlt⟩
  cases ht
  omega

/-- Two different ends can be compared where both are numbers. -/
theorem endLt_iff {x y : Option Int} (hne : x ≠ y) :
    (∃ less, endLt x y = .ok less) ↔ Below x y ∨ Below y x := by
  cases x with
  | none => simp [endLt, Below]
  | some s =>
    cases y with
    | none => simp [endLt, Below]
    | some t =>
      have hst : s ≠ t := fun h => hne (congrArg some h)
      refine iff_of_true ⟨_, rfl⟩ ?_
      rcases lt_or_gt_of_ne hst with hlt | hgt
      · exact Or.inl ⟨s, t, rfl, rfl, hlt⟩
      · exact Or.inr ⟨t, s, rfl, rfl, hgt⟩

theorem comparable_iff {a b : Interval} : Comparable a b ↔ IntervalLe a b ∨ IntervalLe b a := by
  have hself := not_below_self
  unfold Comparable intervalLt IntervalLe
  by_cases hstart : a.1 = b.1
  · rw [if_neg (not_not.mpr hstart)]
    by_cases hend : a.2 = b.2
    · rw [if_neg (not_not.mpr hend)]
      exact iff_of_true ⟨false, rfl⟩ (Or.inl (Or.inl (Prod.ext hstart hend)))
    · rw [if_pos hend, endLt_iff hend]
      grind
  · rw [if_pos hstart, endLt_iff hstart]
    grind

theorem below_of_endLt {x y : Option Int} (hne : x ≠ y)
    (h : endLt y x = .ok false ∨ endLt x y = .ok true) : Below x y := by
  cases x with
  | none => rcases h with h | h <;> cases y <;> cases h
  | some s =>
    cases y with
    | none => rcases h with h | h <;> cases h
    | some t =>
      have hst : s ≠ t := fun h => hne (congrArg some h)
      refine ⟨s, t, rfl, rfl, ?_⟩
      rcases h with h | h
      · have hnot := of_decide_eq_false (Except.ok.inj h)
        omega
      · exact of_decide_eq_true (Except.ok.inj h)

theorem intervalLe_of_inOrder {a b : Interval}
    (h : InOrder intervalLt a b) : IntervalLe a b := by
  unfold InOrder intervalLt at h
  by_cases hstart : a.1 = b.1
  · rw [if_neg (not_not.mpr hstart), if_neg (not_not.mpr hstart.symm)] at h
    by_cases hend : a.2 = b.2
    · exact Or.inl (Prod.ext hstart hend)
    · rw [if_pos hend, if_pos (Ne.symm hend)] at h
      exact Or.inr (Or.inr ⟨hstart, below_of_endLt hend h⟩)
  · rw [if_pos hstart, if_pos (Ne.symm hstart)] at h
    exact Or.inr (Or.inl (below_of_endLt hstart h))

theorem Comparable.symm {a b : Interval} (h : Comparable a b) : Comparable b a :=
  comparable_iff.mpr (comparable_iff.mp h).symm

/-- A bounded range can be compared with those that are bounded. -/
theorem comparable_bounded (s e t f : Int) : Comparable (some s, some e) (some t, some f) := by
  rw [comparable_iff]
  simp [IntervalLe, Below]
  omega

/-- And with an open one that starts elsewhere. -/
theorem comparable_open {a : Interval} (hopen : bounded? a = none) (s e : Int) :
    Comparable a (some s, some e) ↔ ∃ t, a.1 = some t ∧ t ≠ s := by
  rw [comparable_iff]
  obtain ⟨_ | t, _ | f⟩ := a
  · simp [IntervalLe, Below]
  · simp [IntervalLe, Below]
  · simp [IntervalLe, Below]
  · cases hopen

theorem IntervalLe.trans {a b c : Interval} (hab : IntervalLe a b) (hbc : IntervalLe b c) :
    IntervalLe a c := by
  have htrans : ∀ {x y z}, Below x y → Below y z → Below x z := by
    rintro x y z ⟨s, t, rfl, rfl, hst⟩ ⟨t', u, ht, rfl, htu⟩
    exact ⟨s, u, rfl, rfl, hst.trans (Option.some.inj ht ▸ htu)⟩
  unfold IntervalLe at *
  grind
/-- The ranges are sorted where each two of them can be compared. -/
theorem pySorted_intervals (xs : List Interval) :
    (∃ ys, pySorted intervalLt xs = .ok ys ∧ ys.Perm xs ∧ ys.Pairwise IntervalLe ∧
        ∀ a ∈ xs, ∀ b ∈ xs, Comparable a b) ∨
      ((¬∀ a ∈ xs, ∀ b ∈ xs, Comparable a b) ∧ ∃ e, pySorted intervalLt xs = .error e) := by
  rcases pySorted_cases intervalLt xs with ⟨ys, hys, hperm, hchain⟩ | hraises
  · have htrans : IsTrans Interval IntervalLe := ⟨fun _ _ _ => IntervalLe.trans⟩
    have hsorted : ys.Pairwise IntervalLe :=
      List.isChain_iff_pairwise.mp (hchain.imp fun _ _ => intervalLe_of_inOrder)
    refine Or.inl ⟨ys, hys, hperm, hsorted, fun a ha b hb => ?_⟩
    have hsymm : Std.Symm Comparable := ⟨fun _ _ => Comparable.symm⟩
    have hall : ys.Pairwise Comparable := hsorted.imp fun h => comparable_iff.mpr (Or.inl h)
    by_cases hsame : a = b
    · exact comparable_iff.mpr (Or.inl (Or.inl hsame))
    · exact hall.forall (hperm.mem_iff.mpr ha) (hperm.mem_iff.mpr hb) hsame
  · obtain ⟨⟨a, ha, b, hb, e, hfails⟩, herror⟩ := hraises
    refine Or.inr ⟨fun hall => ?_, herror⟩
    obtain ⟨less, hless⟩ := hall a ha b hb
    rw [hfails] at hless
    cases hless

/-! ## The sweep -/

instance (x : Int) (range : Int × Int) : Decidable (InRange x range) :=
  inferInstanceAs (Decidable (_ ∧ _))

/-- The lines from one to another. -/
def linesFromTo (start stop : Int) : Finset Int :=
  (Finset.range (stop + 1 - start).toNat).image fun i : Nat => start + i

theorem mem_linesFromTo {start stop x : Int} :
    x ∈ linesFromTo start stop ↔ start ≤ x ∧ x ≤ stop := by
  unfold linesFromTo
  rw [Finset.mem_image]
  constructor
  · rintro ⟨i, hi, rfl⟩
    have hlt := Finset.mem_range.mp hi
    omega
  · intro hx
    exact ⟨(x - start).toNat, Finset.mem_range.mpr (by omega), by omega⟩

theorem card_linesFromTo (start stop : Int) :
    (linesFromTo start stop).card = (stop + 1 - start).toNat := by
  have hinjective : Function.Injective fun i : Nat => start + (i : Int) := fun i j h => by
    dsimp only at h
    omega
  unfold linesFromTo
  rw [Finset.card_image_of_injective _ hinjective, Finset.card_range]

/-- The lines of `[start, stop]` that lie in none of the ranges. -/
def uncovered (stop : Int) (ranges : List (Int × Int)) (start : Int) : Finset Int :=
  (linesFromTo start stop).filter fun x => ∀ range ∈ ranges, ¬InRange x range

/-- A range that ends before it starts is met with the cursor not behind its end: the lines from
there to its start are counted, and then counted again. -/
def Miscounted (stop : Int) (ranges : List (Int × Int)) (cursor : Int) : Prop :=
  ∃ r ∈ ranges, cursor ≤ r.2 ∧ r.2 + 1 < r.1 ∧ r.1 ≤ stop ∧ ∀ v ∈ ranges, v.1 < r.1 → v.2 < r.2

theorem Miscounted.congr {stop cursor : Int} {ranges ranges' : List (Int × Int)}
    (h : ∀ r, r ∈ ranges ↔ r ∈ ranges') :
    Miscounted stop ranges cursor ↔ Miscounted stop ranges' cursor := by
  unfold Miscounted
  simp only [h]

theorem uncovered_congr {stop start : Int} {ranges ranges' : List (Int × Int)}
    (h : ∀ x, (∃ r ∈ ranges, InRange x r) ↔ ∃ r ∈ ranges', InRange x r) :
    uncovered stop ranges start = uncovered stop ranges' start := by
  unfold uncovered
  refine Finset.filter_congr fun x _ => ?_
  simpa only [not_exists, not_and] using not_congr (h x)

section Sweep

variable {stop cursor : Int} {l : Int × Int} {rest : List (Int × Int)}

/-- The first range moves the cursor back, or a later one does. -/
theorem miscounted_cons (hfirst : ∀ r ∈ rest, rangeLe l r) :
    Miscounted stop (l :: rest) cursor ↔
      (cursor ≤ l.2 ∧ l.2 + 1 < l.1 ∧ l.1 ≤ stop) ∨
        Miscounted stop rest (max cursor (l.2 + 1)) := by
  constructor
  · rintro ⟨r, hr, hcursor, hgap, hstop, hall⟩
    rcases List.mem_cons.mp hr with rfl | hr
    · exact Or.inl ⟨hcursor, hgap, hstop⟩
    have hle := hfirst r hr
    have hl := hall l List.mem_cons_self
    unfold rangeLe at hle
    by_cases hsame : l.1 = r.1 ∧ l.2 = r.2
    · exact Or.inl ⟨by omega, by omega, by omega⟩
    · exact Or.inr ⟨r, hr, by omega, hgap, hstop, fun v hv => hall v (List.mem_cons_of_mem _ hv)⟩
  · rintro (⟨hcursor, hgap, hstop⟩ | ⟨r, hr, hcursor, hgap, hstop, hall⟩)
    · refine ⟨l, List.mem_cons_self, hcursor, hgap, hstop, fun v hv hbefore => ?_⟩
      rcases List.mem_cons.mp hv with rfl | hv
      · omega
      · have hle := hfirst v hv
        unfold rangeLe at hle
        omega
    · refine ⟨r, List.mem_cons_of_mem _ hr, by omega, hgap, hstop, fun v hv hbefore => ?_⟩
      rcases List.mem_cons.mp hv with rfl | hv
      · omega
      · exact hall v hv hbefore

/-- The lines before the first range are covered by no later one. -/
theorem card_uncovered_cons (stop cursor : Int) (hfirst : ∀ r ∈ rest, l.1 ≤ r.1) :
    (uncovered stop (l :: rest) cursor).card =
      (min stop (min l.2 (l.1 - 1)) + 1 - cursor).toNat +
        (uncovered stop rest (max cursor (l.2 + 1))).card := by
  have hsplit : uncovered stop (l :: rest) cursor =
      linesFromTo cursor (min stop (min l.2 (l.1 - 1))) ∪
        uncovered stop rest (max cursor (l.2 + 1)) := by
    ext x
    unfold uncovered
    simp only [Finset.mem_union, Finset.mem_filter, mem_linesFromTo, List.forall_mem_cons]
    constructor
    · rintro ⟨hx, hl, hrest⟩
      unfold InRange at hl
      by_cases hbehind : l.2 < x
      · exact Or.inr ⟨by omega, hrest⟩
      · exact Or.inl (by omega)
    · rintro (hx | ⟨hx, hrest⟩)
      · refine ⟨by omega, by unfold InRange; omega, fun r hr => ?_⟩
        have hle := hfirst r hr
        unfold InRange
        omega
      · exact ⟨by omega, by unfold InRange; omega, hrest⟩
  rw [hsplit, Finset.card_union_of_disjoint, card_linesFromTo]
  refine Finset.disjoint_left.mpr fun x hx hlater => ?_
  have hx' := mem_linesFromTo.mp hx
  have hlater' := mem_linesFromTo.mp (Finset.mem_filter.mp hlater).1
  omega

/-- Where every range starts behind the last line, no line is covered. -/
theorem card_uncovered_behind {ranges : List (Int × Int)} (h : ∀ r ∈ ranges, stop < r.1) :
    (uncovered stop ranges cursor).card = (stop + 1 - cursor).toNat := by
  rw [← card_linesFromTo]
  unfold uncovered
  congr 1
  refine Finset.filter_true_of_mem fun x hx r hr => ?_
  have hx' := mem_linesFromTo.mp hx
  have hbehind := h r hr
  unfold InRange
  omega

/-- **The sweep counts every uncovered line, and no other unless the cursor moves back.** -/
theorem countUncovered_spec {ordered : List Interval} (count : Int)
    (hsorted : (boundedRanges ordered).Pairwise rangeLe) (hcursor : cursor ≤ stop) :
    count + (uncovered stop (boundedRanges ordered) cursor).card ≤
        countUncovered stop ordered cursor count ∧
      (countUncovered stop ordered cursor count =
          count + (uncovered stop (boundedRanges ordered) cursor).card ↔
        ¬Miscounted stop (boundedRanges ordered) cursor) := by
  induction ordered generalizing cursor count with
  | nil =>
    have hnone : ¬Miscounted stop (boundedRanges []) cursor := by
      rintro ⟨r, hr, -⟩
      cases hr
    have hcard : (uncovered stop (boundedRanges []) cursor).card = (stop + 1 - cursor).toNat :=
      card_uncovered_behind fun r hr => nomatch hr
    rw [countUncovered, if_pos hcursor, hcard]
    exact ⟨by omega, iff_of_true (by omega) hnone⟩
  | cons interval ordered ih =>
    match interval, hsorted with
    | (some s, some e), hsorted =>
      have hranges : boundedRanges ((some s, some e) :: ordered) =
          (s, e) :: boundedRanges ordered := rfl
      rw [hranges] at hsorted ⊢
      obtain ⟨hfirst, hlater⟩ := List.pairwise_cons.mp hsorted
      have hstarts : ∀ r ∈ boundedRanges ordered, s ≤ r.1 := by
        intro r hr
        have hle := hfirst r hr
        unfold rangeLe at hle
        omega
      rw [countUncovered, miscounted_cons hfirst]
      dsimp only
      by_cases hbehind : e < cursor
      · -- the range is passed
        have hcard := card_uncovered_cons stop cursor (l := (s, e)) hstarts
        have hmax : max cursor (e + 1) = cursor := by omega
        dsimp only at hcard
        rw [hmax] at hcard ⊢
        rw [if_pos hbehind, hcard]
        obtain ⟨hcount, hexact⟩ := ih count hlater hcursor
        have hzero : (min stop (min e (s - 1)) + 1 - cursor).toNat = 0 := by omega
        rw [hzero, Nat.zero_add]
        refine ⟨hcount, hexact.trans ?_⟩
        rw [not_or]
        exact ⟨fun h => ⟨by omega, h⟩, And.right⟩
      rw [if_neg hbehind]
      by_cases hover : stop < s
      · -- the last line is passed
        have hcard : (uncovered stop ((s, e) :: boundedRanges ordered) cursor).card =
            (stop + 1 - cursor).toNat := by
          refine card_uncovered_behind fun r hr => ?_
          rcases List.mem_cons.mp hr with rfl | hr
          · exact hover
          · exact lt_of_lt_of_le hover (hstarts r hr)
        rw [if_pos hover, if_pos hcursor, hcard]
        refine ⟨by omega, iff_of_true (by omega) ?_⟩
        rintro (h | ⟨r, hr, -, -, hstop, -⟩)
        · omega
        · have hle := hstarts r hr
          omega
      rw [if_neg hover]
      have hcard := card_uncovered_cons stop cursor (l := (s, e)) hstarts
      have hmax : max cursor (e + 1) = e + 1 := by omega
      dsimp only at hcard
      rw [hmax] at hcard ⊢
      rw [hcard]
      have hgap : (if cursor < s then count + (s - cursor) else count) =
          count + max 0 (s - cursor) := by
        split <;> omega
      rw [hgap]
      by_cases hend : stop < e + 1
      · -- the range goes on behind the last line
        have hcard' : (uncovered stop (boundedRanges ordered) (e + 1)).card = 0 := by
          refine Finset.card_eq_zero.mpr (Finset.filter_eq_empty_iff.mpr fun x hx => ?_)
          have hx' := mem_linesFromTo.mp hx
          omega
        rw [if_pos hend, hcard']
        refine ⟨by omega, iff_of_true (by omega) ?_⟩
        rintro (h | ⟨r, hr, hcur, hback, hstop, -⟩)
        · omega
        · omega
      · rw [if_neg hend]
        obtain ⟨hcount, hexact⟩ := ih (count + max 0 (s - cursor)) hlater (not_lt.mp hend)
        rw [not_or, ← hexact]
        refine ⟨by omega, ?_⟩
        constructor
        · intro h
          exact ⟨by omega, by omega⟩
        · rintro ⟨hgap, h⟩
          omega
    | (none, b), hsorted => exact ih count hsorted hcursor
    | (some a, none), hsorted => exact ih count hsorted hcursor

end Sweep

/-! ## Joined ranges -/

/-- A joined range starts with one of its parts, and goes at least as far. -/
theorem exists_of_mem_joinIntervals :
    ∀ {rest : List (Int × Int)} {last r : Int × Int}, r ∈ joinIntervals last rest →
      ∃ v ∈ last :: rest, v.1 = r.1 ∧ v.2 ≤ r.2
  | [], last, r, h => by
    rw [joinIntervals] at h
    exact ⟨r, h, rfl, le_rfl⟩
  | next :: rest, last, r, h => by
    rw [joinIntervals] at h
    split at h
    · obtain ⟨v, hv, hstart, hend⟩ := exists_of_mem_joinIntervals h
      rcases List.mem_cons.mp hv with rfl | hv
      · exact ⟨last, List.mem_cons_self, hstart, le_trans (le_max_left _ _) hend⟩
      · exact ⟨v, List.mem_cons_of_mem _ (List.mem_cons_of_mem _ hv), hstart, hend⟩
    · rcases List.mem_cons.mp h with rfl | h
      · exact ⟨r, List.mem_cons_self, rfl, le_rfl⟩
      · obtain ⟨v, hv, hcase⟩ := exists_of_mem_joinIntervals h
        exact ⟨v, List.mem_cons_of_mem _ hv, hcase⟩

/-- There is a line between two joined ranges. -/
theorem apart_joinIntervals :
    ∀ {rest : List (Int × Int)} {last : Int × Int}, (last :: rest).Pairwise rangeLe →
      (joinIntervals last rest).Pairwise fun a b => a.2 + 1 < b.1 ∧ a.1 ≤ b.1
  | [], last, _ => by
    rw [joinIntervals]
    exact List.pairwise_singleton _ _
  | next :: rest, last, hsorted => by
    obtain ⟨hlast, hnext⟩ := List.pairwise_cons.mp hsorted
    rw [joinIntervals]
    by_cases htouch : next.1 ≤ last.2 + 1
    · rw [if_pos htouch]
      exact apart_joinIntervals (pairwise_block hsorted)
    · rw [if_neg htouch]
      refine List.pairwise_cons.mpr ⟨fun r hr => ?_, apart_joinIntervals hnext⟩
      obtain ⟨v, hv, hstart, -⟩ := exists_of_mem_joinIntervals hr
      have hlv := hlast v hv
      unfold rangeLe at hlv
      rcases List.mem_cons.mp hv with rfl | hv
      · omega
      · have hnv := (List.pairwise_cons.mp hnext).1 v hv
        unfold rangeLe at hnv
        omega

/-- A range starts a joined one, or continues it. -/
theorem start_joinIntervals :
    ∀ {rest : List (Int × Int)} {last v : Int × Int}, (last :: rest).Pairwise rangeLe →
      v ∈ last :: rest → ∃ r ∈ joinIntervals last rest, r.1 = v.1 ∨ InRange (v.1 - 1) r
  | [], last, v, _, h => by
    rw [joinIntervals]
    exact ⟨v, h, Or.inl rfl⟩
  | next :: rest, last, v, hsorted, h => by
    have hln := (List.pairwise_cons.mp hsorted).1 next List.mem_cons_self
    unfold rangeLe at hln
    rw [joinIntervals]
    by_cases htouch : next.1 ≤ last.2 + 1
    · rw [if_pos htouch]
      have hblock := pairwise_block hsorted
      have hfirst :=
        start_joinIntervals (v := (last.1, max last.2 next.2)) hblock List.mem_cons_self
      rcases List.mem_cons.mp h with rfl | h
      · exact hfirst
      rcases List.mem_cons.mp h with rfl | h
      · by_cases hstart : last.1 = v.1
        · rw [← hstart]
          exact hfirst
        · obtain ⟨r, hr, hin⟩ := inRange_joinIntervals (x := v.1 - 1) hblock List.mem_cons_self
            ⟨by dsimp only; omega, by dsimp only; omega⟩
          exact ⟨r, hr, Or.inr hin⟩
      · exact start_joinIntervals hblock (List.mem_cons_of_mem _ h)
    · rw [if_neg htouch]
      rcases List.mem_cons.mp h with rfl | h
      · exact ⟨v, List.mem_cons_self, Or.inl rfl⟩
      · obtain ⟨r, hr, hcase⟩ := start_joinIntervals (List.pairwise_cons.mp hsorted).2 h
        exact ⟨r, List.mem_cons_of_mem _ hr, hcase⟩

/-- Joining ranges does not change whether the cursor moves back. -/
theorem miscounted_joinIntervals {stop : Int} :
    ∀ {rest : List (Int × Int)} {last : Int × Int} {cursor : Int},
      (last :: rest).Pairwise rangeLe →
      (Miscounted stop (joinIntervals last rest) cursor ↔ Miscounted stop (last :: rest) cursor)
  | [], last, cursor, _ => by rw [joinIntervals]
  | next :: rest, last, cursor, hsorted => by
    obtain ⟨hlast, hnext⟩ := List.pairwise_cons.mp hsorted
    have hln := hlast next List.mem_cons_self
    rw [joinIntervals]
    by_cases htouch : next.1 ≤ last.2 + 1
    · have hblock := pairwise_block hsorted
      have hmax : max (max cursor (last.2 + 1)) (next.2 + 1) =
          max cursor (max last.2 next.2 + 1) := by omega
      rw [if_pos htouch, miscounted_joinIntervals hblock,
        miscounted_cons (List.pairwise_cons.mp hblock).1, miscounted_cons hlast,
        miscounted_cons (List.pairwise_cons.mp hnext).1, hmax]
      unfold rangeLe at hln
      dsimp only
      constructor
      · rintro (h | h)
        · omega
        · exact Or.inr (Or.inr h)
      · rintro (h | h | h)
        · omega
        · omega
        · exact Or.inr h
    · have hbehind : ∀ r ∈ joinIntervals next rest, rangeLe last r := by
        intro r hr
        obtain ⟨v, hv, hstart, hend⟩ := exists_of_mem_joinIntervals hr
        have hlv := hlast v hv
        unfold rangeLe at hlv ⊢
        omega
      rw [if_neg htouch, miscounted_cons hbehind, miscounted_cons hlast,
        miscounted_joinIntervals hnext]

/-- What `_merge_read_intervals` does with the bounded ranges. -/
structure Joins (ranges joined : List (Int × Int)) : Prop where
  apart : joined.Pairwise fun a b => a.2 + 1 < b.1 ∧ a.1 ≤ b.1
  covers : ∀ x, (∃ r ∈ joined, InRange x r) ↔ ∃ r ∈ ranges, InRange x r
  starts : ∀ v ∈ ranges, ∃ r ∈ joined, r.1 = v.1 ∨ InRange (v.1 - 1) r
  started : ∀ r ∈ joined, ∃ v ∈ ranges, v.1 = r.1
  counted : ∀ stop cursor, Miscounted stop joined cursor ↔ Miscounted stop ranges cursor

/-- The bounded ranges are joined, and the open ones follow. -/
theorem mergeReadIntervals_joins (intervals : List Interval) :
    ∃ joined : List (Int × Int), mergeReadIntervals intervals =
        joined.map (fun iv => (some iv.1, some iv.2)) ++
          intervals.filter (fun iv => (bounded? iv).isNone) ∧
      Joins (boundedRanges intervals) joined := by
  rcases boundedRanges_merge intervals with ⟨hnone, hmerge⟩ | ⟨first, rest, hsorted, hmem, hmerge⟩
  · refine ⟨[], ?_, ?_⟩
    · rw [hmerge, List.map_nil, List.nil_append]
      refine (List.filter_eq_self.mpr fun iv hiv => ?_).symm
      rw [Option.isNone_iff_eq_none]
      exact List.filterMap_eq_nil_iff.mp hnone iv hiv
    · rw [hnone]
      exact ⟨List.Pairwise.nil, fun _ => Iff.rfl, fun _ hv => (nomatch hv),
        fun _ hr => (nomatch hr), fun _ _ => Iff.rfl⟩
  · refine ⟨joinIntervals first rest, hmerge, apart_joinIntervals hsorted, fun x => ?_,
      fun v hv => start_joinIntervals hsorted ((hmem v).mpr hv), fun r hr => ?_, fun stop cursor =>
        (miscounted_joinIntervals hsorted).trans (Miscounted.congr hmem)⟩
    · constructor
      · rintro ⟨r, hr, hx⟩
        obtain ⟨v, hv, hin⟩ := inRange_of_joinIntervals hr hx
        exact ⟨v, (hmem v).mp hv, hin⟩
      · rintro ⟨v, hv, hx⟩
        exact inRange_joinIntervals hsorted ((hmem v).mpr hv) hx
    · obtain ⟨v, hv, hstart, -⟩ := exists_of_mem_joinIntervals hr
      exact ⟨v, (hmem v).mp hv, hstart⟩

/-! ## The two functions -/

/-- The ranges can be sorted when they are merged: the open ones with each other, and with the
bounded ones that do not continue another. -/
structure CanSort (intervals : List Interval) : Prop where
  opens : ∀ a ∈ intervals, ∀ b ∈ intervals, bounded? a = none → bounded? b = none → Comparable a b
  starts : ∀ a ∈ intervals, bounded? a = none → ∀ r ∈ boundedRanges intervals,
    (∀ v ∈ boundedRanges intervals, ¬InRange (r.1 - 1) v) → Comparable a (some r.1, some r.2)

/-- The merged ranges can be compared with each other. -/
theorem canSort_iff (intervals : List Interval) :
    (∀ a ∈ mergeReadIntervals intervals, ∀ b ∈ mergeReadIntervals intervals, Comparable a b) ↔
      CanSort intervals := by
  obtain ⟨joined, hmerge, hjoins⟩ := mergeReadIntervals_joins intervals
  have hjoined : ∀ r ∈ joined,
      ((some r.1, some r.2) : Interval) ∈ mergeReadIntervals intervals := by
    intro r hr
    rw [hmerge]
    exact List.mem_append_left _ (List.mem_map.mpr ⟨r, hr, rfl⟩)
  constructor
  · intro h
    refine ⟨fun a ha b hb hopen hopen' => ?_, fun a ha hopen v hv hfree => ?_⟩
    · exact h a ((mem_mergeReadIntervals_open hopen).mpr ha) b
        ((mem_mergeReadIntervals_open hopen').mpr hb)
    · obtain ⟨r, hr, hstart | hin⟩ := hjoins.starts v hv
      · have hcomparable := h a ((mem_mergeReadIntervals_open hopen).mpr ha) _ (hjoined r hr)
        rw [comparable_open hopen] at hcomparable ⊢
        rw [← hstart]
        exact hcomparable
      · obtain ⟨u, hu, hcovers⟩ := (hjoins.covers _).mp ⟨r, hr, hin⟩
        exact absurd hcovers (hfree u hu)
  · intro h
    have hsymm : Std.Symm fun a b : Int × Int =>
        (a.2 + 1 < b.1 ∧ a.1 ≤ b.1) ∨ (b.2 + 1 < a.1 ∧ b.1 ≤ a.1) := ⟨fun _ _ => Or.symm⟩
    have hpairs := (hjoins.apart.imp (S := fun a b : Int × Int =>
      (a.2 + 1 < b.1 ∧ a.1 ≤ b.1) ∨ (b.2 + 1 < a.1 ∧ b.1 ≤ a.1)) Or.inl).forall
    -- an open range beside a joined one
    have hmixed : ∀ a ∈ intervals, bounded? a = none → ∀ r ∈ joined,
        Comparable a (some r.1, some r.2) := by
      intro a ha hopen r hr
      obtain ⟨v, hv, hstart⟩ := hjoins.started r hr
      have hcomparable := h.starts a ha hopen v hv fun u hu hin => ?_
      · rw [comparable_open hopen] at hcomparable ⊢
        rw [← hstart]
        exact hcomparable
      · obtain ⟨r', hr', hin'⟩ := (hjoins.covers _).mpr ⟨u, hu, hin⟩
        unfold InRange at hin'
        have hne : r ≠ r' := by
          rintro rfl
          omega
        rcases hpairs hr hr' hne with hapart | hapart
        · omega
        · omega
    have hopens : ∀ {a}, a ∈ intervals.filter (fun iv => (bounded? iv).isNone) →
        a ∈ intervals ∧ bounded? a = none := fun ha =>
      ⟨(List.mem_filter.mp ha).1, Option.isNone_iff_eq_none.mp (List.mem_filter.mp ha).2⟩
    rw [hmerge]
    intro a ha b hb
    rcases List.mem_append.mp ha with ha | ha <;> rcases List.mem_append.mp hb with hb | hb
    · obtain ⟨r, -, rfl⟩ := List.mem_map.mp ha
      obtain ⟨v, -, rfl⟩ := List.mem_map.mp hb
      exact comparable_bounded _ _ _ _
    · obtain ⟨r, hr, rfl⟩ := List.mem_map.mp ha
      exact (hmixed b (hopens hb).1 (hopens hb).2 r hr).symm
    · obtain ⟨r, hr, rfl⟩ := List.mem_map.mp hb
      exact hmixed a (hopens ha).1 (hopens ha).2 r hr
    · exact h.opens a (hopens ha).1 b (hopens hb).1 (hopens ha).2 (hopens hb).2

/-- What the two functions are for. -/
structure ReadsExact (intervals : List Interval) (start stop : Int) : Prop where
  counted : uncoveredReadLines (some start, some stop) (mergeReadIntervals intervals) =
    .ok (uncovered stop (boundedRanges intervals) start).card
  merged : ∃ joined : List (Int × Int), mergeReadIntervals intervals =
      joined.map (fun iv => (some iv.1, some iv.2)) ++
        intervals.filter (fun iv => (bounded? iv).isNone) ∧
    (joined.Pairwise fun a b => a.2 + 1 < b.1) ∧
    ∀ x, (∃ r ∈ joined, InRange x r) ↔ ∃ r ∈ boundedRanges intervals, InRange x r

/--
**The lines are counted exactly where the ranges can be sorted and no range that ends before it
starts moves the cursor back.**

Any ranges, and any lines to be counted. The merged ranges are always disjoint, with a line between
them, and cover the same lines.
-/
theorem readsExact_iff (intervals : List Interval) {start stop : Int} (hlines : start ≤ stop) :
    ReadsExact intervals start stop ↔
      CanSort intervals ∧ ¬Miscounted stop (boundedRanges intervals) start := by
  obtain ⟨joined, hmerge, hjoins⟩ := mergeReadIntervals_joins intervals
  have hmerged : ReadsExact intervals start stop ↔
      uncoveredReadLines (some start, some stop) (mergeReadIntervals intervals) =
        .ok (uncovered stop (boundedRanges intervals) start).card :=
    ⟨fun h => h.counted, fun h => ⟨h, joined, hmerge, hjoins.apart.imp And.left, hjoins.covers⟩⟩
  have hranges : ∀ r, r ∈ boundedRanges (mergeReadIntervals intervals) ↔ r ∈ joined := fun r => by
    rw [mem_boundedRanges, hmerge]
    exact mem_merged_iff
  rw [hmerged, ← canSort_iff]
  have hcall : uncoveredReadLines (some start, some stop) (mergeReadIntervals intervals) =
      (do
        let ordered ← pySorted intervalLt (mergeReadIntervals intervals)
        pure (countUncovered stop ordered start 0)) := rfl
  rw [hcall]
  rcases pySorted_intervals (mergeReadIntervals intervals) with
    ⟨ordered, hsorted, hperm, hpairwise, hall⟩ | ⟨hnot, e, he⟩
  · have hordered : ∀ r, r ∈ boundedRanges ordered ↔ r ∈ joined := fun r => by
      rw [← hranges, mem_boundedRanges, mem_boundedRanges, hperm.mem_iff]
    have hrangeLe : (boundedRanges ordered).Pairwise rangeLe := by
      refine List.pairwise_filterMap.mpr (hpairwise.imp fun {a b} hab r hr v hv => ?_)
      rw [bounded?_eq_some.mp hr, bounded?_eq_some.mp hv] at hab
      unfold rangeLe
      rcases hab with hsame | ⟨s, t, hs, ht, hlt⟩ | ⟨hstart, s, t, hs, ht, hlt⟩
      · grind
      · grind
      · grind
    have hcard : uncovered stop (boundedRanges ordered) start =
        uncovered stop (boundedRanges intervals) start := by
      refine uncovered_congr fun x => ?_
      rw [← hjoins.covers]
      simp only [hordered]
    obtain ⟨-, hexact⟩ := countUncovered_spec 0 hrangeLe hlines
    rw [hcard, Miscounted.congr hordered, hjoins.counted, zero_add] at hexact
    rw [hsorted, ← hexact]
    constructor
    · intro h
      exact ⟨hall, Except.ok.inj h⟩
    · rintro ⟨-, h⟩
      exact congrArg Except.ok h
  · rw [he]
    constructor
    · intro h
      cases h
    · exact fun h => absurd h.1 hnot

/-- A range that goes back is passed where another one covers its end, and an open one is sorted
behind the line where the others start. -/
theorem readsExact_nested :
    ReadsExact [(some 11, none), (some 8, some 5), (some 2, some 9)] 3 10 := by
  refine (readsExact_iff _ (by decide)).mpr ⟨⟨?_, ?_⟩, ?_⟩
  · have hself : Comparable (some 11, none) (some 11, none) := ⟨false, rfl⟩
    simpa [bounded?] using hself
  · have hstarts : ∀ r : Int × Int, r.1 ≠ 11 → Comparable (some 11, none) (some r.1, some r.2) :=
      fun r hr => (comparable_open rfl _ _).mpr ⟨11, rfl, hr.symm⟩
    intro a ha hopen r hr _
    have hends : (8, 5) = r ∨ (2, 9) = r := by simpa [boundedRanges, bounded?] using hr
    have hthis : a = (some 11, none) := by
      rcases List.mem_cons.mp ha with rfl | ha
      · rfl
      · rcases List.mem_pair.mp ha with rfl | rfl <;> cases hopen
    rw [hthis]
    rcases hends with rfl | rfl
    · exact hstarts (8, 5) (by decide)
    · exact hstarts (2, 9) (by decide)
  · rintro ⟨r, hr, hcursor, hgap, -, hall⟩
    have hends : (8, 5) = r ∨ (2, 9) = r := by simpa [boundedRanges, bounded?] using hr
    rcases hends with rfl | rfl
    · exact absurd (hall (2, 9) (by simp [boundedRanges, bounded?]) (by decide)) (by decide)
    · exact absurd hgap (by decide)

/-- After five lines and then the whole file were read, `sorted` raises; and a range that goes back
makes ten lines of eight. -/
theorem not_readsExact : ¬ReadsExact [(some 1, some 5), (none, none)] 3 10 ∧
    ¬ReadsExact [(some 8, some 5)] 3 10 := by
  constructor
  · intro h
    have hraises : uncoveredReadLines (some 3, some 10)
        (mergeReadIntervals [(some 1, some 5), (none, none)]) = .error .typeError := rfl
    rw [h.counted] at hraises
    cases hraises
  · intro h
    have hten : uncoveredReadLines (some 3, some 10) (mergeReadIntervals [(some 8, some 5)]) =
        .ok 10 := rfl
    have height : (uncovered 10 (boundedRanges [(some 8, some 5)]) 3).card = 8 := by decide +kernel
    rw [h.counted, height] at hten
    cases hten

end ThreadForge

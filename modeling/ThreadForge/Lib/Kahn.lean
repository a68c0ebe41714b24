import Mathlib.Data.Finset.SDiff
import Mathlib.Data.Fintype.Card
import Mathlib.Data.Set.Finite.List
import Mathlib.Logic.Relation

/-!
# Taking away the sources of a graph

Every node of a finite graph waits for some others. Nodes that wait for none are taken one after the
other, and no node waits for one that was taken. All nodes are taken exactly if no node depends on
itself.

## Main results

* `Kahn.countP_strike` — a node is freed once: what bounds the number of turns.
* `Kahn.taken_eq_length_iff` — how many nodes are taken.
-/

namespace Kahn

variable {α : Type} [DecidableEq α]

/-- The node no longer waits for `current`. -/
def strike (current : α) (entry : α × Finset α) : α × Finset α := (entry.1, entry.2.erase current)

/-- No node waits for `current` any longer. -/
def strikeAll (current : α) (incoming : List (α × Finset α)) : List (α × Finset α) :=
  incoming.map (strike current)

/-- `current` is the last one the node waits for. -/
def frees (current : α) (entry : α × Finset α) : Bool :=
  current ∈ entry.2 ∧ entry.2.erase current = ∅

/-- The nodes that wait for no other once `current` is taken, in the order of the graph. -/
def freed (current : α) (incoming : List (α × Finset α)) : List α :=
  (incoming.filter (frees current)).map Prod.fst

/-- Every turn that frees a node leaves one less that waits. -/
theorem countP_strike (current : α) (incoming : List (α × Finset α)) :
    (freed current incoming).length + (strikeAll current incoming).countP (fun e => e.2 ≠ ∅) =
      incoming.countP fun e => e.2 ≠ ∅ := by
  induction incoming with
  | nil => rfl
  | cons entry incoming ih =>
    have hsplit : ((if frees current entry then 1 else 0) +
        if (strike current entry).2 ≠ ∅ then 1 else 0) = if entry.2 ≠ ∅ then 1 else 0 := by
      unfold frees strike
      by_cases hmem : current ∈ entry.2
      · have hne : entry.2 ≠ ∅ := Finset.ne_empty_of_mem hmem
        by_cases hlast : entry.2.erase current = ∅
        · simp [hmem, hlast, hne]
        · simp [hmem, hlast, hne]
      · simp [hmem]
    have hfreed : (freed current (entry :: incoming)).length =
        (if frees current entry then 1 else 0) + (freed current incoming).length := by
      unfold freed
      by_cases hfrees : frees current entry
      · simp [hfrees]; omega
      · simp [hfrees]
    simp only [strikeAll, List.map_cons, List.countP_cons, decide_eq_true_eq] at ih ⊢
    omega

/-- How many nodes are taken from here on; the next one is at the head of `ready`. -/
def taken (incoming : List (α × Finset α)) : List α → Nat
  | [] => 0
  | current :: ready =>
    taken (strikeAll current incoming) ((freed current incoming).reverse ++ ready) + 1
termination_by ready => ready.length + incoming.countP fun e => e.2 ≠ ∅
decreasing_by
  -- What becomes ready waited for something before, and waits for nothing now.
  have hcount := countP_strike current incoming
  simp only [List.length_append, List.length_reverse, List.length_cons]
  omega

/-! ## What is known in every turn -/

section Graph

variable (nodes : List α) (needs : α → Finset α)

/-- One node waits for another. -/
def Waits (a b : α) : Prop := a ∈ nodes ∧ b ∈ needs a

/-- No node depends on itself, through however many others. -/
def Acyclic : Prop := ∀ a, ¬Relation.TransGen (Waits nodes needs) a a

/-- The nodes in `done` were taken, the last one first. -/
structure Taking (incoming : List (α × Finset α)) (ready done : List α) : Prop where
  incoming_eq : incoming = nodes.map fun a => (a, needs a \ done.toFinset)
  nodup : (ready ++ done).Nodup
  mem_iff : ∀ a, a ∈ ready ++ done ↔ a ∈ nodes ∧ needs a ⊆ done.toFinset
  ordered : ∀ a earlier later, done = later ++ a :: earlier → needs a ⊆ earlier.toFinset

end Graph

variable {nodes : List α} {needs : α → Finset α} {incoming : List (α × Finset α)}
  {ready done : List α} {current : α}

theorem taking_start (hnodes : nodes.Nodup) :
    Taking nodes needs (nodes.map fun a => (a, needs a))
      (nodes.filter fun a => needs a = ∅).reverse [] where
  incoming_eq := by simp
  nodup := by simpa using hnodes.filter _
  mem_iff a := by simp
  ordered a earlier later h := by simp at h

theorem mem_freed_iff (h : Taking nodes needs incoming ready done) (hcurrent : current ∉ done)
    (a : α) :
    a ∈ freed current incoming ↔
      a ∈ nodes ∧ current ∈ needs a ∧ needs a ⊆ insert current done.toFinset := by
  unfold freed
  rw [h.incoming_eq]
  simp only [List.mem_map, List.mem_filter, frees, decide_eq_true_eq]
  have herase : ∀ b, (needs b \ done.toFinset).erase current = ∅ ↔
      needs b ⊆ insert current done.toFinset := fun b => by
    rw [← Finset.sdiff_insert, Finset.sdiff_eq_empty_iff_subset]
  have hmem : ∀ b, current ∈ needs b \ done.toFinset ↔ current ∈ needs b := fun b => by
    simp [hcurrent]
  constructor
  · rintro ⟨_, ⟨⟨b, hb, rfl⟩, hneeds⟩, rfl⟩
    exact ⟨hb, (hmem b).mp hneeds.1, (herase b).mp hneeds.2⟩
  · rintro ⟨ha, hneeds, hsub⟩
    exact ⟨_, ⟨⟨a, ha, rfl⟩, (hmem a).mpr hneeds, (herase a).mpr hsub⟩, rfl⟩

theorem or_turn {p q r s : Prop} : (p ∨ q) ∨ r ∨ s ↔ p ∨ (r ∨ q) ∨ s := by tauto

/-- A turn takes the node at the head. -/
theorem Taking.next (hnodes : nodes.Nodup)
    (h : Taking nodes needs incoming (current :: ready) done) :
    Taking nodes needs (strikeAll current incoming) ((freed current incoming).reverse ++ ready)
      (current :: done) := by
  have hnodup := h.nodup
  rw [List.cons_append, List.nodup_cons] at hnodup
  have hcurrent : current ∉ done := fun hmem => hnodup.1 (List.mem_append_right _ hmem)
  have hfresh : ∀ a ∈ freed current incoming, a ∉ current :: ready ++ done := by
    intro a ha hmem
    have hneeds := ((mem_freed_iff h hcurrent a).mp ha).2.1
    exact hcurrent (List.mem_toFinset.mp (((h.mem_iff a).mp hmem).2 hneeds))
  refine ⟨?_, ?_, fun a => ?_, fun a earlier later hsplit => ?_⟩
  · rw [strikeAll, h.incoming_eq, List.map_map]
    refine List.map_congr_left fun a _ => ?_
    rw [Function.comp_apply, strike, List.toFinset_cons, ← Finset.sdiff_insert]
  · have hfreed : (freed current incoming).Nodup := by
      refine List.Nodup.sublist (List.Sublist.map Prod.fst List.filter_sublist) ?_
      rw [h.incoming_eq, List.map_map]
      simpa [Function.comp_def] using hnodes
    have hrest : (ready ++ current :: done).Nodup :=
      (List.perm_middle.nodup_iff).mpr h.nodup
    rw [List.append_assoc, List.nodup_append]
    refine ⟨List.nodup_reverse.mpr hfreed, hrest, ?_⟩
    rintro a ha b hb rfl
    refine hfresh a (List.mem_reverse.mp ha) ?_
    exact (List.perm_middle.mem_iff).mp hb
  · -- A node is ready if it was, or if `current` was the last one it waited for.
    have hfreed := mem_freed_iff h hcurrent a
    have hold := h.mem_iff a
    have hwas : needs a ⊆ insert current done.toFinset ∧ current ∉ needs a ↔
        needs a ⊆ done.toFinset ∧ current ∉ needs a := and_congr_left fun hno =>
      Finset.subset_insert_iff_of_notMem hno
    have hdone : needs a ⊆ done.toFinset → current ∉ needs a := fun hsub hneeds =>
      hcurrent (List.mem_toFinset.mp (hsub hneeds))
    have hparts : a ∈ (freed current incoming).reverse ++ ready ++ current :: done ↔
        a ∈ freed current incoming ∨ a ∈ current :: ready ++ done := by
      simp only [List.mem_append, List.mem_reverse, List.mem_cons]
      exact or_turn
    rw [hparts, hfreed, hold, List.toFinset_cons]
    constructor
    · rintro (⟨ha, -, hsub⟩ | ⟨ha, hsub⟩)
      · exact ⟨ha, hsub⟩
      · exact ⟨ha, hsub.trans (Finset.subset_insert _ _)⟩
    · rintro ⟨ha, hsub⟩
      by_cases hneeds : current ∈ needs a
      · exact Or.inl ⟨ha, hneeds, hsub⟩
      · exact Or.inr ⟨ha, (hwas.mp ⟨hsub, hneeds⟩).1⟩
  · cases later with
    | nil =>
      obtain ⟨rfl, rfl⟩ := List.cons.inj hsplit
      exact ((h.mem_iff current).mp (List.mem_append_left _ List.mem_cons_self)).2
    | cons b later => exact h.ordered a earlier later (List.cons.inj hsplit).2

/-- The turns end with no node ready. -/
theorem Taking.taken_eq (hnodes : nodes.Nodup) (h : Taking nodes needs incoming ready done) :
    ∃ incoming' done', Taking nodes needs incoming' [] done' ∧
      taken incoming ready + done.length = done'.length := by
  induction incoming, ready using taken.induct generalizing done with
  | case1 incoming => exact ⟨incoming, done, h, by rw [taken, Nat.zero_add]⟩
  | case2 incoming current ready ih =>
    obtain ⟨incoming', done', htaking, hlength⟩ := ih (h.next hnodes)
    refine ⟨incoming', done', htaking, ?_⟩
    rw [← hlength, taken, List.length_cons]
    omega

/-! ## The nodes that are taken -/

/-- What was taken in an order depends on nothing without an end. -/
theorem acc_of_ordered :
    ∀ {done : List α},
      (∀ a earlier later, done = later ++ a :: earlier → needs a ⊆ earlier.toFinset) →
      ∀ a ∈ done, Acc (fun b a => Waits nodes needs a b) a
  | [], _, a, ha => absurd ha (List.not_mem_nil)
  | c :: done, hordered, a, ha => by
    have hrest := @acc_of_ordered done fun a earlier later h =>
      hordered a earlier (c :: later) (by rw [h]; rfl)
    rcases List.mem_cons.mp ha with rfl | ha
    · refine Acc.intro _ fun b hb => hrest b ?_
      exact List.mem_toFinset.mp (hordered _ done [] rfl hb.2)
    · exact hrest a ha

omit [DecidableEq α] in
theorem not_rel_of_acc {r : α → α → Prop} {a : α} (h : Acc r a) : ¬r a a := by
  induction h with
  | intro a _ ih => exact fun hrel => ih a hrel hrel

theorem acyclic_of_all_taken (hclosed : ∀ a ∈ nodes, a ∈ done)
    (h : Taking nodes needs incoming [] done) : Acyclic nodes needs := by
  intro a hcycle
  have hnode : a ∈ nodes := by
    rcases Relation.TransGen.head'_iff.mp hcycle with ⟨b, hwaits, -⟩
    exact hwaits.1
  have hacc := (@acc_of_ordered α _ nodes needs done h.ordered a (hclosed a hnode)).transGen
  have hswap : Relation.TransGen (fun b a => Waits nodes needs a b) a a :=
    Relation.transGen_swap.mp hcycle
  exact not_rel_of_acc hacc hswap

/-- Without a cycle every node is taken: one whose dependencies were all taken does not wait. -/
theorem all_taken_of_acyclic (hclosed : ∀ a ∈ nodes, ∀ b ∈ needs a, b ∈ nodes)
    (hacyclic : Acyclic nodes needs) (h : Taking nodes needs incoming [] done) :
    ∀ a ∈ nodes, a ∈ done := by
  -- By induction on what a node depends on: finitely many nodes leave no endless descent.
  let r : {a // a ∈ nodes} → {a // a ∈ nodes} → Prop := fun b a =>
    Relation.TransGen (Waits nodes needs) a.1 b.1
  have hfinite : Finite {a // a ∈ nodes} := (List.finite_toSet nodes).to_subtype
  have htrans : IsTrans _ r := ⟨fun _ _ _ hab hbc => Relation.TransGen.trans hbc hab⟩
  have hirrefl : Std.Irrefl r := ⟨fun a => hacyclic a.1⟩
  have hwf : WellFounded r := Finite.wellFounded_of_trans_of_irrefl r
  suffices hall : ∀ a : {a // a ∈ nodes}, a.1 ∈ done from fun a ha => hall ⟨a, ha⟩
  intro a
  induction a using hwf.induction with
  | _ a ih =>
    have hmem := h.mem_iff a.1
    rw [List.nil_append] at hmem
    refine hmem.mpr ⟨a.2, fun b hb => List.mem_toFinset.mpr ?_⟩
    exact ih ⟨b, hclosed a.1 a.2 b hb⟩ (.single ⟨a.2, hb⟩)

/-- **As many nodes are taken as there are exactly if no node depends on itself.** -/
theorem taken_eq_length_iff (hnodes : nodes.Nodup)
    (hclosed : ∀ a ∈ nodes, ∀ b ∈ needs a, b ∈ nodes) :
    taken (nodes.map fun a => (a, needs a)) (nodes.filter fun a => needs a = ∅).reverse
        = nodes.length ↔
      Acyclic nodes needs := by
  obtain ⟨incoming, done, htaking, hlength⟩ :=
    (@taking_start α _ nodes needs hnodes).taken_eq hnodes
  rw [List.length_nil, Nat.add_zero] at hlength
  rw [hlength]
  have hnodup : done.Nodup := by simpa using htaking.nodup
  have hsub : ∀ a ∈ done, a ∈ nodes := fun a ha =>
    ((htaking.mem_iff a).mp (by simpa using ha)).1
  constructor
  · intro heq
    refine acyclic_of_all_taken (fun a ha => ?_) htaking
    exact ((hnodup.subperm hsub).perm_of_length_le heq.ge).mem_iff.mpr ha
  · intro hacyclic
    have hall := all_taken_of_acyclic hclosed hacyclic htaking
    exact le_antisymm (hnodup.subperm hsub).length_le (hnodes.subperm hall).length_le

end Kahn

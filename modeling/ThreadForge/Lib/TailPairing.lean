import Mathlib.Data.List.Infix
import Mathlib.Data.List.Sort

/-!
# Lists paired from their ends

Two lists are paired from their ends, one of them sorted by a key. When every element of the other
list gets the partner it should have.

## Main results

* `zip_subset_zip_reverse_iff` — pairs are the right ones exactly when the partners are a suffix.
* `pairwise_earlier_insertionSort` — a stable sort, by the order of the keys and of the list.
* `isSuffix_iff_earlier` — which elements a sorted list ends with.
-/

namespace TailPairing

variable {α β κ : Type*}

/-! ## Pairs -/

/-- The pairs with `partners` are among those with `others` exactly when `others` begins with
them. -/
theorem zip_subset_zip_iff {places : List α} {partners others : List β}
    (hlength : places.length = partners.length) (hnodup : places.Nodup) :
    (∀ pair ∈ places.zip partners, pair ∈ places.zip others) ↔ partners <+: others := by
  induction places generalizing partners others with
  | nil =>
    rw [List.eq_nil_of_length_eq_zero hlength.symm]
    exact ⟨fun _ => List.nil_prefix, fun _ _ hin => absurd hin List.not_mem_nil⟩
  | cons place places ih =>
    cases partners with
    | nil => cases hlength
    | cons partner partners =>
      rw [List.nodup_cons] at hnodup
      cases others with
      | nil =>
        refine ⟨fun h => ?_, fun h => ?_⟩
        · exact absurd (h (place, partner) List.mem_cons_self) List.not_mem_nil
        · cases List.prefix_nil.mp h
      | cons other others =>
        rw [List.zip_cons_cons, List.zip_cons_cons, List.cons_prefix_cons,
          ← ih (Nat.succ.inj hlength) hnodup.2]
        have hfirst : ∀ {b : β} {l : List β}, (place, b) ∉ places.zip l :=
          fun hin => hnodup.1 (List.of_mem_zip hin).1
        constructor
        · intro h
          constructor
          · rcases List.mem_cons.mp (h _ List.mem_cons_self) with hsame | hlater
            · exact (Prod.mk.inj hsame).2
            · exact absurd hlater hfirst
          · rintro ⟨a, b⟩ hin
            rcases List.mem_cons.mp (h _ (List.mem_cons_of_mem _ hin)) with hsame | hlater
            · rw [(Prod.mk.inj hsame).1] at hin
              exact absurd hin hfirst
            · exact hlater
        · rintro ⟨rfl, h⟩ pair hin
          rcases List.mem_cons.mp hin with rfl | hlater
          · exact List.mem_cons_self
          · exact List.mem_cons_of_mem _ (h pair hlater)

/-- **Pairs from the ends** are the right ones exactly when the partners are a suffix. -/
theorem zip_subset_zip_reverse_iff {places : List α} {partners others : List β}
    (hlength : places.length = partners.length) (hnodup : places.Nodup) :
    (∀ pair ∈ places.zip partners, pair ∈ places.reverse.zip others.reverse) ↔
      partners <:+ others := by
  have hmem : ∀ pair, pair ∈ places.zip partners ↔
      pair ∈ places.reverse.zip partners.reverse := by
    intro pair
    rw [List.zip_eq_zipWith, List.zip_eq_zipWith, ← List.reverse_zipWith hlength,
      List.mem_reverse]
  simp only [hmem]
  rw [zip_subset_zip_iff _ (List.nodup_reverse.mpr hnodup), List.reverse_prefix]
  rw [List.length_reverse, List.length_reverse, hlength]

/-- The places of the chosen elements, as those of the elements with their places. -/
theorem filter_range_eq {p : α → Bool} {q : Nat → Bool} {l : List α}
    (h : ∀ place a, l[place]? = some a → q place = p a) :
    (List.range l.length).filter q = (l.zipIdx.filter fun entry => p entry.1).map Prod.snd := by
  rw [List.range_eq_range', ← List.zipIdx_map_snd 0 l, List.filter_map]
  congr 1
  refine List.filter_congr fun entry hin => ?_
  exact h entry.2 entry.1 (List.mem_zipIdx_iff_getElem?.mp hin)

theorem length_filter_range {p : α → Bool} {q : Nat → Bool} {l : List α}
    (h : ∀ place a, l[place]? = some a → q place = p a) :
    ((List.range l.length).filter q).length = (l.filter p).length := by
  rw [filter_range_eq h, List.length_map, ← List.countP_eq_length_filter,
    ← List.countP_eq_length_filter, ← List.zipIdx_map_fst 0 l, List.countP_map,
    List.zipIdx_map_fst]
  rfl

/-- The chosen elements stand beside their places. -/
theorem mem_zip_filter_iff {p : α → Bool} {q : Nat → Bool} {l : List α}
    (h : ∀ place a, l[place]? = some a → q place = p a) (f : α → β) {place : Nat} {b : β} :
    (place, b) ∈ ((List.range l.length).filter q).zip ((l.filter p).map f) ↔
      ∃ a, l[place]? = some a ∧ p a = true ∧ b = f a := by
  have hfst : l.filter p = (l.zipIdx.filter fun entry => p entry.1).map Prod.fst := by
    rw [← List.zipIdx_map_fst 0 l, List.filter_map, List.zipIdx_map_fst]
    rfl
  rw [filter_range_eq h, hfst, List.map_map, List.zip_map', List.mem_map]
  constructor
  · rintro ⟨⟨a, i⟩, hin, hpair⟩
    obtain ⟨hentry, hchosen⟩ := List.mem_filter.mp hin
    obtain ⟨rfl, rfl⟩ := Prod.mk.inj hpair
    exact ⟨a, List.mem_zipIdx_iff_getElem?.mp hentry, hchosen, rfl⟩
  · rintro ⟨a, hget, hchosen, rfl⟩
    exact ⟨(a, place),
      List.mem_filter.mpr ⟨List.mem_zipIdx_iff_getElem?.mpr hget, hchosen⟩, rfl⟩

/-- Elements that a function tells apart are a prefix where their values are. -/
theorem map_prefix_map_iff {f : α → β} {l whole : List α}
    (hinj : ∀ a ∈ l, ∀ b ∈ whole, f a = f b → a = b) :
    l.map f <+: whole.map f ↔ l <+: whole := by
  refine ⟨fun h => ?_, fun h => h.map f⟩
  induction l generalizing whole with
  | nil => exact List.nil_prefix
  | cons a l ih =>
    cases whole with
    | nil => cases List.prefix_nil.mp h
    | cons b whole =>
      rw [List.map_cons, List.map_cons, List.cons_prefix_cons] at h
      rw [List.cons_prefix_cons]
      exact ⟨hinj a List.mem_cons_self b List.mem_cons_self h.1,
        ih (fun x hx y hy => hinj x (List.mem_cons_of_mem _ hx) y (List.mem_cons_of_mem _ hy)) h.2⟩

theorem map_suffix_map_iff {f : α → β} {l whole : List α}
    (hinj : ∀ a ∈ l, ∀ b ∈ whole, f a = f b → a = b) :
    l.map f <:+ whole.map f ↔ l <:+ whole := by
  rw [← List.reverse_prefix, ← List.map_reverse, ← List.map_reverse, map_prefix_map_iff,
    List.reverse_prefix]
  exact fun a ha b hb => hinj a (List.mem_reverse.mp ha) b (List.mem_reverse.mp hb)

/-! ## The order of a stable sort -/

theorem pair_sublist_or {l : List α} {a b : α} (ha : a ∈ l) (hb : b ∈ l) (hne : a ≠ b) :
    [a, b].Sublist l ∨ [b, a].Sublist l := by
  induction l with
  | nil => cases ha
  | cons first rest ih =>
    rcases List.mem_cons.mp ha with hfirst | harest
    · rcases List.mem_cons.mp hb with hfirst' | hbrest
      · exact absurd (hfirst.trans hfirst'.symm) hne
      · rw [hfirst]
        exact Or.inl ((List.singleton_sublist.mpr hbrest).cons_cons _)
    · rcases List.mem_cons.mp hb with hfirst | hbrest
      · rw [hfirst]
        exact Or.inr ((List.singleton_sublist.mpr harest).cons_cons _)
      · exact (ih harest hbrest).imp (fun h => h.cons _) fun h => h.cons _

theorem not_pair_sublist_swap {l : List α} (hnodup : l.Nodup) {a b : α} (h : [a, b].Sublist l) :
    ¬[b, a].Sublist l := by
  induction l with
  | nil => cases h
  | cons first rest ih =>
    rw [List.nodup_cons] at hnodup
    intro hswap
    cases h with
    | cons _ h =>
      cases hswap with
      | cons _ hswap => exact ih hnodup.2 h hswap
      | cons_cons _ _ => exact hnodup.1 (h.subset (List.mem_cons_of_mem _ List.mem_cons_self))
    | cons_cons _ h =>
      cases hswap with
      | cons _ hswap =>
        exact hnodup.1 (hswap.subset (List.mem_cons_of_mem _ List.mem_cons_self))
      | cons_cons _ _ => exact hnodup.1 (List.singleton_sublist.mp h)

variable [LinearOrder κ]

/-- The first element has the smaller key, or the same one and the earlier place. -/
def Earlier (key : α → κ) (l : List α) (a b : α) : Prop :=
  key a < key b ∨ (key a = key b ∧ [a, b].Sublist l)

theorem Earlier.asymm {key : α → κ} {l : List α} (hnodup : l.Nodup) {a b : α}
    (h : Earlier key l a b) : ¬Earlier key l b a := by
  rcases h with hlt | ⟨heq, hbefore⟩
  · rintro (hgt | ⟨heq, -⟩)
    · exact absurd hgt hlt.asymm
    · exact absurd heq.symm hlt.ne
  · rintro (hgt | ⟨-, hafter⟩)
    · exact absurd heq.symm hgt.ne
    · exact not_pair_sublist_swap hnodup hbefore hafter

/-- **A stable sort puts the elements in this order.** -/
theorem pairwise_earlier_insertionSort (key : α → κ) {l : List α} (hnodup : l.Nodup) :
    (l.insertionSort fun a b => key a ≤ key b).Pairwise (Earlier key l) := by
  have hperm := List.perm_insertionSort (fun a b => key a ≤ key b) l
  have hsorted : (l.insertionSort fun a b => key a ≤ key b).Pairwise
      fun a b => key a ≤ key b := by
    have : Std.Total fun a b : α => key a ≤ key b := ⟨fun a b => le_total (key a) (key b)⟩
    have : IsTrans α fun a b => key a ≤ key b := ⟨fun _ _ _ => le_trans⟩
    exact List.pairwise_insertionSort _ _
  rw [List.pairwise_iff_forall_sublist] at hsorted ⊢
  intro a b hbefore
  rcases (hsorted hbefore).lt_or_eq with hlt | heq
  · exact Or.inl hlt
  · refine Or.inr ⟨heq, ?_⟩
    have ha := hperm.mem_iff.mp (hbefore.subset List.mem_cons_self)
    have hb := hperm.mem_iff.mp (hbefore.subset (List.mem_cons_of_mem _ List.mem_cons_self))
    have hne : a ≠ b := by
      rintro rfl
      exact not_pair_sublist_swap (hperm.nodup_iff.mpr hnodup) hbefore hbefore
    rcases pair_sublist_or ha hb hne with h | h
    · exact h
    · -- the sort would have kept the two the other way
      have hkept := List.pair_sublist_insertionSort (r := fun a b => key a ≤ key b) heq.ge h
      exact absurd hkept (not_pair_sublist_swap (hperm.nodup_iff.mpr hnodup) hbefore)

/-- **What a list ends with**, where its elements are in an order. -/
theorem isSuffix_iff_pairwise {R : α → α → Prop} (hasymm : ∀ {a b}, R a b → ¬R b a)
    {whole tail : List α} (hwhole : whole.Pairwise R) :
    tail <:+ whole ↔ (∀ a ∈ tail, a ∈ whole) ∧ tail.Pairwise R ∧
      ∀ a ∈ whole, a ∉ tail → ∀ b ∈ tail, R a b := by
  classical
  constructor
  · rintro ⟨front, rfl⟩
    obtain ⟨-, htail, hcross⟩ := List.pairwise_append.mp hwhole
    refine ⟨fun a ha => List.mem_append_right _ ha, htail, fun a ha hnot b hb => ?_⟩
    rcases List.mem_append.mp ha with hfront | hin
    · exact hcross a hfront b hb
    · exact absurd hin hnot
  · rintro ⟨hsubset, htail, hcross⟩
    have hirrefl : ∀ a, ¬R a a := fun a h => hasymm h h
    have hnodup : ∀ {l : List α}, l.Pairwise R → l.Nodup := by
      intro l h
      refine List.Pairwise.imp (fun hab => ?_) h
      rintro rfl
      exact hirrefl _ hab
    refine ⟨whole.filter (· ∉ tail), List.Perm.eq_of_pairwise ?_ ?_ hwhole ?_⟩
    · exact fun a b _ _ hab hba => absurd hba (hasymm hab)
    · rw [List.pairwise_append]
      refine ⟨hwhole.sublist List.filter_sublist, htail, fun a ha b hb => ?_⟩
      obtain ⟨hin, hnot⟩ := List.mem_filter.mp ha
      exact hcross a hin (of_decide_eq_true hnot) b hb
    · rw [List.perm_ext_iff_of_nodup _ (hnodup hwhole)]
      · intro a
        rw [List.mem_append, List.mem_filter, decide_eq_true_eq]
        by_cases ha : a ∈ tail
        · exact ⟨fun _ => hsubset a ha, fun _ => Or.inr ha⟩
        · exact ⟨fun h => h.elim And.left fun hin => absurd hin ha, fun h => Or.inl ⟨h, ha⟩⟩
      · refine ((hnodup hwhole).sublist List.filter_sublist).append (hnodup htail) ?_
        intro a ha hin
        exact of_decide_eq_true (List.mem_filter.mp ha).2 hin

/-- What a stable sort ends with. -/
theorem isSuffix_insertionSort_iff (key : α → κ) {l tail : List α} (hnodup : l.Nodup) :
    tail <:+ l.insertionSort (fun a b => key a ≤ key b) ↔
      (∀ a ∈ tail, a ∈ l) ∧ tail.Pairwise (Earlier key l) ∧
        ∀ a ∈ l, a ∉ tail → ∀ b ∈ tail, Earlier key l a b := by
  rw [isSuffix_iff_pairwise (fun h => h.asymm hnodup)
    (pairwise_earlier_insertionSort key hnodup)]
  simp only [List.mem_insertionSort]

end TailPairing

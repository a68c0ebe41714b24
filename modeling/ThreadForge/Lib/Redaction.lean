import ThreadForge.Lib.Replace
import Mathlib.Data.List.Pairwise

/-!
# Redacting a text, all at once and piece by piece

A list of secrets is replaced by a marker, one secret after the other. The marker begins and ends
with a character that no secret has, so that an occurrence of a secret never touches a marker.

## Main results

* `redactAll_clean` — no secret occurs in what is left.
* `redactAll_append_of_held` — what may be given out before the rest of the text is known.
* `redactAll_redactAll_append` — where no secret overruns a later one, redacting a part first makes
  no difference.
* `redactAll_append_of_apart` — two texts with no secret across them are redacted by themselves.
-/

namespace Redaction

open PyChars

/-- The text that stands for a secret. -/
structure Marker where
  first : Char
  inner : List Char
  last : Char

namespace Marker

def text (m : Marker) : List Char := m.first :: (m.inner ++ [m.last])

/-- A secret that no marker has a part in. -/
structure Foreign (m : Marker) (s : List Char) : Prop where
  ne : s ≠ []
  first : m.first ∉ s
  last : m.last ∉ s
  inner : ¬s <:+: m.inner

theorem foreign_iff {m : Marker} {s : List Char} :
    m.Foreign s ↔ s ≠ [] ∧ m.first ∉ s ∧ m.last ∉ s ∧ ¬s <:+: m.inner :=
  ⟨fun h => ⟨h.ne, h.first, h.last, h.inner⟩,
    fun ⟨ne, first, last, inner⟩ => ⟨ne, first, last, inner⟩⟩

instance (m : Marker) : DecidablePred m.Foreign := fun _ => decidable_of_iff' _ foreign_iff

end Marker

variable {m : Marker} {s t x y u v cs : List Char} {L : List (List Char)}

/-! ## One secret -/

/-- An induction that goes from one occurrence to the next. -/
theorem replace_induction {P : List Char → Prop} (hne : s ≠ [])
    (none : ∀ cs, ¬s <:+: cs → P cs)
    (some : ∀ u v, EndsFirst s u → P v → P (u ++ s ++ v)) : ∀ cs, P cs := by
  suffices hall : ∀ (n : Nat) (cs : List Char), cs.length ≤ n → P cs from
    fun cs => hall cs.length cs le_rfl
  intro n
  induction n with
  | zero =>
    intro cs hle
    refine none cs fun hpart => hne ?_
    exact List.length_eq_zero_iff.mp (by have := hpart.length_le; omega)
  | succ n ih =>
    intro cs hle
    by_cases hpart : s <:+: cs
    · obtain ⟨u, v, rfl, hfirst⟩ := exists_endsFirst hne hpart
      refine some u v hfirst (ih v ?_)
      have hpos := List.length_pos_iff.mpr hne
      simp only [List.length_append] at hle
      omega
    · exact none cs hpart

/-- A secret next to a marker is on one side of it. -/
theorem infix_marker (h : m.Foreign s) (hpart : s <:+: x ++ m.text ++ y) : s <:+: x ∨ s <:+: y := by
  -- a nonempty prefix of what begins with a character has that character
  have hhead : ∀ {a : Char} {p q : List Char}, p ≠ [] → p <+: a :: q → a ∈ p := by
    intro a p q hp hstart
    cases p with
    | nil => exact absurd rfl hp
    | cons b p =>
      rw [(List.cons_prefix_cons.mp hstart).1]
      exact List.mem_cons_self
  have hshape : x ++ m.text ++ y = x ++ (m.first :: (m.inner ++ m.last :: y)) := by
    simp [Marker.text]
  rw [hshape] at hpart
  rcases List.infix_append_iff_ne_nil.mp hpart with hx | hrest | ⟨p, q, _, hq, rfl, _, hstart⟩
  · exact Or.inl hx
  · rcases List.infix_cons_iff.mp hrest with hstart | hrest
    · exact absurd (hhead h.ne hstart) h.first
    · rcases List.infix_append_iff_ne_nil.mp hrest with
        hinner | hrest | ⟨p, q, _, hq, rfl, _, hstart⟩
      · exact absurd hinner h.inner
      · rcases List.infix_cons_iff.mp hrest with hstart | hy
        · exact absurd (hhead h.ne hstart) h.last
        · exact Or.inr hy
      · exact absurd (List.mem_append_right p (hhead hq hstart)) h.last
  · exact absurd (List.mem_append_right p (hhead hq hstart)) h.first

/-- A replacement goes on behind a marker as if it began there. -/
theorem replaceAll_marker (h : m.Foreign s) (u v : List Char) :
    replaceAll s m.text 0 (u ++ m.text ++ v) =
      replaceAll s m.text 0 u ++ m.text ++ replaceAll s m.text 0 v := by
  induction u using replace_induction h.ne with
  | none u hnot =>
    rw [replaceAll_of_absent hnot]
    refine replaceAll_append_of_later fun x y heq hy hstart => ?_
    have hsuffix : y <:+ u ++ m.text := ⟨x, heq.symm⟩
    rcases List.prefix_or_prefix_of_prefix hstart (List.prefix_append y v) with hle | hle
    · have hpart : s <:+: u ++ m.text ++ [] := by
        rw [List.append_nil]
        exact hle.isInfix.trans hsuffix.isInfix
      rcases infix_marker h hpart with hu | hnil
      · exact hnot hu
      · exact h.ne (List.infix_nil.mp hnil)
    · -- the last character of the marker would be in the secret
      have hlast : y.getLast hy = m.last := by
        have hget := hsuffix.getLast hy
        rw [hget]
        simp [Marker.text]
      exact h.last (hle.subset (hlast ▸ List.getLast_mem hy))
  | some u u' hfirst ih =>
    have hassoc : u ++ s ++ u' ++ m.text ++ v = u ++ s ++ (u' ++ m.text ++ v) := by
      simp only [List.append_assoc]
    rw [hassoc, replaceAll_first h.ne hfirst, replaceAll_first h.ne hfirst, ih]
    simp only [List.append_assoc]

/-- A replacement brings no other secret into a text. -/
theorem infix_of_infix_replaceAll (ht : m.Foreign t) (hne : s ≠ [])
    (hpart : t <:+: replaceAll s m.text 0 cs) : t <:+: cs := by
  induction cs using replace_induction hne with
  | none cs hnot => rwa [replaceAll_of_absent hnot] at hpart
  | some u v hfirst ih =>
    rw [replaceAll_first hne hfirst] at hpart
    rcases infix_marker ht hpart with hu | hv
    · exact List.infix_append_of_infix_left (List.infix_append_of_infix_left hu)
    · exact List.infix_append_of_infix_right (ih hv)

theorem not_infix_replaceAll (h : m.Foreign s) : ¬s <:+: replaceAll s m.text 0 cs := by
  induction cs using replace_induction h.ne with
  | none cs hnot => rwa [replaceAll_of_absent hnot]
  | some u v hfirst ih =>
    rw [replaceAll_first h.ne hfirst]
    intro hpart
    rcases infix_marker h hpart with hu | hv
    · exact hfirst (List.infix_append_of_infix_left hu)
    · exact ih hv

/-- What has no first character of a marker, and begins a text after a replacement, began it
before. -/
theorem prefix_of_prefix_replaceAll (hne : s ≠ []) (hx : m.first ∉ x)
    (hstart : x <+: replaceAll s m.text 0 cs) : x <+: cs := by
  by_cases hpart : s <:+: cs
  · obtain ⟨u, v, rfl, hfirst⟩ := exists_endsFirst hne hpart
    rw [replaceAll_first hne hfirst] at hstart
    have hopen : u ++ [m.first] <+: u ++ m.text ++ replaceAll s m.text 0 v := by
      rw [List.append_assoc, List.prefix_append_right_inj]
      exact List.cons_prefix_cons.mpr ⟨rfl, List.nil_prefix⟩
    rcases List.prefix_or_prefix_of_prefix hstart hopen with hle | hle
    · rcases List.prefix_concat_iff.mp hle with heq | hu
      · rw [heq] at hx
        exact absurd (List.mem_append_right u (List.mem_singleton_self _)) hx
      · rw [List.append_assoc]
        exact hu.trans (List.prefix_append _ _)
    · exact absurd (hle.subset (List.mem_append_right u (List.mem_singleton_self _))) hx
  · rwa [replaceAll_of_absent hpart] at hstart

theorem replaceAll_eq_nil (hne : s ≠ []) (h : replaceAll s m.text 0 cs = []) : cs = [] := by
  by_cases hpart : s <:+: cs
  · obtain ⟨u, v, rfl, hfirst⟩ := exists_endsFirst hne hpart
    rw [replaceAll_first hne hfirst] at h
    simp [Marker.text] at h
  · rwa [replaceAll_of_absent hpart] at h

/-! ## All secrets -/

/-- The secrets are replaced one after the other. -/
def redactAll (m : Marker) (L : List (List Char)) (cs : List Char) : List Char :=
  L.foldl (fun cs s => replaceAll s m.text 0 cs) cs

@[simp] theorem redactAll_nil : redactAll m [] cs = cs := rfl

@[simp] theorem redactAll_cons :
    redactAll m (s :: L) cs = redactAll m L (replaceAll s m.text 0 cs) := rfl

theorem redactAll_append {K : List (List Char)} :
    redactAll m (K ++ L) cs = redactAll m L (redactAll m K cs) := List.foldl_append

/-- Secrets that no marker has a part in. -/
def Foreign (m : Marker) (L : List (List Char)) : Prop := ∀ s ∈ L, m.Foreign s

theorem redactAll_marker (h : Foreign m L) (u v : List Char) :
    redactAll m L (u ++ m.text ++ v) = redactAll m L u ++ m.text ++ redactAll m L v := by
  induction L generalizing u v with
  | nil => rfl
  | cons s L ih =>
    rw [redactAll_cons, replaceAll_marker (h s List.mem_cons_self),
      ih fun t ht => h t (List.mem_cons_of_mem s ht)]
    rfl

theorem infix_of_infix_redactAll (h : Foreign m L) (ht : m.Foreign t)
    (hpart : t <:+: redactAll m L cs) : t <:+: cs := by
  induction L generalizing cs with
  | nil => exact hpart
  | cons s L ih =>
    have hlater := ih (fun r hr => h r (List.mem_cons_of_mem s hr)) hpart
    exact infix_of_infix_replaceAll ht (h s List.mem_cons_self).ne hlater

/-- **No secret occurs in a redacted text.** -/
theorem redactAll_clean (h : Foreign m L) (hs : s ∈ L) : ¬s <:+: redactAll m L cs := by
  induction L generalizing cs with
  | nil => cases hs
  | cons t L ih =>
    have hrest : Foreign m L := fun r hr => h r (List.mem_cons_of_mem t hr)
    rcases List.mem_cons.mp hs with rfl | hs
    · intro hpart
      have hself := h s List.mem_cons_self
      exact not_infix_replaceAll hself (infix_of_infix_redactAll hrest hself hpart)
    · exact ih hrest hs

theorem redactAll_of_clean (h : ∀ s ∈ L, ¬s <:+: cs) : redactAll m L cs = cs := by
  induction L with
  | nil => rfl
  | cons s L ih =>
    rw [redactAll_cons, replaceAll_of_absent (h s List.mem_cons_self)]
    exact ih fun t ht => h t (List.mem_cons_of_mem s ht)

theorem redactAll_eq_nil (h : Foreign m L) (hnil : redactAll m L cs = []) : cs = [] := by
  induction L generalizing cs with
  | nil => exact hnil
  | cons s L ih =>
    have hlater := ih (fun r hr => h r (List.mem_cons_of_mem s hr)) hnil
    exact replaceAll_eq_nil (h s List.mem_cons_self).ne hlater

/-- The first character of a marker is in no secret, and stays. -/
theorem first_mem_replaceAll (h : m.Foreign s) (hmem : m.first ∈ cs) :
    m.first ∈ replaceAll s m.text 0 cs := by
  by_cases hpart : s <:+: cs
  · obtain ⟨u, v, rfl, hfirst⟩ := exists_endsFirst h.ne hpart
    rw [replaceAll_first h.ne hfirst]
    exact List.mem_append_left _ (List.mem_append_right u List.mem_cons_self)
  · rwa [replaceAll_of_absent hpart]

theorem first_mem_redactAll (h : Foreign m L) (hmem : m.first ∈ cs) :
    m.first ∈ redactAll m L cs := by
  induction L generalizing cs with
  | nil => exact hmem
  | cons s L ih =>
    rw [redactAll_cons]
    exact ih (fun r hr => h r (List.mem_cons_of_mem s hr))
      (first_mem_replaceAll (h s List.mem_cons_self) hmem)

/-- A text that comes out without the first character of a marker was not changed. -/
theorem redactAll_eq_of_first_not_mem (h : Foreign m L) (hfirst : m.first ∉ redactAll m L cs) :
    redactAll m L cs = cs := by
  induction L generalizing cs with
  | nil => rfl
  | cons s L ih =>
    have hs := h s List.mem_cons_self
    have hrest : Foreign m L := fun r hr => h r (List.mem_cons_of_mem s hr)
    rw [redactAll_cons] at hfirst ⊢
    by_cases hpart : s <:+: cs
    · refine absurd (first_mem_redactAll hrest ?_) hfirst
      obtain ⟨u, v, rfl, hends⟩ := exists_endsFirst hs.ne hpart
      rw [replaceAll_first hs.ne hends]
      exact List.mem_append_left _ (List.mem_append_right u List.mem_cons_self)
    · rw [replaceAll_of_absent hpart] at hfirst ⊢
      exact ih hrest hfirst

/-- A secret that does not occur is passed over. -/
theorem redactAll_filter (h : Foreign m L) (hs : m.Foreign s) (hnot : ¬s <:+: cs) :
    redactAll m (L.filter (· != s)) cs = redactAll m L cs := by
  induction L generalizing cs with
  | nil => rfl
  | cons t L ih =>
    have hrest : Foreign m L := fun r hr => h r (List.mem_cons_of_mem t hr)
    have hnot' : ¬s <:+: replaceAll t m.text 0 cs := fun hpart =>
      hnot (infix_of_infix_replaceAll hs (h t List.mem_cons_self).ne hpart)
    by_cases heq : t = s
    · subst heq
      rw [List.filter_cons_of_neg (by simp), redactAll_cons, replaceAll_of_absent hnot]
      exact ih hrest hnot
    · rw [List.filter_cons_of_pos (by simpa using heq), redactAll_cons, redactAll_cons]
      exact ih hrest hnot'

/-- A secret that comes twice is replaced the first time. -/
theorem redactAll_eraseDups (h : Foreign m L) : redactAll m L.eraseDups cs = redactAll m L cs := by
  suffices hall : ∀ (n : Nat) (L : List (List Char)) (cs : List Char), L.length ≤ n → Foreign m L →
      redactAll m L.eraseDups cs = redactAll m L cs from hall L.length L cs le_rfl h
  intro n
  induction n with
  | zero =>
    intro L cs hle _
    rw [List.length_eq_zero_iff.mp (Nat.le_zero.mp hle)]
    rfl
  | succ n ih =>
    intro L cs hle hforeign
    cases L with
    | nil => rfl
    | cons s L =>
      have hrest : Foreign m L := fun r hr => hforeign r (List.mem_cons_of_mem s hr)
      have hs := hforeign s List.mem_cons_self
      rw [List.eraseDups_cons, redactAll_cons, redactAll_cons]
      show redactAll m (L.filter (· != s)).eraseDups _ = _
      rw [ih (L.filter (· != s)) _ ?_ (fun r hr => hrest r (List.mem_of_mem_filter hr)),
        redactAll_filter hrest hs (not_infix_replaceAll hs)]
      have hfilter := List.length_filter_le (fun r => r != s) L
      simp only [List.length_cons] at hle
      omega

/-! ## What may be given out -/

/-- `x` stands so before the end of `x ++ y` that no secret can begin in it and end later. -/
structure Held (L : List (List Char)) (x y : List Char) : Prop where
  clean : ∀ s ∈ L, ¬s <:+: x ++ y
  tail : ∀ s ∈ L, ∀ p q, p ≠ [] → q ≠ [] → s = p ++ q → p <:+ x ++ y → p <:+ y

/-- A secret of `x ++ z` that begins in `x`, where `z` goes on like `y`. -/
theorem Held.not_prefix (h : Held L x y) (hs : s ∈ L) {z p q : List Char} (hx : x = p ++ q)
    (hq : q ≠ []) (hy : ∀ r, r <+: z → r ⊆ s → r <+: y ++ v) : ¬s <+: q ++ z := by
  intro hstart
  rcases List.prefix_or_prefix_of_prefix hstart (List.prefix_append q z) with hle | ⟨r, rfl⟩
  · refine h.clean s hs (List.infix_append_of_infix_left ?_)
    rw [hx]
    exact List.infix_append_of_infix_right hle.isInfix
  · have hr : r <+: y ++ v :=
      hy r ((List.prefix_append_right_inj q).mp hstart) (List.subset_append_right q r)
    rcases List.prefix_or_prefix_of_prefix hr (List.prefix_append y v) with hle | ⟨w, rfl⟩
    · -- the secret ends in `y`
      refine h.clean _ hs ?_
      rw [hx, List.append_assoc]
      refine List.infix_append_of_infix_right (List.IsPrefix.isInfix ?_)
      exact (List.prefix_append_right_inj q).mpr hle
    · cases w with
      | nil =>
        refine h.clean _ hs ?_
        rw [hx, List.append_assoc, List.append_nil]
        exact List.infix_append_of_infix_right (List.infix_refl _)
      | cons c w =>
        -- the secret goes on behind `y`, and more of it than `y` ends `x ++ y`
        have hlong : q ++ y <:+ y := by
          refine h.tail _ hs (q ++ y) (c :: w) (by simp [hq]) (by simp) (by simp) ?_
          rw [hx, List.append_assoc]
          exact List.suffix_append p (q ++ y)
        have hle := hlong.length_le
        have hpos := List.length_pos_iff.mpr hq
        rw [List.length_append] at hle
        omega

/-- **The part that is given out is redacted alone.** -/
theorem redactAll_append_of_held (hL : Foreign m L) (h : Held L x y) (v : List Char) :
    redactAll m L (x ++ (y ++ v)) = x ++ redactAll m L (y ++ v) := by
  suffices hall : ∀ (K : List (List Char)) (z : List Char), K ⊆ L →
      (∀ r, r <+: z → m.first ∉ r → r <+: y ++ v) →
      redactAll m K (x ++ z) = x ++ redactAll m K z from
    hall L (y ++ v) (List.Subset.refl L) fun r hr _ => hr
  intro K
  induction K with
  | nil => exact fun z _ _ => rfl
  | cons s K ih =>
    intro z hK hz
    have hs := hK List.mem_cons_self
    rw [redactAll_cons, redactAll_cons, replaceAll_append_of_later]
    · refine ih _ (fun t ht => hK (List.mem_cons_of_mem s ht)) fun r hr hfirst => ?_
      exact hz r (prefix_of_prefix_replaceAll (hL s hs).ne hfirst hr) hfirst
    · intro p q hx hq
      refine h.not_prefix hs hx hq fun r hr hsub => hz r hr fun hmem => ?_
      exact (hL s hs).first (hsub hmem)

/-! ## Redacting a part first -/

/-- An occurrence of `s` can begin inside one of `t`, or before it, and end later. -/
def Overruns (s t : List Char) : Prop :=
  ∃ p q, p ≠ [] ∧ q ≠ [] ∧ s = p ++ q ∧ (p <:+ t ∨ t <:+ p)

/-- The same, at each place where `s` can be cut. -/
theorem overruns_iff : Overruns s t ↔
    ∃ n ∈ List.range s.length, 0 < n ∧ (s.take n <:+ t ∨ t <:+ s.take n) := by
  constructor
  · rintro ⟨p, q, hp, hq, rfl, hside⟩
    refine ⟨p.length, List.mem_range.mpr ?_, List.length_pos_iff.mpr hp, ?_⟩
    · have hpos := List.length_pos_iff.mpr hq
      rw [List.length_append]
      omega
    · rwa [List.take_left]
  · rintro ⟨n, hn, hpos, hside⟩
    have hlt := List.mem_range.mp hn
    refine ⟨s.take n, s.drop n, fun hnil => ?_, fun hnil => ?_, (List.take_append_drop n s).symm,
      hside⟩
    · have hlength := congrArg List.length hnil
      rw [List.length_take, List.length_nil] at hlength
      omega
    · have hlength := congrArg List.length hnil
      rw [List.length_drop, List.length_nil] at hlength
      omega

instance : Decidable (Overruns s t) := decidable_of_iff' _ overruns_iff

/-- No secret overruns a later one. -/
def ClashFree (L : List (List Char)) : Prop := L.Pairwise fun s t => ¬Overruns s t

instance : Decidable (ClashFree L) := inferInstanceAs (Decidable (L.Pairwise _))

/-- The secret that ends first in a text, the earliest of those that end there. -/
structure EndsFirstOf (L K : List (List Char)) (s x : List Char) : Prop where
  none : ∀ t ∈ L, ¬t <:+: x ++ s.dropLast
  best : ∀ t ∈ K, ¬t <:+ x ++ s

theorem append_dropLast_concat (hne : s ≠ []) : x ++ s = x ++ s.dropLast ++ [s.getLast hne] := by
  rw [List.append_assoc, List.dropLast_append_getLast hne]

/-- A text in which a secret occurs, up to the end of the first one. -/
theorem exists_endsFirstOf (hL : Foreign m L) (ht : t ∈ L) (hpart : t <:+: cs) :
    ∃ K s M x v, L = K ++ s :: M ∧ cs = x ++ s ++ v ∧ EndsFirstOf L K s x := by
  suffices hall : ∀ (n : Nat) (cs : List Char), cs.length = n → ∀ t ∈ L, t <:+: cs →
      ∃ K s M x v, L = K ++ s :: M ∧ cs = x ++ s ++ v ∧ EndsFirstOf L K s x from
    hall cs.length cs rfl t ht hpart
  intro n
  induction n with
  | zero =>
    intro cs hlength t ht hpart
    rw [List.length_eq_zero_iff.mp hlength, List.infix_nil] at hpart
    exact absurd hpart (hL t ht).ne
  | succ n ih =>
    intro cs hlength t ht hpart
    obtain ⟨front, c, rfl⟩ : ∃ front c, cs = front ++ [c] := by
      rcases List.eq_nil_or_concat cs with hnil | ⟨front, c, hcs⟩
      · rw [hnil] at hlength
        cases hlength
      · exact ⟨front, c, by rw [hcs, List.concat_eq_append]⟩
    by_cases hearlier : ∃ r ∈ L, r <:+: front
    · obtain ⟨r, hr, hinfront⟩ := hearlier
      obtain ⟨K, s, M, x, v, hsplit, hfront, hfirst⟩ :=
        ih front (by simpa using hlength) r hr hinfront
      exact ⟨K, s, M, x, v ++ [c], hsplit, by rw [hfront]; simp, hfirst⟩
    · -- every secret that occurs ends at the end
      have hnone : ∀ r ∈ L, ¬r <:+: front := fun r hr hyes => hearlier ⟨r, hr, hyes⟩
      have hend : t <:+ front ++ [c] :=
        (List.infix_concat_iff.mp hpart).resolve_right (hnone t ht)
      obtain ⟨s, hs⟩ : ∃ s, L.find? (fun r => decide (r <:+ front ++ [c])) = some s := by
        rw [← Option.isSome_iff_exists, List.find?_isSome]
        exact ⟨t, ht, decide_eq_true hend⟩
      obtain ⟨hsuffix, K, M, hsplit, hbest⟩ := List.find?_eq_some_iff_append.mp hs
      obtain ⟨x, hx⟩ := of_decide_eq_true hsuffix
      have hne : s ≠ [] := (hL s (by rw [hsplit]; simp)).ne
      refine ⟨K, s, M, x, [], hsplit, by rw [hx, List.append_nil], fun r hr hyes => ?_, ?_⟩
      · refine hnone r hr ?_
        have hfront : x ++ s.dropLast = front := by
          have hdrop := congrArg List.dropLast ((append_dropLast_concat (x := x) hne).symm.trans hx)
          simpa using hdrop
        rwa [hfront] at hyes
      · intro r hr hyes
        rw [hx] at hyes
        simpa [hyes] using hbest r hr

/-- **The first secret of a text is replaced, and the rest redacted by itself.** -/
theorem redactAll_first {K M : List (List Char)} (hL : Foreign m (K ++ s :: M))
    (hfree : ClashFree (K ++ s :: M)) (hfirst : EndsFirstOf (K ++ s :: M) K s x) (v : List Char) :
    redactAll m (K ++ s :: M) (x ++ s ++ v) =
      x ++ m.text ++ redactAll m (K ++ s :: M) v := by
  have hs := hL s (by simp)
  -- no earlier secret begins before the end of this one
  have hbefore : ∀ (J : List (List Char)) (z : List Char), J ⊆ K →
      redactAll m J (x ++ s ++ z) = x ++ s ++ redactAll m J z := by
    intro J
    induction J with
    | nil => exact fun z _ => rfl
    | cons t J ih =>
      intro z hJ
      have ht := hJ List.mem_cons_self
      rw [redactAll_cons, redactAll_cons, replaceAll_append_of_later,
        ih _ fun r hr => hJ (List.mem_cons_of_mem t hr)]
      intro p q hpq hq hstart
      have hsuffix : q <:+ x ++ s := ⟨p, hpq.symm⟩
      rcases List.prefix_or_prefix_of_prefix hstart (List.prefix_append q z) with hle | ⟨r, rfl⟩
      · have hpart : t <:+: x ++ s := hle.isInfix.trans hsuffix.isInfix
        rw [append_dropLast_concat hs.ne] at hpart
        rcases List.infix_concat_iff.mp hpart with hend | hearlier
        · rw [← append_dropLast_concat hs.ne] at hend
          exact hfirst.best t ht hend
        · exact hfirst.none t (List.mem_append_left _ ht) hearlier
      · cases r with
        | nil =>
          rw [List.append_nil] at ht
          exact hfirst.best q ht hsuffix
        | cons c r =>
          refine (List.pairwise_append.mp hfree).2.2 _ ht s List.mem_cons_self ?_
          refine ⟨q, c :: r, hq, List.cons_ne_nil c r, rfl, ?_⟩
          exact List.suffix_or_suffix_of_suffix hsuffix (List.suffix_append x s)
  have hself : EndsFirst s x := hfirst.none s (by simp)
  have hrest : Foreign m M := fun t ht => hL t (by simp [ht])
  have hclean : redactAll m M x = x := by
    refine redactAll_of_clean fun t ht hyes => hfirst.none t (by simp [ht]) ?_
    exact List.infix_append_of_infix_left hyes
  rw [redactAll_append, hbefore K v (List.Subset.refl K), redactAll_cons,
    replaceAll_first hs.ne hself, redactAll_marker hrest, hclean, redactAll_append, redactAll_cons]

/-- **Redacting a part first makes no difference.** -/
theorem redactAll_redactAll_append (hL : Foreign m L) (hfree : ClashFree L) (u v : List Char) :
    redactAll m L (redactAll m L u ++ v) = redactAll m L (u ++ v) := by
  suffices hall : ∀ (n : Nat) (u : List Char), u.length ≤ n →
      redactAll m L (redactAll m L u ++ v) = redactAll m L (u ++ v) from hall u.length u le_rfl
  intro n
  induction n with
  | zero =>
    intro u hle
    have hnil : u = [] := List.length_eq_zero_iff.mp (Nat.le_zero.mp hle)
    rw [hnil, redactAll_of_clean fun s hs hyes => (hL s hs).ne (List.infix_nil.mp hyes)]
  | succ n ih =>
    intro u hle
    by_cases hoccurs : ∃ t ∈ L, t <:+: u
    · obtain ⟨t, ht, hpart⟩ := hoccurs
      obtain ⟨K, s, M, x, w, rfl, rfl, hfirst⟩ := exists_endsFirstOf hL ht hpart
      have hpos := List.length_pos_iff.mpr (hL s (by simp)).ne
      have hx : redactAll m (K ++ s :: M) x = x := by
        refine redactAll_of_clean fun r hr hyes => hfirst.none r hr ?_
        exact List.infix_append_of_infix_left hyes
      have hw : w.length ≤ n := by
        simp only [List.length_append] at hle
        omega
      calc redactAll m (K ++ s :: M) (redactAll m (K ++ s :: M) (x ++ s ++ w) ++ v)
          = redactAll m (K ++ s :: M) (x ++ m.text ++ (redactAll m (K ++ s :: M) w ++ v)) := by
            rw [redactAll_first hL hfree hfirst w, List.append_assoc]
        _ = x ++ m.text ++ redactAll m (K ++ s :: M) (w ++ v) := by
            rw [redactAll_marker hL, hx, ih w hw]
        _ = redactAll m (K ++ s :: M) (x ++ s ++ (w ++ v)) :=
            (redactAll_first hL hfree hfirst (w ++ v)).symm
        _ = redactAll m (K ++ s :: M) (x ++ s ++ w ++ v) := by rw [List.append_assoc (x ++ s)]
    · rw [redactAll_of_clean fun s hs hyes => hoccurs ⟨s, hs, hyes⟩]

/-! ## An overrun makes a difference -/

/-- A text whose only secret stands at its end. -/
theorem redactAll_of_only {K M : List (List Char)} (hL : Foreign m (K ++ s :: M))
    (hearlier : ∀ r ∈ K, ¬r <:+: x ++ s) (hself : EndsFirst s x) (hrest : ∀ r ∈ M, ¬r <:+: x) :
    redactAll m (K ++ s :: M) (x ++ s) = x ++ m.text := by
  have hs := hL s (by simp)
  have hM : Foreign m M := fun r hr => hL r (by simp [hr])
  have hreplace : replaceAll s m.text 0 (x ++ s) = x ++ m.text := by
    have hfirst : replaceAll s m.text 0 (x ++ s ++ []) =
        x ++ m.text ++ replaceAll s m.text 0 [] := replaceAll_first hs.ne hself
    rwa [List.append_nil, replaceAll, List.append_nil] at hfirst
  have hnil : redactAll m M [] = [] :=
    redactAll_of_clean fun r hr hyes => (hM r hr).ne (List.infix_nil.mp hyes)
  have hmarker := redactAll_marker hM x []
  rw [List.append_nil, redactAll_of_clean hrest, hnil, List.append_nil] at hmarker
  rw [redactAll_append, redactAll_of_clean hearlier, redactAll_cons, hreplace, hmarker]

/-- The longest secrets come first. -/
def Sorted (L : List (List Char)) : Prop := L.Pairwise fun s t => t.length ≤ s.length

instance : Decidable (Sorted L) := inferInstanceAs (Decidable (L.Pairwise _))

theorem Sorted.le (h : Sorted L) {i j : Nat} (hi : L[i]? = some s) (hj : L[j]? = some t)
    (hij : i ≤ j) : t.length ≤ s.length := by
  obtain ⟨hi', rfl⟩ := List.getElem?_eq_some_iff.mp hi
  obtain ⟨hj', rfl⟩ := List.getElem?_eq_some_iff.mp hj
  rcases Nat.eq_or_lt_of_le hij with rfl | hlt
  · exact le_rfl
  · exact List.pairwise_iff_getElem.mp h i j hi' hj' hlt

theorem Sorted.lt (h : Sorted L) {i j : Nat} (hi : L[i]? = some s) (hj : L[j]? = some t)
    (hlength : t.length < s.length) : i < j := by
  by_contra hnot
  have hle := h.le hj hi (Nat.le_of_not_lt hnot)
  omega

theorem index_eq (h : L.Nodup) {i j : Nat} (hi : L[i]? = some s) (hj : L[j]? = some s) : i = j := by
  obtain ⟨hi', heq⟩ := List.getElem?_eq_some_iff.mp hi
  exact (List.getElem?_inj hi' h).mp (hi.trans hj.symm)

/-- An overrun of one secret of the list over a later one, `front` up to the end of the later
one. -/
structure Clash (L : List (List Char)) where
  early : Nat
  late : Nat
  upper : List Char
  under : List Char
  head : List Char
  tail : List Char
  front : List Char
  lt : early < late
  getUpper : L[early]? = some upper
  getUnder : L[late]? = some under
  headNe : head ≠ []
  tailNe : tail ≠ []
  split : upper = head ++ tail
  headSuffix : head <:+ front
  underSuffix : under <:+ front
  cases : front = head ∨ front = under

namespace Clash

variable (c : Clash L)

/-- The shortest text with the two occurrences. -/
def text : List Char := c.front ++ c.tail

theorem exists_of_not_clashFree (h : ¬ClashFree L) : Nonempty (Clash L) := by
  unfold ClashFree at h
  rw [List.pairwise_iff_getElem] at h
  push Not at h
  obtain ⟨i, j, hi, hj, hij, p, q, hp, hq, hsplit, hcases⟩ := h
  have hgeti : L[i]? = some L[i] := List.getElem?_eq_getElem hi
  have hgetj : L[j]? = some L[j] := List.getElem?_eq_getElem hj
  rcases hcases with hsuffix | hsuffix
  · exact ⟨⟨i, j, _, _, p, q, L[j], hij, hgeti, hgetj, hp, hq, hsplit, hsuffix,
      List.suffix_refl _, Or.inr rfl⟩⟩
  · exact ⟨⟨i, j, _, _, p, q, p, hij, hgeti, hgetj, hp, hq, hsplit, List.suffix_refl _, hsuffix,
      Or.inl rfl⟩⟩

/-- An overrun whose front is no longer than a text that both end. -/
theorem exists_of_suffix {i j : Nat} {p q z : List Char} (hij : i < j) (hi : L[i]? = some (p ++ q))
    (hj : L[j]? = some t) (hp : p ≠ []) (hq : q ≠ []) (hpz : p <:+ z) (htz : t <:+ z) :
    ∃ d : Clash L, d.early = i ∧ d.tail = q ∧ d.front.length ≤ z.length := by
  rcases List.suffix_or_suffix_of_suffix hpz htz with hsuffix | hsuffix
  · exact ⟨⟨i, j, _, _, p, q, t, hij, hi, hj, hp, hq, rfl, hsuffix, List.suffix_refl _,
      Or.inr rfl⟩, rfl, rfl, htz.length_le⟩
  · exact ⟨⟨i, j, _, _, p, q, p, hij, hi, hj, hp, hq, rfl, List.suffix_refl _, hsuffix,
      Or.inl rfl⟩, rfl, rfl, hpz.length_le⟩

/-- No overrun has a shorter text, nor a shorter front in a text of this length, nor an earlier
secret over them. -/
structure Least : Prop where
  text : ∀ d : Clash L, c.text.length ≤ d.text.length
  front : ∀ d : Clash L, d.text.length = c.text.length → c.front.length ≤ d.front.length
  early : ∀ d : Clash L, d.text.length = c.text.length → d.front.length = c.front.length →
    c.early ≤ d.early

/-- Something that makes a number least. -/
theorem exists_least {α : Type} {P : α → Prop} (f : α → Nat) (h : ∃ a, P a) :
    ∃ a, P a ∧ ∀ b, P b → f a ≤ f b := by
  classical
  have hsome : ∃ n a, P a ∧ f a = n := by
    obtain ⟨a, ha⟩ := h
    exact ⟨f a, a, ha, rfl⟩
  obtain ⟨a, ha, hfind⟩ := Nat.find_spec hsome
  exact ⟨a, ha, fun b hb => hfind ▸ Nat.find_min' hsome ⟨b, hb, rfl⟩⟩

theorem exists_least_clash (h : Nonempty (Clash L)) : ∃ c : Clash L, c.Least := by
  obtain ⟨a, _, ha⟩ := exists_least (P := fun _ : Clash L => True) (fun d => d.text.length)
    (h.elim fun c => ⟨c, trivial⟩)
  obtain ⟨b, hb, hb'⟩ := exists_least (fun d : Clash L => d.front.length)
    (P := fun d => d.text.length = a.text.length) ⟨a, rfl⟩
  obtain ⟨c, ⟨hc, hc'⟩, hc''⟩ := exists_least (fun d : Clash L => d.early)
    (P := fun d => d.text.length = a.text.length ∧ d.front.length = b.front.length) ⟨b, hb, rfl⟩
  refine ⟨c, fun d => hc ▸ ha d trivial, fun d hd => hc' ▸ hb' d (hd.trans hc), fun d hd hd' => ?_⟩
  exact hc'' d ⟨hd.trans hc, hd'.trans hc'⟩

variable {c : Clash L} {k : Nat} {r : List Char}

/-- No secret ends before the front does. -/
theorem Least.none (h : c.Least) (hsorted : Sorted L) (hne : ∀ s ∈ L, s ≠ [])
    (hk : L[k]? = some r) : ¬r <:+: c.front.dropLast := by
  rintro ⟨a, b, hab⟩
  have hr := hne r (List.mem_of_getElem? hk)
  have hfront : c.front ≠ [] := fun hnil => c.headNe (List.suffix_nil.mp (hnil ▸ c.headSuffix))
  obtain ⟨b', hb', hsplit⟩ : ∃ b', b' ≠ [] ∧ c.front = (a ++ r) ++ b' := by
    refine ⟨b ++ [c.front.getLast hfront], by simp, ?_⟩
    rw [← List.append_assoc, hab, List.dropLast_append_getLast]
  have hpos := List.length_pos_iff.mpr hb'
  have htail := List.length_pos_iff.mpr c.tailNe
  have hlength := congrArg List.length hsplit
  simp only [List.length_append] at hlength
  rcases c.cases with hcase | hcase
  · -- the front is all of the upper secret but its tail
    have hover : c.upper = (a ++ r) ++ (b' ++ c.tail) := by
      rw [c.split, ← hcase, hsplit, List.append_assoc]
    have hlt : c.early < k := by
      refine hsorted.lt c.getUpper hk ?_
      rw [hover]
      simp only [List.length_append]
      omega
    obtain ⟨d, hd, hdtail, hdfront⟩ := exists_of_suffix (z := a ++ r) hlt (hover ▸ c.getUpper) hk
      (by simp [hr]) (by simp [hb']) (List.suffix_refl _) (List.suffix_append a r)
    have htext := h.text d
    have hdtext : d.text.length = c.text.length := by
      simp only [Clash.text, List.length_append, hdtail] at htext ⊢
      simp only [List.length_append] at hdfront
      omega
    have hle := h.front d hdtext
    simp only [List.length_append] at hdfront
    omega
  · -- the front is the lower secret
    have hunder : L[c.late]? = some ((a ++ r) ++ b') := by rw [← hsplit, hcase, c.getUnder]
    have hlt : c.late < k := by
      refine hsorted.lt hunder hk ?_
      simp only [List.length_append]
      omega
    obtain ⟨d, hd, hdtail, hdfront⟩ := exists_of_suffix (z := a ++ r) hlt hunder hk
      (by simp [hr]) hb' (List.suffix_refl _) (List.suffix_append a r)
    have htext := h.text d
    simp only [Clash.text, List.length_append, hdtail] at htext
    simp only [List.length_append] at hdfront
    omega

/-- A secret of the text that is no shorter than the upper one ends with the front, or is over the
lower one as well. -/
theorem Least.cases (h : c.Least) (hsorted : Sorted L) (hne : ∀ s ∈ L, s ≠ []) {a b : List Char}
    (hk : L[k]? = some r) (hlate : k < c.late) (hover : c.upper.length ≤ r.length)
    (hab : c.text = a ++ r ++ b) :
    (c.front = a ++ r) ∨ (∃ d : Clash L, d.early = k ∧ d.front.length ≤ c.front.length ∧
      d.tail.length + b.length = c.tail.length) := by
  have hlength := congrArg List.length hab
  have hsplit := congrArg List.length c.split
  have hhead := List.length_pos_iff.mpr c.headNe
  simp only [Clash.text, List.length_append] at hlength hsplit
  rcases List.append_eq_append_iff.mp hab with ⟨w, har, hw⟩ | ⟨w, hfront, hb⟩
  · -- it goes on behind the front
    cases hwnil : w with
    | nil =>
      rw [hwnil, List.append_nil] at har
      exact Or.inl har.symm
    | cons e rest =>
      have hwne : w ≠ [] := by rw [hwnil]; exact List.cons_ne_nil e rest
      have hwlength := congrArg List.length hw
      have harlength := congrArg List.length har
      simp only [List.length_append] at hwlength harlength
      rcases List.append_eq_append_iff.mp har with ⟨p, hfront, hr⟩ | ⟨p, hapart, hw'⟩
      · have hp : p ≠ [] := by
          rintro rfl
          simp only [List.append_nil] at hfront
          rw [hfront] at hlength
          omega
        obtain ⟨d, hd, hdtail, hdfront⟩ := exists_of_suffix (z := c.front) hlate (hr ▸ hk)
          c.getUnder hp hwne ⟨a, hfront.symm⟩ c.underSuffix
        refine Or.inr ⟨d, hd, hdfront, ?_⟩
        rw [hdtail]
        omega
      · -- it would begin behind the front
        have hlength' := congrArg List.length hapart
        simp only [List.length_append] at hlength'
        omega
  · -- it ends in the front, and so with it
    cases hwnil : w with
    | nil =>
      rw [hwnil, List.append_nil] at hfront
      exact Or.inl hfront
    | cons e rest =>
      refine absurd ?_ (h.none hsorted hne hk)
      rw [hfront, hwnil, List.dropLast_append_of_ne_nil (List.cons_ne_nil e rest),
        List.append_assoc]
      exact List.infix_append' a r _

/-- A secret as long as the upper one does not end with the front, other than the lower one. -/
theorem front_ne (hsorted : Sorted L) (hnodup : L.Nodup) {a : List Char} (hk : L[k]? = some r)
    (hlate : k < c.late) (hover : c.upper.length ≤ r.length) : c.front ≠ a ++ r := by
  intro hfront
  have hlength := congrArg List.length hfront
  have hsplit := congrArg List.length c.split
  have htail := List.length_pos_iff.mpr c.tailNe
  simp only [List.length_append] at hlength hsplit
  rcases c.cases with hcase | hcase
  · rw [hcase] at hlength
    omega
  · have hle := hsorted.le c.getUpper c.getUnder c.lt.le
    rw [hcase] at hlength hfront
    have ha : a = [] := List.length_eq_zero_iff.mp (by omega)
    rw [ha, List.nil_append] at hfront
    have hsame := index_eq hnodup hk (hfront ▸ c.getUnder)
    omega

/-- No earlier secret occurs in the text. -/
theorem Least.none_earlier (h : c.Least) (hsorted : Sorted L) (hnodup : L.Nodup)
    (hne : ∀ s ∈ L, s ≠ []) (hk : L[k]? = some r) (hlt : k < c.early) : ¬r <:+: c.text := by
  rintro ⟨a, b, hab⟩
  have hlate := hlt.trans c.lt
  have hover := hsorted.le hk c.getUpper hlt.le
  rcases h.cases hsorted hne hk hlate hover hab.symm with hfront | ⟨d, hd, hdfront, hdtail⟩
  · exact front_ne hsorted hnodup hk hlate hover hfront
  · have htext := h.text d
    simp only [Clash.text, List.length_append] at htext
    have hearly := h.early d (by simp only [Clash.text, List.length_append]; omega) (by omega)
    omega

/-- The text, up to the upper secret. -/
theorem exists_start (c : Clash L) : ∃ x, c.front = x ++ c.head ∧ c.text = x ++ c.upper := by
  obtain ⟨x, hx⟩ := c.headSuffix
  exact ⟨x, hx.symm, by rw [Clash.text, ← hx, c.split, List.append_assoc]⟩

/-- The upper secret occurs at the end only. -/
theorem Least.endsFirst (h : c.Least) (hsorted : Sorted L) (hnodup : L.Nodup)
    (hne : ∀ s ∈ L, s ≠ []) {x : List Char} (hx : c.text = x ++ c.upper) :
    EndsFirst c.upper x := by
  rintro ⟨a, b, hab⟩
  have hover := hne c.upper (List.mem_of_getElem? c.getUpper)
  have hwhole : c.text = a ++ c.upper ++ (b ++ [c.upper.getLast hover]) := by
    rw [hx, append_dropLast_concat hover, ← hab]
    simp only [List.append_assoc]
  rcases h.cases hsorted hne c.getUpper c.lt le_rfl hwhole with hfront | ⟨d, _, hdfront, hdtail⟩
  · exact front_ne hsorted hnodup c.getUpper c.lt le_rfl hfront
  · have htext := h.text d
    simp only [Clash.text, List.length_append, List.length_singleton] at htext hdtail
    omega

/-- The text is redacted from its upper secret on. -/
theorem Least.redactAll_text (h : c.Least) (hL : Foreign m L) (hsorted : Sorted L)
    (hnodup : L.Nodup) {x : List Char} (hfront : c.front = x ++ c.head)
    (hx : c.text = x ++ c.upper) : redactAll m L c.text = x ++ m.text := by
  have hne : ∀ s ∈ L, s ≠ [] := fun s hs => (hL s hs).ne
  obtain ⟨hlt, hget⟩ := List.getElem?_eq_some_iff.mp c.getUpper
  have hsplit : L.take c.early ++ c.upper :: L.drop (c.early + 1) = L := by
    rw [← hget, List.cons_getElem_drop_succ, List.take_append_drop]
  have honly : redactAll m (L.take c.early ++ c.upper :: L.drop (c.early + 1)) (x ++ c.upper) =
      x ++ m.text := ?_
  · rwa [hsplit, ← hx] at honly
  refine redactAll_of_only (hsplit.symm ▸ hL) (fun r hr => ?_) (h.endsFirst hsorted hnodup hne hx)
    fun r hr hyes => ?_
  · obtain ⟨k, hk, rfl⟩ := List.mem_take_iff_getElem.mp hr
    rw [← hx]
    exact h.none_earlier hsorted hnodup hne (List.getElem?_eq_getElem (by omega)) (by omega)
  · obtain ⟨k, hk⟩ := List.mem_iff_getElem?.mp (List.mem_of_mem_drop hr)
    refine h.none hsorted hne hk ?_
    rw [hfront, List.dropLast_append_of_ne_nil c.headNe]
    exact List.infix_append_of_infix_left hyes

/-- The front is redacted at its end. -/
theorem Least.redactAll_front (h : c.Least) (hL : Foreign m L) (hsorted : Sorted L) :
    ∃ x, x <+: c.front ∧ (∀ s ∈ L, ¬s <:+: x) ∧ redactAll m L c.front = x ++ m.text := by
  have hne : ∀ s ∈ L, s ≠ [] := fun s hs => (hL s hs).ne
  obtain ⟨K, s, M, x, v, hsplit, hfront, hfirst⟩ := exists_endsFirstOf hL
    (List.mem_of_getElem? c.getUnder) c.underSuffix.isInfix
  have hs : s ∈ L := by rw [hsplit]; simp
  have hclean : ∀ r ∈ L, ¬r <:+: x := fun r hr hyes =>
    hfirst.none r hr (List.infix_append_of_infix_left hyes)
  -- nothing is left behind this secret
  have hv : v = [] := by
    by_contra hv
    obtain ⟨k, hk⟩ := List.mem_iff_getElem?.mp hs
    refine h.none hsorted hne hk ?_
    rw [hfront, List.dropLast_append_of_ne_nil hv, List.append_assoc]
    exact List.infix_append' x s _
  rw [hv, List.append_nil] at hfront
  refine ⟨x, by rw [hfront]; exact List.prefix_append x s, hclean, ?_⟩
  rw [hfront, hsplit]
  refine redactAll_of_only (hsplit ▸ hL) (fun r hr hyes => ?_) (hfirst.none s hs) fun r hr => ?_
  · rw [append_dropLast_concat (hne s hs)] at hyes
    rcases List.infix_concat_iff.mp hyes with hend | hearlier
    · rw [← append_dropLast_concat (hne s hs)] at hend
      exact hfirst.best r hr hend
    · exact hfirst.none r (by rw [hsplit]; simp [hr]) hearlier
  · exact hclean r (by rw [hsplit]; simp [hr])

end Clash

/-- The text before the first `a` is determined. -/
theorem append_cons_inj {α : Type} {a : α} {x y z w : List α} (hx : a ∉ x) (hy : a ∉ y)
    (h : x ++ a :: z = y ++ a :: w) : z = w := by
  induction x generalizing y with
  | nil =>
    cases y with
    | nil => exact (List.cons.inj h).2
    | cons b y =>
      have hb := (List.cons.inj h).1
      exact absurd (hb ▸ List.mem_cons_self) hy
  | cons b x ih =>
    cases y with
    | nil =>
      have hb := (List.cons.inj h).1
      exact absurd (hb ▸ List.mem_cons_self) hx
    | cons e y =>
      obtain ⟨_, hrest⟩ := List.cons.inj h
      exact ih (fun hmem => hx (List.mem_cons_of_mem b hmem))
        (fun hmem => hy (List.mem_cons_of_mem e hmem)) hrest

/-- **Where redacting a part first makes no difference, no secret overruns a later one.** -/
theorem clashFree_of_redactAll_append (hL : Foreign m L) (hsorted : Sorted L) (hnodup : L.Nodup)
    (hall : ∀ u v, m.first ∉ u → m.first ∉ v →
      redactAll m L (redactAll m L u ++ v) = redactAll m L (u ++ v)) : ClashFree L := by
  by_contra hnot
  obtain ⟨c, hc⟩ := Clash.exists_least_clash (Clash.exists_of_not_clashFree hnot)
  have hover := (hL c.upper (List.mem_of_getElem? c.getUpper)).first
  have hunder := (hL c.under (List.mem_of_getElem? c.getUnder)).first
  rw [c.split, List.mem_append, not_or] at hover
  have hfrontFirst : m.first ∉ c.front := by
    rcases c.cases with hcase | hcase
    · rw [hcase]
      exact hover.1
    · rwa [hcase]
  obtain ⟨x, hfront, hx⟩ := c.exists_start
  obtain ⟨y, hy, hclean, hredacted⟩ := hc.redactAll_front hL hsorted
  have hsame := hall c.front c.tail hfrontFirst hover.2
  rw [hredacted, redactAll_marker hL, redactAll_of_clean hclean] at hsame
  have htext := hc.redactAll_text hL hsorted hnodup hfront hx
  rw [Clash.text] at htext
  rw [htext] at hsame
  have hrest : m.inner ++ [m.last] ++ redactAll m L c.tail = m.inner ++ [m.last] := by
    refine append_cons_inj (a := m.first) (x := y) (y := x) ?_ ?_ ?_
    · exact fun hmem => hfrontFirst (hy.subset hmem)
    · exact fun hmem => hfrontFirst (hfront ▸ List.mem_append_left _ hmem)
    · simpa [Marker.text] using hsame
  have hnil : redactAll m L c.tail = [] := by simpa using hrest
  exact c.tailNe (redactAll_eq_nil hL hnil)

/-! ## A text in two parts -/

/-- No secret begins in the first text and ends in the second. -/
def Apart (L : List (List Char)) (x y : List Char) : Prop :=
  ∀ s ∈ L, ∀ p q, p ≠ [] → q ≠ [] → s = p ++ q → p <:+ x → ¬q <+: y

/-- Two texts without a secret are one. -/
theorem Apart.clean (h : Apart L x y) (hx : ∀ s ∈ L, ¬s <:+: x) (hy : ∀ s ∈ L, ¬s <:+: y) :
    ∀ s ∈ L, ¬s <:+: x ++ y := by
  intro s hs hpart
  rcases List.infix_append_iff_ne_nil.mp hpart with
    hleft | hright | ⟨p, q, hp, hq, rfl, hend, hstart⟩
  · exact hx s hs hleft
  · exact hy s hs hright
  · exact h _ hs p q hp hq rfl hend hstart

theorem replaceAll_append_of_apart (hne : s ≠ [])
    (h : ∀ p q, p ≠ [] → q ≠ [] → s = p ++ q → p <:+ x → ¬q <+: y) :
    replaceAll s m.text 0 (x ++ y) = replaceAll s m.text 0 x ++ replaceAll s m.text 0 y := by
  induction x using replace_induction hne with
  | none x hnot =>
    rw [replaceAll_of_absent hnot]
    refine replaceAll_append_of_later fun p q hx hq hstart => ?_
    have hsuffix : q <:+ x := ⟨p, hx.symm⟩
    rcases List.prefix_or_prefix_of_prefix hstart (List.prefix_append q y) with hle | ⟨r, rfl⟩
    · exact hnot (hle.isInfix.trans hsuffix.isInfix)
    · cases r with
      | nil =>
        rw [List.append_nil] at hnot
        exact hnot hsuffix.isInfix
      | cons c r =>
        refine h q (c :: r) hq (List.cons_ne_nil c r) rfl hsuffix ?_
        exact (List.prefix_append_right_inj q).mp hstart
  | some u v hfirst ih =>
    have hv := ih fun p q hp hq hsplit hend => h p q hp hq hsplit
      (hend.trans (List.suffix_append (u ++ s) v))
    rw [List.append_assoc, replaceAll_first hne hfirst, replaceAll_first hne hfirst, hv]
    simp only [List.append_assoc]

/-- What has no last character of a marker, and ends a text after a replacement, ended it before. -/
theorem suffix_of_suffix_replaceAll (hne : s ≠ []) (hx : m.last ∉ x)
    (hend : x <:+ replaceAll s m.text 0 cs) : x <:+ cs := by
  induction cs using replace_induction hne with
  | none cs hnot => rwa [replaceAll_of_absent hnot] at hend
  | some u v hfirst ih =>
    rw [replaceAll_first hne hfirst] at hend
    have hrest : x <:+ replaceAll s m.text 0 v := by
      rcases List.suffix_or_suffix_of_suffix hend (List.suffix_append (u ++ m.text) _) with
        hle | ⟨w, rfl⟩
      · exact hle
      · by_cases hw : w = []
        · rw [hw]
          exact List.suffix_refl _
        · -- the marker would end in `x`
          obtain ⟨z, hz⟩ := hend
          rw [← List.append_assoc] at hz
          have hsuffix : w <:+ u ++ m.text := ⟨z, List.append_cancel_right hz⟩
          have hlast : w.getLast hw = m.last := by
            rw [hsuffix.getLast hw]
            simp [Marker.text]
          exact absurd (List.mem_append_left _ (hlast ▸ List.getLast_mem hw)) hx
    exact (ih hrest).trans (List.suffix_append (u ++ s) v)

/-- **Parts that no secret spans are redacted by themselves.** -/
theorem redactAll_append_of_apart (hL : Foreign m L) (h : Apart L x y) :
    redactAll m L (x ++ y) = redactAll m L x ++ redactAll m L y := by
  suffices hall : ∀ (K : List (List Char)) (x' y' : List Char), K ⊆ L →
      (∀ p, p <:+ x' → m.last ∉ p → p <:+ x) → (∀ q, q <+: y' → m.first ∉ q → q <+: y) →
      redactAll m K (x' ++ y') = redactAll m K x' ++ redactAll m K y' from
    hall L x y (List.Subset.refl L) (fun _ hp _ => hp) fun _ hq _ => hq
  intro K
  induction K with
  | nil => exact fun _ _ _ _ _ => rfl
  | cons s K ih =>
    intro x' y' hK hx hy
    have hs := hK List.mem_cons_self
    have hforeign := hL s hs
    rw [redactAll_cons, redactAll_cons, redactAll_cons, replaceAll_append_of_apart hforeign.ne]
    · refine ih _ _ (fun t ht => hK (List.mem_cons_of_mem s ht)) ?_ ?_
      · exact fun p hp hlast => hx p (suffix_of_suffix_replaceAll hforeign.ne hlast hp) hlast
      · exact fun q hq hfirst => hy q (prefix_of_prefix_replaceAll hforeign.ne hfirst hq) hfirst
    · intro p q hp hq hsplit hend hstart
      refine h s hs p q hp hq hsplit (hx p hend fun hmem => ?_) (hy q hstart fun hmem => ?_)
      · exact hforeign.last (hsplit ▸ List.mem_append_left q hmem)
      · exact hforeign.first (hsplit ▸ List.mem_append_right p hmem)

end Redaction

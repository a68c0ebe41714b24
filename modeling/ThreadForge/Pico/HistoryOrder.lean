import Mathlib.Algebra.Order.BigOperators.Group.List
import Mathlib.Algebra.Order.Group.Nat
import ThreadForge.Lib.Greedy
import ThreadForge.Pico.Context

/-!
# Which history survives

The history is rendered from its newest entry backwards, and an entry that does not fit is left out
while older ones are still tried. A message always fits first, if need be cut; a tool call has two
lines, which are cut to the same width each, so it may not.

## Main results

* `mem_entries_iff` : which items have an entry
* `pickedEntries_iff` : the entries that are rendered, by the sizes of their lines
* `newest_survives_iff` : when the newest entries are those that are rendered
-/

namespace ThreadForge

open ContextAgent

/-! ## Sizes -/

theorem length_pyClip (text : String) (n : Nat) : (pyClip text n).length = min n text.length := by
  rw [pyClip, String.length_ofList, List.length_take, String.length_toList]

theorem length_tailClip (text : String) (limit : Nat) :
    (tailClip text limit).length = min text.length limit := by
  unfold tailClip
  split
  · next hzero =>
    obtain rfl : limit = 0 := by omega
    rw [Nat.min_zero]
    rfl
  · split
    · next hfits => omega
    · split
      · rw [length_pyClip, Int.toNat_natCast]
        omega
      · rw [String.length_append, length_pyClip, Int.toNat_natCast]
        show min (limit - 3) text.length + 3 = min text.length limit
        omega

/-- What lines take behind another line. -/
def cost (lines : List String) : Nat := (lines.map fun line => line.length + 1).sum

theorem cost_append (lines rendered : List String) :
    cost (lines ++ rendered) = cost lines + cost rendered := by
  unfold cost
  rw [List.map_append, List.sum_append]

theorem length_intercalate_newline : ∀ (lines : List String) (first : String),
    ("\n".intercalate (first :: lines)).length = first.length + cost lines
  | [], first => by
    rw [String.intercalate_singleton]
    rfl
  | line :: lines, first => by
    have hrest := length_intercalate_newline lines line
    have hcons : cost (line :: lines) = line.length + 1 + cost lines := rfl
    rw [String.intercalate_cons_cons, String.length_append, String.length_append, hrest, hcons]
    show first.length + 1 + (line.length + cost lines) = _
    omega

theorem length_transcript (lines : List String) : (transcript lines).length = 11 + cost lines :=
  length_intercalate_newline lines "Transcript:"

/-- The width that the lines of an entry are cut to. -/
def cutWidth (room : Int) (entry : HistoryEntry) : Nat :=
  if entry.recent then max 20 (room - 1).toNat else 20

/-- What an entry takes when it is cut. -/
def cutCost (room : Int) (entry : HistoryEntry) : Nat :=
  (entry.lines.map fun line => min line.length (cutWidth room entry) + 1).sum

/-- The room that an entry leaves, if it fits as it is or cut. -/
def spend (room : Int) (entry : HistoryEntry) : Option Int :=
  if cost entry.lines ≤ room then some (room - cost entry.lines)
  else if cutCost room entry ≤ room then some (room - cutCost room entry)
  else none

theorem cost_cut (room : Int) (entry : HistoryEntry) :
    cost (entry.lines.map (tailClip · (cutWidth room entry))) = cutCost room entry := by
  unfold cost cutCost
  rw [List.map_map]
  refine congrArg List.sum (List.map_congr_left fun line _ => ?_)
  show (tailClip line (cutWidth room entry)).length + 1 = _
  rw [length_tailClip]

/-- The room that is left beside the lines that are rendered. -/
def roomBeside (budget : Int) (rendered : List String) : Int := budget - 11 - cost rendered

theorem sum_lengths (rendered : List String) :
    (rendered.map fun line => (line.length : Int) + 1).sum = cost rendered := by
  induction rendered with
  | nil => rfl
  | cons line rest ih =>
    have hcons : cost (line :: rest) = line.length + 1 + cost rest := rfl
    rw [List.map_cons, List.sum_cons, ih, hcons]
    omega

/-- The lines of an entry, by their sizes. -/
theorem entryLines_eq (budget : Int) (rendered : List String) (entry : HistoryEntry) :
    entryLines budget rendered entry =
      if cost entry.lines ≤ roomBeside budget rendered then some entry.lines
      else if cutCost (roomBeside budget rendered) entry ≤ roomBeside budget rendered then
        some (entry.lines.map (tailClip · (cutWidth (roomBeside budget rendered) entry)))
      else none := by
  have hfits : ∀ lines : List String, ((transcript (lines ++ rendered)).length : Int) ≤ budget ↔
      (cost lines : Int) ≤ roomBeside budget rendered := by
    intro lines
    rw [length_transcript, cost_append]
    unfold roomBeside
    omega
  have hwidth : (if entry.recent then
        max 20 ((if rendered.isEmpty then budget - "Transcript:".length
          else budget - "Transcript:".length -
            (rendered.map fun line => (line.length : Int) + 1).sum) - 1)
      else 20) = ((cutWidth (roomBeside budget rendered) entry : Nat) : Int) := by
    have havailable : (if rendered.isEmpty then budget - "Transcript:".length
        else budget - "Transcript:".length -
          (rendered.map fun line => (line.length : Int) + 1).sum) = roomBeside budget rendered := by
      unfold roomBeside
      rw [sum_lengths]
      split
      · next hempty =>
        rw [List.isEmpty_iff.mp hempty]
        show budget - 11 = budget - 11 - 0
        omega
      · rfl
    rw [havailable]
    unfold cutWidth
    split
    · omega
    · rfl
  unfold entryLines
  dsimp only
  rw [hwidth]
  simp only [hfits, cost_cut]

/-- What an entry adds to the lines that are rendered. -/
def addEntry (budget : Int) (rendered : List String) (entry : HistoryEntry) :
    Option (List String) :=
  (entryLines budget rendered entry).map (· ++ rendered)

theorem spend_roomBeside (budget : Int) (rendered : List String) (entry : HistoryEntry) :
    (addEntry budget rendered entry).map (roomBeside budget) =
      spend (roomBeside budget rendered) entry := by
  have hroom : ∀ lines : List String, roomBeside budget (lines ++ rendered) =
      roomBeside budget rendered - cost lines := by
    intro lines
    unfold roomBeside
    rw [cost_append]
    omega
  unfold addEntry spend
  rw [entryLines_eq]
  split
  · exact congrArg some (hroom entry.lines)
  · split
    · rw [Option.map_some, Option.map_some, hroom, cost_cut]
    · rfl

/-! ## The entries that are rendered -/

theorem map_fst_pickEntries (budget : Int) :
    ∀ (entries : List HistoryEntry) (picked : List (HistoryEntry × List String)),
      (pickEntries budget entries picked).map Prod.fst =
        (Greedy.kept (addEntry budget) (linesOf picked) entries).reverse ++ picked.map Prod.fst
  | [], picked => rfl
  | entry :: rest, picked => by
    rw [pickEntries]
    rcases hlines : entryLines budget (linesOf picked) entry with _ | lines
    · have hnone : addEntry budget (linesOf picked) entry = none := by
        unfold addEntry
        rw [hlines]
        rfl
      rw [Greedy.kept_cons_none hnone]
      exact map_fst_pickEntries budget rest picked
    · have hsome : addEntry budget (linesOf picked) entry =
          some (linesOf ((entry, lines) :: picked)) := by
        unfold addEntry
        rw [hlines]
        rfl
      rw [Greedy.kept_cons_some hsome, List.reverse_cons, List.append_assoc]
      exact map_fst_pickEntries budget rest ((entry, lines) :: picked)

/-- The lines of an entry as they are, or each cut to the same width. -/
def Cut (lines cut : List String) : Prop :=
  cut = lines ∨ ∃ width : Nat, 20 ≤ width ∧ cut = lines.map (tailClip · width)

theorem cut_entryLines {budget : Int} {rendered lines : List String} {entry : HistoryEntry}
    (h : entryLines budget rendered entry = some lines) :
    Cut entry.lines lines ∧ ((transcript (lines ++ rendered)).length : Int) ≤ budget := by
  have hfits : (cost lines : Int) ≤ roomBeside budget rendered →
      ((transcript (lines ++ rendered)).length : Int) ≤ budget := by
    intro hcost
    rw [length_transcript, cost_append]
    unfold roomBeside at hcost
    omega
  rw [entryLines_eq] at h
  split at h
  · next hcost =>
    obtain rfl := Option.some.inj h
    exact ⟨Or.inl rfl, hfits hcost⟩
  · split at h
    · next hcost =>
      rw [← cost_cut] at hcost
      obtain rfl := Option.some.inj h
      refine ⟨Or.inr ⟨_, ?_, rfl⟩, hfits hcost⟩
      unfold cutWidth
      split
      · omega
      · exact le_refl 20
    · cases h

/-- What is picked are entries with their lines, as they are or cut, and they fit. -/
theorem pickEntries_spec (budget : Int) :
    ∀ (entries : List HistoryEntry) (picked : List (HistoryEntry × List String)),
      (∀ p ∈ picked, Cut p.1.lines p.2) → (transcript (linesOf picked)).length ≤ max budget 11 →
      (∀ p ∈ pickEntries budget entries picked, Cut p.1.lines p.2) ∧
        (transcript (linesOf (pickEntries budget entries picked))).length ≤ max budget 11
  | [], picked, hcut, hlength => ⟨hcut, hlength⟩
  | entry :: rest, picked, hcut, hlength => by
    rw [pickEntries]
    rcases hlines : entryLines budget (linesOf picked) entry with _ | lines
    · exact pickEntries_spec budget rest picked hcut hlength
    · obtain ⟨hentry, hfits⟩ := cut_entryLines hlines
      refine pickEntries_spec budget rest ((entry, lines) :: picked) ?_ (hfits.trans (le_max_left _ _))
      exact List.forall_mem_cons.mpr ⟨hentry, hcut⟩

section Entries

variable {a : ContextAgent}

theorem pickedEntries_spec (budget : Int) :
    (∀ p ∈ a.pickedEntries budget, Cut p.1.lines p.2) ∧
      (transcript (linesOf (a.pickedEntries budget))).length ≤ max budget 11 := by
  refine pickEntries_spec budget _ [] (fun p hp => absurd hp List.not_mem_nil) ?_
  exact le_max_right budget 11

/-- The entries that are rendered, by the sizes of their lines. -/
theorem pickedEntries_iff (budget : Int) (entry : HistoryEntry) :
    (∃ p ∈ a.pickedEntries budget, p.1 = entry) ↔
      entry ∈ Greedy.kept spend (budget - 11) a.historyEntries.reverse := by
  have hroom : roomBeside budget (linesOf []) = budget - 11 := by
    show budget - 11 - 0 = budget - 11
    omega
  have hmap : (a.pickedEntries budget).map Prod.fst =
      (Greedy.kept spend (budget - 11) a.historyEntries.reverse).reverse := by
    unfold pickedEntries
    rw [map_fst_pickEntries, Greedy.kept_map (spend_roomBeside budget), hroom, List.map_nil,
      List.append_nil]
  rw [← List.mem_reverse, ← hmap, List.mem_map]

/-! ## The items that have an entry -/

/-- The item is a call that reads the file at a path. -/
def ReadsPath (a : ContextAgent) (item : HistoryItem) (path : String) : Prop :=
  ∃ args content, item = .tool (.str "read_file") args content ∧ a.readPath args = path

/-- The entry of the history is an older read of a path that was read before it or is among those
that were `seen`. -/
def RepeatsRead (a : ContextAgent) (seen : List String) (items : List (HistoryItem × Nat))
    (start : Nat) (item : HistoryItem × Nat) : Prop :=
  item.2 < start ∧ ∃ path, ReadsPath a item.1 path ∧
    (path ∈ seen ∨ ∃ other ∈ items, other.2 < item.2 ∧ ReadsPath a other.1 path)

variable {start : Nat} {seen seen' : List String} {items : List (HistoryItem × Nat)}

/-- What becomes of the first item: nothing if it is an older read of a path that was seen, else an
entry, and the paths that were seen are those and the one that it reads. -/
theorem compressed_cons_cases (start : Nat) (seen : List String) (item : HistoryItem)
    (place : Nat) :
    (place < start ∧ (∃ path ∈ seen, ReadsPath a item path) ∧
        (∀ path, ReadsPath a item path → path ∈ seen) ∧
        ∀ rest, a.compressedHistoryEntries start seen ((item, place) :: rest) =
          a.compressedHistoryEntries start seen rest) ∨
      ∃ entry seen', entry.index = place ∧ (place < start → ∀ path ∈ seen, ¬ ReadsPath a item path) ∧
        (∀ path, path ∈ seen' ↔ path ∈ seen ∨ place < start ∧ ReadsPath a item path) ∧
        ∀ rest, a.compressedHistoryEntries start seen ((item, place) :: rest) =
          entry :: a.compressedHistoryEntries start seen' rest := by
  by_cases hrecent : start ≤ place
  · refine Or.inr ⟨⟨place, true, a.renderHistoryItem item 900⟩, seen, rfl,
      fun hold => absurd hold (not_lt.mpr hrecent), fun path => ?_, fun rest => ?_⟩
    · exact (or_iff_left fun h => absurd h.1 (not_lt.mpr hrecent)).symm
    · rw [compressedHistoryEntries.eq_def]
      exact if_pos hrecent
  have hnone : (∀ path, ¬ ReadsPath a item path) → ∀ line,
      (∀ rest, a.compressedHistoryEntries start seen ((item, place) :: rest) =
        ⟨place, false, line⟩ :: a.compressedHistoryEntries start seen rest) →
      ∃ entry seen', entry.index = place ∧ (place < start → ∀ path ∈ seen, ¬ ReadsPath a item path) ∧
        (∀ path, path ∈ seen' ↔ path ∈ seen ∨ place < start ∧ ReadsPath a item path) ∧
        ∀ rest, a.compressedHistoryEntries start seen ((item, place) :: rest) =
          entry :: a.compressedHistoryEntries start seen' rest := by
    intro hnot line heq
    refine ⟨⟨place, false, line⟩, seen, rfl, fun _ path _ => hnot path, fun path => ?_, heq⟩
    exact (or_iff_left fun h => hnot path h.2).symm
  cases item with
  | message role content =>
    refine Or.inr (hnone ?_ (a.renderHistoryItem (.message role content) 60) fun rest => ?_)
    · rintro path ⟨args, text, hitem, -⟩
      cases hitem
    · rw [compressedHistoryEntries.eq_def]
      exact if_neg hrecent
  | tool name args content =>
    by_cases hname : name = .str "read_file"
    swap
    · refine Or.inr (hnone ?_ [a.summarizeOldToolItem name args content] fun rest => ?_)
      · rintro path ⟨args', text, hitem, -⟩
        cases hitem
        exact hname rfl
      · rw [compressedHistoryEntries.eq_def]
        exact (if_neg hrecent).trans (if_neg hname)
    subst hname
    have hreads : ∀ path, ReadsPath a (.tool (.str "read_file") args content) path ↔
        path = a.readPath args := by
      intro path
      constructor
      · rintro ⟨args', text, hitem, rfl⟩
        cases hitem
        rfl
      · rintro rfl
        exact ⟨args, content, rfl, rfl⟩
    by_cases hseen : a.readPath args ∈ seen
    · refine Or.inl ⟨not_le.mp hrecent, ⟨_, hseen, (hreads _).mpr rfl⟩, fun path h => ?_,
        fun rest => ?_⟩
      · rw [(hreads path).mp h]
        exact hseen
      · rw [compressedHistoryEntries.eq_def]
        exact (if_neg hrecent).trans ((if_pos rfl).trans (if_pos hseen))
    · let line := if a.reusableFileSummary (a.readPath args) = "" then
          a.summarizeOldToolItem (.str "read_file") args content
        else a.readPath args ++ " -> " ++ a.reusableFileSummary (a.readPath args)
      refine Or.inr ⟨⟨place, false, [line]⟩, a.readPath args :: seen, rfl,
        fun _ path hold h => ?_, fun path => ?_, fun rest => ?_⟩
      · rw [(hreads path).mp h] at hold
        exact hseen hold
      · rw [List.mem_cons, hreads, or_comm]
        exact or_congr_right (and_iff_right (not_le.mp hrecent)).symm
      · rw [compressedHistoryEntries.eq_def]
        exact (if_neg hrecent).trans ((if_pos rfl).trans (if_neg hseen))

theorem index_sublist : ∀ (seen : List String) (items : List (HistoryItem × Nat)),
    ((a.compressedHistoryEntries start seen items).map HistoryEntry.index).Sublist
      (items.map Prod.snd)
  | _, [] => List.Sublist.refl []
  | seen, (item, place) :: rest => by
    rcases compressed_cons_cases (a := a) start seen item place with
      ⟨-, -, -, heq⟩ | ⟨entry, seen', hentry, -, -, heq⟩
    · rw [heq rest]
      exact (index_sublist seen rest).cons place
    · rw [heq rest, List.map_cons, hentry]
      exact (index_sublist seen' rest).cons_cons place

/-- What the entries before an item say of it is in `seen'`. -/
theorem repeatsRead_cons {first : HistoryItem × Nat} {item : HistoryItem × Nat}
    (hseen : ∀ path, path ∈ seen' ↔ path ∈ seen ∨ first.2 < start ∧ ReadsPath a first.1 path)
    (hlt : first.2 < item.2) :
    RepeatsRead a seen (first :: items) start item ↔ RepeatsRead a seen' items start item := by
  refine and_congr_right fun hstart => exists_congr fun path => and_congr_right fun _ => ?_
  rw [hseen path]
  constructor
  · rintro (hold | ⟨other, hother, hbefore, hreads⟩)
    · exact Or.inl (Or.inl hold)
    · rcases List.mem_cons.mp hother with rfl | hother
      · exact Or.inl (Or.inr ⟨hlt.trans hstart, hreads⟩)
      · exact Or.inr ⟨other, hother, hbefore, hreads⟩
  · rintro ((hold | ⟨-, hreads⟩) | ⟨other, hother, hbefore, hreads⟩)
    · exact Or.inl hold
    · exact Or.inr ⟨first, List.mem_cons_self, hlt, hreads⟩
    · exact Or.inr ⟨other, List.mem_cons_of_mem first hother, hbefore, hreads⟩

/-- The first item repeats only what was seen before. -/
theorem repeatsRead_head {first : HistoryItem × Nat}
    (hsorted : ∀ other ∈ items, first.2 < other.2) :
    RepeatsRead a seen (first :: items) start first ↔
      first.2 < start ∧ ∃ path ∈ seen, ReadsPath a first.1 path := by
  refine and_congr_right fun _ => exists_congr fun path => ?_
  constructor
  · rintro ⟨hreads, hold | ⟨other, hother, hbefore, -⟩⟩
    · exact ⟨hold, hreads⟩
    · rcases List.mem_cons.mp hother with rfl | hother
      · exact absurd hbefore (lt_irrefl _)
      · exact absurd hbefore (lt_asymm (hsorted other hother))
  · exact fun h => ⟨h.2, Or.inl h.1⟩

/-- What is left of the first item: an entry, unless it repeats a read. -/
theorem entries_cons_iff (first : HistoryItem × Nat) {rest : List HistoryEntry} {index : Nat}
    (hsorted : ∀ other ∈ items, first.2 < other.2)
    (hseen : ∀ path, path ∈ seen' ↔ path ∈ seen ∨ first.2 < start ∧ ReadsPath a first.1 path)
    (hrest : (∃ entry ∈ rest, entry.index = index) ↔
      ∃ item, (item, index) ∈ items ∧ ¬ RepeatsRead a seen' items start (item, index)) :
    (∃ item, (item, index) ∈ first :: items ∧
        ¬ RepeatsRead a seen (first :: items) start (item, index)) ↔
      (first.2 = index ∧ ¬ (first.2 < start ∧ ∃ path ∈ seen, ReadsPath a first.1 path)) ∨
        ∃ entry ∈ rest, entry.index = index := by
  rw [hrest]
  constructor
  · rintro ⟨item, hmem, hnot⟩
    rcases List.mem_cons.mp hmem with rfl | hmem
    · rw [repeatsRead_head hsorted] at hnot
      exact Or.inl ⟨rfl, hnot⟩
    · rw [repeatsRead_cons hseen (hsorted _ hmem)] at hnot
      exact Or.inr ⟨item, hmem, hnot⟩
  · rintro (⟨rfl, hnot⟩ | ⟨item, hmem, hnot⟩)
    · refine ⟨first.1, List.mem_cons_self, ?_⟩
      rwa [← repeatsRead_head hsorted] at hnot
    · refine ⟨item, List.mem_cons_of_mem first hmem, ?_⟩
      rwa [← repeatsRead_cons hseen (hsorted _ hmem)] at hnot

/-- Every item has an entry, but for older reads of what was read before. -/
theorem mem_compressed_iff (index : Nat) :
    ∀ (seen : List String) (items : List (HistoryItem × Nat)),
      items.Pairwise (fun x y => x.2 < y.2) →
      ((∃ entry ∈ a.compressedHistoryEntries start seen items, entry.index = index) ↔
        ∃ item, (item, index) ∈ items ∧ ¬ RepeatsRead a seen items start (item, index))
  | seen, [], _ => by
    constructor
    · rintro ⟨entry, hmem, -⟩
      cases hmem
    · rintro ⟨item, hmem, -⟩
      cases hmem
  | seen, (item, place) :: rest, hsorted => by
    rw [List.pairwise_cons] at hsorted
    obtain ⟨hfirst, hsorted⟩ := hsorted
    rcases compressed_cons_cases (a := a) start seen item place with
      ⟨hold, ⟨path, hpath, hreads⟩, hall, heq⟩ | ⟨entry, seen', hentry, hnot, hseen, heq⟩
    · have hseen : ∀ path, path ∈ seen ↔ path ∈ seen ∨ place < start ∧ ReadsPath a item path :=
        fun path => (or_iff_left_of_imp fun h => hall path h.2).symm
      rw [heq rest, entries_cons_iff (item, place) hfirst hseen
        (mem_compressed_iff index seen rest hsorted)]
      exact (or_iff_right fun h => h.2 ⟨hold, path, hpath, hreads⟩).symm
    · rw [heq rest, entries_cons_iff (item, place) hfirst hseen
        (mem_compressed_iff index seen' rest hsorted), List.exists_mem_cons_iff, hentry]
      refine or_congr_left (and_iff_left ?_).symm
      rintro ⟨hold, path, hpath, hreads⟩
      exact hnot hold path hpath hreads

/-- A recent item at the end has the last entry. -/
theorem compressed_concat {item : HistoryItem} {place : Nat} (hrecent : start ≤ place) :
    ∀ (seen : List String) (items : List (HistoryItem × Nat)),
      a.compressedHistoryEntries start seen (items ++ [(item, place)]) =
        a.compressedHistoryEntries start seen items ++
          [⟨place, true, a.renderHistoryItem item 900⟩]
  | seen, [] => by
    rw [List.nil_append, compressedHistoryEntries.eq_def]
    exact if_pos hrecent
  | seen, (first, index) :: rest => by
    rw [List.cons_append]
    rcases compressed_cons_cases (a := a) start seen first index with
      ⟨-, -, -, heq⟩ | ⟨entry, seen', -, -, -, heq⟩
    · rw [heq, heq, compressed_concat hrecent seen rest]
    · rw [heq, heq, compressed_concat hrecent seen' rest, List.cons_append]

/-! ## The newest entries -/

theorem mem_history_zipIdx {item : HistoryItem} {index : Nat} :
    (item, index) ∈ a.history.zipIdx ↔ a.history[index]? = some item :=
  List.mk_mem_zipIdx_iff_getElem?

theorem sorted_zipIdx (history : List HistoryItem) :
    history.zipIdx.Pairwise fun x y => x.2 < y.2 := by
  have hmap : (history.zipIdx.map Prod.snd).Pairwise (· < ·) := by
    rw [List.zipIdx_map_snd]
    exact List.pairwise_lt_range'
  exact List.pairwise_map.mp hmap

/-- The item at this place is an older read of a path that an earlier item reads. -/
def Collapsed (a : ContextAgent) (index : Nat) : Prop :=
  ∃ item, a.history[index]? = some item ∧
    RepeatsRead a [] a.history.zipIdx a.recentStart (item, index)

/-- Every item has an entry, unless it is collapsed. -/
theorem mem_entries_iff {index : Nat} :
    (∃ entry ∈ a.historyEntries, entry.index = index) ↔
      index < a.history.length ∧ ¬ Collapsed a index := by
  unfold historyEntries
  rw [mem_compressed_iff index [] _ (sorted_zipIdx a.history)]
  constructor
  · rintro ⟨item, hmem, hnot⟩
    rw [mem_history_zipIdx] at hmem
    refine ⟨(List.getElem?_eq_some_iff.mp hmem).1, ?_⟩
    rintro ⟨other, hother, hrepeats⟩
    rw [Option.some.inj (hmem.symm.trans hother)] at hnot
    exact hnot hrepeats
  · rintro ⟨hlt, hnot⟩
    exact ⟨a.history[index], mem_history_zipIdx.mpr (List.getElem?_eq_getElem hlt),
      fun hrepeats => hnot ⟨_, List.getElem?_eq_getElem hlt, hrepeats⟩⟩

theorem sorted_entries : a.historyEntries.Pairwise fun x y => x.index < y.index := by
  have hmap : (a.historyEntries.map HistoryEntry.index).Pairwise (· < ·) := by
    refine List.Pairwise.sublist (index_sublist [] a.history.zipIdx) ?_
    exact List.pairwise_map.mpr (sorted_zipIdx a.history)
  exact List.pairwise_map.mp hmap

theorem eq_of_index {x y : HistoryEntry} (hx : x ∈ a.historyEntries) (hy : y ∈ a.historyEntries)
    (h : x.index = y.index) : x = y := by
  have hnodup : (a.historyEntries.map HistoryEntry.index).Nodup := by
    have hsorted : (a.historyEntries.map HistoryEntry.index).Pairwise (· < ·) :=
      List.pairwise_map.mpr sorted_entries
    exact hsorted.imp fun hlt => ne_of_lt hlt
  exact List.inj_on_of_nodup_map hnodup hx hy h

/-- The newest item has the last entry. -/
theorem entries_of_getLast {item : HistoryItem} (h : a.history.getLast? = some item) :
    ∃ older, a.historyEntries =
      older ++ [⟨a.history.length - 1, true, a.renderHistoryItem item 900⟩] := by
  obtain ⟨before, hbefore⟩ := List.getLast?_eq_some_iff.mp h
  unfold historyEntries
  rw [hbefore, List.zipIdx_append, Nat.zero_add]
  have hlength : a.history.length = before.length + 1 := by
    rw [hbefore, List.length_append, List.length_singleton]
  have hrecent : a.recentStart ≤ before.length := by
    unfold recentStart
    omega
  have hconcat := @compressed_concat a _ item _ hrecent [] before.zipIdx
  rw [hbefore] at hlength
  have hlast : (before ++ [item]).length - 1 = before.length := by omega
  rw [hlast]
  exact ⟨_, hconcat⟩

/-- The item at a place is rendered. -/
def Survives (a : ContextAgent) (budget : Int) (index : Nat) : Prop :=
  ∃ p ∈ a.pickedEntries budget, p.1.index = index

/-- The newest item is rendered, and no item is while a newer one is missing, but for one that is
collapsed. -/
structure NewestSurvive (a : ContextAgent) (budget : Int) : Prop where
  newest : Survives a budget (a.history.length - 1)
  closed : ∀ i j, i < j → j < a.history.length → Survives a budget i →
    Survives a budget j ∨ Collapsed a j

theorem survives_iff {budget : Int} {index : Nat} :
    Survives a budget index ↔
      ∃ entry ∈ Greedy.kept spend (budget - 11) a.historyEntries.reverse, entry.index = index := by
  constructor
  · rintro ⟨p, hp, rfl⟩
    exact ⟨p.1, (pickedEntries_iff budget p.1).mp ⟨p, hp, rfl⟩, rfl⟩
  · rintro ⟨entry, hentry, rfl⟩
    obtain ⟨p, hp, rfl⟩ := (pickedEntries_iff budget entry).mpr hentry
    exact ⟨p, hp, rfl⟩

/-- No item is rendered while a newer one is missing, exactly if no entry fits after one that does
not. -/
theorem closed_iff_noGap {budget : Int} :
    (∀ i j, i < j → j < a.history.length → Survives a budget i →
        Survives a budget j ∨ Collapsed a j) ↔
      Greedy.NoGap spend (budget - 11) a.historyEntries.reverse := by
  have hsorted : a.historyEntries.reverse.Pairwise fun x y => y.index < x.index :=
    List.pairwise_reverse.mpr sorted_entries
  rw [← Greedy.closed_iff HistoryEntry.index (budget - 11) hsorted]
  constructor
  · intro hclosed x hx y hy hlt
    have hlive := mem_entries_iff.mp ⟨y, List.mem_reverse.mp hy, rfl⟩
    rcases hclosed x.index y.index hlt hlive.1 (survives_iff.mpr ⟨x, hx, rfl⟩) with hy' | hgone
    · obtain ⟨entry, hentry, hindex⟩ := survives_iff.mp hy'
      have hmem := List.mem_reverse.mp ((Greedy.kept_sublist _ _).subset hentry)
      rwa [← eq_of_index hmem (List.mem_reverse.mp hy) hindex]
    · exact absurd hgone hlive.2
  · intro hclosed i j hlt hj hi
    by_cases hgone : Collapsed a j
    · exact Or.inr hgone
    · obtain ⟨x, hx, rfl⟩ := survives_iff.mp hi
      obtain ⟨y, hy, rfl⟩ := mem_entries_iff.mpr ⟨hj, hgone⟩
      exact Or.inl (survives_iff.mpr ⟨y, hclosed x hx y (List.mem_reverse.mpr hy) hlt, rfl⟩)

/-- An entry fits exactly if it does when it is cut. -/
theorem spend_isSome_iff {room : Int} {entry : HistoryEntry} :
    (spend room entry).isSome = true ↔ cutCost room entry ≤ room := by
  have hle : cutCost room entry ≤ cost entry.lines := by
    unfold cutCost cost
    refine List.sum_le_sum fun line _ => ?_
    omega
  unfold spend
  split
  · next hfits =>
    exact iff_of_true rfl (le_trans (by exact_mod_cast hle) hfits)
  · split
    · next hfits => exact iff_of_true rfl hfits
    · next hnot => exact iff_of_false Bool.false_ne_true hnot

/-- The newest item fits: it is a message, or the two lines of a call fit when each is cut to all but
twelve characters of the budget. -/
def NewestFits (a : ContextAgent) (budget : Int) : Prop :=
  ∀ name args content, a.history.getLast? = some (.tool name args content) →
    min ((a.toolLine name args).length : Int) (budget - 12) +
      min (min (content.length : Int) 900) (budget - 12) + 13 ≤ budget

theorem newest_fits_iff {budget : Int} (hbudget : 100 ≤ budget) {item : HistoryItem}
    (h : a.history.getLast? = some item) (place : Nat) :
    (spend (budget - 11) ⟨place, true, a.renderHistoryItem item 900⟩).isSome = true ↔
      NewestFits a budget := by
  rw [spend_isSome_iff]
  have hwidth : max 20 (budget - 11 - 1).toNat = (budget - 12).toNat := by omega
  unfold NewestFits cutCost cutWidth
  rw [h]
  cases item with
  | message role content =>
    refine iff_of_true ?_ fun name args text heq => by cases heq
    simp only [renderHistoryItem, if_true, List.map_cons, List.map_nil, List.sum_cons, List.sum_nil]
    rw [hwidth]
    omega
  | tool name args content =>
    have hcontent : (tailClip content (max 20 900)).length = min content.length 900 :=
      length_tailClip content 900
    simp only [renderHistoryItem, if_true, List.map_cons, List.map_nil, List.sum_cons, List.sum_nil,
      hcontent]
    rw [hwidth]
    constructor
    · intro hfits name' args' content' heq
      obtain ⟨rfl, rfl, rfl⟩ := HistoryItem.tool.inj (Option.some.inj heq)
      omega
    · intro hfits
      have hsizes := hfits name args content rfl
      omega

theorem newest_survives {budget : Int} (hbudget : 100 ≤ budget) (hne : a.history ≠ []) :
    Survives a budget (a.history.length - 1) ↔ NewestFits a budget := by
  obtain ⟨item, hitem⟩ : ∃ item, a.history.getLast? = some item :=
    ⟨_, List.getLast?_eq_some_getLast hne⟩
  obtain ⟨older, hentries⟩ := entries_of_getLast hitem
  have hsorted := sorted_entries (a := a)
  rw [hentries, List.pairwise_append] at hsorted
  rw [← newest_fits_iff hbudget hitem (a.history.length - 1), survives_iff, hentries,
    List.reverse_append, List.reverse_singleton, List.singleton_append]
  rcases hspend : spend (budget - 11)
    ⟨a.history.length - 1, true, a.renderHistoryItem item 900⟩ with _ | room
  · rw [Greedy.kept_cons_none hspend]
    refine iff_of_false ?_ Bool.false_ne_true
    rintro ⟨entry, hentry, hindex⟩
    have hmem := List.mem_reverse.mp ((Greedy.kept_sublist _ _).subset hentry)
    have hlt := hsorted.2.2 entry hmem _ List.mem_cons_self
    rw [hindex] at hlt
    exact lt_irrefl _ hlt
  · rw [Greedy.kept_cons_some hspend]
    exact iff_of_true ⟨_, List.mem_cons_self, rfl⟩ rfl

/-- **The newest history survives** exactly if the newest item fits and, going back from it, no entry
fits after one that does not. What is rendered are entries as they are or cut. -/
theorem newest_survives_iff {budget : Int} (hbudget : 100 ≤ budget) (hne : a.history ≠ []) :
    (a.renderHistorySection budget).rendered = transcript (linesOf (a.pickedEntries budget)) ∧
      (∀ p ∈ a.pickedEntries budget, p.1 ∈ a.historyEntries ∧ Cut p.1.lines p.2) ∧
      (NewestSurvive a budget ↔
        NewestFits a budget ∧ Greedy.NoGap spend (budget - 11) a.historyEntries.reverse) := by
  obtain ⟨hcut, hlength⟩ := pickedEntries_spec (a := a) budget
  refine ⟨?_, fun p hp => ⟨?_, hcut p hp⟩, ?_⟩
  · have hempty : a.history.isEmpty = false := by
      rw [Bool.eq_false_iff]
      exact fun h => hne (List.isEmpty_iff.mp h)
    unfold renderHistorySection
    rw [if_neg (by rw [hempty]; exact Bool.false_ne_true)]
    exact if_neg fun h => by omega
  · have hkept := (pickedEntries_iff budget p.1).mp ⟨p, hp, rfl⟩
    exact List.mem_reverse.mp ((Greedy.kept_sublist _ _).subset hkept)
  · rw [← newest_survives hbudget hne, ← closed_iff_noGap]
    exact ⟨fun h => ⟨h.newest, h.closed⟩, fun h => ⟨h.1, h.2⟩⟩

end Entries

/-! ## A call that is too long -/

/-- An agent with a history and nothing else. -/
def ContextAgent.withHistory (history : List HistoryItem) : ContextAgent where
  txt := .ascii
  memory := true
  relevantMemory := true
  contextReduction := true
  prefixText := ""
  memoryText := ""
  taskState := none
  checkpointText := ""
  retrieved _ := []
  history := history
  fileSummaries := ⟨[], List.nodup_nil⟩

/-- A message and a call that reads a file. -/
def shortHistory : ContextAgent :=
  .withHistory [.message "user" "hi", .tool (.str "read_file") [("path", .str "a")] "text"]

/-- A message and a call that writes a text of a hundred characters. -/
def longHistory : ContextAgent :=
  .withHistory [.message "user" "hi", .tool (.str "write_file") [("path", .str "a"),
    ("content", .str (String.ofList (List.replicate 100 'x')))] "wrote a"]

theorem newest_survives_short : NewestSurvive shortHistory 100 := by
  refine ((newest_survives_iff (a := shortHistory) (by decide) (by decide)).2.2).mpr ⟨?_, ?_⟩
  · intro name args content hlast
    cases hlast
    decide +kernel
  · decide +kernel

/-- The message is rendered, the call after it is not. -/
theorem newest_lost :
    (longHistory.renderHistorySection 100).rendered = "Transcript:\n[user] hi" ∧
      ¬ NewestSurvive longHistory 100 := by
  have hpicked : longHistory.pickedEntries 100 = [(⟨0, true, ["[user] hi"]⟩, ["[user] hi"])] := by
    obtain ⟨line, hline, hlength⟩ : ∃ line, longHistory.historyEntries =
        [⟨0, true, ["[user] hi"]⟩, ⟨1, true, [line, "wrote a"]⟩] ∧ line.length = 146 := by
      refine ⟨longHistory.toolLine _ _, rfl, ?_⟩
      rw [toolLine, String.length_append, String.length_ofList]
      decide +kernel
    have hcost : cost [line, "wrote a"] = 155 := by
      show line.length + 1 + 8 = 155
      rw [hlength]
    have hcut : cutCost 89 ⟨1, true, [line, "wrote a"]⟩ = 97 := by
      show min line.length 88 + 1 + 8 = 97
      rw [hlength]
      rfl
    have hcall : entryLines 100 [] ⟨1, true, [line, "wrote a"]⟩ = none := by
      have hroom : roomBeside 100 [] = 89 := rfl
      rw [entryLines_eq, hroom, hcost, hcut]
      rfl
    have hmessage : entryLines 100 [] ⟨0, true, ["[user] hi"]⟩ = some ["[user] hi"] := by
      rw [entryLines_eq]
      rfl
    rw [pickedEntries, hline]
    show pickEntries 100 [⟨1, true, [line, "wrote a"]⟩, ⟨0, true, ["[user] hi"]⟩] [] = _
    rw [pickEntries, linesOf, List.flatMap_nil, hcall, pickEntries, linesOf, List.flatMap_nil,
      hmessage]
    rfl
  constructor
  · unfold renderHistorySection
    rw [hpicked]
    rfl
  · intro h
    obtain ⟨p, hp, hindex⟩ := h.newest
    rw [hpicked, List.mem_singleton] at hp
    rw [hp] at hindex
    cases hindex

end ThreadForge

import ThreadForge.Lib.Comparator
import ThreadForge.Lib.Table
import Mathlib.Data.List.Induction

/-!
# The order of timeline items

`sortTimelineItems` of the trace model and `mergeRunIndex` of the run events. Both sort by the time
of an item with a function that says of two items of one time that each goes before the other.

## What is a parameter

How the engine reads a date, and its sort: an algorithm that returns a sorted list where the
comparison function is consistent.

## Main results

* `sortTimelineItems_chronological_iff` — when the items are sorted by time.
* `mergeRunIndex_union_iff` — when a merge is an ordered union that a second merge leaves as it is.
-/

namespace ThreadForge

open Comparator

/-- An entry of the run index, or an input that is shown among them. -/
structure RunIndexItem where
  eventId : String
  type : String
  timestamp : String
  startedAt : Option String := none
  endedAt : Option String := none
  createdAt : Option String := none
  toolName : Option String := none
  status : Option String := none
  deriving DecidableEq, Repr

/-- The first of some texts that is a date. -/
def firstDate (date : String → Option Int) : List (Option String) → Option Int
  | [] => none
  | none :: values => firstDate date values
  | some value :: values =>
    if value = "" then firstDate date values else (date value).or (firstDate date values)

section Timeline

variable {date : String → Option Int}

/-- `eventTimeOf`. -/
def eventTimeOf (date : String → Option Int) (item : RunIndexItem) : Option Int :=
  firstDate date [item.startedAt, some item.timestamp, item.createdAt, item.endedAt]

/-- `eventOrderTimeOf`. -/
def eventOrderTimeOf (date : String → Option Int) (item : RunIndexItem) : Option Int :=
  firstDate date [some item.timestamp, item.startedAt, item.createdAt, item.endedAt]

/-! ## Sorting -/

/-- What is sorted: an item, its place and its time. -/
structure TimelineEntry where
  item : RunIndexItem
  index : Nat
  time : Option Int
  deriving DecidableEq, Repr

/-- What `sortTimelineItems` makes of its items before it sorts. -/
def timelineEntries (date : String → Option Int) (items : List RunIndexItem) : List TimelineEntry :=
  items.mapIdx fun index item => ⟨item, index, eventOrderTimeOf date item⟩

/-- The comparison function of `sortTimelineItems`. -/
def compareEntries : TimelineEntry → TimelineEntry → Int :=
  byTime TimelineEntry.time fun a b => (a.index : Int) - b.index

/-- `sortTimelineItems`. -/
def sortTimelineItems (date : String → Option Int)
    (sort : (TimelineEntry → TimelineEntry → Int) → List TimelineEntry → List TimelineEntry)
    (items : List RunIndexItem) : List RunIndexItem :=
  (sort compareEntries (timelineEntries date items)).map TimelineEntry.item

variable {items : List RunIndexItem} {entries : List TimelineEntry}

theorem map_item_timelineEntries : (timelineEntries date items).map TimelineEntry.item = items := by
  refine List.ext_getElem (by simp [timelineEntries]) fun i hi hi' => ?_
  simp [timelineEntries]

theorem pairwise_index : (timelineEntries date items).Pairwise fun a b => a.index < b.index := by
  rw [List.pairwise_iff_getElem]
  intro i j hi hj hij
  simpa [timelineEntries] using hij

theorem nodup_timelineEntries : (timelineEntries date items).Nodup :=
  pairwise_index.imp fun h heq => by
    rw [heq] at h
    exact Nat.lt_irrefl _ h

theorem tieFollows_index :
    TieFollows (fun a b : TimelineEntry => (a.index : Int) - b.index)
      (timelineEntries date items) where
  le a b hab := by
    have hlt := List.pairwise_iff_forall_sublist.mp pairwise_index hab
    omega
  swap a b := by omega
  trans a b c hab hbc := by omega

/-- No two items have the same time. -/
def DistinctOrderTimes (date : String → Option Int) (items : List RunIndexItem) : Prop :=
  items.Pairwise fun a b =>
    eventOrderTimeOf date a = eventOrderTimeOf date b → eventOrderTimeOf date a = none

theorem time_of_mem {entry : TimelineEntry} (h : entry ∈ timelineEntries date items) :
    entry.time = eventOrderTimeOf date entry.item := by
  obtain ⟨i, hi, rfl⟩ := List.mem_iff_getElem.mp h
  simp [timelineEntries]

theorem distinctTimes_timelineEntries_iff :
    DistinctTimes TimelineEntry.time (timelineEntries date items) ↔
      DistinctOrderTimes date items := by
  have hpair : DistinctOrderTimes date items ↔ (timelineEntries date items).Pairwise fun a b =>
      a.time = b.time → a.time = none := by
    unfold DistinctOrderTimes timelineEntries
    simp [List.pairwise_iff_getElem]
  rw [hpair]
  constructor
  · intro h
    refine nodup_timelineEntries.imp_of_mem ?_
    intro a b ha hb hne
    exact h a ha b hb hne
  · intro h a ha b hb hne heq
    rcases sublist_or_sublist hne ha hb with hab | hba
    · exact List.pairwise_iff_forall_sublist.mp h hab heq
    · exact heq.trans (List.pairwise_iff_forall_sublist.mp h hba heq.symm)

theorem DistinctOrderTimes.of_perm {items' : List RunIndexItem} (h : DistinctOrderTimes date items)
    (hperm : items.Perm items') : DistinctOrderTimes date items' :=
  (hperm.pairwise_iff fun hab heq => heq.trans (hab heq.symm)).mp h

theorem perm_items_of_chronological
    (h : Chronological TimelineEntry.time (timelineEntries date items) entries) :
    items.Perm (entries.map TimelineEntry.item) := by
  have hperm := (h.1.map TimelineEntry.item).symm
  rwa [map_item_timelineEntries] at hperm

/-- Items that stand in the order of a sort are ascending with their own places. -/
theorem ascending_timelineEntries (hdistinct : DistinctOrderTimes date items)
    (h : Chronological TimelineEntry.time (timelineEntries date items) entries) :
    (timelineEntries date (entries.map TimelineEntry.item)).Pairwise fun a b =>
      compareEntries a b ≤ 0 := by
  have htimes := distinctTimes_timelineEntries_iff.mpr
    (hdistinct.of_perm (perm_items_of_chronological h))
  have hitems : (entries.map TimelineEntry.item).Pairwise fun a b =>
      (∃ s t, eventOrderTimeOf date a = some s ∧ eventOrderTimeOf date b = some t ∧ s < t) ∨
        (eventOrderTimeOf date a ≠ none ∧ eventOrderTimeOf date b = none) ∨
        eventOrderTimeOf date a = eventOrderTimeOf date b := by
    rw [List.pairwise_map]
    refine h.2.imp_of_mem ?_
    intro a b ha hb hab
    rw [← time_of_mem (h.1.mem_iff.mp ha), ← time_of_mem (h.1.mem_iff.mp hb)]
    rcases hab with hboth | hdated | ⟨hsame, -⟩
    · exact Or.inl hboth
    · exact Or.inr (Or.inl hdated)
    · exact Or.inr (Or.inr hsame)
  -- The places are new ones, so only different times or missing ones can be compared.
  rw [List.pairwise_iff_forall_sublist]
  intro a b hab
  have ha := hab.subset (a := a) (by simp)
  have hb := hab.subset (a := b) (by simp)
  have hindex := List.pairwise_iff_forall_sublist.mp pairwise_index hab
  have hne := ne_of_sublist nodup_timelineEntries hab
  have horder := List.pairwise_iff_forall_sublist.mp hitems (by
    have hmap := hab.map TimelineEntry.item
    rwa [map_item_timelineEntries] at hmap)
  rw [← time_of_mem ha, ← time_of_mem hb] at horder
  unfold compareEntries
  rw [byTime_le_zero_iff (htimes a ha b hb hne)]
  rcases horder with hboth | hdated | hsame
  · exact Or.inl hboth
  · exact Or.inr (Or.inl hdated)
  · have hnone := htimes a ha b hb hne hsame
    exact Or.inr (Or.inr ⟨hnone, hsame ▸ hnone, by omega⟩)

/-- What sorting does: the comparison function is consistent, and any algorithm returns the one list
in which dated items ascend, the others follow and equals keep their places, and leaves it alone
when it sorts once more. -/
def SortsTimeline (date : String → Option Int) (items : List RunIndexItem) : Prop :=
  Consistent compareEntries (timelineEntries date items) ∧
    ∀ sort, CorrectSort sort →
      (∃ entries, Chronological TimelineEntry.time (timelineEntries date items) entries ∧
        sortTimelineItems date sort items = entries.map TimelineEntry.item ∧
        ∀ other, Chronological TimelineEntry.time (timelineEntries date items) other →
          other = entries) ∧
      sortTimelineItems date sort (sortTimelineItems date sort items) =
        sortTimelineItems date sort items

/-- **The items are sorted by time exactly if no two of them have the same time.** -/
theorem sortTimelineItems_chronological_iff (date : String → Option Int)
    (items : List RunIndexItem) : SortsTimeline date items ↔ DistinctOrderTimes date items := by
  rw [← distinctTimes_timelineEntries_iff, SortsTimeline, compareEntries,
    consistent_byTime_iff tieFollows_index, and_iff_left_iff_imp]
  intro htimes sort hsort
  have hcmp := (consistent_byTime_iff tieFollows_index).mpr htimes
  have hsorts := hsort _ _ nodup_timelineEntries hcmp
  have hchron := hsorts.chronological tieFollows_index nodup_timelineEntries htimes
  refine ⟨⟨_, hchron, rfl, fun other hother => hother.eq nodup_timelineEntries hchron⟩, ?_⟩
  have hdistinct := distinctTimes_timelineEntries_iff.mp htimes
  have hascending := ascending_timelineEntries hdistinct hchron
  have htimes' : DistinctTimes TimelineEntry.time
      (timelineEntries date (sortTimelineItems date sort items)) :=
    distinctTimes_timelineEntries_iff.mpr (hdistinct.of_perm (perm_items_of_chronological hchron))
  have hcmp' := (consistent_byTime_iff tieFollows_index).mpr htimes'
  have hself := (hsort _ _ nodup_timelineEntries hcmp').eq hcmp' nodup_timelineEntries
    (sorts_self hascending)
  have hagain := congrArg (List.map TimelineEntry.item) hself
  exact hagain.trans map_item_timelineEntries

/-- Two items of one time: each is said to go before the other. -/
theorem equal_times_inconsistent :
    ¬SortsTimeline (fun _ => some 0)
      [{ eventId := "a", type := "tool.started", timestamp := "t" },
        { eventId := "b", type := "tool.completed", timestamp := "t" }] := by
  rw [SortsTimeline]
  rintro ⟨hcmp, -⟩
  have hswap := hcmp.swap _ (List.mem_cons_self) _ (List.mem_cons_of_mem _ List.mem_cons_self)
    (by decide)
  exact absurd hswap (by decide)

/-! ## Merging -/

/-- The time that `mergeRunIndex` takes of an item. -/
def runIndexTime (date : String → Option Int) (item : RunIndexItem) : Option Int :=
  firstDate date [item.startedAt, some item.timestamp, item.endedAt]

/-- The comparison function of `mergeRunIndex`. -/
def compareRunIndex (date : String → Option Int) : RunIndexItem → RunIndexItem → Int :=
  byTime (runIndexTime date) fun _ _ => 0

/-- The items by their `event_id`: a later one takes the place of an earlier one. -/
def itemsById (items : List RunIndexItem) : Table RunIndexItem.eventId :=
  items.foldl (fun byId item => byId.upsert item (fun _ => item) fun _ _ => rfl)
    { rows := [], nodup := List.nodup_nil }

/-- `mergeRunIndex`. -/
def mergeRunIndex (date : String → Option Int)
    (sort : (RunIndexItem → RunIndexItem → Int) → List RunIndexItem → List RunIndexItem)
    (existing incoming : List RunIndexItem) : List RunIndexItem :=
  if incoming.isEmpty then existing
  else sort (compareRunIndex date) (itemsById (existing ++ incoming)).rows

/-- The last item of an id. -/
def lastWithId (items : List RunIndexItem) (id : String) : Option RunIndexItem :=
  items.reverse.find? fun item => item.eventId = id

/-- The last item of each id, in the order in which the ids come up first. -/
def unionOf (items : List RunIndexItem) : List RunIndexItem :=
  (items.map RunIndexItem.eventId).eraseDups.filterMap (lastWithId items)

variable {item : RunIndexItem} {id : String}

theorem lastWithId_concat : lastWithId (items ++ [item]) id =
    if item.eventId = id then some item else lastWithId items id := by
  unfold lastWithId
  rw [List.reverse_append, List.reverse_singleton, List.singleton_append, List.find?_cons]
  by_cases h : item.eventId = id <;> simp [h]

theorem lastWithId_append {later : List RunIndexItem} :
    lastWithId (items ++ later) id = (lastWithId later id).or (lastWithId items id) := by
  unfold lastWithId
  rw [List.reverse_append, List.find?_append]

theorem eventId_of_lastWithId (h : lastWithId items id = some item) : item.eventId = id := by
  simpa using List.find?_some h

theorem mem_of_lastWithId (h : lastWithId items id = some item) : item ∈ items :=
  List.mem_reverse.mp (List.mem_of_find?_eq_some h)

theorem exists_lastWithId (h : id ∈ items.map RunIndexItem.eventId) :
    ∃ item, lastWithId items id = some item := by
  obtain ⟨item, hitem, hid⟩ := List.mem_map.mp h
  refine Option.isSome_iff_exists.mp (List.find?_isSome.mpr ⟨item, List.mem_reverse.mpr hitem, ?_⟩)
  exact decide_eq_true hid

theorem itemsById_concat : (itemsById (items ++ [item])) =
    (itemsById items).upsert item (fun _ => item) fun _ _ => rfl := by
  unfold itemsById
  rw [List.foldl_append]
  rfl

theorem find?_itemsById : (itemsById items).find? = lastWithId items := by
  funext id
  induction items using List.reverseRecOn with
  | nil => rfl
  | append_singleton items item ih =>
    rw [itemsById_concat, Table.find?_upsert, lastWithId_concat, ih]
    by_cases h : item.eventId = id
    · subst h
      cases (itemsById items).find? item.eventId <;> simp
    · rw [if_neg h, if_neg fun heq => h heq.symm]

theorem keys_itemsById :
    (itemsById items).rows.map RunIndexItem.eventId =
      (items.map RunIndexItem.eventId).eraseDups := by
  induction items using List.reverseRecOn with
  | nil => rfl
  | append_singleton items item ih =>
    rw [itemsById_concat, List.map_append, List.eraseDups_append, ← ih, List.map_singleton]
    unfold Table.upsert
    split
    · next hfree =>
      have hnot : item.eventId ∉ items.map RunIndexItem.eventId := by
        intro hmem
        obtain ⟨last, hlast⟩ := exists_lastWithId hmem
        rw [find?_itemsById, hlast] at hfree
        cases hfree
      have hremove : [item.eventId].removeAll (items.map RunIndexItem.eventId) =
          [item.eventId] := by
        rw [List.removeAll, List.filter_eq_self]
        intro id hid
        rw [List.mem_singleton.mp hid]
        simpa using hnot
      rw [hremove, List.eraseDups_eq_self (List.nodup_singleton _)]
      exact List.map_append
    · next hfree =>
      rw [find?_itemsById] at hfree
      obtain ⟨last, hlast⟩ := Option.ne_none_iff_exists'.mp hfree
      have hmem : item.eventId ∈ items.map RunIndexItem.eventId :=
        eventId_of_lastWithId hlast ▸ List.mem_map_of_mem (mem_of_lastWithId hlast)
      have hremove : [item.eventId].removeAll (items.map RunIndexItem.eventId) = [] := by
        simpa [List.removeAll] using hmem
      rw [hremove, Table.keys_change]
      simp

/-- The map holds the last item of each id, in the order in which the ids came up. -/
theorem rows_itemsById : (itemsById items).rows = unionOf items := by
  rw [unionOf, ← keys_itemsById, ← find?_itemsById, Table.filterMap_find?_keys]

theorem mem_unionOf : item ∈ unionOf items ↔ lastWithId items item.eventId = some item := by
  rw [← rows_itemsById, ← find?_itemsById, Table.mem_iff_find?]

theorem nodup_eventIds : ((unionOf items).map RunIndexItem.eventId).Nodup := by
  rw [← rows_itemsById]
  exact (itemsById items).nodup

/-- Items that are the last of their ids stay as they are when some of them come again. -/
theorem unionOf_append_self {later : List RunIndexItem}
    (hnodup : (items.map RunIndexItem.eventId).Nodup)
    (h : ∀ id last, lastWithId later id = some last → last ∈ items) :
    unionOf (items ++ later) = items := by
  have hids : ∀ id ∈ later.map RunIndexItem.eventId, id ∈ items.map RunIndexItem.eventId := by
    intro id hid
    obtain ⟨last, hlast⟩ := exists_lastWithId hid
    exact eventId_of_lastWithId hlast ▸ List.mem_map_of_mem (h id last hlast)
  have hremove : (later.map RunIndexItem.eventId).removeAll (items.map RunIndexItem.eventId) =
      [] := by
    rw [List.removeAll, List.filter_eq_nil_iff]
    intro id hid
    simpa using hids id hid
  have hself : ∀ item ∈ items, lastWithId items item.eventId = some item := by
    intro item hitem
    obtain ⟨last, hlast⟩ :=
      exists_lastWithId (List.mem_map_of_mem (f := RunIndexItem.eventId) hitem)
    rw [hlast, List.inj_on_of_nodup_map hnodup (mem_of_lastWithId hlast) hitem
      (eventId_of_lastWithId hlast)]
  have hlast : ∀ item ∈ items, lastWithId (items ++ later) item.eventId = some item := by
    intro item hitem
    rw [lastWithId_append]
    cases hlater : lastWithId later item.eventId with
    | none => exact hself item hitem
    | some last =>
      rw [List.inj_on_of_nodup_map hnodup (h _ _ hlater) hitem (eventId_of_lastWithId hlater)]
      rfl
  rw [unionOf, List.map_append, List.eraseDups_append, hremove, List.eraseDups_nil, List.append_nil,
    List.eraseDups_eq_self hnodup, List.filterMap_map]
  exact (List.filterMap_congr hlast).trans List.filterMap_some

/-- What merging does: the comparison function is consistent, and any algorithm returns the last
item of each id, dated ones ascending, the others after them and equals as they came up first, and
returns the same when the same items come again. -/
def MergesRunIndex (date : String → Option Int) (existing incoming : List RunIndexItem) : Prop :=
  Consistent (compareRunIndex date) (unionOf (existing ++ incoming)) ∧
    ∀ sort, CorrectSort sort →
      Chronological (runIndexTime date) (unionOf (existing ++ incoming))
        (mergeRunIndex date sort existing incoming) ∧
      mergeRunIndex date sort (mergeRunIndex date sort existing incoming) incoming =
        mergeRunIndex date sort existing incoming

/-- **A merge is an ordered union exactly if no two of the items it keeps have the same time.** -/
theorem mergeRunIndex_union_iff (date : String → Option Int) (existing : List RunIndexItem)
    (first : RunIndexItem) (rest : List RunIndexItem) :
    MergesRunIndex date existing (first :: rest) ↔
      DistinctTimes (runIndexTime date) (unionOf (existing ++ first :: rest)) := by
  have htie : ∀ items : List RunIndexItem, TieFollows (fun _ _ => 0) items := fun _ =>
    ⟨fun _ _ _ => Int.le_refl 0, fun _ _ => rfl, fun _ _ _ _ _ => Int.le_refl 0⟩
  rw [MergesRunIndex, compareRunIndex, consistent_byTime_iff (htie _), and_iff_left_iff_imp]
  intro htimes sort hsort
  have hmerge : ∀ items, mergeRunIndex date sort items (first :: rest) =
      sort (compareRunIndex date) (unionOf (items ++ first :: rest)) := by
    intro items
    rw [mergeRunIndex, rows_itemsById]
    rfl
  have hcmp := (consistent_byTime_iff (htie _)).mpr htimes
  have hnodup : (unionOf (existing ++ first :: rest)).Nodup := nodup_eventIds.of_map _
  have hsorts := hsort _ _ hnodup hcmp
  rw [hmerge]
  refine ⟨hsorts.chronological (htie _) hnodup htimes, ?_⟩
  have hagain : unionOf (sort (compareRunIndex date) (unionOf (existing ++ first :: rest)) ++
      first :: rest) = sort (compareRunIndex date) (unionOf (existing ++ first :: rest)) := by
    refine unionOf_append_self ?_ fun id last hlast => ?_
    · exact (hsorts.perm.map _).nodup_iff.mpr nodup_eventIds
    · rw [compareRunIndex, hsorts.perm.mem_iff, mem_unionOf, lastWithId_append,
        eventId_of_lastWithId hlast, hlast]
      rfl
  rw [hmerge, hagain]
  have hnodup' := hsorts.perm.nodup_iff.mpr hnodup
  have hcmp' := hcmp.of_perm hsorts.perm
  exact (hsort _ _ hnodup' hcmp').eq hcmp' hnodup' (sorts_self hsorts.ascending)

/-- A tool call that starts and ends: its two entries share `started_at`. -/
theorem started_and_completed_inconsistent :
    ¬MergesRunIndex (fun _ => some 0)
      [{ eventId := "a", type := "tool.started", timestamp := "t", startedAt := some "t" }]
      [{ eventId := "b", type := "tool.completed", timestamp := "u", startedAt := some "t" }] := by
  rw [MergesRunIndex]
  rintro ⟨hcmp, -⟩
  have hswap := hcmp.swap
    { eventId := "a", type := "tool.started", timestamp := "t", startedAt := some "t" } (by decide)
    { eventId := "b", type := "tool.completed", timestamp := "u", startedAt := some "t" }
    (by decide) (by decide)
  exact absurd hswap (by decide)

end Timeline

end ThreadForge

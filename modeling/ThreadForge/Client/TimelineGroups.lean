import ThreadForge.Client.Timeline
import Mathlib.Algebra.GroupWithZero.Nat
import Mathlib.Data.List.Forall2

/-!
# The groups of a timeline

`groupTimelineItems` of the trace model: tool events that follow each other are one group, of at
most 24, and groups that are too many are put together in buckets of one size. A group keeps the
start of its first event and a bucket the end of its last group, whatever the times of the others
are.

## Main results

* `groupTimelineItems_eq` — what the groups say of the events, bucket by bucket.
* `groupTimelineItems_partition_iff` — when the interval of each group is that of its events.
-/

namespace ThreadForge

/-! ## Lanes and flags -/

inductive Lane
  | talk | plan | model | execute | approval | review | final | system
  deriving DecidableEq, Repr

/-- `LANE_OF_TYPE`. -/
def laneOfType : List (String × Lane) := [
  ("user.input", .talk), ("assistant.delta", .talk), ("assistant.commentary", .talk),
  ("plan.created", .plan), ("plan.skipped", .plan), ("model.started", .model),
  ("model.completed", .model), ("model.retrying", .model), ("model.protocol_retrying", .model),
  ("model.heartbeat", .model), ("tool.requested", .execute), ("tool.started", .execute),
  ("tool.completed", .execute), ("tool.failed", .execute), ("policy.violation", .execute),
  ("approval.required", .approval), ("approval.resolved", .approval), ("review.started", .review),
  ("review.completed", .review), ("message.completed", .final), ("task.completed", .final),
  ("task.cancelled", .final), ("task.failed", .final), ("task.interrupted", .final),
  ("task.blocked", .final), ("task.cancel_requested", .final), ("agent.state", .system),
  ("task.queued", .system), ("task.started", .system), ("task.snapshot", .system)]

/-- `laneOf`. -/
def laneOf (type : String) : Lane := (laneOfType.lookup type).getD .system

/-- `isFailed`. -/
def isFailed (item : RunIndexItem) : Bool :=
  item.type = "tool.failed" ||
    ["failed", "blocked", "interrupted", "needs_fix"].contains (item.status.getD "")

/-- `isRunning`. -/
def isRunning (item : RunIndexItem) : Bool :=
  item.type = "tool.started" || item.type = "approval.required"

/-! ## Groups -/

structure TimelineGroup where
  key : String
  lane : Lane
  type : String
  toolNames : List String
  count : Nat
  start : Option Int
  stop : Option Int
  failed : Bool
  running : Bool
  sample : RunIndexItem

/-- `MAX_CONSECUTIVE_TOOLS`. -/
def maxConsecutiveTools : Nat := 24

/-- `Math.max`, where a missing time is no number. -/
def maxTime : Option Int → Option Int → Option Int
  | some s, some t => some (max s t)
  | _, _ => none

/-- The name of a tool, where it is not empty. -/
def namedTool (entry : RunIndexItem) : Option String := entry.toolName.filter (· ≠ "")

section Groups

variable (date : String → Option Int)

/-- The group of an event. -/
def TimelineGroup.single (entry : RunIndexItem) : TimelineGroup where
  key := entry.eventId
  lane := laneOf entry.type
  type := entry.type
  toolNames := (namedTool entry).toList
  count := 1
  start := eventTimeOf date entry
  stop := eventTimeOf date entry
  failed := isFailed entry
  running := isRunning entry
  sample := entry

/-- A group that an event is merged into. -/
def TimelineGroup.merge (prev : TimelineGroup) (entry : RunIndexItem) : TimelineGroup :=
  { prev with
    count := prev.count + 1
    -- `start` stays the time of the first event, also where this one is earlier
    stop := maxTime prev.stop (eventTimeOf date entry)
    failed := prev.failed || isFailed entry
    running := prev.running || isRunning entry
    toolNames := prev.toolNames ++
      ((namedTool entry).filter fun name => !prev.toolNames.contains name).toList }

/-- One turn of the first loop. -/
def collapseEntry (collapsed : List TimelineGroup) (entry : RunIndexItem) : List TimelineGroup :=
  match collapsed.getLast? with
  | none => collapsed ++ [.single date entry]
  | some prev =>
    if prev.lane = .execute ∧ laneOf entry.type = .execute ∧ prev.count < maxConsecutiveTools then
      collapsed.dropLast ++ [prev.merge date entry]
    else collapsed ++ [.single date entry]

/-- The slices of one length, the last of which may be shorter; as many as the fuel allows. -/
def slicesOf {α : Type} (per : Nat) : Nat → List α → List (List α)
  | 0, _ => []
  | _ + 1, [] => []
  | fuel + 1, a :: rest => (a :: rest).take per :: slicesOf per fuel ((a :: rest).drop per)

/-- The bucket of a slice. -/
def bucketOf (chunk : List TimelineGroup) : Option TimelineGroup :=
  chunk.head?.bind fun first => chunk.getLast?.map fun last => {
    key := first.key
    lane := first.lane
    type := "bucket"
    toolNames := (chunk.flatMap TimelineGroup.toolNames).eraseDups.take 6
    count := (chunk.map TimelineGroup.count).sum
    start := first.start
    -- the end of the last group, also where another one ends later
    stop := last.stop
    failed := chunk.any TimelineGroup.failed
    running := chunk.any TimelineGroup.running
    sample := first.sample }

/-- The groups in a bucket: their number by that of the buckets, rounded up. -/
def bucketSize (groups maxBuckets : Nat) : Nat := (groups + maxBuckets - 1) / maxBuckets

/-- `groupTimelineItems`. -/
def groupTimelineItems (entries : List RunIndexItem) (maxBuckets : Nat) : List TimelineGroup :=
  let collapsed := entries.foldl (collapseEntry date) []
  if collapsed.length ≤ maxBuckets then collapsed
  else (slicesOf (bucketSize collapsed.length maxBuckets) collapsed.length collapsed).filterMap
    bucketOf

end Groups

/-! ## The events of a group -/

/-- Events that are one group: the first of them, and the others. -/
abbrev EventRun := RunIndexItem × List RunIndexItem

def EventRun.events (run : EventRun) : List RunIndexItem := run.1 :: run.2

/-- The runs of events with one more event. -/
def joinEntry (runs : List EventRun) (entry : RunIndexItem) : List EventRun :=
  match runs.getLast? with
  | none => runs ++ [(entry, [])]
  | some run =>
    if laneOf run.1.type = .execute ∧ laneOf entry.type = .execute ∧
        run.events.length < maxConsecutiveTools then
      runs.dropLast ++ [(run.1, run.2 ++ [entry])]
    else runs ++ [(entry, [])]

/-- The runs that the first loop makes groups of. -/
def eventRuns (entries : List RunIndexItem) : List EventRun := entries.foldl joinEntry []

/-- The runs of each group that is returned. -/
def bucketRuns (entries : List RunIndexItem) (maxBuckets : Nat) : List (List EventRun) :=
  let runs := eventRuns entries
  if runs.length ≤ maxBuckets then runs.map fun run => [run]
  else slicesOf (bucketSize runs.length maxBuckets) runs.length runs

variable {date : String → Option Int} {entry : RunIndexItem} {entries : List RunIndexItem}
  {run : EventRun} {runs : List EventRun} {group : TimelineGroup} {maxBuckets : Nat}

theorem events_concat (run : EventRun) (entry : RunIndexItem) :
    EventRun.events (run.1, run.2 ++ [entry]) = run.events ++ [entry] := rfl

theorem flatMap_joinEntry :
    (joinEntry runs entry).flatMap EventRun.events = runs.flatMap EventRun.events ++ [entry] := by
  unfold joinEntry
  split
  · simp [EventRun.events]
  · next run hlast =>
    split
    · obtain ⟨init, rfl⟩ : ∃ init, runs = init ++ [run] :=
        ⟨runs.dropLast, (List.dropLast_append_getLast? run hlast).symm⟩
      simp [EventRun.events]
    · simp [EventRun.events]

theorem flatMap_eventRuns : (eventRuns entries).flatMap EventRun.events = entries := by
  induction entries using List.reverseRecOn with
  | nil => rfl
  | append_singleton entries entry ih =>
    rw [eventRuns, List.foldl_append, List.foldl_cons, List.foldl_nil, flatMap_joinEntry]
    exact congrArg (· ++ [entry]) ih

/-! ## The first loop -/

/-- The group of a run. -/
def groupOf (date : String → Option Int) (run : EventRun) : TimelineGroup :=
  run.2.foldl (TimelineGroup.merge date) (.single date run.1)

theorem groupOf_concat (run : EventRun) (entry : RunIndexItem) :
    groupOf date (run.1, run.2 ++ [entry]) = (groupOf date run).merge date entry := by
  rw [groupOf, List.foldl_append]
  rfl

/-- What merging leaves of a group, and what it adds up. -/
theorem foldl_merge (rest : List RunIndexItem) (group : TimelineGroup) :
    (rest.foldl (TimelineGroup.merge date) group).lane = group.lane ∧
      (rest.foldl (TimelineGroup.merge date) group).start = group.start ∧
      (rest.foldl (TimelineGroup.merge date) group).count = group.count + rest.length ∧
      (rest.foldl (TimelineGroup.merge date) group).failed = (group.failed || rest.any isFailed) ∧
      (rest.foldl (TimelineGroup.merge date) group).running =
        (group.running || rest.any isRunning) := by
  induction rest generalizing group with
  | nil => simp
  | cons entry rest ih =>
    obtain ⟨hlane, hstart, hcount, hfailed, hrunning⟩ := ih (group.merge date entry)
    rw [List.foldl_cons, hlane, hstart, hcount, hfailed, hrunning]
    refine ⟨rfl, rfl, ?_, ?_, ?_⟩
    · simp [TimelineGroup.merge]
      omega
    · simp [TimelineGroup.merge, Bool.or_assoc]
    · simp [TimelineGroup.merge, Bool.or_assoc]

theorem groupOf_lane : (groupOf date run).lane = laneOf run.1.type := (foldl_merge run.2 _).1

theorem groupOf_start : (groupOf date run).start = eventTimeOf date run.1 :=
  (foldl_merge run.2 _).2.1

theorem groupOf_count : (groupOf date run).count = run.events.length := by
  rw [groupOf, (foldl_merge run.2 _).2.2.1, EventRun.events, List.length_cons]
  exact Nat.add_comm _ _

theorem groupOf_failed : (groupOf date run).failed = run.events.any isFailed :=
  (foldl_merge run.2 _).2.2.2.1

theorem groupOf_running : (groupOf date run).running = run.events.any isRunning :=
  (foldl_merge run.2 _).2.2.2.2

theorem collapseEntry_map :
    collapseEntry date (runs.map (groupOf date)) entry =
      (joinEntry runs entry).map (groupOf date) := by
  unfold collapseEntry joinEntry
  rw [List.getLast?_map]
  cases runs.getLast? with
  | none => simp [groupOf]
  | some run =>
    simp only [Option.map_some, groupOf_lane, groupOf_count]
    split
    · rw [List.map_append, List.map_singleton, groupOf_concat, List.map_dropLast]
    · simp [groupOf]

/-- The first loop makes a group of each run. -/
theorem foldl_collapseEntry :
    entries.foldl (collapseEntry date) [] = (eventRuns entries).map (groupOf date) := by
  induction entries using List.reverseRecOn with
  | nil => rfl
  | append_singleton entries entry ih =>
    rw [List.foldl_append, ih, show eventRuns (entries ++ [entry]) =
      joinEntry (eventRuns entries) entry from List.foldl_append]
    exact collapseEntry_map

/-! ## The slices -/

section Slices

variable {α β : Type} {per fuel m : Nat} {l : List α}

theorem slicesOf_cons {a : α} : slicesOf per (fuel + 1) (a :: l) =
    (a :: l).take per :: slicesOf per fuel ((a :: l).drop per) := rfl

theorem map_slicesOf (f : α → β) :
    slicesOf per fuel (l.map f) = (slicesOf per fuel l).map (List.map f) := by
  induction fuel generalizing l with
  | zero => rfl
  | succ fuel ih =>
    cases l with
    | nil => rfl
    | cons a l =>
      rw [List.map_cons, slicesOf_cons, slicesOf_cons, List.map_cons, List.map_take,
        ← List.map_cons,
        ← List.map_drop, ih]

theorem flatten_slicesOf (hper : 0 < per) (hfuel : l.length ≤ fuel) :
    (slicesOf per fuel l).flatten = l := by
  induction fuel generalizing l with
  | zero => exact (List.eq_nil_of_length_eq_zero (Nat.le_zero.mp hfuel)).symm
  | succ fuel ih =>
    cases l with
    | nil => rfl
    | cons a l =>
      have hdrop : ((a :: l).drop per).length ≤ fuel := by
        rw [List.length_drop]
        omega
      rw [slicesOf_cons, List.flatten_cons, ih hdrop, List.take_append_drop]

theorem ne_nil_of_mem_slicesOf (hper : 0 < per) {slice : List α} (h : slice ∈ slicesOf per fuel l) :
    slice ≠ [] := by
  induction fuel generalizing l with
  | zero => exact absurd h List.not_mem_nil
  | succ fuel ih =>
    cases l with
    | nil => exact absurd h List.not_mem_nil
    | cons a l =>
      rw [slicesOf_cons] at h
      rcases List.mem_cons.mp h with rfl | h
      · obtain ⟨k, rfl⟩ : ∃ k, per = k + 1 := ⟨per - 1, by omega⟩
        exact List.cons_ne_nil a _
      · exact ih h

theorem length_slicesOf_le (h : l.length ≤ per * m) : (slicesOf per fuel l).length ≤ m := by
  induction fuel generalizing l m with
  | zero => exact Nat.zero_le m
  | succ fuel ih =>
    cases l with
    | nil => exact Nat.zero_le m
    | cons a l =>
      cases m with
      | zero => exact absurd h (by simp)
      | succ m =>
        rw [slicesOf_cons, List.length_cons]
        refine Nat.succ_le_succ (ih ?_)
        rw [List.length_drop]
        rw [Nat.mul_succ] at h
        omega

end Slices

theorem le_bucketSize_mul (n : Nat) (hbuckets : 0 < maxBuckets) :
    n ≤ bucketSize n maxBuckets * maxBuckets := by
  have hdiv := Nat.div_add_mod (n + maxBuckets - 1) maxBuckets
  have hmod := Nat.mod_lt (n + maxBuckets - 1) hbuckets
  rw [bucketSize, Nat.mul_comm]
  omega

/-! ## The runs of the groups -/

/-- The events of a group that is returned. -/
def eventsOf (bucket : List EventRun) : List RunIndexItem := bucket.flatMap EventRun.events

theorem bucketSize_pos (hbuckets : 0 < maxBuckets) {n : Nat} (h : ¬n ≤ maxBuckets) :
    0 < bucketSize n maxBuckets := Nat.div_pos (by omega) hbuckets

theorem flatten_bucketRuns (hbuckets : 0 < maxBuckets) :
    (bucketRuns entries maxBuckets).flatten = eventRuns entries := by
  unfold bucketRuns
  dsimp only
  split
  · exact List.flatMap_singleton' _
  · next h => exact flatten_slicesOf (bucketSize_pos hbuckets h) (Nat.le_refl _)

theorem ne_nil_of_mem_bucketRuns (hbuckets : 0 < maxBuckets) {bucket : List EventRun}
    (h : bucket ∈ bucketRuns entries maxBuckets) : bucket ≠ [] := by
  unfold bucketRuns at h
  dsimp only at h
  split at h
  · obtain ⟨run, -, rfl⟩ := List.mem_map.mp h
    exact List.cons_ne_nil run _
  · next hmany => exact ne_nil_of_mem_slicesOf (bucketSize_pos hbuckets hmany) h

theorem flatten_eventsOf (hbuckets : 0 < maxBuckets) :
    ((bucketRuns entries maxBuckets).map eventsOf).flatten = entries := by
  have hflat : ((bucketRuns entries maxBuckets).map eventsOf).flatten =
      (bucketRuns entries maxBuckets).flatten.flatMap EventRun.events := by
    rw [← List.flatMap_def, ← List.flatMap_id (L := bucketRuns entries maxBuckets),
      List.flatMap_assoc]
    rfl
  rw [hflat, flatten_bucketRuns hbuckets, flatMap_eventRuns]

/-! ## What the groups say -/

/-- What a group says of its events. -/
structure GroupSpan where
  count : Nat
  start : Option Int
  stop : Option Int
  failed : Bool
  running : Bool
  deriving DecidableEq, Repr

def TimelineGroup.span (group : TimelineGroup) : GroupSpan :=
  ⟨group.count, group.start, group.stop, group.failed, group.running⟩

/-- What is said of the events of some runs: the start of the first and the end of the last. -/
def spanOf (date : String → Option Int) (bucket : List EventRun) : GroupSpan where
  count := (eventsOf bucket).length
  start := bucket.head?.bind fun run => eventTimeOf date run.1
  stop := bucket.getLast?.bind fun run => (groupOf date run).stop
  failed := (eventsOf bucket).any isFailed
  running := (eventsOf bucket).any isRunning

theorem span_groupOf : (groupOf date run).span = spanOf date [run] := by
  simp [TimelineGroup.span, spanOf, eventsOf, groupOf_count, groupOf_start, groupOf_failed,
    groupOf_running]

theorem span_bucketOf {bucket : List EventRun} (h : bucket ≠ []) :
    (bucketOf (bucket.map (groupOf date))).map TimelineGroup.span = some (spanOf date bucket) := by
  obtain ⟨first, hfirst⟩ : ∃ first, bucket.head? = some first :=
    ⟨bucket.head h, List.head?_eq_some_head h⟩
  obtain ⟨last, hlast⟩ : ∃ last, bucket.getLast? = some last :=
    ⟨bucket.getLast h, List.getLast?_eq_some_getLast h⟩
  have hcount : (bucket.map fun run => (groupOf date run).count).sum =
      (eventsOf bucket).length := by
    rw [eventsOf, List.length_flatMap]
    exact congrArg List.sum (List.map_congr_left fun run _ => groupOf_count)
  have hany : ∀ (flag : TimelineGroup → Bool) (p : RunIndexItem → Bool),
      (∀ run : EventRun, flag (groupOf date run) = run.events.any p) →
      (bucket.map (groupOf date)).any flag = (eventsOf bucket).any p := by
    intro flag p hflag
    rw [List.any_map, eventsOf, List.any_flatMap]
    exact congrArg (bucket.any ·) (funext hflag)
  unfold bucketOf
  rw [List.head?_map, List.getLast?_map, hfirst, hlast, List.map_map]
  simp only [Option.map_some, Option.bind_some, TimelineGroup.span, spanOf, hfirst, hlast,
    groupOf_start, hany _ _ fun run => groupOf_failed, hany _ _ fun run => groupOf_running]
  rw [← hcount]
  rfl

/-- What the groups say of the events, bucket by bucket. -/
theorem groupTimelineItems_eq (date : String → Option Int) (entries : List RunIndexItem)
    (hbuckets : 0 < maxBuckets) :
    (groupTimelineItems date entries maxBuckets).map TimelineGroup.span =
      (bucketRuns entries maxBuckets).map (spanOf date) := by
  have hne : ∀ bucket ∈ bucketRuns entries maxBuckets, bucket ≠ [] := fun bucket h =>
    ne_nil_of_mem_bucketRuns hbuckets h
  unfold groupTimelineItems
  unfold bucketRuns at hne ⊢
  dsimp only at hne ⊢
  rw [foldl_collapseEntry, List.length_map]
  split
  · rw [List.map_map, List.map_map]
    exact List.map_congr_left fun run _ => span_groupOf
  · next hmany =>
    rw [if_neg hmany] at hne
    rw [map_slicesOf, List.filterMap_map, List.map_filterMap]
    refine (List.filterMap_congr fun bucket hbucket => ?_).trans (congrFun List.filterMap_eq_map _)
    exact span_bucketOf (hne bucket hbucket)

theorem length_groupTimelineItems_le (hbuckets : 0 < maxBuckets) :
    (groupTimelineItems date entries maxBuckets).length ≤ maxBuckets := by
  rw [← List.length_map (f := TimelineGroup.span), groupTimelineItems_eq date entries hbuckets,
    List.length_map]
  unfold bucketRuns
  dsimp only
  split
  · next h => rwa [List.length_map]
  · exact length_slicesOf_le (le_bucketSize_mul _ hbuckets)

/-! ## Intervals -/

/-- A time that an event has, and that no event comes after. -/
def IsLatest (date : String → Option Int) (events : List RunIndexItem) (t : Int) : Prop :=
  (∃ event ∈ events, eventTimeOf date event = some t) ∧
    ∀ event ∈ events, ∀ u, eventTimeOf date event = some u → u ≤ t

/-- A time that an event has, and that no event comes before. -/
def IsEarliest (date : String → Option Int) (events : List RunIndexItem) (s : Int) : Prop :=
  (∃ event ∈ events, eventTimeOf date event = some s) ∧
    ∀ event ∈ events, ∀ u, eventTimeOf date event = some u → s ≤ u

/-- The end of a group whose events all have a time. -/
theorem isLatest_groupOf (h : ∀ event ∈ run.events, eventTimeOf date event ≠ none) :
    ∃ t, (groupOf date run).stop = some t ∧ IsLatest date run.events t := by
  obtain ⟨first, rest⟩ := run
  induction rest using List.reverseRecOn with
  | nil =>
    obtain ⟨t, ht⟩ := Option.ne_none_iff_exists'.mp (h first List.mem_cons_self)
    refine ⟨t, ht, ⟨first, List.mem_cons_self, ht⟩, fun event hevent u hu => ?_⟩
    rw [List.mem_singleton.mp hevent, ht] at hu
    cases hu
    exact Int.le_refl t
  | append_singleton rest entry ih =>
    rw [events_concat (first, rest)] at h ⊢
    obtain ⟨t, ht, ⟨witness, hwitness, htime⟩, hle⟩ := ih fun event hevent =>
      h event (List.mem_append_left _ hevent)
    obtain ⟨u, hu⟩ := Option.ne_none_iff_exists'.mp (h entry (by simp))
    refine ⟨max t u, ?_, ?_, ?_⟩
    · rw [groupOf_concat (first, rest)]
      show maxTime _ _ = _
      rw [ht, hu]
      rfl
    · rcases Int.le_total t u with htu | hut
      · exact ⟨entry, by simp, by rw [hu, max_eq_right htu]⟩
      · exact ⟨witness, List.mem_append_left _ hwitness, by rw [htime, max_eq_left hut]⟩
    · intro event hevent v hv
      rcases List.mem_append.mp hevent with hevent | hevent
      · exact (hle event hevent v hv).trans (le_max_left t u)
      · rw [List.mem_singleton.mp hevent, hu] at hv
        cases hv
        exact le_max_right t u

/-- What a group that is returned has to say of its events. -/
structure Describes (date : String → Option Int) (events : List RunIndexItem)
    (group : TimelineGroup) : Prop where
  nonempty : events ≠ []
  count : group.count = events.length
  failed : group.failed = true ↔ ∃ event ∈ events, isFailed event = true
  running : group.running = true ↔ ∃ event ∈ events, isRunning event = true
  interval : (∀ event ∈ events, eventTimeOf date event ≠ none) →
    ∃ s t, group.start = some s ∧ group.stop = some t ∧ IsEarliest date events s ∧
      IsLatest date events t

/-- The groups are at most as many as the buckets, and they partition the events in their order. -/
def GroupsTimeline (date : String → Option Int) (entries : List RunIndexItem) (maxBuckets : Nat) :
    Prop :=
  (groupTimelineItems date entries maxBuckets).length ≤ maxBuckets ∧
    ((groupTimelineItems date entries maxBuckets).map TimelineGroup.count).sum = entries.length ∧
    ∃ parts : List (List RunIndexItem), parts.flatten = entries ∧
      List.Forall₂ (Describes date) parts (groupTimelineItems date entries maxBuckets)

/-- Where all events have a time, none is before the first one, and none after all those of the last
run. -/
def SpansItsEvents (date : String → Option Int) (bucket : List EventRun) : Prop :=
  (∀ event ∈ eventsOf bucket, eventTimeOf date event ≠ none) →
    (∀ run ∈ bucket.head?, ∀ s, eventTimeOf date run.1 = some s →
      ∀ event ∈ eventsOf bucket, ∀ u, eventTimeOf date event = some u → s ≤ u) ∧
    ∀ run ∈ bucket.getLast?, ∀ event ∈ eventsOf bucket, ∀ u, eventTimeOf date event = some u →
      ∃ later ∈ run.events, ∃ t, eventTimeOf date later = some t ∧ u ≤ t

theorem describes_iff {bucket : List EventRun} (h : bucket ≠ [])
    (hspan : group.span = spanOf date bucket) :
    Describes date (eventsOf bucket) group ↔ SpansItsEvents date bucket := by
  obtain ⟨first, hfirst⟩ : ∃ first, bucket.head? = some first :=
    ⟨bucket.head h, List.head?_eq_some_head h⟩
  obtain ⟨last, hlast⟩ : ∃ last, bucket.getLast? = some last :=
    ⟨bucket.getLast h, List.getLast?_eq_some_getLast h⟩
  have hmem : ∀ {run event}, run ∈ bucket → event ∈ run.events → event ∈ eventsOf bucket :=
    fun hrun hevent => List.mem_flatMap.mpr ⟨_, hrun, hevent⟩
  have hfirst' : first.1 ∈ eventsOf bucket :=
    hmem (List.mem_of_head? hfirst) List.mem_cons_self
  have hcount : group.count = (eventsOf bucket).length := congrArg GroupSpan.count hspan
  have hstart : group.start = eventTimeOf date first.1 := by
    have heq : group.start = _ := congrArg GroupSpan.start hspan
    simpa [spanOf, hfirst] using heq
  have hstop : group.stop = (groupOf date last).stop := by
    have heq : group.stop = _ := congrArg GroupSpan.stop hspan
    simpa [spanOf, hlast] using heq
  have hfailed : group.failed = (eventsOf bucket).any isFailed := congrArg GroupSpan.failed hspan
  have hrunning : group.running = (eventsOf bucket).any isRunning :=
    congrArg GroupSpan.running hspan
  constructor
  · intro hdescribes hdated
    obtain ⟨s, t, hs, ht, ⟨-, hearliest⟩, -, hlatest⟩ := hdescribes.interval hdated
    rw [hfirst, hlast]
    refine ⟨?_, ?_⟩
    · rintro run ⟨⟩ s' hs' event hevent u hu
      rw [hstart, hs'] at hs
      cases hs
      exact hearliest event hevent u hu
    · rintro run ⟨⟩ event hevent u hu
      obtain ⟨t', ht', ⟨later, hlater, htime⟩, -⟩ := isLatest_groupOf fun event hevent =>
        hdated event (hmem (List.mem_of_getLast? hlast) hevent)
      rw [hstop, ht'] at ht
      cases ht
      exact ⟨later, hlater, t, htime, hlatest event hevent u hu⟩
  · intro hspans
    refine ⟨List.ne_nil_of_mem hfirst', hcount, ?_, ?_, fun hdated => ?_⟩
    · rw [hfailed, List.any_eq_true]
    · rw [hrunning, List.any_eq_true]
    · obtain ⟨hearliest, hlatest⟩ := hspans hdated
      rw [hfirst] at hearliest
      rw [hlast] at hlatest
      obtain ⟨s, hs⟩ := Option.ne_none_iff_exists'.mp (hdated first.1 hfirst')
      obtain ⟨t, ht, ⟨last', hlast', htime⟩, hle⟩ := isLatest_groupOf fun event hevent =>
        hdated event (hmem (List.mem_of_getLast? hlast) hevent)
      refine ⟨s, t, hstart.trans hs, hstop.trans ht, ⟨⟨_, hfirst', hs⟩, hearliest first rfl s hs⟩,
        ⟨last', hmem (List.mem_of_getLast? hlast) hlast', htime⟩, fun event hevent u hu => ?_⟩
      obtain ⟨later, hlater, v, hv, huv⟩ := hlatest last rfl event hevent u hu
      exact huv.trans (hle later hlater v hv)

theorem forall₂_describes_iff {buckets : List (List EventRun)} {groups : List TimelineGroup}
    (hne : ∀ bucket ∈ buckets, bucket ≠ [])
    (hspans : List.Forall₂ (fun bucket group => spanOf date bucket = group.span) buckets groups) :
    List.Forall₂ (Describes date) (buckets.map eventsOf) groups ↔
      ∀ bucket ∈ buckets, SpansItsEvents date bucket := by
  induction hspans with
  | nil => simp
  | cons hspan _ ih =>
    rw [List.map_cons, List.forall₂_cons, List.forall_mem_cons,
      describes_iff (hne _ List.mem_cons_self) hspan.symm,
      ih fun bucket hbucket => hne bucket (List.mem_cons_of_mem _ hbucket)]

/-- **The groups keep what they should of the events exactly if, in each of them, no event is before
the first one and none after all those of the last run.** -/
theorem groupTimelineItems_partition_iff (date : String → Option Int) (entries : List RunIndexItem)
    (buckets : Nat) : GroupsTimeline date entries (buckets + 1) ↔
      ∀ bucket ∈ bucketRuns entries (buckets + 1), SpansItsEvents date bucket := by
  have hbuckets : 0 < buckets + 1 := Nat.succ_pos buckets
  have hspans := groupTimelineItems_eq date entries hbuckets
  have hforall : List.Forall₂ (fun bucket group => spanOf date bucket = group.span)
      (bucketRuns entries (buckets + 1)) (groupTimelineItems date entries (buckets + 1)) := by
    have heq : List.Forall₂ (· = ·) _ _ := List.forall₂_eq_eq_eq ▸ hspans.symm
    rwa [List.forall₂_map_left_iff, List.forall₂_map_right_iff] at heq
  have hcounts : (groupTimelineItems date entries (buckets + 1)).map TimelineGroup.count =
      ((bucketRuns entries (buckets + 1)).map eventsOf).map List.length := by
    have heq := congrArg (List.map GroupSpan.count) hspans
    rw [List.map_map, List.map_map] at heq
    rw [List.map_map]
    exact heq
  have hflat : ((bucketRuns entries (buckets + 1)).map eventsOf).flatten = entries :=
    flatten_eventsOf hbuckets
  rw [← forall₂_describes_iff (fun bucket => ne_nil_of_mem_bucketRuns hbuckets) hforall]
  constructor
  · rintro ⟨-, -, parts, hparts, hdescribes⟩
    have hlengths : parts.map List.length =
        (groupTimelineItems date entries (buckets + 1)).map TimelineGroup.count := by
      have heq := hdescribes.imp fun _ _ h => h.count.symm
      rw [← List.forall₂_eq_eq_eq, List.forall₂_map_left_iff, List.forall₂_map_right_iff]
      exact heq
    rwa [← List.eq_iff_flatten_eq.mpr ⟨hparts.trans hflat.symm, hlengths.trans hcounts⟩]
  · intro hdescribes
    refine ⟨length_groupTimelineItems_le hbuckets, ?_, _, hflat, hdescribes⟩
    rw [hcounts, ← List.length_flatten, hflat]

/-- Two tool events, the later one first: the group starts with the later one. -/
theorem unsorted_tools_start_late :
    ¬GroupsTimeline (fun text => some text.length)
      [{ eventId := "a", type := "tool.started", timestamp := "tt" },
        { eventId := "b", type := "tool.requested", timestamp := "t" }] 160 := by
  rintro ⟨-, -, parts, hparts, hdescribes⟩
  have hgroups : groupTimelineItems (fun text => some text.length)
      [{ eventId := "a", type := "tool.started", timestamp := "tt" },
        { eventId := "b", type := "tool.requested", timestamp := "t" }] 160 =
      [{ key := "a", lane := .execute, type := "tool.started", toolNames := [], count := 2,
         start := some 2, stop := some 2, failed := false, running := true,
         sample := { eventId := "a", type := "tool.started", timestamp := "tt" } }] := by
    rfl
  rw [hgroups] at hdescribes
  cases hdescribes with
  | cons hdescribes hrest =>
    cases hrest
    rw [List.flatten_cons, List.flatten_nil, List.append_nil] at hparts
    subst hparts
    obtain ⟨s, t, hs, -, ⟨-, hearliest⟩, -⟩ := hdescribes.interval (by decide)
    cases hs
    exact absurd (hearliest _ (List.mem_cons_of_mem _ List.mem_cons_self) 1 rfl) (by decide)

end ThreadForge

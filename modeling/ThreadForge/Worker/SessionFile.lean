import ThreadForge.Lib.Transition
import ThreadForge.Lib.WorkingCopies

/-!
# The runs of one session

The conversation of a session is one file of the Worker. A run loads it when it starts, `Pico.record`
appends to the history of the run and saves the whole session, and so do the constructor of `Pico`
and the checkpoints. How many runs there are at once is decided by the hub, for each device and not
for each session.

## What is left out

The other fields of the session, cancelled runs, and connections that break. Saving succeeds.

## Main results

* `SessionRuns.keepsHistory_iff` — when no history is lost.
-/

namespace ThreadForge

open Transition WorkingCopies

/-! ## The state -/

/-- Where a run stands on the Worker, with the history it holds. -/
inductive SessionRunPhase (α : Type)
  | absent
  | started
  | loaded (history : List α)
  | running (history : List α)
  | ended

/-- The `message_total` of a terminal message, and the length of the stored history when the message
was made. -/
structure TotalReport where
  messageTotal : Nat
  stored : Nat
  deriving DecidableEq, Repr

/-- The hub's count of the device, the frames on their way, the runs and the session file. -/
structure SessionRuns (ι α : Type) where
  /-- The tasks of the session in `_active_by_device`. -/
  active : List ι := []
  /-- How many tasks of other sessions are in it. -/
  others : Nat := 0
  /-- The `task.start` messages that were not handled. -/
  wire : List ι := []
  phase : ι → SessionRunPhase α := fun _ => .absent
  file : Option (List α)
  /-- What the runs recorded. -/
  recorded : List α := []
  reports : List TotalReport := []

inductive SessionAction (ι α : Type)
  /-- `create_task` and `dispatch`. -/
  | dispatch (task : ι)
  | dispatchOther
  | releaseOther
  /-- `_start_task`. -/
  | start
  /-- `run_task` loads the session. -/
  | loadSession (task : ι)
  /-- `Pico.__init__` saves it. -/
  | build (task : ι)
  /-- A checkpoint saves it. -/
  | checkpoint (task : ι)
  /-- `Pico.record`. -/
  | record (task : ι) (item : α)
  /-- `run_task` makes the terminal message. -/
  | finish (task : ι)
  /-- The handler around `run_task` makes it. -/
  | fail (task : ι)
  /-- The hub handles it. -/
  | release (task : ι)

namespace SessionRuns

variable {ι α : Type} [DecidableEq ι]

/-- The length of the stored history. -/
def storedTotal (s : SessionRuns ι α) : Nat :=
  match s.file with
  | some history => history.length
  | none => 0

def setPhase (s : SessionRuns ι α) (task : ι) (phase : SessionRunPhase α) : SessionRuns ι α :=
  { s with phase := Function.update s.phase task phase }

/-- A terminal message with this `message_total`. -/
def report (s : SessionRuns ι α) (messageTotal : Nat) : SessionRuns ι α :=
  { s with reports := s.reports ++ [⟨messageTotal, s.storedTotal⟩] }

/-- The state after an action, where it can be taken. `incoming` is the history of the session that
the hub sends along. -/
def next (limit : Nat) (incoming : List α) (s : SessionRuns ι α) :
    SessionAction ι α → Option (SessionRuns ι α)
  | .dispatch task =>
    match s.phase task with
    | .absent =>
      if task ∈ s.active ∨ task ∈ s.wire ∨ limit ≤ s.active.length + s.others then none
      else some { s with active := s.active ++ [task], wire := s.wire ++ [task] }
    | _ => none
  | .dispatchOther =>
    if limit ≤ s.active.length + s.others then none else some { s with others := s.others + 1 }
  | .releaseOther => if s.others = 0 then none else some { s with others := s.others - 1 }
  | .start =>
    match s.wire with
    | [] => none
    | task :: rest => some ({ s with wire := rest }.setPhase task .started)
  | .loadSession task =>
    match s.phase task with
    | .started => some (s.setPhase task (.loaded (s.file.getD incoming)))
    | _ => none
  | .build task =>
    match s.phase task with
    | .loaded history => some ({ s with file := some history }.setPhase task (.running history))
    | _ => none
  | .checkpoint task =>
    match s.phase task with
    | .running history => some { s with file := some history }
    | _ => none
  | .record task item =>
    match s.phase task with
    | .running history =>
      some ({ s with file := some (history ++ [item]), recorded := s.recorded ++ [item] }.setPhase
        task (.running (history ++ [item])))
    | _ => none
  | .finish task =>
    match s.phase task with
    | .running history => some ((s.report history.length).setPhase task .ended)
    | _ => none
  | .fail task =>
    match s.phase task with
    -- `_local_message_total` reads the file
    | .started | .loaded _ => some ((s.report s.storedTotal).setPhase task .ended)
    | _ => none
  | .release task =>
    match s.phase task with
    | .ended => some { s with active := s.active.erase task }
    | _ => none

def step (limit : Nat) (incoming : List α) (s : SessionRuns ι α) (a : SessionAction ι α)
    (t : SessionRuns ι α) : Prop :=
  s.next limit incoming a = some t

/-! ## What it is for -/

/-- Before any run. -/
def initial (file : Option (List α)) : SessionRuns ι α := { file := file }

/-- The stored history has all there was and all that was recorded, and every terminal message says
how long it is. -/
structure KeepsHistory (incoming : List α) (file : Option (List α)) (s : SessionRuns ι α) : Prop where
  recorded : (file.getD incoming ++ s.recorded).Subperm (s.file.getD incoming)
  total : ∀ report ∈ s.reports, report.messageTotal = report.stored

end SessionRuns

/-- What an action does with the session file. -/
def SessionAction.onFile {ι α : Type} : SessionAction ι α → Option (WorkingCopies.Action ι α)
  | .loadSession task => some (.load task)
  | .build task | .checkpoint task => some (.save task)
  | .record task item => some (.record task item)
  | .finish task => some (.report task)
  | .dispatch _ | .dispatchOther | .releaseOther | .start | .fail _ | .release _ => none

namespace SessionRuns

variable {ι α : Type}

/-- What the moves of a run do with the session file, the latest first. -/
def schedule (ms : List (Move (SessionRuns ι α) (SessionAction ι α))) :
    List (WorkingCopies.Action ι α) :=
  (ms.filterMap fun m => m.act.onFile).reverse

theorem schedule_snoc (ms : List (Move (SessionRuns ι α) (SessionAction ι α)))
    (m : Move (SessionRuns ι α) (SessionAction ι α)) :
    schedule (ms ++ [m]) = m.act.onFile.toList ++ schedule ms := by
  unfold schedule
  rw [List.filterMap_append, List.reverse_append]
  cases hact : m.act.onFile with
  | none => simp [hact]
  | some a => simp [hact]

variable [DecidableEq ι] {limit : Nat} {incoming : List α} {file : Option (List α)}
  {s t : SessionRuns ι α} {task : ι} {past : List (WorkingCopies.Action ι α)}

/-! ## What each action needs and does -/

/-- The history that a run holds. -/
def Holds (s : SessionRuns ι α) (task : ι) (history : List α) : Prop :=
  s.phase task = .loaded history ∨ s.phase task = .running history

theorem of_dispatch (h : s.next limit incoming (.dispatch task) = some t) :
    s.phase task = .absent ∧ task ∉ s.active ∧ task ∉ s.wire ∧ s.active.length + s.others < limit ∧
      t = { s with active := s.active ++ [task], wire := s.wire ++ [task] } := by
  simp only [next] at h
  split at h
  · next hphase =>
    split at h
    · cases h
    · next hfree =>
      obtain ⟨hactive, hrest⟩ := not_or.mp hfree
      obtain ⟨hwire, hlimit⟩ := not_or.mp hrest
      exact ⟨hphase, hactive, hwire, Nat.lt_of_not_le hlimit, (Option.some.inj h).symm⟩
  · cases h

theorem of_start (h : s.next limit incoming .start = some t) :
    ∃ task rest, s.wire = task :: rest ∧ t = { s with wire := rest }.setPhase task .started := by
  simp only [next] at h
  split at h
  · cases h
  · next task rest hwire => exact ⟨task, rest, hwire, (Option.some.inj h).symm⟩

theorem of_loadSession (h : s.next limit incoming (.loadSession task) = some t) :
    s.phase task = .started ∧ t = s.setPhase task (.loaded (s.file.getD incoming)) := by
  simp only [next] at h
  split at h
  · next hphase => exact ⟨hphase, (Option.some.inj h).symm⟩
  · cases h

theorem of_build (h : s.next limit incoming (.build task) = some t) :
    ∃ history, s.phase task = .loaded history ∧
      t = { s with file := some history }.setPhase task (.running history) := by
  simp only [next] at h
  split at h
  · next history hphase => exact ⟨history, hphase, (Option.some.inj h).symm⟩
  · cases h

theorem of_checkpoint (h : s.next limit incoming (.checkpoint task) = some t) :
    ∃ history, s.phase task = .running history ∧ t = { s with file := some history } := by
  simp only [next] at h
  split at h
  · next history hphase => exact ⟨history, hphase, (Option.some.inj h).symm⟩
  · cases h

theorem of_record {item : α} (h : s.next limit incoming (.record task item) = some t) :
    ∃ history, s.phase task = .running history ∧
      t = { s with file := some (history ++ [item]), recorded := s.recorded ++ [item] }.setPhase task
        (.running (history ++ [item])) := by
  simp only [next] at h
  split at h
  · next history hphase => exact ⟨history, hphase, (Option.some.inj h).symm⟩
  · cases h

theorem of_finish (h : s.next limit incoming (.finish task) = some t) :
    ∃ history, s.phase task = .running history ∧
      t = (s.report history.length).setPhase task .ended := by
  simp only [next] at h
  split at h
  · next history hphase => exact ⟨history, hphase, (Option.some.inj h).symm⟩
  · cases h

theorem of_fail (h : s.next limit incoming (.fail task) = some t) :
    (s.phase task = .started ∨ ∃ history, s.phase task = .loaded history) ∧
      t = (s.report s.storedTotal).setPhase task .ended := by
  simp only [next] at h
  split at h
  · next hphase => exact ⟨Or.inl hphase, (Option.some.inj h).symm⟩
  · next history hphase => exact ⟨Or.inr ⟨history, hphase⟩, (Option.some.inj h).symm⟩
  · cases h

theorem of_release (h : s.next limit incoming (.release task) = some t) :
    s.phase task = .ended ∧ t = { s with active := s.active.erase task } := by
  simp only [next] at h
  split at h
  · next hphase => exact ⟨hphase, (Option.some.inj h).symm⟩
  · cases h

theorem holds_setPhase {phase : SessionRunPhase α} {other : ι} {history : List α}
    (h : (s.setPhase task phase).Holds other history) :
    (other = task ∧ (phase = .loaded history ∨ phase = .running history)) ∨
      (other ≠ task ∧ s.Holds other history) := by
  unfold Holds setPhase at h
  by_cases hother : other = task
  · subst hother
    simp only [Function.update_self] at h
    exact Or.inl ⟨rfl, h⟩
  · simp only [Function.update_of_ne hother] at h
    exact Or.inr ⟨hother, h⟩

theorem running_setPhase {phase : SessionRunPhase α} {other : ι} {history : List α}
    (h : (s.setPhase task phase).phase other = .running history) :
    (other = task ∧ phase = .running history) ∨ (other ≠ task ∧ s.phase other = .running history) := by
  unfold setPhase at h
  by_cases hother : other = task
  · subst hother
    simp only [Function.update_self] at h
    exact Or.inl ⟨rfl, h⟩
  · simp only [Function.update_of_ne hother] at h
    exact Or.inr ⟨hother, h⟩

/-- Every terminal message says how long the stored history is. -/
def Tells (s : SessionRuns ι α) : Prop := ∀ report ∈ s.reports, report.messageTotal = report.stored

omit [DecidableEq ι] in
theorem tells_report {messageTotal : Nat} :
    (s.report messageTotal).Tells ↔ messageTotal = s.storedTotal ∧ s.Tells := by
  unfold Tells report
  simp only [List.forall_mem_append, List.forall_mem_singleton]
  exact and_comm

/-! ## The session file is a log with working copies -/

/-- The state is what the actions on the session file make of it. -/
structure Refines (incoming : List α) (file : Option (List α)) (s : SessionRuns ι α)
    (past : List (WorkingCopies.Action ι α)) : Prop where
  file_eq : s.file.getD incoming = (afterAll (file.getD incoming) past).file
  held_eq : ∀ task history, s.Holds task history →
    (afterAll (file.getD incoming) past).held task = history
  saved : ∀ task history, s.phase task = .running history → s.file ≠ none
  recorded_eq : s.recorded = WorkingCopies.recorded past
  tells_iff : s.Tells ↔ EveryReport (fun task older =>
    ((afterAll (file.getD incoming) older).held task).length =
      (afterAll (file.getD incoming) older).file.length) past

/-- What an action that leaves the session file alone keeps. -/
structure Quiet (s t : SessionRuns ι α) : Prop where
  file : t.file = s.file
  recorded : t.recorded = s.recorded
  holds : ∀ task history, t.Holds task history → s.Holds task history
  running : ∀ task history, t.phase task = .running history → s.phase task = .running history
  tells : t.Tells ↔ s.Tells

omit [DecidableEq ι] in
theorem Quiet.of_same (hfile : t.file = s.file) (hrecorded : t.recorded = s.recorded)
    (hphase : t.phase = s.phase) (hreports : t.reports = s.reports) : Quiet s t := by
  refine ⟨hfile, hrecorded, ?_, ?_, ?_⟩
  · intro task history h
    unfold Holds at h ⊢
    rwa [hphase] at h
  · intro task history h
    rwa [hphase] at h
  · unfold Tells
    rw [hreports]

/-- A run that holds nothing takes no one's history. -/
theorem Quiet.of_setPhase {phase : SessionRunPhase α} (h : Quiet s t)
    (hphase : phase = .started ∨ phase = .ended) : Quiet s (t.setPhase task phase) := by
  refine ⟨h.file, h.recorded, ?_, ?_, h.tells⟩
  · intro other history hholds
    rcases holds_setPhase hholds with ⟨-, hloaded | hrunning⟩ | ⟨-, hother⟩
    · rcases hphase with rfl | rfl <;> cases hloaded
    · rcases hphase with rfl | rfl <;> cases hrunning
    · exact h.holds other history hother
  · intro other history hholds
    rcases running_setPhase hholds with ⟨-, hrunning⟩ | ⟨-, hother⟩
    · rcases hphase with rfl | rfl <;> cases hrunning
    · exact h.running other history hother

theorem quiet_of_onFile_none {a : SessionAction ι α} (hfile : a.onFile = none)
    (h : s.next limit incoming a = some t) : Quiet s t := by
  cases a with
  | dispatch task =>
    obtain ⟨-, -, -, -, rfl⟩ := of_dispatch h
    exact Quiet.of_same rfl rfl rfl rfl
  | dispatchOther =>
    simp only [next] at h
    split at h
    · cases h
    · rw [← Option.some.inj h]
      exact Quiet.of_same rfl rfl rfl rfl
  | releaseOther =>
    simp only [next] at h
    split at h
    · cases h
    · rw [← Option.some.inj h]
      exact Quiet.of_same rfl rfl rfl rfl
  | start =>
    obtain ⟨task, rest, -, rfl⟩ := of_start h
    have hquiet : Quiet s { s with wire := rest } := Quiet.of_same rfl rfl rfl rfl
    exact hquiet.of_setPhase (Or.inl rfl)
  | fail task =>
    obtain ⟨-, rfl⟩ := of_fail h
    have htells : (s.report s.storedTotal).Tells ↔ s.Tells :=
      tells_report.trans (and_iff_right rfl)
    have hreport : Quiet s (s.report s.storedTotal) :=
      ⟨rfl, rfl, fun _ _ hholds => hholds, fun _ _ hrunning => hrunning, htells⟩
    exact hreport.of_setPhase (Or.inr rfl)
  | release task =>
    obtain ⟨-, rfl⟩ := of_release h
    exact Quiet.of_same rfl rfl rfl rfl
  | loadSession task => cases hfile
  | build task => cases hfile
  | checkpoint task => cases hfile
  | record task item => cases hfile
  | finish task => cases hfile

theorem Quiet.refines (h : Quiet s t) (hs : Refines incoming file s past) :
    Refines incoming file t past := by
  refine ⟨?_, fun task history hholds => hs.held_eq task history (h.holds task history hholds), ?_,
    h.recorded.trans hs.recorded_eq, h.tells.trans hs.tells_iff⟩
  · rw [h.file]
    exact hs.file_eq
  · intro task history hrunning
    rw [h.file]
    exact hs.saved task history (h.running task history hrunning)

omit [DecidableEq ι] in
theorem storedTotal_eq (h : s.file ≠ none) : s.storedTotal = (s.file.getD incoming).length := by
  unfold storedTotal
  cases hfile : s.file with
  | none => exact absurd hfile h
  | some history => rfl

/-- The step lemma of the refinement. -/
theorem Refines.step {a : SessionAction ι α} (hs : Refines incoming file s past)
    (h : s.next limit incoming a = some t) :
    Refines incoming file t (a.onFile.toList ++ past) := by
  cases a with
  | loadSession task =>
    obtain ⟨-, rfl⟩ := of_loadSession h
    refine ⟨hs.file_eq, ?_, ?_, hs.recorded_eq, hs.tells_iff⟩
    · intro other history hholds
      show Function.update (afterAll (file.getD incoming) past).held task
        (afterAll (file.getD incoming) past).file other = history
      rcases holds_setPhase hholds with ⟨rfl, hloaded | hrunning⟩ | ⟨hother, hbefore⟩
      · rw [Function.update_self, ← hs.file_eq]
        cases hloaded
        rfl
      · cases hrunning
      · rw [Function.update_of_ne hother]
        exact hs.held_eq other history hbefore
    · intro other history hrunning
      rcases running_setPhase hrunning with ⟨-, hloaded⟩ | ⟨-, hbefore⟩
      · cases hloaded
      · exact hs.saved other history hbefore
  | build task =>
    obtain ⟨history, hphase, rfl⟩ := of_build h
    have hheld := hs.held_eq task history (Or.inl hphase)
    refine ⟨hheld.symm, ?_, fun _ _ _ => Option.some_ne_none _, hs.recorded_eq, hs.tells_iff⟩
    intro other history' hholds
    rcases holds_setPhase hholds with ⟨rfl, hloaded | hrunning⟩ | ⟨-, hbefore⟩
    · cases hloaded
    · cases hrunning
      exact hheld
    · exact hs.held_eq other history' hbefore
  | checkpoint task =>
    obtain ⟨history, hphase, rfl⟩ := of_checkpoint h
    exact ⟨(hs.held_eq task history (Or.inr hphase)).symm, hs.held_eq,
      fun _ _ _ => Option.some_ne_none _, hs.recorded_eq, hs.tells_iff⟩
  | record task item =>
    obtain ⟨history, hphase, rfl⟩ := of_record h
    have hheld := hs.held_eq task history (Or.inr hphase)
    refine ⟨?_, ?_, fun _ _ _ => Option.some_ne_none _, ?_, hs.tells_iff⟩
    · show history ++ [item] = _
      rw [← hheld]
      rfl
    · intro other history' hholds
      show Function.update (afterAll (file.getD incoming) past).held task
        ((afterAll (file.getD incoming) past).held task ++ [item]) other = history'
      rcases holds_setPhase hholds with ⟨rfl, hloaded | hrunning⟩ | ⟨hother, hbefore⟩
      · cases hloaded
      · rw [Function.update_self, hheld]
        cases hrunning
        rfl
      · rw [Function.update_of_ne hother]
        exact hs.held_eq other history' hbefore
    · show s.recorded ++ [item] = _
      rw [hs.recorded_eq]
      rfl
  | finish task =>
    obtain ⟨history, hphase, rfl⟩ := of_finish h
    have hquiet : ∀ other history', ((s.report history.length).setPhase task .ended).Holds other
        history' → s.Holds other history' := by
      intro other history' hholds
      rcases holds_setPhase hholds with ⟨-, hloaded | hrunning⟩ | ⟨-, hbefore⟩
      · cases hloaded
      · cases hrunning
      · exact hbefore
    refine ⟨hs.file_eq, fun other history' hholds => hs.held_eq other history'
      (hquiet other history' hholds), ?_, hs.recorded_eq, ?_⟩
    · intro other history' hrunning
      rcases running_setPhase hrunning with ⟨-, hended⟩ | ⟨-, hbefore⟩
      · cases hended
      · exact hs.saved other history' hbefore
    · refine tells_report.trans (and_congr ?_ hs.tells_iff)
      show history.length = s.storedTotal ↔
        ((afterAll (file.getD incoming) past).held task).length =
          (afterAll (file.getD incoming) past).file.length
      rw [storedTotal_eq (hs.saved task history hphase), hs.file_eq,
        hs.held_eq task history (Or.inr hphase)]
  | dispatch task => exact (quiet_of_onFile_none rfl h).refines hs
  | dispatchOther => exact (quiet_of_onFile_none rfl h).refines hs
  | releaseOther => exact (quiet_of_onFile_none rfl h).refines hs
  | start => exact (quiet_of_onFile_none rfl h).refines hs
  | fail task => exact (quiet_of_onFile_none rfl h).refines hs
  | release task => exact (quiet_of_onFile_none rfl h).refines hs

variable {ms : List (Move (SessionRuns ι α) (SessionAction ι α))}

/-- The state a run ends in is what its schedule makes of the session file. -/
theorem Refines.of_run (h : Run (SessionRuns.step limit incoming) (initial file) ms t) :
    Refines incoming file t (schedule ms) := by
  induction h with
  | nil =>
    refine ⟨rfl, ?_, ?_, rfl, iff_of_true (fun _ hreport => absurd hreport List.not_mem_nil) trivial⟩
    · rintro task history (hphase | hphase) <;> cases hphase
    · intro task history hphase
      cases hphase
  | snoc _ hstep ih =>
    rw [schedule_snoc]
    exact ih.step hstep

/--
**No history of the session is lost and every `message_total` is right, exactly where every record
lies on the lineage of the session file and a run that ends has the lineage of the file.**

Any number of runs, and any order of their steps and of those of the hub. Two runs of one session
that overlap break it as soon as both record.
-/
theorem keepsHistory_iff (h : Run (SessionRuns.step limit incoming) (initial file) ms t) :
    t.KeepsHistory incoming file ↔ Traced (schedule ms) := by
  have hrefines := Refines.of_run h
  have htraced : _ ∧ EveryReport (fun task older =>
      ((afterAll (file.getD incoming) older).held task).length =
        (afterAll (file.getD incoming) older).file.length) (schedule ms) ↔ Traced (schedule ms) :=
    kept_iff_traced
  rw [← htraced, ← hrefines.tells_iff, ← hrefines.file_eq, ← hrefines.recorded_eq]
  exact ⟨fun hkept => ⟨hkept.recorded, hkept.total⟩, fun hkept => ⟨hkept.1, hkept.2⟩⟩

/-! ## Two runs -/

/-- One run after the other. -/
def oneAfterTheOther : List (SessionAction String String) :=
  [.dispatch "a", .start, .loadSession "a", .build "a", .record "a" "hello", .finish "a",
    .release "a", .dispatch "b", .start, .loadSession "b", .build "b", .record "b" "again",
    .finish "b", .release "b"]

/-- Two runs that both start from the empty session. -/
def overlapping : List (SessionAction String String) :=
  [.dispatch "a", .dispatch "b", .start, .start, .loadSession "a", .loadSession "b", .build "a",
    .build "b", .record "a" "hello", .record "b" "again", .finish "a", .finish "b", .release "a",
    .release "b"]

/-- The state after a script, with two tasks for each device as it is by default. -/
def after (script : List (SessionAction String String)) : SessionRuns String String :=
  (execute (next 2 []) (initial none) script).getD (initial none)

theorem keepsHistory_iff_oneAfterTheOther :
    (after oneAfterTheOther).KeepsHistory [] none := by
  have hrun : Run (SessionRuns.step 2 []) (initial none) (movesOf (next 2 []) (initial none)
      oneAfterTheOther) (after oneAfterTheOther) :=
    Run.of_execute (fun _ _ _ hstep => hstep) rfl
  refine (keepsHistory_iff hrun).mpr ⟨?_, rfl, rfl, trivial⟩
  show ∀ p < 2, p ∈ [1, 0]
  decide

/-- The first record is gone from the file. -/
theorem overlapping_loses_history :
    (execute (next 2 []) (initial none) overlapping).isSome = true ∧
      (after overlapping).file = some ["again"] ∧ (after overlapping).recorded = ["hello", "again"] ∧
      ¬(after overlapping).KeepsHistory [] none := by
  refine ⟨rfl, rfl, rfl, fun hkept => ?_⟩
  have hlength : 2 ≤ 1 := hkept.recorded.length_le
  omega

end SessionRuns

end ThreadForge

import ThreadForge.Store.ControlStore
import ThreadForge.Lib.Transition

/-!
# When the import at startup keeps what was committed

The import writes every mirror file over its row. It changes nothing that was committed exactly
where the files it gets to hold what was committed, and they do unless a call that changed or
deleted a record was cut off between its transaction and the record's file, or two such calls
reached the file in the other order. A call that creates a record can be cut off there: without a
file there is nothing to import.

## Main results

* `ControlStore.next_cases` — what a step does to the two stores.
* `ControlStore.Synced` — files and rows agree up to what the calls still owe.
* `ControlStore.import_keeps_iff` — for every run.
-/

namespace ThreadForge

open Transition Faults

/-! ## Writing records -/

def StoreWrite.id : StoreWrite → RecordId
  | .put r => r.id
  | .drop dropped => dropped

@[simp] theorem lookup_writeRecord (records : RecordMap) (w : StoreWrite) (id : RecordId) :
    (writeRecord records w).lookup id = w.leaves id (records.lookup id) := by
  cases w with
  | put r =>
    by_cases hid : id = r.id
    · rw [StoreWrite.leaves, if_pos hid, hid]
      exact AList.lookup_insert records
    · rw [StoreWrite.leaves, if_neg hid]
      exact AList.lookup_insert_ne hid
  | drop dropped =>
    by_cases hid : id = dropped
    · rw [StoreWrite.leaves, if_pos hid, hid]
      exact AList.lookup_erase dropped records
    · rw [StoreWrite.leaves, if_neg hid]
      exact AList.lookup_erase_ne hid

theorem leaves_of_ne {w : StoreWrite} {id : RecordId} (h : id ≠ w.id)
    (old : Option ControlRecord) : w.leaves id old = old := by
  cases w with
  | put r => exact if_neg h
  | drop dropped => exact if_neg h

/-- A write leaves the same under its id whatever was there. -/
theorem leaves_self (w : StoreWrite) (old old' : Option ControlRecord) :
    w.leaves w.id old = w.leaves w.id old' := by
  cases w with
  | put r => rw [StoreWrite.leaves, StoreWrite.leaves, StoreWrite.id, if_pos rfl, if_pos rfl]
  | drop dropped => rw [StoreWrite.leaves, StoreWrite.leaves, StoreWrite.id, if_pos rfl, if_pos rfl]

theorem lookup_writeRecords (records : RecordMap) (ws : List StoreWrite) (id : RecordId) :
    (writeRecords records ws).lookup id =
      ws.foldl (fun old w => w.leaves id old) (records.lookup id) := by
  induction ws generalizing records with
  | nil => rfl
  | cons w rest ih =>
    show (writeRecords (writeRecord records w) rest).lookup id = _
    rw [ih, lookup_writeRecord]
    rfl

theorem lookup_writeRecords_of_ne {records : RecordMap} {ws : List StoreWrite} {id : RecordId}
    (h : ∀ w ∈ ws, id ≠ w.id) : (writeRecords records ws).lookup id = records.lookup id := by
  induction ws generalizing records with
  | nil => rfl
  | cons w rest ih =>
    show (writeRecords (writeRecord records w) rest).lookup id = _
    rw [ih fun v hv => h v (List.mem_cons_of_mem _ hv), lookup_writeRecord,
      leaves_of_ne (h w List.mem_cons_self)]

/-- The writes of a call treat each id in one way. -/
def Uniform (ws : List StoreWrite) : Prop := ∀ w ∈ ws, ∀ v ∈ ws, w.id = v.id → w = v

theorem uniform_put (r : ControlRecord) : Uniform [.put r] := by
  intro w hw v hv _
  rw [List.mem_singleton.mp hw, List.mem_singleton.mp hv]

theorem uniform_drop (ids : List RecordId) : Uniform (ids.map .drop) := by
  intro w hw v hv hsame
  obtain ⟨id, -, rfl⟩ := List.mem_map.mp hw
  obtain ⟨other, -, rfl⟩ := List.mem_map.mp hv
  exact congrArg StoreWrite.drop hsame

/-- Each write of a call is what its id is left with. -/
theorem lookup_writeRecords_of_mem {records : RecordMap} {ws : List StoreWrite} {w : StoreWrite}
    (huniform : Uniform ws) (hw : w ∈ ws) :
    (writeRecords records ws).lookup w.id = w.leaves w.id none := by
  induction ws generalizing records with
  | nil => cases hw
  | cons v rest ih =>
    show (writeRecords (writeRecord records v) rest).lookup w.id = _
    have hrest : Uniform rest := fun a ha b hb =>
      huniform a (List.mem_cons_of_mem _ ha) b (List.mem_cons_of_mem _ hb)
    by_cases hagain : ∃ u ∈ rest, w.id = u.id
    · obtain ⟨u, hu, hid⟩ := hagain
      have hsame : w = u := huniform w hw u (List.mem_cons_of_mem _ hu) hid
      exact ih hrest (hsame ▸ hu)
    · have hlast : ∀ u ∈ rest, w.id ≠ u.id := fun u hu hid => hagain ⟨u, hu, hid⟩
      have hfirst : w = v := by
        rcases List.mem_cons.mp hw with hv | hin
        · exact hv
        · exact absurd rfl (hlast w hin)
      rw [lookup_writeRecords_of_ne hlast, lookup_writeRecord, ← hfirst]
      exact leaves_self w _ _

/-- After records are put, an id holds one of them, or what it held. -/
theorem lookup_putRecords (records : RecordMap) (put : List ControlRecord) (id : RecordId) :
    (∃ r ∈ put, r.id = id ∧ (writeRecords records (put.map .put)).lookup id = some r) ∨
      (∀ r ∈ put, r.id ≠ id) ∧
        (writeRecords records (put.map .put)).lookup id = records.lookup id := by
  induction put generalizing records with
  | nil => exact Or.inr ⟨fun r hr => absurd hr List.not_mem_nil, rfl⟩
  | cons r rest ih =>
    rcases ih (writeRecord records (.put r)) with ⟨last, hmem, hid, hlast⟩ | ⟨hnone, hsame⟩
    · exact Or.inl ⟨last, List.mem_cons_of_mem _ hmem, hid, hlast⟩
    by_cases hr : r.id = id
    · refine Or.inl ⟨r, List.mem_cons_self, hr, hsame.trans ?_⟩
      rw [lookup_writeRecord, StoreWrite.leaves, if_pos hr.symm]
    · refine Or.inr ⟨?_, hsame.trans ?_⟩
      · intro other hother
        rcases List.mem_cons.mp hother with rfl | hrest
        · exact hr
        · exact hnone other hrest
      · rw [lookup_writeRecord, StoreWrite.leaves, if_neg fun h => hr h.symm]

namespace ControlStore

variable {env : StoreEnv} {s t : ControlStore}

/-! ## One step -/

/-- **What a step does to the two stores**: nothing, a transaction, a change of a file, or what a
restart imports. -/
theorem next_cases {action : StoreAction} (h : s.next env action = some t) :
    (t = s ∨ ∃ ws, Uniform ws ∧ t = s.begin ws) ∨
    (∃ r, action = .create r ∧ s.rows.lookup r.id = none ∧
      t = { s.commit [.put r] with calls := s.calls ++ [.mirroring [.put r]] }) ∨
    (∃ index ws, action = .commit index ∧ s.calls[index]? = some (.committing ws) ∧
      t = { s.commit ws with calls := s.calls.set index (.mirroring ws) }) ∨
    (∃ index w rest, action = .mirror index true ∧
      s.calls[index]? = some (.mirroring (w :: rest)) ∧
      t = { s with calls := s.calls.set index (.mirroring []) }) ∨
    (∃ index w rest, action = .mirror index false ∧
      s.calls[index]? = some (.mirroring (w :: rest)) ∧
      t = { s with
        files := writeRecord s.files w
        calls := s.calls.set index (.mirroring rest) }) ∨
    ∃ cut, action = .restart cut ∧ t = { s with
      rows := writeRecords s.rows ((s.importedRows env cut).map .put)
      files := writeRecords s.files ((s.importedFiles env cut).map .put)
      calls := [] } := by
  cases action with
  | create r =>
    simp only [next] at h
    split at h
    · next hnone => exact Or.inr (Or.inl ⟨r, rfl, hnone, (Option.some.inj h).symm⟩)
    · exact Or.inl (Or.inl (Option.some.inj h).symm)
  | updateTask taskId call =>
    simp only [next] at h
    split at h
    · exact Or.inl (Or.inr ⟨_, uniform_put _, (Option.some.inj h).symm⟩)
    · exact Or.inl (Or.inl (Option.some.inj h).symm)
  | updateApproval approvalId fn =>
    simp only [next] at h
    split at h
    · exact Or.inl (Or.inr ⟨_, uniform_put _, (Option.some.inj h).symm⟩)
    · exact Or.inl (Or.inl (Option.some.inj h).symm)
  | deleteTasks taskIds ownerId =>
    simp only [next] at h
    split at h
    · exact Or.inl (Or.inr ⟨_, uniform_drop _, (Option.some.inj h).symm⟩)
    · exact Or.inl (Or.inl (Option.some.inj h).symm)
  | deleteApprovals taskIds ownerId =>
    simp only [next] at h
    split at h
    · exact Or.inl (Or.inr ⟨_, uniform_drop _, (Option.some.inj h).symm⟩)
    · exact Or.inl (Or.inl (Option.some.inj h).symm)
  | commit index =>
    simp only [next] at h
    split at h
    · next ws hcall =>
      exact Or.inr (Or.inr (Or.inl ⟨index, ws, rfl, hcall, (Option.some.inj h).symm⟩))
    · cases h
  | mirror index fails =>
    simp only [next] at h
    split at h
    · next w rest hcall =>
      split at h
      · next hfails =>
        rw [hfails]
        exact Or.inr (Or.inr (Or.inr (Or.inl
          ⟨index, w, rest, rfl, hcall, (Option.some.inj h).symm⟩)))
      · next hfails =>
        rw [Bool.not_eq_true] at hfails
        rw [hfails]
        exact Or.inr (Or.inr (Or.inr (Or.inr (Or.inl
          ⟨index, w, rest, rfl, hcall, (Option.some.inj h).symm⟩))))
    · cases h
  | restart cut =>
    exact Or.inr (Or.inr (Or.inr (Or.inr (Or.inr ⟨cut, rfl, (Option.some.inj h).symm⟩))))

/-- The rows hold what was committed. -/
def Whole (s : ControlStore) : Prop := ∀ id, s.rows.lookup id = s.committed id

theorem Whole.commit (h : s.Whole) (ws : List StoreWrite) : (s.commit ws).Whole := by
  intro id
  show (writeRecords s.rows ws).lookup id = ws.foldl _ (s.committed id)
  rw [lookup_writeRecords, h id]

/-- Every step but a restart keeps the rows what was committed. -/
theorem Whole.step {action : StoreAction} (h : s.Whole)
    (hrestart : ∀ cut, action = .restart cut → t.Whole) (hstep : s.next env action = some t) :
    t.Whole := by
  rcases next_cases hstep with (rfl | ⟨ws, -, rfl⟩) | ⟨r, -, -, rfl⟩ | ⟨index, ws, -, -, rfl⟩ |
    ⟨index, w, rest, -, -, rfl⟩ | ⟨index, w, rest, -, -, rfl⟩ | ⟨cut, haction, -⟩
  · exact h
  · exact h
  · exact fun id => h.commit [.put r] id
  · exact fun id => h.commit ws id
  · exact h
  · exact h
  · exact hrestart cut haction

/-- A file is named after its record. -/
def Named (s : ControlStore) : Prop := ∀ id r, s.files.lookup id = some r → r.id = id

theorem named_writeRecord {files : RecordMap} (h : ∀ id r, files.lookup id = some r → r.id = id)
    (w : StoreWrite) (id : RecordId) (r : ControlRecord)
    (hr : (writeRecord files w).lookup id = some r) : r.id = id := by
  rw [lookup_writeRecord] at hr
  cases w with
  | put put =>
    by_cases hid : id = put.id
    · rw [StoreWrite.leaves, if_pos hid] at hr
      rw [← Option.some.inj hr, hid]
    · rw [StoreWrite.leaves, if_neg hid] at hr
      exact h id r hr
  | drop dropped =>
    by_cases hid : id = dropped
    · rw [StoreWrite.leaves, if_pos hid] at hr
      cases hr
    · rw [StoreWrite.leaves, if_neg hid] at hr
      exact h id r hr

theorem Named.step {action : StoreAction} (h : s.Named) (hstep : s.next env action = some t) :
    t.Named := by
  rcases next_cases hstep with (rfl | ⟨ws, -, rfl⟩) | ⟨r, -, -, rfl⟩ | ⟨index, ws, -, -, rfl⟩ |
    ⟨index, w, rest, -, -, rfl⟩ | ⟨index, w, rest, -, -, rfl⟩ | ⟨cut, -, rfl⟩
  · exact h
  · exact h
  · exact h
  · exact h
  · exact h
  · exact fun id r hr => named_writeRecord h w id r hr
  · exact applyAll_invariant (fun files : RecordMap => ∀ id r, files.lookup id = some r → r.id = id)
      (fun w _ files hfiles => named_writeRecord hfiles w) h

/-! ## The import -/

theorem mem_of_mapM_some {α β : Type*} {f : α → Option β} {l : List α} {l' : List β}
    (h : l.mapM f = some l') {b : β} (hb : b ∈ l') : ∃ a ∈ l, f a = some b := by
  induction l generalizing l' with
  | nil =>
    rw [List.mapM_nil] at h
    rw [← Option.some.inj h] at hb
    cases hb
  | cons a rest ih =>
    rw [List.mapM_cons] at h
    obtain ⟨first, hfirst, h⟩ := Option.bind_eq_some_iff.mp h
    obtain ⟨others, hothers, h⟩ := Option.bind_eq_some_iff.mp h
    rw [← Option.some.inj h] at hb
    rcases List.mem_cons.mp hb with rfl | hrest
    · exact ⟨a, List.mem_cons_self, hfirst⟩
    · obtain ⟨a', hmem, ha'⟩ := ih hothers hrest
      exact ⟨a', List.mem_cons_of_mem _ hmem, ha'⟩

theorem mem_listed {entry : Sigma fun _ : RecordId => ControlRecord} (h : entry ∈ s.listed) :
    s.files.lookup entry.1 = some entry.2 := by
  have hmem : entry ∈ s.files.entries := by
    rcases List.mem_append.mp h with htask | happroval
    · exact List.mem_of_mem_filter ((List.mem_insertionSort _).mp htask)
    · exact List.mem_of_mem_filter ((List.mem_insertionSort _).mp happroval)
  exact AList.mem_lookup_iff.mpr hmem

/-- Decoding a file respells its owner. -/
theorem importRecord_id {payload r : ControlRecord} (h : env.importRecord payload = some r) :
    r.id = payload.id := by
  unfold StoreEnv.importRecord StoreEnv.fromPayload at h
  obtain ⟨ownerId, -, rfl⟩ := Option.map_eq_some_iff.mp h
  rw [ControlRecord.id_setOwner]
  cases env.ownerId with
  | none => rfl
  | some claimed =>
    simp only
    split
    · exact ControlRecord.id_setOwner ..
    · rfl

/-- A record that is imported comes from its own file. -/
theorem mem_importRecords (hnamed : s.Named) {r : ControlRecord} (h : r ∈ s.importRecords env) :
    ∃ payload, s.files.lookup r.id = some payload ∧ env.importRecord payload = some r := by
  unfold importRecords at h
  cases hall : s.listed.mapM fun entry => env.importRecord entry.2 with
  | none =>
    rw [hall] at h
    cases h
  | some records =>
    rw [hall] at h
    obtain ⟨entry, hentry, himport⟩ := mem_of_mapM_some hall h
    have hfile := mem_listed hentry
    have hid : r.id = entry.1 := (importRecord_id himport).trans (hnamed _ _ hfile)
    exact ⟨entry.2, by rw [hid]; exact hfile, himport⟩

/-- The records of a startup are told apart by their ids. -/
theorem importRecords_unique (hnamed : s.Named) {r other : ControlRecord}
    (h : r ∈ s.importRecords env) (hother : other ∈ s.importRecords env) (hid : r.id = other.id) :
    r = other := by
  obtain ⟨payload, hfile, himport⟩ := mem_importRecords hnamed h
  obtain ⟨payload', hfile', himport'⟩ := mem_importRecords hnamed hother
  rw [hid, hfile'] at hfile
  rw [Option.some.inj hfile, himport] at himport'
  exact Option.some.inj himport'

/-- Each row the import of a restart gets to write is the one committed. -/
def Agrees (env : StoreEnv) (s : ControlStore) : StoreAction → Prop
  | .restart cut => ∀ r ∈ s.importedRows env cut, s.committed r.id = some r
  | _ => True

/-- **A restart keeps what was committed exactly where the files it gets to hold it.** -/
theorem restart_whole_iff {cut : Nat} (hnamed : s.Named) (hwhole : s.Whole)
    (hstep : s.next env (.restart cut) = some t) : t.Whole ↔ Agrees env s (.restart cut) := by
  rw [← Option.some.inj hstep]
  constructor
  · intro hafter r hr
    rcases lookup_putRecords s.rows (s.importedRows env cut) r.id with
      ⟨last, hmem, hid, hlast⟩ | ⟨hnone, -⟩
    · have hsame : last = r := importRecords_unique hnamed (List.mem_of_mem_take hmem)
        (List.mem_of_mem_take hr) hid
      rw [← hsame, hid]
      exact (hafter r.id).symm.trans (by rw [← hsame]; exact hsame ▸ hlast)
    · exact absurd rfl (hnone r hr)
  · intro hagrees id
    rcases lookup_putRecords s.rows (s.importedRows env cut) id with
      ⟨last, hmem, hid, hlast⟩ | ⟨-, hsame⟩
    · refine hlast.trans ?_
      rw [← hid]
      exact (hagrees last hmem).symm
    · exact hsame.trans (hwhole id)

/-! ## What the calls owe the mirror -/

/-- A call has committed a change of the record, and still has its file to change. -/
def Owes (s : ControlStore) (id : RecordId) : Prop :=
  ∃ ws, StoreCall.mirroring ws ∈ s.calls ∧ ∃ w ∈ ws, w.id = id

/-- Files and rows agree up to what the calls owe, and each call owes what the row holds. -/
structure Synced (env : StoreEnv) (s : ControlStore) : Prop where
  whole : s.Whole
  named : s.Named
  files : ∀ id, s.files.lookup id = none ∨ s.files.lookup id = s.rows.lookup id ∨ s.Owes id
  owed : ∀ ws, StoreCall.mirroring ws ∈ s.calls →
    ∀ w ∈ ws, s.rows.lookup w.id = w.leaves w.id none
  uniform : ∀ ws, StoreCall.committing ws ∈ s.calls → Uniform ws
  readable : ∀ id r, s.rows.lookup id = some r → env.importRecord r = some r

/-- No call is cut off between its transaction and a file that is there, no transaction changes a
record whose file is owed, and what is stored reads back as it is. -/
def Orderly (env : StoreEnv) (s : ControlStore) : StoreAction → Prop
  | .create r => ¬ s.Owes r.id ∧ env.importRecord r = some r
  | .commit index => ∀ ws, s.calls[index]? = some (.committing ws) →
      ∀ w ∈ ws, ¬ s.Owes w.id ∧ ∀ r, w = .put r → env.importRecord r = some r
  | .mirror index true => ∀ ws, s.calls[index]? = some (.mirroring ws) →
      ∀ w ∈ ws, s.files.lookup w.id = none
  | .restart _ => ∀ id, s.Owes id → s.files.lookup id = none
  | _ => True

theorem mem_set_of_ne {calls : List StoreCall} {index : Nat} {old call other : StoreCall}
    (hold : calls[index]? = some old) (hother : other ∈ calls) (hne : other ≠ old) :
    other ∈ calls.set index call := by
  obtain ⟨place, hplace⟩ := List.getElem?_of_mem hother
  have hapart : index ≠ place := by
    rintro rfl
    rw [hold] at hplace
    exact hne (Option.some.inj hplace).symm
  rw [← List.getElem?_set_ne hapart] at hplace
  exact List.mem_of_getElem? hplace

theorem mem_set_self {calls : List StoreCall} {index : Nat} {old call : StoreCall}
    (hold : calls[index]? = some old) : call ∈ calls.set index call := by
  obtain ⟨hlt, -⟩ := List.getElem?_eq_some_iff.mp hold
  exact List.mem_set hlt call

/-- A transaction on records whose files nobody owes. -/
theorem Synced.commit (h : s.Synced env) {ws : List StoreWrite} (huniform : Uniform ws)
    (hfree : ∀ w ∈ ws, ¬ s.Owes w.id) (hreads : ∀ r, StoreWrite.put r ∈ ws →
      env.importRecord r = some r) {calls : List StoreCall}
    (hcalls : t = { s.commit ws with calls := calls }) (hnew : StoreCall.mirroring ws ∈ calls)
    (hold : ∀ call ∈ calls, call ∈ s.calls ∨ call = .mirroring ws)
    (hkept : ∀ vs, StoreCall.mirroring vs ∈ s.calls → StoreCall.mirroring vs ∈ calls) :
    t.Synced env := by
  have hrows : ∀ id, (∀ w ∈ ws, id ≠ w.id) → t.rows.lookup id = s.rows.lookup id := by
    intro id hid
    rw [hcalls]
    exact lookup_writeRecords_of_ne hid
  have hwritten : ∀ w ∈ ws, t.rows.lookup w.id = w.leaves w.id none := by
    intro w hw
    rw [hcalls]
    exact lookup_writeRecords_of_mem huniform hw
  constructor
  · rw [hcalls]
    exact fun id => h.whole.commit ws id
  · rw [hcalls]
    exact h.named
  · intro id
    by_cases hid : ∃ w ∈ ws, w.id = id
    · refine Or.inr (Or.inr ⟨ws, ?_, hid⟩)
      rw [hcalls]
      exact hnew
    · have hsame := hrows id fun w hw heq => hid ⟨w, hw, heq.symm⟩
      rw [hsame, hcalls]
      rcases h.files id with hnone | heq | ⟨vs, hvs, howed⟩
      · exact Or.inl hnone
      · exact Or.inr (Or.inl heq)
      · exact Or.inr (Or.inr ⟨vs, hkept vs hvs, howed⟩)
  · intro vs hvs w hw
    rw [hcalls] at hvs
    rcases hold _ hvs with hbefore | hthis
    · -- what another call owes is about other records
      rw [hrows w.id]
      · exact h.owed vs hbefore w hw
      · intro v hv heq
        exact hfree v hv ⟨vs, hbefore, w, hw, heq⟩
    · rw [StoreCall.mirroring.inj hthis] at hw
      exact hwritten w hw
  · intro vs hvs
    rw [hcalls] at hvs
    rcases hold _ hvs with hbefore | hthis
    · exact h.uniform vs hbefore
    · cases hthis
  · intro id r hr
    by_cases hid : ∃ w ∈ ws, w.id = id
    · obtain ⟨w, hw, rfl⟩ := hid
      rw [hwritten w hw] at hr
      cases w with
      | put put =>
        rw [StoreWrite.leaves, StoreWrite.id, if_pos rfl] at hr
        rw [← Option.some.inj hr]
        exact hreads put hw
      | drop dropped =>
        rw [StoreWrite.leaves, StoreWrite.id, if_pos rfl] at hr
        cases hr
    · rw [hrows id fun w hw heq => hid ⟨w, hw, heq.symm⟩] at hr
      exact h.readable id r hr

/-- A call changes a file it owes. -/
theorem Synced.mirror (h : s.Synced env) {index : Nat} {w : StoreWrite} {rest : List StoreWrite}
    (hcall : s.calls[index]? = some (.mirroring (w :: rest)))
    (hnamed : ∀ id r, (writeRecord s.files w).lookup id = some r → r.id = id) :
    ({ s with
      files := writeRecord s.files w
      calls := s.calls.set index (.mirroring rest) } : ControlStore).Synced env := by
  have howed := h.owed _ (List.mem_of_getElem? hcall)
  constructor
  · exact h.whole
  · exact hnamed
  · intro id
    show (writeRecord s.files w).lookup id = none ∨
      (writeRecord s.files w).lookup id = s.rows.lookup id ∨ _
    rw [lookup_writeRecord]
    by_cases hid : id = w.id
    · refine Or.inr (Or.inl ?_)
      rw [hid, howed w List.mem_cons_self]
      exact leaves_self w _ _
    · rw [leaves_of_ne hid]
      rcases h.files id with hnone | heq | ⟨vs, hvs, v, hv, hvid⟩
      · exact Or.inl hnone
      · exact Or.inr (Or.inl heq)
      · refine Or.inr (Or.inr ?_)
        by_cases hthis : StoreCall.mirroring vs = .mirroring (w :: rest)
        · rw [StoreCall.mirroring.inj hthis] at hv
          rcases List.mem_cons.mp hv with rfl | hrest
          · exact absurd hvid.symm hid
          · exact ⟨rest, mem_set_self hcall, v, hrest, hvid⟩
        · exact ⟨vs, mem_set_of_ne hcall hvs hthis, v, hv, hvid⟩
  · intro vs hvs v hv
    rcases List.mem_or_eq_of_mem_set hvs with hbefore | hthis
    · exact h.owed vs hbefore v hv
    · rw [StoreCall.mirroring.inj hthis] at hv
      exact howed v (List.mem_cons_of_mem _ hv)
  · intro vs hvs
    rcases List.mem_or_eq_of_mem_set hvs with hbefore | hthis
    · exact h.uniform vs hbefore
    · cases hthis
  · exact h.readable

/-- A call is cut off, and owes nothing that has a file. -/
theorem Synced.cutOff (h : s.Synced env) {index : Nat} {ws : List StoreWrite}
    (hcall : s.calls[index]? = some (.mirroring ws))
    (hnone : ∀ w ∈ ws, s.files.lookup w.id = none) :
    ({ s with calls := s.calls.set index (.mirroring []) } : ControlStore).Synced env := by
  constructor
  · exact h.whole
  · exact h.named
  · intro id
    rcases h.files id with hfile | heq | ⟨vs, hvs, v, hv, rfl⟩
    · exact Or.inl hfile
    · exact Or.inr (Or.inl heq)
    · by_cases hthis : StoreCall.mirroring vs = .mirroring ws
      · rw [StoreCall.mirroring.inj hthis] at hv
        exact Or.inl (hnone v hv)
      · exact Or.inr (Or.inr ⟨vs, mem_set_of_ne hcall hvs hthis, v, hv, rfl⟩)
  · intro vs hvs v hv
    rcases List.mem_or_eq_of_mem_set hvs with hbefore | hthis
    · exact h.owed vs hbefore v hv
    · rw [StoreCall.mirroring.inj hthis] at hv
      cases hv
  · intro vs hvs
    rcases List.mem_or_eq_of_mem_set hvs with hbefore | hthis
    · exact h.uniform vs hbefore
    · cases hthis
  · exact h.readable

/-- The files of synced stores hold what was committed, where no call owes them. -/
theorem Synced.agrees (h : s.Synced env) {action : StoreAction} (horderly : Orderly env s action) :
    Agrees env s action := by
  cases action with
  | restart cut =>
    intro r hr
    obtain ⟨payload, hfile, himport⟩ := mem_importRecords h.named (List.mem_of_mem_take hr)
    have hrow : s.rows.lookup r.id = some payload := by
      rcases h.files r.id with hnone | heq | howes
      · rw [hnone] at hfile; cases hfile
      · rw [← heq]; exact hfile
      · rw [horderly r.id howes] at hfile; cases hfile
    have hsame := h.readable r.id payload hrow
    rw [himport] at hsame
    rw [← h.whole r.id, hrow]
    exact hsame.symm
  | _ => trivial

/-- A restart of synced stores changes no lookup. -/
theorem Synced.restart (h : s.Synced env) {cut : Nat} (horderly : Orderly env s (.restart cut))
    (hstep : s.next env (.restart cut) = some t) : t.Synced env := by
  have hagrees : Agrees env s (.restart cut) := h.agrees horderly
  have hnamed : t.Named := h.named.step hstep
  have hwhole : t.Whole := (restart_whole_iff h.named h.whole hstep).mpr hagrees
  have hcommitted : t.committed = s.committed := by rw [← Option.some.inj hstep]
  have hcalls : t.calls = [] := by rw [← Option.some.inj hstep]
  have hrows : ∀ id, t.rows.lookup id = s.rows.lookup id := by
    intro id
    rw [hwhole id, hcommitted, h.whole id]
  constructor
  · exact hwhole
  · exact hnamed
  · intro id
    rw [hrows]
    have hfiles : t.files = writeRecords s.files ((s.importedFiles env cut).map .put) := by
      rw [← Option.some.inj hstep]
    rw [hfiles]
    rcases lookup_putRecords s.files (s.importedFiles env cut) id with
      ⟨last, hmem, hid, hlast⟩ | ⟨-, hsame⟩
    · refine Or.inr (Or.inl (hlast.trans ?_))
      -- a record whose file was written had its row written
      have hle : cut / 2 ≤ (cut + 1) / 2 := by omega
      have hrow : last ∈ s.importedRows env cut :=
        List.take_subset_take_left (s.importRecords env) hle hmem
      rw [h.whole id, ← hid]
      exact (hagrees last hrow).symm
    · rw [hsame]
      rcases h.files id with hnone | heq | howes
      · exact Or.inl hnone
      · exact Or.inr (Or.inl heq)
      · exact Or.inl (horderly id howes)
  · intro ws hws
    rw [hcalls] at hws
    cases hws
  · intro ws hws
    rw [hcalls] at hws
    cases hws
  · intro id r hr
    rw [hrows] at hr
    exact h.readable id r hr

/-- **Orderly steps keep the two stores together.** -/
theorem Synced.step {action : StoreAction} (h : s.Synced env) (horderly : Orderly env s action)
    (hstep : s.next env action = some t) : t.Synced env := by
  rcases next_cases hstep with (rfl | ⟨ws, huniform, rfl⟩) | ⟨r, rfl, -, hcreate⟩ |
    ⟨index, ws, rfl, hcall, hcommit⟩ | ⟨index, w, rest, rfl, hcall, rfl⟩ |
    ⟨index, w, rest, rfl, hcall, rfl⟩ | ⟨cut, rfl, -⟩
  · exact h
  · constructor
    · exact h.whole
    · exact h.named
    · intro id
      rcases h.files id with hnone | heq | ⟨vs, hvs, howed⟩
      · exact Or.inl hnone
      · exact Or.inr (Or.inl heq)
      · exact Or.inr (Or.inr ⟨vs, List.mem_append_left _ hvs, howed⟩)
    · intro vs hvs
      rcases List.mem_append.mp hvs with hbefore | hthis
      · exact h.owed vs hbefore
      · cases List.mem_singleton.mp hthis
    · intro vs hvs
      rcases List.mem_append.mp hvs with hbefore | hthis
      · exact h.uniform vs hbefore
      · rw [StoreCall.committing.inj (List.mem_singleton.mp hthis)]
        exact huniform
    · exact h.readable
  · obtain ⟨hfree, hreads⟩ := horderly
    refine h.commit (uniform_put r) ?_ ?_ hcreate
      (List.mem_append_right _ (List.mem_singleton_self _)) ?_ ?_
    · intro w hw
      rw [List.mem_singleton.mp hw]
      exact hfree
    · intro other hother
      rw [StoreWrite.put.inj (List.mem_singleton.mp hother)]
      exact hreads
    · intro call hmem
      rcases List.mem_append.mp hmem with hbefore | hthis
      · exact Or.inl hbefore
      · exact Or.inr (List.mem_singleton.mp hthis)
    · exact fun vs hvs => List.mem_append_left _ hvs
  · have hall := horderly ws hcall
    refine h.commit (h.uniform ws (List.mem_of_getElem? hcall)) (fun w hw => (hall w hw).1)
      (fun r hr => (hall _ hr).2 r rfl) hcommit (mem_set_self hcall) ?_ ?_
    · exact fun call hmem => List.mem_or_eq_of_mem_set hmem
    · exact fun vs hvs => mem_set_of_ne hcall hvs nofun
  · exact h.cutOff hcall (horderly _ hcall)
  · exact h.mirror hcall (named_writeRecord h.named w)
  · exact h.restart horderly hstep

/-! ## A whole run -/

/-- A start: no call in progress, the rows are what was committed, and each file holds its row. -/
structure Started (env : StoreEnv) (s : ControlStore) : Prop where
  whole : s.Whole
  idle : s.calls = []
  files : ∀ id r, s.files.lookup id = some r → s.rows.lookup id = some r ∧ r.id = id
  readable : ∀ id r, s.rows.lookup id = some r → env.importRecord r = some r

theorem Started.synced (h : s.Started env) : s.Synced env where
  whole := h.whole
  named id r hr := (h.files id r hr).2
  files id := by
    cases hfile : s.files.lookup id with
    | none => exact Or.inl rfl
    | some r => exact Or.inr (Or.inl (h.files id r hfile).1.symm)
  owed ws hws := by rw [h.idle] at hws; cases hws
  uniform ws hws := by rw [h.idle] at hws; cases hws
  readable := h.readable

/--
**The import keeps what was committed exactly where each file it gets to holds it.**

Every run of calls on both tables, one transaction and one file at a time, with any number of
crashes and restarts, any of them cut off as well. After each restart every row is the one
committed last, and no deleted one is back, if and only if each row a restart's import writes is
the one committed. And where no call is cut off between its transaction and a file that is there,
nor a record changed whose file is still owed, each is.
-/
theorem import_keeps_iff {ms : List (Move ControlStore StoreAction)} (hs : s.Started env)
    (hrun : Run (StoreStep env) s ms t) :
    ((∀ m ∈ ms, ∀ cut, m.act = .restart cut → m.post.Whole) ↔ ∀ m ∈ ms, Agrees env m.pre m.act) ∧
      ((∀ m ∈ ms, Orderly env m.pre m.act) → ∀ m ∈ ms, Agrees env m.pre m.act) := by
  have hnamed : ∀ m ∈ ms, m.pre.Named := hrun.invariant_before
    (fun _ _ _ h hstep => Named.step h hstep) hs.synced.named
  refine ⟨⟨?_, ?_⟩, ?_⟩
  · intro hall m hm
    -- up to this move the rows were what was committed
    have hwhole : m.pre.Whole := hrun.preserves_before (fun m hm hbefore =>
      hbefore.step (hall m hm) (hrun.step_of_mem hm)) hs.whole m hm
    have hstep := hrun.step_of_mem hm
    cases haction : m.act with
    | restart cut =>
      rw [haction] at hstep
      exact (restart_whole_iff (hnamed m hm) hwhole hstep).mp (hall m hm cut haction)
    | _ => trivial
  · intro hall m hm cut haction
    have hkeep : ∀ s a t, s.Named ∧ s.Whole → Agrees env s a → StoreStep env s a t →
        t.Named ∧ t.Whole := by
      intro s a t hboth hagrees hstep
      refine ⟨hboth.1.step hstep, hboth.2.step ?_ hstep⟩
      rintro cut rfl
      exact (restart_whole_iff hboth.1 hboth.2 hstep).mpr hagrees
    have hbefore := (hrun.invariant hkeep ⟨hs.synced.named, hs.whole⟩ hall).2 m hm
    have hstep := hrun.step_of_mem hm
    have hagrees := hall m hm
    rw [haction] at hstep hagrees
    exact (restart_whole_iff hbefore.1 hbefore.2 hstep).mpr hagrees
  · intro hall m hm
    have hkeep : ∀ s a t, s.Synced env → Orderly env s a → StoreStep env s a t → t.Synced env :=
      fun _ _ _ h horderly hstep => h.step horderly hstep
    exact ((hrun.invariant hkeep hs.synced hall).2 m hm).agrees (hall m hm)

/-! ## One record -/

namespace OneRecord

/-- Owners are spelled as they are. -/
def asSpelled : StoreEnv where
  canonicalOwnerId := some
  ownerId := some "owner"

def empty : ControlStore where
  rows := ∅
  files := ∅
  committed _ := none

theorem started : empty.Started asSpelled where
  whole _ := rfl
  idle := rfl
  files _ _ h := by cases h
  readable _ _ h := by cases h

/-- A task is created, and the process ends and starts again. -/
def created : List StoreAction := [.create (.task LostUpdate.task), .mirror 0 false, .restart 2]

/-- The process ends between the transaction of a cancel and the task's file. -/
def cancelled : List StoreAction :=
  [.create (.task LostUpdate.task), .mirror 0 false,
    .updateTask "task_1" (LostUpdate.calls .cancel), .commit 1, .restart 2]

/-- The process ends between the deletion of a completed task and the removal of its file. -/
def deleted : List StoreAction :=
  [.create (.task { LostUpdate.task with status := .completed }), .mirror 0 false,
    .deleteTasks ["task_1"] "owner", .commit 1, .restart 2]

theorem run_of_execute {actions : List StoreAction} {s t : ControlStore}
    (h : execute (next asSpelled) s actions = some t) :
    Run (StoreStep asSpelled) s (movesOf (next asSpelled) s actions) t :=
  Run.of_execute (fun _ _ _ hnext => hnext) h

end OneRecord

theorem import_keeps_iff_created : ∃ t, execute (next OneRecord.asSpelled) OneRecord.empty
      OneRecord.created = some t ∧ t.rows.lookup (.task "task_1") = some (.task LostUpdate.task) ∧
    ((∀ m ∈ movesOf (next OneRecord.asSpelled) OneRecord.empty OneRecord.created, ∀ cut,
        m.act = .restart cut → m.post.Whole) ↔
      ∀ m ∈ movesOf (next OneRecord.asSpelled) OneRecord.empty OneRecord.created,
        Agrees OneRecord.asSpelled m.pre m.act) := by
  obtain ⟨t, ht⟩ : ∃ t, execute (next OneRecord.asSpelled) OneRecord.empty OneRecord.created = some t :=
    ⟨_, rfl⟩
  have hrow : t.rows.lookup (.task "task_1") = some (.task LostUpdate.task) := by
    rw [← Option.some.inj ht]
    rfl
  exact ⟨t, ht, hrow, (import_keeps_iff OneRecord.started (OneRecord.run_of_execute ht)).1⟩

/-- **A startup can take back a cancel, and bring back a deleted task.** Each time the process ended
after the `COMMIT` and before the file was changed. -/
theorem import_rolls_back :
    (∃ t, execute (next OneRecord.asSpelled) OneRecord.empty OneRecord.cancelled = some t ∧
      t.committed (.task "task_1") =
        some (.task { setCancelRequested "t1" LostUpdate.task with updatedAt := "t1" }) ∧
      t.rows.lookup (.task "task_1") = some (.task LostUpdate.task) ∧ ¬ t.Whole) ∧
    ∃ t, execute (next OneRecord.asSpelled) OneRecord.empty OneRecord.deleted = some t ∧
      t.committed (.task "task_1") = none ∧ (t.rows.lookup (.task "task_1")).isSome = true ∧
      ¬ t.Whole := by
  constructor
  · refine ⟨_, rfl, rfl, rfl, fun hwhole => ?_⟩
    have hrow := hwhole (.task "task_1")
    cases hrow
  · refine ⟨_, rfl, rfl, rfl, fun hwhole => ?_⟩
    have hrow := hwhole (.task "task_1")
    cases hrow

end ControlStore

end ThreadForge

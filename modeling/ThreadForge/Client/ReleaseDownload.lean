import Mathlib.Algebra.GroupWithZero.Nat
import Mathlib.Data.List.Basic
import Mathlib.Data.List.Range

/-!
# Downloading a Worker release

`downloadWorkerRelease` of the client: up to five attempts, which keep what was received and ask for
the rest. An attempt that is answered in full starts anew, one that is answered in part goes on
where the last one stopped, whatever part it is answered with, and the end of a stream is the end of
the file.

## What is left out

The progress that is shown. The texts of the errors are kept only as far as a retry depends on them.

## Main results

* `download_map` — what is downloaded are places of the file.
* `downloadWorkerRelease_whole_iff` — when every file of a size is downloaded as it is.
-/

namespace ThreadForge

/-- How a stream stops. -/
inductive BodyEnd
  | done
  | broken
  deriving DecidableEq, Repr

/-- How a body is delivered: as a stream, with the sizes of its reads, or at once. -/
inductive ReleaseBody
  | stream (reads : List Nat) (ending : BodyEnd)
  | blob
  deriving DecidableEq, Repr

/-- What an attempt meets: no response, an error status, the file, or the bytes of a range. -/
inductive ReleaseResponse
  | unreachable
  | refused (status : Nat)
  | full (filename : Option String) (body : ReleaseBody)
  | part (filename : Option String) (first last : Nat) (body : ReleaseBody)
  deriving DecidableEq, Repr

/-- `ApiError`, with its status. -/
structure ReleaseError where
  status : Nat
  deriving DecidableEq, Repr

/-- `isRetryableWorkerDownloadError`: the errors of a broken stream have the status 0. -/
def ReleaseError.retryable (error : ReleaseError) : Bool := error.status = 0 || 500 ≤ error.status

/-- `WorkerDownloadState`, with the chunks. -/
structure WorkerDownloadState (α : Type) where
  chunks : List (List α) := []
  received : Nat := 0
  filename : String := "threadforge-worker.exe"

section Download

variable {α β : Type}

/-- The reads of a stream, and what is left of it. -/
def readsOf (content : List α) : List Nat → List (List α)
  | [] => []
  | n :: reads => content.take n :: readsOf (content.drop n) reads

/-- The loop over the reads: an empty one is passed over. -/
def WorkerDownloadState.receive (state : WorkerDownloadState α) (content : List α)
    (reads : List Nat) :
    WorkerDownloadState α :=
  let values := (readsOf content reads).filter fun value => !value.isEmpty
  { state with
    chunks := state.chunks ++ values
    received := state.received + (values.map List.length).sum }

/-- The body of an attempt. -/
def readBody (state : WorkerDownloadState α) (content : List α) :
    ReleaseBody → WorkerDownloadState α × Except ReleaseError (List α × String)
  | .blob => (state, .ok (content, state.filename))
  | .stream reads .done =>
    let state := state.receive content reads
    (state, .ok (state.chunks.flatten, state.filename))
  -- what was read stays in the state for the next attempt
  | .stream reads .broken => (state.receive content reads, .error ⟨0⟩)

/-- The server has ignored the range: what was received before is dropped. -/
def WorkerDownloadState.restart (state : WorkerDownloadState α) : WorkerDownloadState α :=
  if 0 < state.received then { state with chunks := [], received := 0 } else state

/-- `downloadWorkerReleaseAttempt`. -/
def downloadAttempt (file : List α) (state : WorkerDownloadState α) :
    ReleaseResponse → WorkerDownloadState α × Except ReleaseError (List α × String)
  | .unreachable => (state, .error ⟨0⟩)
  | .refused status => (state, .error ⟨status⟩)
  | .full filename body =>
    readBody { state with filename := filename.getD state.filename }.restart file body
  -- where the range begins is not compared with what was received
  | .part filename first last body =>
    readBody { state with filename := filename.getD state.filename }
      ((file.drop first).take (last + 1 - first)) body

/-- The loop of `downloadWorkerRelease`, with the attempts that are left. -/
def downloadAttempts (file : List α) (responses : Nat → ReleaseResponse) :
    Nat → Nat → WorkerDownloadState α → Except ReleaseError (List α × String)
  | 0, _, _ => .error ⟨0⟩
  | left + 1, attempt, state =>
    match downloadAttempt file state (responses attempt) with
    | (_, .ok result) => .ok result
    | (state, .error error) =>
      if error.retryable = false ∨ left = 0 then .error error
      else downloadAttempts file responses left (attempt + 1) state

/-- `downloadWorkerRelease`. -/
def downloadWorkerRelease (file : List α) (responses : Nat → ReleaseResponse) :
    Except ReleaseError (List α × String) :=
  downloadAttempts file responses 5 0 {}

/-! ## Places of the file -/

/-- A state with its bytes replaced. -/
def WorkerDownloadState.map (f : α → β) (state : WorkerDownloadState α) :
    WorkerDownloadState β where
  chunks := state.chunks.map (List.map f)
  received := state.received
  filename := state.filename

theorem readsOf_map (f : α → β) (content : List α) (reads : List Nat) :
    readsOf (content.map f) reads = (readsOf content reads).map (List.map f) := by
  induction reads generalizing content with
  | nil => rfl
  | cons n reads ih => rw [readsOf, readsOf, List.map_cons, ← ih, List.map_take, List.map_drop]

theorem receive_map (f : α → β) (state : WorkerDownloadState α) (content : List α)
    (reads : List Nat) :
    (state.map f).receive (content.map f) reads = (state.receive content reads).map f := by
  have hvalues : (readsOf (content.map f) reads).filter (fun value => !value.isEmpty) =
      ((readsOf content reads).filter fun value => !value.isEmpty).map (List.map f) := by
    rw [readsOf_map, List.filter_map]
    refine congrArg _ (List.filter_congr fun value _ => ?_)
    simp
  unfold WorkerDownloadState.receive WorkerDownloadState.map
  simp [hvalues, Function.comp_def]

theorem readBody_map (f : α → β) (state : WorkerDownloadState α) (content : List α)
    (body : ReleaseBody) :
    readBody (state.map f) (content.map f) body =
      ((readBody state content body).1.map f,
        (readBody state content body).2.map fun result => (result.1.map f, result.2)) := by
  cases body with
  | blob => rfl
  | stream reads ending =>
    cases ending with
    | broken =>
      rw [readBody, receive_map]
      rfl
    | done =>
      rw [readBody, receive_map]
      simp [readBody, WorkerDownloadState.map, Except.map, List.map_flatten]

theorem restart_map (f : α → β) (state : WorkerDownloadState α) :
    (state.map f).restart = state.restart.map f := by
  unfold WorkerDownloadState.restart
  rw [show (state.map f).received = state.received from rfl]
  split <;> rfl

theorem downloadAttempt_map (f : α → β) (file : List α) (state : WorkerDownloadState α)
    (response : ReleaseResponse) :
    downloadAttempt (file.map f) (state.map f) response =
      ((downloadAttempt file state response).1.map f,
        (downloadAttempt file state response).2.map fun result => (result.1.map f, result.2)) := by
  cases response with
  | unreachable => rfl
  | refused status => rfl
  | full filename body =>
    dsimp only [downloadAttempt]
    rw [← readBody_map, ← restart_map]
    rfl
  | part filename first last body =>
    dsimp only [downloadAttempt]
    rw [← List.map_drop, ← List.map_take, ← readBody_map]
    rfl

theorem downloadAttempts_map (f : α → β) (file : List α) (responses : Nat → ReleaseResponse)
    (left attempt : Nat) (state : WorkerDownloadState α) :
    downloadAttempts (file.map f) responses left attempt (state.map f) =
      (downloadAttempts file responses left attempt state).map fun result =>
        (result.1.map f, result.2) := by
  induction left generalizing attempt state with
  | zero => rfl
  | succ left ih =>
    rw [downloadAttempts, downloadAttempts, downloadAttempt_map]
    rcases downloadAttempt file state (responses attempt) with ⟨state', result⟩
    cases result with
    | ok result => rfl
    | error error =>
      show (if _ then _ else downloadAttempts _ _ _ _ (state'.map f)) =
        Except.map _ (if _ then _ else _)
      split
      · rfl
      · exact ih (attempt + 1) state'

/-- What is downloaded are places of the file. -/
theorem download_map (f : Nat → β) (size : Nat) (responses : Nat → ReleaseResponse) :
    downloadWorkerRelease ((List.range size).map f) responses =
      (downloadWorkerRelease (List.range size) responses).map fun result =>
        (result.1.map f, result.2) :=
  downloadAttempts_map f (List.range size) responses 5 0 {}

theorem flatten_readsOf (content : List α) (reads : List Nat) :
    (readsOf content reads).flatten = content.take reads.sum := by
  induction reads generalizing content with
  | nil => simp [readsOf]
  | cons n reads ih =>
    rw [readsOf, List.flatten_cons, ih, List.sum_cons, List.take_add]

theorem flatten_filter_isEmpty (values : List (List α)) :
    (values.filter fun value => !value.isEmpty).flatten = values.flatten := by
  induction values with
  | nil => rfl
  | cons value values ih => cases value <;> simp [ih]

theorem flatten_receive (state : WorkerDownloadState α) (content : List α) (reads : List Nat) :
    (state.receive content reads).chunks.flatten =
      state.chunks.flatten ++ content.take reads.sum := by
  unfold WorkerDownloadState.receive
  rw [List.flatten_append, flatten_filter_isEmpty, flatten_readsOf]

theorem received_receive {state : WorkerDownloadState α}
    (h : state.received = state.chunks.flatten.length)
    (content : List α) (reads : List Nat) : (state.receive content reads).received =
      (state.receive content reads).chunks.flatten.length := by
  unfold WorkerDownloadState.receive
  rw [List.flatten_append, List.length_append, ← h, List.length_flatten]

end Download

/-! ## Bytes in their places -/

/-- The bytes in place after a range was read: none, once one stands in another place. -/
def placedAfter (kept : Option Nat) (first delivered : Nat) : Option Nat :=
  if delivered = 0 then kept else if kept = some first then some (first + delivered) else none

/-- The bytes of a range that a file of this size has. -/
def rangeLength (size first last : Nat) : Nat := min (last + 1 - first) (size - first)

/-- The attempts that are left put the whole file together, or end with an error. -/
def InPlace (size : Nat) (responses : Nat → ReleaseResponse) : Nat → Nat → Option Nat → Prop
  | 0, _, _ => True
  | left + 1, attempt, kept =>
    match responses attempt with
    | .unreachable => InPlace size responses left (attempt + 1) kept
    | .refused status =>
      ReleaseError.retryable ⟨status⟩ = true → InPlace size responses left (attempt + 1) kept
    | .full _ .blob => True
    | .full _ (.stream reads .done) => size ≤ reads.sum
    | .full _ (.stream reads .broken) =>
      InPlace size responses left (attempt + 1) (some (min reads.sum size))
    | .part _ first last .blob => size = 0 ∨ first = 0 ∧ size ≤ last + 1
    | .part _ first last (.stream reads .done) =>
      placedAfter kept first (min reads.sum (rangeLength size first last)) = some size
    | .part _ first last (.stream reads .broken) =>
      InPlace size responses left (attempt + 1)
        (placedAfter kept first (min reads.sum (rangeLength size first last)))

/-- What was received: the first places of the file, or a place that is not where it belongs. -/
structure Placed (kept : Option Nat) (state : WorkerDownloadState Nat) : Prop where
  received : state.received = state.chunks.flatten.length
  inOrder : ∀ n, kept = some n → state.chunks.flatten = List.range n
  misplaced : kept = none → ∃ i j : Nat, state.chunks.flatten[i]? = some j ∧ i ≠ j

variable {size left attempt : Nat} {kept : Option Nat} {state : WorkerDownloadState Nat}
  {responses : Nat → ReleaseResponse}

theorem take_rangeOf (size first last n : Nat) :
    (((List.range size).drop first).take (last + 1 - first)).take n =
      List.range' first (min n (rangeLength size first last)) := by
  have htake : ∀ k m, (List.range' first m).take k = List.range' first (min k m) := by
    intro k m
    rcases Nat.le_total m k with h | h
    · rw [List.take_range'_of_length_le h, Nat.min_eq_right h]
    · rw [List.take_range'_of_length_ge h, Nat.min_eq_left h]
  rw [List.range_eq_range', List.drop_range', Nat.zero_add, Nat.mul_one, htake, htake]
  rfl

/-- A range is the whole file. -/
theorem rangeOf_eq_iff {first last : Nat} :
    ((List.range size).drop first).take (last + 1 - first) = List.range size ↔
      size = 0 ∨ first = 0 ∧ size ≤ last + 1 := by
  constructor
  · intro heq
    have hlength := congrArg List.length heq
    rw [List.length_take, List.length_drop, List.length_range] at hlength
    omega
  · rintro (rfl | ⟨rfl, hlast⟩)
    · simp
    · rw [List.drop_zero, List.take_of_length_le (by rw [List.length_range]; omega)]

theorem Placed.flatten_eq_iff (h : Placed kept state) (size : Nat) :
    state.chunks.flatten = List.range size ↔ kept = some size := by
  cases kept with
  | none =>
    obtain ⟨i, j, hij, hne⟩ := h.misplaced rfl
    refine iff_of_false (fun heq => hne ?_) (by simp)
    rw [heq] at hij
    obtain ⟨hi, hget⟩ := List.getElem?_eq_some_iff.mp hij
    rw [List.getElem_range] at hget
    exact hget
  | some n =>
    rw [h.inOrder n rfl, Option.some.injEq]
    constructor
    · intro heq
      simpa using congrArg List.length heq
    · rintro rfl
      rfl

/-- A range that is read goes behind what was received. -/
theorem Placed.receive (h : Placed kept state) {content : List Nat} {reads : List Nat}
    {first delivered : Nat} (hcontent : content.take reads.sum = List.range' first delivered) :
    Placed (placedAfter kept first delivered) (state.receive content reads) where
  received := received_receive h.received content reads
  inOrder n hn := by
    rw [flatten_receive, hcontent]
    unfold placedAfter at hn
    split at hn
    · next hzero => rw [h.inOrder n hn, hzero, List.range'_zero, List.append_nil]
    · split at hn
      · next hfirst =>
        cases hn
        have happend := @List.range'_append_1 0 first delivered
        rwa [Nat.zero_add, ← List.range_eq_range', ← List.range_eq_range',
          ← h.inOrder first hfirst] at happend
      · cases hn
  misplaced hn := by
    rw [flatten_receive, hcontent]
    unfold placedAfter at hn
    split at hn
    · next hzero =>
      rw [hzero, List.range'_zero, List.append_nil]
      exact h.misplaced hn
    · next hdelivered =>
      split at hn
      · cases hn
      · next hfirst =>
        cases hkept : kept with
        | none =>
          obtain ⟨i, j, hij, hne⟩ := h.misplaced hkept
          exact ⟨i, j, by rw [List.getElem?_append_left (List.getElem?_eq_some_iff.mp hij).1, hij],
            hne⟩
        | some n =>
          refine ⟨n, first, ?_, fun heq => hfirst (by rw [hkept, heq])⟩
          rw [h.inOrder n hkept, List.getElem?_append_right (by simp), List.length_range,
            Nat.sub_self]
          obtain ⟨d, rfl⟩ := Nat.exists_eq_succ_of_ne_zero hdelivered
          rfl

/-- After a restart nothing was received. -/
theorem placed_restart (h : Placed kept state) : Placed (some 0) state.restart where
  received := by
    unfold WorkerDownloadState.restart
    split
    · rfl
    · exact h.received
  inOrder n hn := by
    cases hn
    unfold WorkerDownloadState.restart
    split
    · rfl
    · next hzero =>
      have hlength := h.received
      exact List.eq_nil_of_length_eq_zero (by omega)
  misplaced hn := by cases hn

/-- The attempts that are left return the places of the file exactly if they put them together. -/
theorem downloadAttempts_inPlace_iff (size : Nat) (h : Placed kept state) :
    (∀ blob name, downloadAttempts (List.range size) responses left attempt state = .ok (blob, name) →
      blob = List.range size) ↔ InPlace size responses left attempt kept := by
  induction left generalizing attempt kept state with
  | zero => exact iff_of_true (fun _ _ hok => by cases hok) trivial
  | succ left ih =>
    have hagain : ∀ {kept' : Option Nat} {state' : WorkerDownloadState Nat} {status : Nat},
        Placed kept' state' → ReleaseError.retryable ⟨status⟩ = true →
        ((∀ blob name, (if (ReleaseError.retryable ⟨status⟩ = false ∨ left = 0) then .error ⟨status⟩
            else downloadAttempts (List.range size) responses left (attempt + 1) state') =
              Except.ok (blob, name) → blob = List.range size) ↔
          InPlace size responses left (attempt + 1) kept') := by
      intro kept' state' status hplaced hretry
      rw [← ih hplaced, hretry]
      cases left with
      | zero => exact iff_of_true (fun _ _ hok => by cases hok) fun _ _ hok => by cases hok
      | succ left =>
        rw [if_neg (by simp)]
    rw [downloadAttempts, InPlace]
    cases hresponse : responses attempt with
    | unreachable => exact hagain h rfl
    | refused status =>
      by_cases hretry : ReleaseError.retryable ⟨status⟩ = true
      · exact (hagain h hretry).trans ⟨fun hplace _ => hplace, fun hplace => hplace hretry⟩
      · refine iff_of_true (fun blob name hok => ?_) fun hyes => absurd hyes hretry
        rw [Bool.not_eq_true] at hretry
        simp [downloadAttempt, hretry] at hok
    | full filename body =>
      have hrestart : Placed (some 0) (WorkerDownloadState.restart
          { state with filename := filename.getD state.filename }) :=
        placed_restart ⟨h.received, h.inOrder, h.misplaced⟩
      cases body with
      | blob =>
        refine iff_of_true (fun blob name hok => ?_) trivial
        cases hok
        rfl
      | stream reads ending =>
        have hall : (List.range size).take reads.sum = List.range' 0 (min reads.sum size) := by
          rw [List.take_range, List.range_eq_range']
        have hplaced := hrestart.receive hall
        have hafter : placedAfter (some 0) 0 (min reads.sum size) = some (min reads.sum size) := by
          unfold placedAfter
          split
          · next hzero => rw [hzero]
          · rw [if_pos rfl, Nat.zero_add]
        rw [hafter] at hplaced
        cases ending with
        | broken => exact hagain hplaced rfl
        | done =>
          have hwhole := hplaced.flatten_eq_iff size
          constructor
          · intro hok
            have heq := Option.some.inj (hwhole.mp (hok _ _ rfl))
            show size ≤ reads.sum
            omega
          · intro hle blob name hok
            cases hok
            exact hwhole.mpr (congrArg some (Nat.min_eq_right hle))
    | part filename first last body =>
      have hsame : Placed kept { state with filename := filename.getD state.filename } :=
        ⟨h.received, h.inOrder, h.misplaced⟩
      cases body with
      | blob =>
        constructor
        · intro hok
          exact rangeOf_eq_iff.mp (hok _ _ rfl)
        · intro hpart blob name hok
          cases hok
          exact rangeOf_eq_iff.mpr hpart
      | stream reads ending =>
        have hplaced := hsame.receive (take_rangeOf size first last reads.sum)
        cases ending with
        | broken => exact hagain hplaced rfl
        | done =>
          have hwhole := hplaced.flatten_eq_iff size
          constructor
          · intro hok
            exact hwhole.mp (hok _ _ rfl)
          · intro hkept blob name hok
            cases hok
            exact hwhole.mpr hkept

/-- Two lists of places differ in some file of bytes. -/
theorem exists_map_ne {p q : List Nat} (h : p ≠ q) : ∃ f : Nat → UInt8, p.map f ≠ q.map f := by
  by_contra hno
  have hall : ∀ f : Nat → UInt8, p.map f = q.map f := fun f => by_contra fun hf => hno ⟨f, hf⟩
  refine h (List.ext_getElem? fun i => ?_)
  have hget : ∀ f : Nat → UInt8, p[i]?.map f = q[i]?.map f := by
    intro f
    rw [← List.getElem?_map, ← List.getElem?_map, hall f]
  cases hp : p[i]? with
  | none =>
    have hnone := hget fun _ => 0
    rw [hp] at hnone
    exact (Option.map_eq_none_iff.mp hnone.symm).symm
  | some a =>
    have hsome := hget fun x => if x = a then 1 else 0
    rw [hp, Option.map_some, if_pos rfl] at hsome
    obtain ⟨b, hb, hone⟩ := Option.map_eq_some_iff.mp hsome.symm
    by_cases hba : b = a
    · rw [hb, hba]
    · rw [if_neg hba] at hone
      exact absurd hone (by decide)

/-- **Every file of a size is downloaded as it is exactly if the attempts put its bytes in their
places.** -/
theorem downloadWorkerRelease_whole_iff (size : Nat) (responses : Nat → ReleaseResponse) :
    (∀ file : List UInt8, file.length = size → ∀ blob name,
      downloadWorkerRelease file responses = .ok (blob, name) → blob = file) ↔
      InPlace size responses 5 0 (some 0) := by
  have hstart : Placed (some 0) {} := ⟨rfl, fun n hn => by cases hn; rfl, fun hn => by cases hn⟩
  rw [← downloadAttempts_inPlace_iff size hstart]
  constructor
  · intro hall places name hok
    by_contra hne
    obtain ⟨f, hf⟩ := exists_map_ne hne
    refine hf (hall ((List.range size).map f) (by simp) (places.map f) name ?_)
    rw [download_map, downloadWorkerRelease, hok]
    rfl
  · intro hplaces file hfile blob name hok
    have hmap : (List.range size).map (fun i => file.getD i 0) = file := by
      refine List.ext_getElem (by simp [hfile]) fun i hi hi' => ?_
      simp [List.getD_eq_getElem?_getD, hi']
    rw [← hmap, download_map, downloadWorkerRelease] at hok
    cases hloop : downloadAttempts (List.range size) responses 5 0 {} with
    | error e =>
      rw [hloop] at hok
      cases hok
    | ok result =>
      obtain ⟨places, name'⟩ := result
      rw [hloop] at hok
      cases hok
      rw [hplaces places name' hloop, hmap]

/-- A stream that ends early: what was received is returned as the file. -/
theorem early_end_truncates :
    ¬∀ blob name, downloadWorkerRelease ([1, 2, 3] : List UInt8)
      (fun _ => .full none (.stream [2] .done)) = .ok (blob, name) → blob = [1, 2, 3] := by
  intro hall
  have hshort := hall [1, 2] "threadforge-worker.exe" rfl
  cases hshort

end ThreadForge

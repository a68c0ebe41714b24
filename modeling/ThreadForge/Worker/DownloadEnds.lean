import ThreadForge.Worker.Download

/-!
# The download ends

`_download_installer` starts its count of failures again whenever an attempt brought something, so
that neither the count nor the attempts end the loop. What decreases is the pair of the missing
bytes and the failures that are left, in this order.

The signed size is any number here, also one that is larger than a bundle may be. The reads of an
attempt are a list: those after the range is complete are not made (`readChunks_append`).

## Main results

* `round_progress` — an attempt after which the loop goes on counts more bytes, or one more failure.
* `downloadArtifact_ends` — the loop ends after finitely many requests.
* `downloadArtifact_eq` — for a signed artifact it is the call of `downloadInstaller_iff`.
-/

namespace ThreadForge

section

variable (sha256 : Bytes → String) (size : Nat) (digest : String)

/-! ## The call, for any size -/

/-- `_file_matches`. -/
def matchesArtifact (bytes : Bytes) : Bool := bytes.length = size && sha256 bytes = digest

/-- Before the loop: where it starts, or how the call ends without it. -/
def startArtifact (installer partFile : Option Bytes) : Except DownloadEnd DownloadState :=
  match installer.filter (matchesArtifact sha256 size digest) with
  | some bytes => .error (.returned bytes)
  | none =>
    -- a file that is too long is removed
    match partFile.filter fun bytes => decide (bytes.length ≤ size) with
    | none =>
      -- there is no file to remove
      if size = 0 then .error .raised else .ok { total := 0, hashed := [] }
    | some bytes =>
      if bytes.length = size then
        if matchesArtifact sha256 size digest bytes then .error (.returned bytes)
        else .ok { total := 0, hashed := [] }
      else .ok { partFile := some bytes, total := bytes.length, hashed := bytes }

/-- After the loop. -/
def finishArtifact (s : DownloadState) : DownloadEnd :=
  if s.total ≠ size then .raised
  else if sha256 s.hashed ≠ digest then .raised
  else match s.partFile with
    | some bytes => .returned bytes
    | none => .raised

/-- `while total < expected_size`, as far as the attempts go. -/
def artifactLoop : DownloadState → List DownloadAttempt → DownloadEnd
  | s, [] => if s.total < size then .pending else finishArtifact sha256 size digest s
  | s, a :: rest =>
    if s.total < size then
      match a.round size s with
      | .again s' => artifactLoop s' rest
      | .raised _ => .raised
    else finishArtifact sha256 size digest s

/-- `_download_installer`. -/
def downloadArtifact (installer partFile : Option Bytes) (attempts : List DownloadAttempt) :
    DownloadEnd :=
  match startArtifact sha256 size digest installer partFile with
  | .error ending => ending
  | .ok s => artifactLoop sha256 size digest s attempts

/-- The locals at the checks of the loop condition. -/
def loopHeads : DownloadState → List DownloadAttempt → List DownloadState
  | s, [] => [s]
  | s, a :: rest =>
    if s.total < size then
      match a.round size s with
      | .again s' => s :: loopHeads s' rest
      | .raised _ => [s]
    else [s]

/-- The first attempts of a supply without an end. -/
def supplied (supply : Nat → DownloadAttempt) (n : Nat) : List DownloadAttempt :=
  (List.range n).map supply

/-- The failures that are left, after the bytes that are missing. -/
def DownloadState.fuel (s : DownloadState) : Nat :=
  downloadRetryLimit * (size - s.total) + (downloadRetryLimit - s.failures)

end

variable {sha256 : Bytes → String} {size : Nat} {digest : String} {s t : DownloadState}
  {a : DownloadAttempt}

/-! ## One attempt -/

/-- What was counted without being fed to the digest. -/
def ReadEnd.unfed : ReadEnd → Nat
  | .exceeded count => count
  | .complete | .raised _ | .writeFailed _ => 0

/-- No more is counted than was asked for, and all of it where nothing raises. -/
theorem readChunks_bounds (size stop total : Nat) (events : List ReadEvent) :
    total + (readChunks size stop total events).1.length +
        (readChunks size stop total events).2.unfed ≤ max total (stop + 1) ∧
      ((readChunks size stop total events).2 = .complete →
        stop < total + (readChunks size stop total events).1.length) := by
  induction events generalizing total with
  | nil =>
    unfold readChunks
    split
    · next hdone => exact ⟨Nat.le_max_left _ _, fun _ => hdone⟩
    · exact ⟨Nat.le_max_left _ _, fun h => by cases h⟩
  | cons event rest ih =>
    unfold readChunks
    by_cases hdone : stop < total
    · rw [if_pos hdone]
      exact ⟨Nat.le_max_left _ _, fun _ => hdone⟩
    rw [if_neg hdone]
    -- a read returns no more than it was asked for
    have hasked : ∀ bytes : Bytes,
        (bytes.take (min downloadReadBytes (stop - total + 1))).length ≤ stop - total + 1 :=
      fun bytes => (List.length_take_le _ _).trans (min_le_right _ _)
    cases event with
    | raises error => exact ⟨Nat.le_max_left _ _, fun h => by cases h⟩
    | chunk bytes =>
      have hbytes := hasked bytes
      simp only
      split
      · exact ⟨Nat.le_max_left _ _, fun h => by cases h⟩
      split
      · simp only [ReadEnd.unfed, List.length_nil]
        exact ⟨by omega, fun h => by cases h⟩
      · obtain ⟨hbound, hcomplete⟩ := ih (total +
          (bytes.take (min downloadReadBytes (stop - total + 1))).length)
        dsimp only
        rw [List.length_append, ← Nat.add_assoc]
        exact ⟨by omega, hcomplete⟩
    | writeRaises bytes error =>
      have hbytes := hasked bytes
      simp only
      split
      · exact ⟨Nat.le_max_left _ _, fun h => by cases h⟩
      split <;> simp only [ReadEnd.unfed, List.length_nil] <;>
        exact ⟨by omega, fun h => by cases h⟩
    | stepRaises bytes error =>
      have hbytes := hasked bytes
      simp only
      split
      · exact ⟨Nat.le_max_left _ _, fun h => by cases h⟩
      split <;> simp only [ReadEnd.unfed, List.length_nil] <;>
        exact ⟨by omega, fun h => by cases h⟩

/-- Every read that goes on brings a byte, so that a range takes no more reads than it has bytes. -/
theorem readChunks_append {stop total : Nat} {events more : List ReadEvent}
    (h : stop < total + events.length) :
    readChunks size stop total (events ++ more) = readChunks size stop total events := by
  induction events generalizing total with
  | nil =>
    have hdone : stop < total := h
    cases more with
    | nil => rfl
    | cons => simp only [List.nil_append, readChunks, if_pos hdone]
  | cons event rest ih =>
    rw [List.cons_append]
    unfold readChunks
    rw [List.length_cons] at h
    cases event with
    | chunk bytes =>
      by_cases hempty : bytes.take (min downloadReadBytes (stop - total + 1)) = []
      · simp only [if_pos hempty]
      · have hpositive := List.length_pos_iff.mpr hempty
        have hlater : readChunks size stop
            (total + (bytes.take (min downloadReadBytes (stop - total + 1))).length) (rest ++ more) =
            readChunks size stop
              (total + (bytes.take (min downloadReadBytes (stop - total + 1))).length) rest :=
          ih (by omega)
        simp only [hlater]
    | writeRaises => rfl
    | stepRaises => rfl
    | raises => rfl

/-- The counter after the `with` statement. -/
theorem received_total (a : DownloadAttempt) (size : Nat) (s : DownloadState) :
    (a.received size s).total =
        s.total + (a.reading size s).1.length + (a.reading size s).2.unfed ∧
      (a.received size s).failures = s.failures := by
  unfold DownloadAttempt.received
  cases (a.reading size s).2 with
  | exceeded count => exact ⟨rfl, rfl⟩
  | complete => exact ⟨rfl, rfl⟩
  | raised error => exact ⟨rfl, rfl⟩
  | writeFailed error => exact ⟨rfl, rfl⟩

/-- The handler counts a failure only where nothing arrived. -/
theorem failures_of_handleDownloadError {start : Nat} {error : DownloadError} {reportRaises : Bool}
    (h : handleDownloadError s start error reportRaises = .again t) :
    t.total = s.total ∧ t.failures < downloadRetryLimit ∧
      t.failures = if start < s.total then 0 else s.failures + 1 := by
  refine ⟨(of_handleDownloadError h).1, ?_⟩
  unfold handleDownloadError at h
  split at h
  · cases h
  split at h
  · cases h
  simp only at h
  by_cases hlimit : downloadRetryLimit ≤ if start < s.total then 0 else s.failures + 1
  · rw [if_pos hlimit] at h
    cases h
  rw [if_neg hlimit] at h
  by_cases hreport : reportRaises = true
  · rw [if_pos hreport] at h
    cases h
  rw [if_neg hreport] at h
  rw [← DownloadRound.again.inj h]
  exact ⟨not_le.mp hlimit, rfl⟩

/-- **An attempt after which the loop goes on counts more bytes, or one more failure.** -/
theorem round_progress (hmore : s.total < size) (h : a.round size s = .again t) :
    s.total ≤ t.total ∧ t.total ≤ size ∧ t.failures < downloadRetryLimit ∧
      (t.total = s.total → t.failures = s.failures + 1) := by
  have hstop : s.total ≤ rangeEnd size s.total ∧ rangeEnd size s.total + 1 ≤ size := by
    unfold rangeEnd downloadRangeBytes
    omega
  obtain ⟨hbound, hcomplete⟩ := readChunks_bounds size (rangeEnd size s.total) s.total a.reads
  obtain ⟨htotal, hfailures⟩ := received_total a size s
  unfold DownloadAttempt.reading at htotal
  unfold DownloadAttempt.round at h
  cases hrefused : a.refused size s with
  | some error =>
    rw [hrefused] at h
    obtain ⟨hsame, hlimit, hcount⟩ := failures_of_handleDownloadError h
    rw [if_neg (lt_irrefl _)] at hcount
    exact ⟨hsame.ge, by omega, hlimit, fun _ => hcount⟩
  | none =>
    rw [hrefused] at h
    simp only at h
    cases hraised : a.raisedBy (a.reading size s).2 with
    | some error =>
      rw [hraised] at h
      obtain ⟨hsame, hlimit, hcount⟩ := failures_of_handleDownloadError h
      refine ⟨by omega, by omega, hlimit, fun hnone => ?_⟩
      rw [hcount, if_neg (by omega), hfailures]
    | none =>
      -- the whole range was read
      rw [hraised] at h
      have hwhole : (readChunks size (rangeEnd size s.total) s.total a.reads).2 = .complete := by
        unfold DownloadAttempt.raisedBy at hraised
        unfold DownloadAttempt.reading at hraised
        split at hraised <;> first | assumption | cases hraised
      have hread := hcomplete hwhole
      rw [← DownloadRound.again.inj h]
      dsimp only
      exact ⟨by omega, by omega, by decide, fun hnone => by omega⟩

/-- So it leaves less to count. -/
theorem fuel_lt (hmore : s.total < size) (hfailures : s.failures < downloadRetryLimit)
    (h : a.round size s = .again t) : t.fuel size < s.fuel size := by
  obtain ⟨hle, hsize, hlimit, hsame⟩ := round_progress hmore h
  unfold DownloadState.fuel
  unfold downloadRetryLimit at *
  by_cases hequal : t.total = s.total
  · have hcount := hsame hequal
    rw [hequal]
    omega
  · omega

/-! ## The loop -/

/-- The counter at the loop heads. -/
theorem loopHeads_total (attempts : List DownloadAttempt) (hle : s.total ≤ size) :
    (∀ t ∈ loopHeads size s attempts, s.total ≤ t.total ∧ t.total ≤ size) ∧
      (loopHeads size s attempts).Pairwise fun x y => x.total ≤ y.total := by
  have hone : (∀ t ∈ [s], s.total ≤ t.total ∧ t.total ≤ size) ∧
      [s].Pairwise fun x y => x.total ≤ y.total := by
    refine ⟨fun t ht => ?_, List.pairwise_singleton _ _⟩
    rw [List.mem_singleton.mp ht]
    exact ⟨le_rfl, hle⟩
  induction attempts generalizing s with
  | nil => exact hone
  | cons a rest ih =>
    unfold loopHeads
    split
    · next hmore =>
      cases hround : a.round size s with
      | raised t => exact hone
      | again t =>
        obtain ⟨hgrows, hsize, -, -⟩ := round_progress hmore hround
        obtain ⟨hheads, hsorted⟩ := ih hsize (by
          refine ⟨fun u hu => ?_, List.pairwise_singleton _ _⟩
          rw [List.mem_singleton.mp hu]
          exact ⟨le_rfl, hsize⟩)
        refine ⟨fun u hu => ?_, List.pairwise_cons.mpr ⟨fun u hu => ?_, hsorted⟩⟩
        · rcases List.mem_cons.mp hu with rfl | hlater
          · exact ⟨le_rfl, hle⟩
          · exact ⟨hgrows.trans (hheads u hlater).1, (hheads u hlater).2⟩
        · exact hgrows.trans (hheads u hu).1
    · exact hone

/-- A request for each unit of fuel is enough. -/
theorem artifactLoop_ends {attempts : List DownloadAttempt}
    (hfailures : s.failures < downloadRetryLimit) (henough : s.fuel size ≤ attempts.length) :
    artifactLoop sha256 size digest s attempts ≠ .pending := by
  have hfinish : ∀ u, finishArtifact sha256 size digest u ≠ .pending := by
    intro u
    unfold finishArtifact
    split
    · exact nofun
    split
    · exact nofun
    · split <;> exact nofun
  induction attempts generalizing s with
  | nil =>
    unfold DownloadState.fuel at henough
    unfold downloadRetryLimit at *
    rw [List.length_nil] at henough
    omega
  | cons a rest ih =>
    unfold artifactLoop
    split
    · next hmore =>
      cases hround : a.round size s with
      | raised t => exact nofun
      | again t =>
        have hless := fuel_lt hmore hfailures hround
        rw [List.length_cons] at henough
        exact ih (round_progress hmore hround).2.2.1 (by omega)
    · exact hfinish s

/-- Nothing is asked for after the end. -/
theorem artifactLoop_append {attempts more : List DownloadAttempt}
    (h : artifactLoop sha256 size digest s attempts ≠ .pending) :
    artifactLoop sha256 size digest s (attempts ++ more) =
      artifactLoop sha256 size digest s attempts := by
  induction attempts generalizing s with
  | nil =>
    unfold artifactLoop at h
    by_cases hmore : s.total < size
    · rw [if_pos hmore] at h
      exact absurd rfl h
    · cases more with
      | nil => rfl
      | cons => simp only [List.nil_append, artifactLoop, if_neg hmore]
  | cons a rest ih =>
    rw [List.cons_append]
    unfold artifactLoop at h ⊢
    by_cases hmore : s.total < size
    · simp only [if_pos hmore] at h ⊢
      cases hround : a.round size s with
      | raised t => rfl
      | again t =>
        rw [hround] at h
        exact ih h
    · simp only [if_neg hmore]

/-- The loop starts with no failure and no more than the release has. -/
theorem startArtifact_total {installer partFile : Option Bytes}
    (h : startArtifact sha256 size digest installer partFile = .ok s) :
    s.total ≤ size ∧ s.failures = 0 := by
  unfold startArtifact at h
  split at h
  · cases h
  split at h
  · split at h
    · cases h
    · rw [← Except.ok.inj h]
      exact ⟨Nat.zero_le _, rfl⟩
  · next bytes hfits =>
    split at h
    · split at h
      · cases h
      · rw [← Except.ok.inj h]
        exact ⟨Nat.zero_le _, rfl⟩
    · rw [← Except.ok.inj h]
      exact ⟨of_decide_eq_true (Option.filter_eq_some_iff.mp hfits).2, rfl⟩

/--
**The download ends, whatever the server sends.**

The call asks for finitely many ranges and then returns or raises, and at the checks of the loop
condition the counter never decreases and is never more than the size.
-/
theorem downloadArtifact_ends (sha256 : Bytes → String) (size : Nat) (digest : String)
    (installer partFile : Option Bytes) (supply : Nat → DownloadAttempt) :
    (∃ n ending, ending ≠ .pending ∧ ∀ m, n ≤ m →
        downloadArtifact sha256 size digest installer partFile (supplied supply m) = ending) ∧
      ∀ s, startArtifact sha256 size digest installer partFile = .ok s →
        ∀ m, (∀ t ∈ loopHeads size s (supplied supply m), t.total ≤ size) ∧
          (loopHeads size s (supplied supply m)).Pairwise fun x y => x.total ≤ y.total := by
  refine ⟨?_, fun s hs m => ?_⟩
  · cases hstart : startArtifact sha256 size digest installer partFile with
    | error ending =>
      refine ⟨0, ending, ?_, fun m _ => by rw [downloadArtifact, hstart]⟩
      unfold startArtifact at hstart
      grind
    | ok s =>
      have hends :
          artifactLoop sha256 size digest s (supplied supply (s.fuel size)) ≠ .pending := by
        refine artifactLoop_ends ?_ ?_
        · rw [(startArtifact_total hstart).2]
          decide
        · rw [supplied, List.length_map, List.length_range]
      refine ⟨s.fuel size, _, hends, fun m hm => ?_⟩
      obtain ⟨k, rfl⟩ := Nat.exists_eq_add_of_le hm
      rw [downloadArtifact, hstart, supplied, List.range_add, List.map_append]
      exact artifactLoop_append hends
  · obtain ⟨hheads, hsorted⟩ := loopHeads_total (supplied supply m) (startArtifact_total hs).1
    exact ⟨fun t ht => (hheads t ht).2, hsorted⟩

/-! ## A signed artifact -/

/-- For a signed artifact the loop is the one of `downloadInstaller`. -/
theorem artifactLoop_eq (artifact : SignedArtifact) (attempts : List DownloadAttempt) :
    artifactLoop sha256 artifact.size artifact.sha256 s attempts =
      downloadLoop sha256 artifact s attempts := by
  induction attempts generalizing s with
  | nil => rfl
  | cons a rest ih =>
    unfold artifactLoop downloadLoop
    cases hround : a.round artifact.size s with
    | raised t => rfl
    | again t => simp only [ih]; rfl

/-- **For a signed artifact it is the call whose result `downloadInstaller_iff` is about.** -/
theorem downloadArtifact_eq (artifact : SignedArtifact) (installer partFile : Option Bytes)
    (attempts : List DownloadAttempt) :
    downloadArtifact sha256 artifact.size artifact.sha256 installer partFile attempts =
      downloadInstaller sha256 artifact installer partFile attempts := by
  have hpositive := artifact.positive
  have hstart : startArtifact sha256 artifact.size artifact.sha256 installer partFile =
      (startDownload sha256 artifact installer partFile).mapError .returned := by
    unfold startArtifact startDownload
    have hmatches : matchesArtifact sha256 artifact.size artifact.sha256 =
        fileMatches sha256 artifact := rfl
    rw [hmatches]
    cases installer.filter (fileMatches sha256 artifact) with
    | some bytes => rfl
    | none =>
      cases partFile with
      | none =>
        simp only [Option.filter_none, if_neg hpositive.ne']
        rfl
      | some bytes =>
        by_cases hlong : artifact.size < bytes.length
        · simp only [Option.filter_some, decide_eq_true_eq, if_neg (not_le.mpr hlong),
            if_neg hpositive.ne', if_pos hlong]
          rfl
        · simp only [Option.filter_some, decide_eq_true_eq, if_pos (not_lt.mp hlong), if_neg hlong]
          split
          · split <;> rfl
          · rfl
  unfold downloadArtifact downloadInstaller
  rw [hstart]
  cases startDownload sha256 artifact installer partFile with
  | error bytes => rfl
  | ok s => exact artifactLoop_eq artifact attempts

end ThreadForge

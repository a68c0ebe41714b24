import ThreadForge.Lib.PyString

/-!
# Downloading the installer

`_download_installer` resumes what earlier attempts left in the `.download` file, asks for one range
after the other, and returns when it has counted as many bytes as the signed release has and the
digest of the counted bytes is the signed one.

## Files

Bytes that were given to `write` reach the file in their order, so that what an attempt leaves in the
file is a beginning of what it received. It is all of it unless a write or the close raised. The
other operations on files succeed.

## Main results

* `downloadInstaller_iff` — when only the signed installer is returned.
-/

namespace ThreadForge

/-- The contents of a file. -/
abbrev Bytes := List UInt8

/-! ## The release -/

/-- `_MAX_BUNDLE_BYTES`. -/
def maxBundleBytes : Nat := 128 * 1024 * 1024

/-- `_DOWNLOAD_RANGE_BYTES`. -/
def downloadRangeBytes : Nat := 2 * 1024 * 1024

/-- `_DOWNLOAD_READ_BYTES`. -/
def downloadReadBytes : Nat := 64 * 1024

/-- `_DOWNLOAD_RETRY_LIMIT`. -/
def downloadRetryLimit : Nat := 5

/-- The artifact of a manifest that was verified. -/
structure SignedArtifact where
  size : Nat
  sha256 : String
  positive : 0 < size
  bounded : size ≤ maxBundleBytes

/-! ## What an attempt meets -/

/-- An exception of an attempt. -/
structure DownloadError where
  /-- The status, where it is an `HTTPError`. -/
  httpCode : Option Nat := none
  message : String

/-- `_download_error_is_permanent`. -/
def DownloadError.permanent (error : DownloadError) : Bool :=
  match error.httpCode with
  | some code => code = 401 || code = 403
  | none =>
    pyContains error.message "exceeded its signed size" ||
      pyContains error.message "does not support resumable downloads" ||
      pyContains error.message "invalid byte range"

/-- The device token was rejected. -/
def DownloadError.unauthorized (error : DownloadError) : Bool :=
  error.httpCode = some 401 || error.httpCode = some 403

/-- One `read` of the response, and what happens to its bytes: they are written, the write raises, or
they are written and the check for a stall or the status report raises. -/
inductive ReadEvent
  | chunk (bytes : Bytes)
  | writeRaises (bytes : Bytes) (error : DownloadError)
  | stepRaises (bytes : Bytes) (error : DownloadError)
  | raises (error : DownloadError)

/-- One round of the loop, as the server, the network and the disk make it. -/
structure DownloadAttempt where
  /-- The status and the `Content-Range` of the response. -/
  response : Except DownloadError (Nat × String)
  openRaises : Option DownloadError := none
  /-- The connection ends after them. -/
  reads : List ReadEvent := []
  closeRaises : Option DownloadError := none
  /-- How many of the bytes received last are not in the file, where a write or the close raises. -/
  missing : Nat := 0
  /-- The report before the next round raises. -/
  reportRaises : Bool := false

/-- The locals of the loop, and the `.download` file. -/
structure DownloadState where
  partFile : Option Bytes := none
  total : Nat
  /-- What the digest was fed. -/
  hashed : Bytes
  failures : Nat := 0

/-- What is in the `.download` file. -/
def DownloadState.stored (s : DownloadState) : Bytes := s.partFile.getD []

/-! ## One attempt -/

/-- `_validate_range_response`: what it raises. -/
def validateRangeResponse (response : Nat × String) (start stop size : Nat) :
    Option DownloadError :=
  if response.1 = 200 ∧ start = 0 ∧ stop = size - 1 then none
  else if response.1 ≠ 206 then
    some { message := "Worker update server does not support resumable downloads" }
  else if response.2 ≠ "bytes " ++ toString start ++ "-" ++ toString stop ++ "/" ++ toString size then
    some { message := "Worker update server returned an invalid byte range" }
  else none

/-- How the reading loop ends. -/
inductive ReadEnd
  | complete
  | raised (error : DownloadError)
  /-- A write raised. -/
  | writeFailed (error : DownloadError)
  /-- More than the signed size was counted, with this many bytes at the end that the digest was not
  fed; the file is removed. -/
  | exceeded (count : Nat)

/-- The bytes the digest is fed, and how the reading loop ends. -/
def readChunks (size stop : Nat) : Nat → List ReadEvent → Bytes × ReadEnd
  | total, [] =>
    if stop < total then ([], .complete)
    else ([], .raised { message := "Worker update connection ended early" })
  | total, event :: rest =>
    if stop < total then ([], .complete)
    else
      let limit := min downloadReadBytes (stop - total + 1)
      match event with
      | .raises error => ([], .raised error)
      | .chunk bytes =>
        let chunk := bytes.take limit
        if chunk = [] then ([], .raised { message := "Worker update connection ended early" })
        else if maxBundleBytes < total + chunk.length ∨ size < total + chunk.length then
          ([], .exceeded chunk.length)
        else
          let later := readChunks size stop (total + chunk.length) rest
          (chunk ++ later.1, later.2)
      | .writeRaises bytes error =>
        let chunk := bytes.take limit
        if chunk = [] then ([], .raised { message := "Worker update connection ended early" })
        else if maxBundleBytes < total + chunk.length ∨ size < total + chunk.length then
          ([], .exceeded chunk.length)
        else (chunk, .writeFailed error)
      | .stepRaises bytes error =>
        let chunk := bytes.take limit
        if chunk = [] then ([], .raised { message := "Worker update connection ended early" })
        else if maxBundleBytes < total + chunk.length ∨ size < total + chunk.length then
          ([], .exceeded chunk.length)
        else (chunk, .raised error)

/-- What a round leads to. -/
inductive DownloadRound
  | again (s : DownloadState)
  | raised (s : DownloadState)

/-- The handler of the loop. -/
def handleDownloadError (s : DownloadState) (start : Nat) (error : DownloadError)
    (reportRaises : Bool) : DownloadRound :=
  if error.unauthorized then .raised s
  else if error.permanent then .raised s
  else
    let failures := if start < s.total then 0 else s.failures + 1
    if downloadRetryLimit ≤ failures then .raised { s with failures := failures }
    else if reportRaises then .raised { s with failures := failures }
    else .again { s with failures := failures }

/-- The last byte of the range that is asked for. -/
def rangeEnd (size start : Nat) : Nat := min (size - 1) (start + downloadRangeBytes - 1)

namespace DownloadAttempt

/-- The exception before anything is read. -/
def refused (a : DownloadAttempt) (size : Nat) (s : DownloadState) : Option DownloadError :=
  match a.response with
  | .error error => some error
  | .ok response =>
    match validateRangeResponse response s.total (rangeEnd size s.total) size with
    | some error => some error
    | none => a.openRaises

/-- What the reading loop does in this round. -/
def reading (a : DownloadAttempt) (size : Nat) (s : DownloadState) : Bytes × ReadEnd :=
  readChunks size (rangeEnd size s.total) s.total a.reads

/-- How many of the bytes received are not in the file when it is closed. -/
def lost (a : DownloadAttempt) : ReadEnd → Nat
  | .writeFailed _ => a.missing
  | .complete | .raised _ | .exceeded _ => if a.closeRaises.isSome then a.missing else 0

/-- The exception the `with` statement ends with: that of the close replaces the other. -/
def raisedBy (a : DownloadAttempt) (ending : ReadEnd) : Option DownloadError :=
  match a.closeRaises, ending with
  | some error, _ => some error
  | none, .complete => none
  | none, .raised error | none, .writeFailed error => some error
  | none, .exceeded _ => some { message := "Worker update exceeded its signed size" }

/-- The counters and the file after the `with` statement. -/
def received (a : DownloadAttempt) (size : Nat) (s : DownloadState) : DownloadState :=
  let bytes := (a.reading size s).1
  match (a.reading size s).2 with
  | .exceeded count => { s with
      total := s.total + bytes.length + count
      hashed := s.hashed ++ bytes
      partFile := none }
  | ending => { s with
      total := s.total + bytes.length
      hashed := s.hashed ++ bytes
      partFile := some (s.stored ++ bytes.take (bytes.length - a.lost ending)) }

/-- One round of the loop. -/
def round (a : DownloadAttempt) (size : Nat) (s : DownloadState) : DownloadRound :=
  match a.refused size s with
  | some error => handleDownloadError s s.total error a.reportRaises
  | none =>
    match a.raisedBy (a.reading size s).2 with
    | none => .again { a.received size s with failures := 0 }
    | some error => handleDownloadError (a.received size s) s.total error a.reportRaises

end DownloadAttempt

/-! ## The loop -/

/-- How the call ends: what it returns is the file at the path of the installer. `pending` is a call
that is still trying. -/
inductive DownloadEnd
  | returned (installer : Bytes)
  | raised
  | pending
  deriving DecidableEq

section Loop

variable (sha256 : Bytes → String) (artifact : SignedArtifact)

/-- After the loop. -/
def finishDownload (s : DownloadState) : DownloadEnd :=
  if s.total ≠ artifact.size then .raised
  else if sha256 s.hashed ≠ artifact.sha256 then .raised
  else match s.partFile with
    | some bytes => .returned bytes
    | none => .raised

/-- `while total < expected_size`, as far as the attempts go. -/
def downloadLoop : DownloadState → List DownloadAttempt → DownloadEnd
  | s, [] => if s.total < artifact.size then .pending else finishDownload sha256 artifact s
  | s, a :: rest =>
    if s.total < artifact.size then
      match a.round artifact.size s with
      | .again s' => downloadLoop s' rest
      | .raised _ => .raised
    else finishDownload sha256 artifact s

/-- `_file_matches`. -/
def fileMatches (bytes : Bytes) : Bool :=
  bytes.length = artifact.size && sha256 bytes = artifact.sha256

/-- Where the loop starts: from what is in the updates directory, or not at all. -/
def startDownload (installer partFile : Option Bytes) : Except Bytes DownloadState :=
  match installer.filter (fileMatches sha256 artifact) with
  | some bytes => .error bytes
  | none =>
    match partFile with
    | none => .ok { total := 0, hashed := [] }
    | some bytes =>
      if artifact.size < bytes.length then .ok { total := 0, hashed := [] }
      else if bytes.length = artifact.size then
        if fileMatches sha256 artifact bytes then .error bytes
        else .ok { total := 0, hashed := [] }
      else .ok { partFile := some bytes, total := bytes.length, hashed := bytes }

/-- `_download_installer`. -/
def downloadInstaller (installer partFile : Option Bytes) (attempts : List DownloadAttempt) :
    DownloadEnd :=
  match startDownload sha256 artifact installer partFile with
  | .error bytes => .returned bytes
  | .ok s => downloadLoop sha256 artifact s attempts

/-! ## What it is for -/

/-- Whenever the loop condition is checked, the bytes counted are those in the `.download` file. -/
def CountsStored : DownloadState → List DownloadAttempt → Prop
  | s, [] => s.total = s.stored.length
  | s, a :: rest =>
    s.total = s.stored.length ∧
      (s.total < artifact.size →
        match a.round artifact.size s with
        | .again s' => CountsStored s' rest
        | .raised _ => True)

/-- A file that is returned is the signed installer, and only stored bytes are counted. -/
structure OnlySigned (installer partFile : Option Bytes) (attempts : List DownloadAttempt) :
    Prop where
  signed : ∀ bytes, downloadInstaller sha256 artifact installer partFile attempts =
    .returned bytes → bytes.length = artifact.size ∧ sha256 bytes = artifact.sha256
  counts : ∀ s, startDownload sha256 artifact installer partFile = .ok s →
    CountsStored artifact s attempts

/-- All bytes that the attempt received are in the file when it is closed. -/
def DownloadAttempt.Stores (a : DownloadAttempt) (s : DownloadState) : Prop :=
  a.refused artifact.size s = none →
    a.lost (a.reading artifact.size s).2 = 0 ∨ (a.reading artifact.size s).1 = []

/-- So do all attempts after which the loop goes on. -/
def StoresAll : DownloadState → List DownloadAttempt → Prop
  | _, [] => True
  | s, a :: rest =>
    s.total < artifact.size →
      match a.round artifact.size s with
      | .again s' => a.Stores artifact s ∧ StoresAll s' rest
      | .raised _ => True

end Loop

variable {sha256 : Bytes → String} {artifact : SignedArtifact} {s t : DownloadState}
  {a : DownloadAttempt}

/-! ## One attempt -/

/-- The range ends within the file. -/
theorem rangeEnd_lt (hsize : 0 < artifact.size) (start : Nat) :
    rangeEnd artifact.size start < artifact.size := by
  unfold rangeEnd
  omega

/-- No more is read than was asked for. -/
theorem readChunks_not_exceeded {size stop : Nat} (hstop : stop < size)
    (hsize : size ≤ maxBundleBytes) (total : Nat) (events : List ReadEvent) (count : Nat) :
    (readChunks size stop total events).2 ≠ .exceeded count := by
  induction events generalizing total with
  | nil =>
    unfold readChunks
    split <;> simp
  | cons event rest ih =>
    unfold readChunks
    by_cases hdone : stop < total
    · rw [if_pos hdone]
      simp
    rw [if_neg hdone]
    have hfits : ∀ bytes : Bytes,
        ¬(maxBundleBytes < total + (bytes.take (min downloadReadBytes (stop - total + 1))).length ∨
          size < total + (bytes.take (min downloadReadBytes (stop - total + 1))).length) := by
      intro bytes
      have hlength := List.length_take_le (min downloadReadBytes (stop - total + 1)) bytes
      omega
    cases event with
    | chunk bytes =>
      simp only [if_neg (hfits bytes)]
      split
      · simp
      · exact ih _
    | writeRaises bytes error =>
      simp only [if_neg (hfits bytes)]
      split <;> simp
    | stepRaises bytes error =>
      simp only [if_neg (hfits bytes)]
      split <;> simp
    | raises error => simp

/-- What an attempt counts, and what is in the file after it. -/
theorem received_spec (a : DownloadAttempt) (artifact : SignedArtifact) (s : DownloadState) :
    (a.received artifact.size s).total = s.total + (a.reading artifact.size s).1.length ∧
      (a.received artifact.size s).hashed = s.hashed ++ (a.reading artifact.size s).1 ∧
      (a.received artifact.size s).stored = s.stored ++ (a.reading artifact.size s).1.take
        ((a.reading artifact.size s).1.length - a.lost (a.reading artifact.size s).2) := by
  have hnot : ∀ count, (a.reading artifact.size s).2 ≠ .exceeded count :=
    readChunks_not_exceeded (rangeEnd_lt artifact.positive s.total) artifact.bounded s.total a.reads
  unfold DownloadAttempt.received
  cases hending : (a.reading artifact.size s).2 with
  | exceeded count => exact absurd hending (hnot count)
  | complete => exact ⟨rfl, rfl, rfl⟩
  | raised error => exact ⟨rfl, rfl, rfl⟩
  | writeFailed error => exact ⟨rfl, rfl, rfl⟩

/-- The handler goes on with the counters and the file it was given. -/
theorem of_handleDownloadError {start : Nat} {error : DownloadError} {reportRaises : Bool}
    (h : handleDownloadError s start error reportRaises = .again t) :
    t.total = s.total ∧ t.hashed = s.hashed ∧ t.stored = s.stored := by
  unfold handleDownloadError at h
  by_cases hunauthorized : error.unauthorized = true
  · rw [if_pos hunauthorized] at h
    cases h
  rw [if_neg hunauthorized] at h
  by_cases hpermanent : error.permanent = true
  · rw [if_pos hpermanent] at h
    cases h
  rw [if_neg hpermanent] at h
  simp only at h
  by_cases hlimit : downloadRetryLimit ≤ if start < s.total then 0 else s.failures + 1
  · rw [if_pos hlimit] at h
    cases h
  rw [if_neg hlimit] at h
  by_cases hreport : reportRaises = true
  · rw [if_pos hreport] at h
    cases h
  rw [if_neg hreport] at h
  rw [← DownloadRound.again.inj h]
  exact ⟨rfl, rfl, rfl⟩

/-- Where the loop goes on, either nothing was read or what was read is in the counters. -/
theorem of_round (h : a.round artifact.size s = .again t) :
    ((∃ error, a.refused artifact.size s = some error) ∧ t.total = s.total ∧ t.hashed = s.hashed ∧
        t.stored = s.stored) ∨
      (a.refused artifact.size s = none ∧ t.total = (a.received artifact.size s).total ∧
        t.hashed = (a.received artifact.size s).hashed ∧
        t.stored = (a.received artifact.size s).stored) := by
  unfold DownloadAttempt.round at h
  cases hrefused : a.refused artifact.size s with
  | some error =>
    rw [hrefused] at h
    exact Or.inl ⟨⟨error, rfl⟩, of_handleDownloadError h⟩
  | none =>
    rw [hrefused] at h
    simp only at h
    refine Or.inr ⟨rfl, ?_⟩
    split at h
    · cases h
      exact ⟨rfl, rfl, rfl⟩
    · exact of_handleDownloadError h

/-! ## The loop -/

/-- The counters say what is in the file. -/
structure DownloadState.Exact (s : DownloadState) : Prop where
  total : s.total = s.stored.length
  hashed : s.hashed = s.stored

/-- **An attempt after which the loop goes on counts what is in the file exactly where it stored all
it received.** -/
theorem round_exact_iff (hs : s.Exact) (h : a.round artifact.size s = .again t) :
    (t.total = t.stored.length ↔ a.Stores artifact s) ∧ (a.Stores artifact s → t.Exact) := by
  rcases of_round h with ⟨⟨error, hrefused⟩, htotal, hhashed, hstored⟩ |
    ⟨hrefused, htotal, hhashed, hstored⟩
  · have hexact : t.Exact := ⟨by rw [htotal, hstored, hs.total], by rw [hhashed, hstored, hs.hashed]⟩
    refine ⟨iff_of_true hexact.total fun hnone => ?_, fun _ => hexact⟩
    rw [hrefused] at hnone
    cases hnone
  · obtain ⟨hcount, hfed, hfile⟩ := received_spec a artifact s
    rw [hcount, hs.total] at htotal
    rw [hfed, hs.hashed] at hhashed
    rw [hfile] at hstored
    have hiff : t.total = t.stored.length ↔ a.Stores artifact s := by
      rw [htotal, hstored, List.length_append, List.length_take, DownloadAttempt.Stores]
      constructor
      · intro hsame _
        by_cases hempty : (a.reading artifact.size s).1 = []
        · exact Or.inr hempty
        · have hpositive := List.length_pos_iff.mpr hempty
          exact Or.inl (by omega)
      · intro hstores
        rcases hstores hrefused with hnone | hempty
        · omega
        · rw [hempty]
          simp
    refine ⟨hiff, fun hstores => ⟨hiff.mpr hstores, ?_⟩⟩
    rw [hhashed, hstored]
    rcases hstores hrefused with hnone | hempty
    · rw [hnone, Nat.sub_zero, List.take_length]
    · rw [hempty, List.take_nil]

/-- What the loop returns where the counters say what is in the file. -/
theorem finishDownload_signed (hs : s.Exact) {bytes : Bytes}
    (h : finishDownload sha256 artifact s = .returned bytes) :
    bytes.length = artifact.size ∧ sha256 bytes = artifact.sha256 := by
  unfold finishDownload at h
  split at h
  · cases h
  next htotal =>
  split at h
  · cases h
  next hdigest =>
  split at h
  · next found hfile =>
    cases h
    have hstored : s.stored = bytes := by rw [DownloadState.stored, hfile]; rfl
    rw [← hstored, ← hs.hashed]
    exact ⟨by rw [hs.hashed, ← hs.total]; exact not_not.mp htotal, not_not.mp hdigest⟩
  · cases h

/-- The loop, from counters that say what is in the file. -/
theorem downloadLoop_iff {attempts : List DownloadAttempt} (hs : s.Exact) :
    ((∀ bytes, downloadLoop sha256 artifact s attempts = .returned bytes →
        bytes.length = artifact.size ∧ sha256 bytes = artifact.sha256) ∧
      CountsStored artifact s attempts) ↔ StoresAll artifact s attempts := by
  induction attempts generalizing s with
  | nil =>
    refine iff_of_true ⟨fun bytes h => ?_, hs.total⟩ trivial
    rw [downloadLoop] at h
    split at h
    · cases h
    · exact finishDownload_signed hs h
  | cons a rest ih =>
    rw [downloadLoop, CountsStored, StoresAll]
    by_cases hmore : s.total < artifact.size
    · simp only [hmore, true_implies]
      cases hround : a.round artifact.size s with
      | raised t =>
        simp only
        exact iff_of_true ⟨fun bytes h => DownloadEnd.noConfusion h, hs.total, trivial⟩ trivial
      | again t =>
        simp only
        obtain ⟨hiff, hexact⟩ := round_exact_iff hs hround
        constructor
        · rintro ⟨hsigned, -, hcounts⟩
          have hstores := hiff.mp (by cases rest with
            | nil => exact hcounts
            | cons => exact hcounts.1)
          exact ⟨hstores, (ih (hexact hstores)).mp ⟨hsigned, hcounts⟩⟩
        · rintro ⟨hstores, hrest⟩
          obtain ⟨hsigned, hcounts⟩ := (ih (hexact hstores)).mpr hrest
          exact ⟨hsigned, hs.total, hcounts⟩
    · simp only [hmore, false_implies, and_true]
      exact iff_of_true ⟨fun bytes h => finishDownload_signed hs h, hs.total⟩ trivial

/-! ## The call -/

theorem startDownload_exact {installer partFile : Option Bytes}
    (h : startDownload sha256 artifact installer partFile = .ok s) : s.Exact := by
  have hempty : ({ total := 0, hashed := [] } : DownloadState).Exact := ⟨rfl, rfl⟩
  unfold startDownload at h
  split at h
  · cases h
  split at h
  · rw [← Except.ok.inj h]
    exact hempty
  split at h
  · rw [← Except.ok.inj h]
    exact hempty
  split at h
  · split at h
    · cases h
    · rw [← Except.ok.inj h]
      exact hempty
  · rw [← Except.ok.inj h]
    exact ⟨rfl, rfl⟩

theorem startDownload_signed {installer partFile : Option Bytes} {bytes : Bytes}
    (h : startDownload sha256 artifact installer partFile = .error bytes) :
    bytes.length = artifact.size ∧ sha256 bytes = artifact.sha256 := by
  have hmatches : ∀ found, fileMatches sha256 artifact found = true →
      found.length = artifact.size ∧ sha256 found = artifact.sha256 := by
    intro found hfound
    unfold fileMatches at hfound
    simpa using hfound
  unfold startDownload at h
  split at h
  · next found hfound =>
    rw [← Except.error.inj h]
    exact hmatches found (Option.filter_eq_some_iff.mp hfound).2
  split at h
  · cases h
  split at h
  · cases h
  split at h
  · split at h
    · next hfound =>
      rw [← Except.error.inj h]
      exact hmatches _ hfound
    · cases h
  · cases h

/--
**Only the signed installer is returned and only stored bytes are counted, exactly where every
attempt after which the loop goes on stored all it received.**

Any contents of the updates directory, and any server, network and disk in each attempt. A write or a
close that raises after its bytes were counted makes the digest vouch for bytes that are not in the
file.
-/
theorem downloadInstaller_iff (sha256 : Bytes → String) (artifact : SignedArtifact)
    (installer partFile : Option Bytes) (attempts : List DownloadAttempt) :
    OnlySigned sha256 artifact installer partFile attempts ↔
      ∀ s, startDownload sha256 artifact installer partFile = .ok s →
        StoresAll artifact s attempts := by
  cases hstart : startDownload sha256 artifact installer partFile with
  | error found =>
    refine iff_of_true ⟨fun bytes h => ?_, fun s hs => ?_⟩ fun s hs => ?_
    · rw [downloadInstaller, hstart] at h
      rw [← DownloadEnd.returned.inj h]
      exact startDownload_signed hstart
    · rw [hstart] at hs
      cases hs
    · cases hs
  | ok start =>
    have hloop : ((∀ bytes, downloadLoop sha256 artifact start attempts = .returned bytes → _) ∧
        CountsStored artifact start attempts) ↔ StoresAll artifact start attempts :=
      downloadLoop_iff (startDownload_exact hstart)
    have hcall : downloadInstaller sha256 artifact installer partFile attempts =
        downloadLoop sha256 artifact start attempts := by
      rw [downloadInstaller, hstart]
    constructor
    · intro honly s hs
      rw [← Except.ok.inj hs]
      refine hloop.mp ⟨fun bytes h => honly.signed bytes ?_, honly.counts start hstart⟩
      rw [hcall]
      exact h
    · intro hstores
      obtain ⟨hsigned, hcounts⟩ := hloop.mpr (hstores start rfl)
      refine ⟨fun bytes h => hsigned bytes ?_, fun s hs => ?_⟩
      · rw [← hcall]
        exact h
      · rw [hstart] at hs
        rw [← Except.ok.inj hs]
        exact hcounts

/-! ## A full disk -/

def sampleArtifact : SignedArtifact where
  size := 3
  sha256 := "good"
  positive := by decide
  bounded := by decide

/-- The three bytes of the release have the signed digest. -/
def sampleSha256 (bytes : Bytes) : String := if bytes = [1, 2, 3] then "good" else "bad"

/-- The server sends the release, and the disk is full before its last byte. -/
def fullDisk : DownloadAttempt where
  response := .ok (206, "bytes 0-2/3")
  reads := [.writeRaises [1, 2, 3] { message := "No space left on device" }]
  missing := 1

/-- Two bytes are installed for three. -/
theorem fullDisk_installed :
    downloadInstaller sampleSha256 sampleArtifact none none [fullDisk] = .returned [1, 2] ∧
      ¬OnlySigned sampleSha256 sampleArtifact none none [fullDisk] := by
  have hreturned : downloadInstaller sampleSha256 sampleArtifact none none [fullDisk] =
      .returned [1, 2] := by decide +kernel
  refine ⟨hreturned, fun honly => ?_⟩
  have hlength : 2 = 3 := (honly.signed [1, 2] hreturned).1
  omega

end ThreadForge

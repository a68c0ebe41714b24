import ThreadForge.Lib.Transition
import ThreadForge.Pico.Repeats

/-!
# Releases of the Worker

`WorkerReleaseService`: `latest` reads and validates the signed manifest, and
`open_verified_artifact` opens the file of a platform and serves it once its bytes were verified.
What was verified is remembered under a key that is read from the path of the file after it was
opened.

Calls of several threads meet between any two file operations, and files are replaced by renames. A
version of a file is known by its modification time; a handle goes on reading the version it was
opened on.

## What is a parameter

The contents of the versions, Ed25519, SHA-256, `json.loads`, and what a path resolves to.

## Main results

* `genuine_of_faithful` — what is served is what the manifest says, where no call meets a
  replacement between opening a file and asking for its time.
-/

namespace ThreadForge

open Transition

namespace Release

/-- What the service runs in. -/
structure Services where
  txt : PyText
  /-- `str.isdigit` of a character. -/
  isDigit : Char → Bool
  /-- The bytes of the version with a modification time. -/
  bytes : Nat → List UInt8
  loads : List UInt8 → Option PyValue
  /-- `verify` of the decoded signature, for a canonical text. -/
  verify : String → String → Bool
  sha256 : List UInt8 → String
  /-- The pieces `read` returns until it returns none. -/
  chunks : List UInt8 → List (List UInt8)
  chunks_flatten : ∀ bytes, (chunks bytes).flatten = bytes
  /-- The file of a version and a file name, where it resolves to one of the directory. -/
  resolve : String → String → Option String
  maxBytes : Nat

variable (w : Services)

/-! ## The manifest -/

/-- `_semantic_version`. -/
def semanticVersion (value : String) : Bool :=
  let parts := value.toList.splitOn '.'
  parts.length = 3 && parts.all fun part => part ≠ [] && part.all w.isDigit

/-- `isinstance(value, int)`, with its value. -/
def intOf? : PyValue → Option Int
  | .int n => some n
  | .bool b => some (if b then 1 else 0)
  | _ => none

def isDigest (text : String) : Bool :=
  text.length = 64 && text.toList.all fun c => c ∈ "0123456789abcdef".toList

/-- One artifact of `_validate_manifest`. -/
def validArtifact (name : String) : PyValue → Bool
  | .dict artifact =>
    name = "windows-x86_64" &&
      PyDict.getD artifact "filename" .none = .str ("threadforge-worker-" ++ name ++ ".exe") &&
      ((intOf? (PyDict.getD artifact "size" .none)).any fun size => 0 < size) &&
      isDigest (PyDict.textOf w.txt artifact "sha256")
  | _ => false

/-- `_validate_manifest`. -/
def validManifest (manifest : PyDict) : Bool :=
  scalarEq (PyDict.getD manifest "schema_version" .none) (.int 1) &&
  (match PyDict.getD manifest "signature" .none with
    | .dict signature =>
      let canonical := PyValue.dumpsSorted w.txt
        (.dict (manifest.filter fun entry => entry.1 ≠ "signature"))
      PyDict.getD signature "algorithm" .none = .str "ed25519" && w.txt.encodable canonical &&
        w.verify (PyDict.textOf w.txt signature "value") canonical
    | _ => false) &&
  semanticVersion w (PyDict.textOf w.txt manifest "version") &&
  scalarEq (PyDict.getD manifest "protocol_version" .none) (.int 1) &&
  match PyDict.getD manifest "platforms" .none with
  | .dict platforms => !platforms.isEmpty && platforms.all fun entry => validArtifact w entry.1 entry.2
  | _ => false

/-- A manifest that was validated: its signature was verified. -/
structure Manifest where
  fields : PyDict
  valid : validManifest w fields = true

/-- The manifest of a version of its file. -/
def readManifest (version : Nat) : Option (Manifest w) :=
  if 64 * 1024 < (w.bytes version).length then none
  else match w.loads (w.bytes version) with
    | some (.dict fields) =>
      if h : validManifest w fields = true then some ⟨fields, h⟩ else none
    | _ => none

/-- An entry of `manifest["platforms"]`. -/
structure Entry where
  manifest : Manifest w
  platform : String
  artifact : PyDict
  listed : ∃ platforms, PyDict.getD manifest.fields "platforms" .none = .dict platforms ∧
    PyDict.get? platforms platform = some (.dict artifact)

/-- `manifest["platforms"].get(platform_name)`. -/
def entryOf (manifest : Manifest w) (platform : String) : Option (Entry w) :=
  match hplatforms : PyDict.getD manifest.fields "platforms" .none with
  | .dict platforms => match hartifact : PyDict.get? platforms platform with
    | some (.dict artifact) =>
      some ⟨manifest, platform, artifact, platforms, hplatforms, hartifact⟩
    | _ => none
  | _ => none

variable {w}

/-- `int(artifact["size"])`. -/
def Entry.size (entry : Entry w) : Int := (intOf? (PyDict.getD entry.artifact "size" .none)).getD 0

/-- `str(artifact["sha256"])`. -/
def Entry.digest (entry : Entry w) : String := PyDict.textOf w.txt entry.artifact "sha256"

/-- The path of the artifact. -/
def Entry.path (entry : Entry w) : Option String :=
  w.resolve (PyDict.textOf w.txt entry.manifest.fields "version")
    (PyDict.textOf w.txt entry.artifact "filename")

/-- The file version has the length and the digest of the entry. -/
def Entry.Genuine (entry : Entry w) (version : Nat) : Prop :=
  ((w.bytes version).length : Int) = entry.size ∧ w.sha256 (w.bytes version) = entry.digest

/-- `cache_key`. -/
structure Key where
  path : String
  modified : Nat
  size : Nat
  digest : String
  deriving DecidableEq, Repr

/-- The bytes that were read, unless there are too many of them. -/
def readChunks (limit : Int) : List (List UInt8) → List UInt8 → Option (List UInt8)
  | [], total => some total
  | chunk :: chunks, total =>
    if limit < (total ++ chunk).length then none else readChunks limit chunks (total ++ chunk)

/-- The loop over the chunks and the comparison after it. -/
def verified (entry : Entry w) (handle : Nat) : Bool :=
  match readChunks (min w.maxBytes entry.size) (w.chunks (w.bytes handle)) [] with
  | some total => (total.length : Int) = entry.size && w.sha256 total = entry.digest
  | none => false

/-! ## The service and its calls -/

/-- `latest`, or `open_verified_artifact`. -/
inductive Call
  | latest (refresh : Bool)
  | artifact (platform : String)
  deriving DecidableEq, Repr

variable (w)

/-- Where a call stands. -/
inductive Phase
  | idle
  /-- The time of the manifest is known. -/
  | timed (call : Call) (modified : Nat)
  /-- The manifest has to be read. -/
  | missed (call : Call) (modified : Nat)
  /-- The manifest was read and validated. -/
  | validated (call : Call) (modified : Nat) (manifest : Manifest w)
  /-- `latest` has returned to `open_verified_artifact`. -/
  | chosen (entry : Entry w)
  | opened (entry : Entry w) (path : String) (handle : Nat)
  | keyed (entry : Entry w) (handle : Nat) (key : Key)
  /-- The bytes have to be read. -/
  | unverified (entry : Entry w) (handle : Nat) (key : Key)
  /-- The bytes were read and are those of the entry. -/
  | matched (entry : Entry w) (handle : Nat) (key : Key)
  | served (entry : Entry w) (handle : Nat)
  | returned (manifest : Manifest w)
  | raised

/-- The files, what the service remembers, and where its calls stand. -/
structure State (ι : Type*) where
  manifestFile : Option Nat
  files : String → Option Nat
  cache : Option (Nat × Manifest w)
  verified : List Key
  phase : ι → Phase w

/-- A call begins with the time of the manifest, and goes on to its next lock or file operation. -/
inductive Action (ι : Type*)
  | replaceManifest (version : Option Nat)
  | replaceFile (path : String) (version : Option Nat)
  | begin (i : ι) (call : Call)
  | lookManifest (i : ι)
  | readManifest (i : ι)
  | keepManifest (i : ι)
  | openFile (i : ι)
  | stat (i : ι)
  | look (i : ι)
  | read (i : ι)
  | remember (i : ι) (kept : List Key)

variable {w} {ι : Type*} [DecidableEq ι]

/-- The call stands elsewhere. -/
def State.goTo (s : State w ι) (i : ι) (phase : Phase w) : State w ι :=
  { s with phase := Function.update s.phase i phase }

/-- What follows the manifest: the return of `latest`, or the entry of the platform. -/
def afterLatest (manifest : Manifest w) : Call → Phase w
  | .latest _ => .returned manifest
  | .artifact platform => match entryOf w manifest platform with
    | some entry => if (w.maxBytes : Int) < entry.size then .raised else .chosen entry
    | none => .raised

/-- `while len(self._verified_artifacts) > 16: self._verified_artifacts.pop()`: which keys go is not
known. -/
def Evicts (keys kept : List Key) : Prop :=
  kept ⊆ keys ∧ if keys.length ≤ 16 then keys ⊆ kept else kept.length = 16

/-- One action. -/
inductive Step (s : State w ι) : Action ι → State w ι → Prop
  | replaceManifest (version : Option Nat) :
      Step s (.replaceManifest version) { s with manifestFile := version }
  | replaceFile (path : String) (version : Option Nat) :
      Step s (.replaceFile path version) { s with files := Function.update s.files path version }
  | begin {i : ι} (call : Call) (hphase : s.phase i = .idle) :
      Step s (.begin i call) (s.goTo i (match s.manifestFile with
        | some modified => .timed call modified
        | none => .raised))
  | lookManifest {i : ι} {call : Call} {modified : Nat}
      (hphase : s.phase i = .timed call modified) :
      Step s (.lookManifest i) (s.goTo i (match s.cache with
        | some (cached, manifest) =>
          if call ≠ .latest true ∧ cached = modified then afterLatest manifest call
          else .missed call modified
        | none => .missed call modified))
  | readManifest {i : ι} {call : Call} {modified : Nat}
      (hphase : s.phase i = .missed call modified) :
      Step s (.readManifest i) (s.goTo i (match s.manifestFile.bind (Release.readManifest w) with
        | some manifest => .validated call modified manifest
        | none => .raised))
  | keepManifest {i : ι} {call : Call} {modified : Nat} {manifest : Manifest w}
      (hphase : s.phase i = .validated call modified manifest) :
      Step s (.keepManifest i) ({ s with
        verified := if s.cache.map Prod.fst = some modified then s.verified else []
        cache := some (modified, manifest) }.goTo i (afterLatest manifest call))
  | openFile {i : ι} {entry : Entry w} (hphase : s.phase i = .chosen entry) :
      Step s (.openFile i) (s.goTo i (match entry.path with
        | some path => match s.files path with
          | some handle => .opened entry path handle
          | none => .raised
        | none => .raised))
  -- the time and the size are those of what the path names now, not of the handle
  | stat {i : ι} {entry : Entry w} {path : String} {handle : Nat}
      (hphase : s.phase i = .opened entry path handle) :
      Step s (.stat i) (s.goTo i (match s.files path with
        | some modified =>
          .keyed entry handle ⟨path, modified, (w.bytes modified).length, entry.digest⟩
        | none => .raised))
  | look {i : ι} {entry : Entry w} {handle : Nat} {key : Key}
      (hphase : s.phase i = .keyed entry handle key) :
      Step s (.look i) (s.goTo i
        (if key ∈ s.verified then .served entry handle else .unverified entry handle key))
  | read {i : ι} {entry : Entry w} {handle : Nat} {key : Key}
      (hphase : s.phase i = .unverified entry handle key) :
      Step s (.read i) (s.goTo i
        (if Release.verified entry handle then .matched entry handle key else .raised))
  | remember {i : ι} {entry : Entry w} {handle : Nat} {key : Key} {kept : List Key}
      (hphase : s.phase i = .matched entry handle key)
      (hkept : Evicts (s.verified.insert key) kept) :
      Step s (.remember i kept) ({ s with verified := kept }.goTo i (.served entry handle))

/-! ## What is served -/

/-- Every handle that was returned reads what its entry says. -/
def Genuine (s : State w ι) : Prop :=
  ∀ i entry handle, s.phase i = .served entry handle → entry.Genuine handle

/-- The action does not use the key of another version than the one its handle reads, or of another
size than the one of its entry. -/
def Faithful (s : State w ι) : Action ι → Prop
  | .look i => ∀ entry handle key, s.phase i = .keyed entry handle key → key ∈ s.verified →
      key.modified = handle ∧ (key.size : Int) = entry.size
  | .remember i _ => ∀ entry handle key, s.phase i = .matched entry handle key →
      key.modified = handle
  | _ => True

/-- The service as it starts. -/
def initial (w : Services) (ι : Type*) (manifestFile : Option Nat) (files : String → Option Nat) :
    State w ι where
  manifestFile := manifestFile
  files := files
  cache := none
  verified := []
  phase _ := .idle

/-- The key names a version that has its size and its digest. -/
def Key.Truthful (w : Services) (key : Key) : Prop :=
  key.size = (w.bytes key.modified).length ∧ w.sha256 (w.bytes key.modified) = key.digest

/-- The key was made for the entry. -/
def Key.MadeFor (key : Key) (entry : Entry w) : Prop :=
  key.size = (w.bytes key.modified).length ∧ key.digest = entry.digest

/-- What is known of a call where it stands. -/
def Phase.Sound : Phase w → Prop
  | .keyed entry _ key => key.MadeFor entry
  | .unverified entry _ key => key.MadeFor entry
  | .matched entry handle key => key.MadeFor entry ∧ entry.Genuine handle
  | .served entry handle => entry.Genuine handle
  | _ => True

/-- What is remembered is true, and so is what the calls know. -/
structure Inv (s : State w ι) : Prop where
  truthful : ∀ key ∈ s.verified, key.Truthful w
  sound : ∀ i, (s.phase i).Sound

omit [DecidableEq ι] in
theorem readChunks_eq {limit : Int} {chunks : List (List UInt8)} {total bytes : List UInt8}
    (h : readChunks limit chunks total = some bytes) : bytes = total ++ chunks.flatten := by
  induction chunks generalizing total with
  | nil =>
    rw [List.flatten_nil, List.append_nil]
    exact (Option.some.inj h).symm
  | cons chunk chunks ih =>
    rw [readChunks] at h
    split at h
    · cases h
    · rw [ih h, List.flatten_cons, List.append_assoc]

omit [DecidableEq ι] in
/-- Bytes that were verified are those of the entry. -/
theorem genuine_of_verified {entry : Entry w} {handle : Nat}
    (h : Release.verified entry handle = true) : entry.Genuine handle := by
  unfold Release.verified at h
  split at h
  · next total htotal =>
    have hbytes := readChunks_eq htotal
    rw [List.nil_append, w.chunks_flatten] at hbytes
    rw [hbytes] at h
    unfold Entry.Genuine
    simpa using h
  · cases h

omit [DecidableEq ι] in
theorem sound_afterLatest (manifest : Manifest w) (call : Call) :
    (afterLatest manifest call).Sound := by
  unfold afterLatest
  split
  · trivial
  · split
    · split <;> trivial
    · trivial

theorem sound_goTo {s : State w ι} {i : ι} {phase : Phase w} (h : ∀ i, (s.phase i).Sound)
    (hphase : phase.Sound) : ∀ j, ((s.goTo i phase).phase j).Sound := by
  intro j
  unfold State.goTo
  by_cases hj : j = i
  · rw [hj]
    simpa using hphase
  · simpa [hj] using h j

/-- A faithful step keeps what is known. -/
theorem Inv.step {s t : State w ι} {a : Action ι} (h : Inv s) (hfaithful : Faithful s a)
    (hstep : Step s a t) : Inv t := by
  cases hstep with
  | replaceManifest version => exact ⟨h.truthful, h.sound⟩
  | replaceFile path version => exact ⟨h.truthful, h.sound⟩
  | begin call hphase =>
    refine ⟨h.truthful, sound_goTo h.sound ?_⟩
    split <;> trivial
  | lookManifest hphase =>
    refine ⟨h.truthful, sound_goTo h.sound ?_⟩
    split
    · split
      · exact sound_afterLatest _ _
      · trivial
    · trivial
  | readManifest hphase =>
    refine ⟨h.truthful, sound_goTo h.sound ?_⟩
    split <;> trivial
  | @keepManifest i call modified manifest hphase =>
    refine ⟨fun key hkey => ?_, sound_goTo h.sound (sound_afterLatest _ _)⟩
    have hkept : key ∈ if s.cache.map Prod.fst = some modified then s.verified else [] := hkey
    split at hkept
    · exact h.truthful key hkept
    · cases hkept
  | openFile hphase =>
    refine ⟨h.truthful, sound_goTo h.sound ?_⟩
    split
    · split <;> trivial
    · trivial
  | stat hphase =>
    refine ⟨h.truthful, sound_goTo h.sound ?_⟩
    split
    · exact ⟨rfl, rfl⟩
    · trivial
  | @look i entry handle key hphase =>
    have hmade : key.MadeFor entry := by
      have hsound := h.sound i
      rwa [hphase] at hsound
    refine ⟨h.truthful, sound_goTo h.sound ?_⟩
    split
    · next hhit =>
      obtain ⟨hversion, hsize⟩ := hfaithful entry handle key hphase hhit
      obtain ⟨hlength, hdigest⟩ := h.truthful key hhit
      rw [hversion] at hlength hdigest
      exact ⟨by rw [← hlength, hsize], hdigest.trans hmade.2⟩
    · exact hmade
  | @read i entry handle key hphase =>
    have hmade : key.MadeFor entry := by
      have hsound := h.sound i
      rwa [hphase] at hsound
    refine ⟨h.truthful, sound_goTo h.sound ?_⟩
    split
    · next hverified => exact ⟨hmade, genuine_of_verified hverified⟩
    · trivial
  | @remember i entry handle key kept hphase hkept =>
    have hmatched : key.MadeFor entry ∧ entry.Genuine handle := by
      have hsound := h.sound i
      rwa [hphase] at hsound
    obtain ⟨hmade, hgenuine⟩ := hmatched
    refine ⟨fun other hother => ?_, sound_goTo h.sound hgenuine⟩
    rcases List.mem_insert_iff.mp (hkept.1 hother) with rfl | hold
    · refine ⟨hmade.1, ?_⟩
      rw [hfaithful entry handle other hphase, hgenuine.2, hmade.2]
    · exact h.truthful other hold

/-- **What is served is what a verified manifest says, in every run without a key of another
version.** -/
theorem genuine_of_faithful {manifestFile : Option Nat} {files : String → Option Nat}
    {ms : List (Move (State w ι) (Action ι))} {t : State w ι}
    (hrun : Run Step (initial w ι manifestFile files) ms t)
    (hall : ∀ m ∈ ms, Faithful m.pre m.act) :
    (Genuine t ∧ ∀ m ∈ ms, Genuine m.pre) ∧
      ∀ entry : Entry w, validManifest w entry.manifest.fields = true := by
  have hgenuine : ∀ s : State w ι, Inv s → Genuine s := by
    intro s hs i entry handle hphase
    have hsound := hs.sound i
    rwa [hphase] at hsound
  obtain ⟨hend, hbefore⟩ := hrun.invariant (fun _ _ _ hinv hguard hstep => hinv.step hguard hstep)
    (show Inv (initial w ι manifestFile files) from ⟨by simp [initial], fun _ => trivial⟩) hall
  exact ⟨⟨hgenuine t hend, fun m hm => hgenuine _ (hbefore m hm)⟩,
    fun entry => entry.manifest.valid⟩

/-! ## A file that is replaced between two operations -/

/-- Two calls of a service, while the manifest stays. -/
def between (modified : Nat) (files : String → Option Nat) (cache : Option (Nat × Manifest w))
    (verified : List Key) (first second : Phase w) : State w Bool where
  manifestFile := some modified
  files := files
  cache := cache
  verified := verified
  phase i := if i then second else first

theorem goTo_between (modified : Nat) (files : String → Option Nat)
    (cache : Option (Nat × Manifest w)) (verified : List Key) (first second phase : Phase w) :
    (between modified files cache verified first second).goTo false phase =
        between modified files cache verified phase second ∧
      (between modified files cache verified first second).goTo true phase =
        between modified files cache verified first phase := by
  constructor <;>
    · unfold State.goTo between
      congr
      funext i
      cases i <;> rfl

/-- What the manifest says of a platform, in a file whose contents are `good`. -/
structure Published (w : Services) (modified good : Nat) (platform path : String)
    (files : String → Option Nat) (manifest : Manifest w) (entry : Entry w) : Prop where
  read : readManifest w modified = some manifest
  chosen : afterLatest manifest (.artifact platform) = .chosen entry
  path_eq : entry.path = some path
  file : files path = some good
  verified : Release.verified entry good = true

/-- Whatever the manifest says, a file that takes the place of a good one at the right time is
served. -/
theorem exists_poisoned_run {modified good : Nat} {platform path : String}
    {files : String → Option Nat} {manifest : Manifest w} {entry : Entry w}
    (h : Published w modified good platform path files manifest entry) (bad : Nat) :
    ∃ ms t, Run Step (initial w Bool (some modified) files) ms t ∧
      t.phase true = .served entry bad ∧ (bad = good → ∀ m ∈ ms, Faithful m.pre m.act) := by
  obtain ⟨hread, hchosen, hpath, hfile, hverified⟩ := h
  let call := Call.artifact platform
  let key : Key := ⟨path, bad, (w.bytes bad).length, entry.digest⟩
  let poisoned := Function.update files path (some bad)
  have hbad : poisoned path = some bad := Function.update_self _ _ _
  have hstart : initial w Bool (some modified) files =
      between modified files none [] .idle .idle := by
    unfold initial between
    congr
    funext i
    cases i <;> rfl
  have move : ∀ {s s' t : State w Bool} {a : Action Bool}, Step s a t → t = s' → Step s a s' := by
    rintro s s' t a hstep rfl
    exact hstep
  -- the first call reads the good version, and asks for the time of the bad one
  have h1 : Step (between modified files none [] .idle .idle) (.begin false call)
      (between modified files none [] (.timed call modified) .idle) :=
    move (.begin call rfl) (goTo_between ..).1
  have h2 : Step (between modified files none [] (.timed call modified) .idle)
      (.lookManifest false) (between modified files none [] (.missed call modified) .idle) :=
    move (.lookManifest rfl) (goTo_between ..).1
  have h3 : Step (between modified files none [] (.missed call modified) .idle)
      (.readManifest false)
      (between modified files none [] (.validated call modified manifest) .idle) := by
    refine move (.readManifest rfl) ?_
    rw [show (between modified files none [] (.missed call modified) .idle).manifestFile.bind
      (readManifest w) = some manifest from hread]
    exact (goTo_between ..).1
  have h4 : Step (between modified files none [] (.validated call modified manifest) .idle)
      (.keepManifest false)
      (between modified files (some (modified, manifest)) [] (.chosen entry) .idle) := by
    refine move (.keepManifest rfl) ?_
    rw [hchosen]
    exact (goTo_between ..).1
  have h5 : Step (between modified files (some (modified, manifest)) [] (.chosen entry) .idle)
      (.openFile false)
      (between modified files (some (modified, manifest)) [] (.opened entry path good) .idle) := by
    refine move (.openFile rfl) ?_
    rw [hpath]
    simp only [between, hfile]
    exact (goTo_between ..).1
  have h6 : Step (between modified files (some (modified, manifest)) [] (.opened entry path good)
    .idle)
      (.replaceFile path (some bad))
      (between modified poisoned (some (modified, manifest)) [] (.opened entry path good) .idle) :=
    .replaceFile path (some bad)
  have h7 : Step (between modified poisoned (some (modified, manifest)) []
      (.opened entry path good) .idle) (.stat false)
      (between modified poisoned (some (modified, manifest)) [] (.keyed entry good key) .idle) := by
    refine move (.stat rfl) ?_
    simp only [between, hbad]
    exact (goTo_between ..).1
  have h8 : Step (between modified poisoned (some (modified, manifest)) [] (.keyed entry good key)
    .idle)
      (.look false)
      (between modified poisoned (some (modified, manifest)) [] (.unverified entry good key)
        .idle) :=
    move (.look rfl) (goTo_between ..).1
  have h9 : Step (between modified poisoned (some (modified, manifest)) []
      (.unverified entry good key) .idle) (.read false)
      (between modified poisoned (some (modified, manifest)) [] (.matched entry good key)
        .idle) := by
    refine move (.read rfl) ?_
    rw [if_pos hverified]
    exact (goTo_between ..).1
  have h10 : Step (between modified poisoned (some (modified, manifest)) []
      (.matched entry good key) .idle) (.remember false [key])
      (between modified poisoned (some (modified, manifest)) [key] (.served entry good) .idle) :=
    move (.remember rfl ⟨List.Subset.refl _, List.Subset.refl _⟩) (goTo_between ..).1
  -- the second call opens the bad version and finds its key
  have h11 : Step (between modified poisoned (some (modified, manifest)) [key] (.served entry good)
    .idle)
      (.begin true call) (between modified poisoned (some (modified, manifest)) [key]
        (.served entry good) (.timed call modified)) :=
    move (.begin call rfl) (goTo_between ..).2
  have h12 : Step (between modified poisoned (some (modified, manifest)) [key] (.served entry good)
      (.timed call modified)) (.lookManifest true)
      (between modified poisoned (some (modified, manifest)) [key] (.served entry good)
        (.chosen entry)) := by
    refine move (.lookManifest rfl) ?_
    simp only [between]
    rw [if_pos ⟨by simp [call], trivial⟩, hchosen]
    exact (goTo_between ..).2
  have h13 : Step (between modified poisoned (some (modified, manifest)) [key] (.served entry good)
      (.chosen entry)) (.openFile true)
      (between modified poisoned (some (modified, manifest)) [key] (.served entry good)
        (.opened entry path bad)) := by
    refine move (.openFile rfl) ?_
    rw [hpath]
    simp only [between, hbad]
    exact (goTo_between ..).2
  have h14 : Step (between modified poisoned (some (modified, manifest)) [key] (.served entry good)
      (.opened entry path bad)) (.stat true)
      (between modified poisoned (some (modified, manifest)) [key] (.served entry good)
        (.keyed entry bad key)) := by
    refine move (.stat rfl) ?_
    simp only [between, hbad]
    exact (goTo_between ..).2
  have h15 : Step (between modified poisoned (some (modified, manifest)) [key] (.served entry good)
      (.keyed entry bad key)) (.look true)
      (between modified poisoned (some (modified, manifest)) [key] (.served entry good)
        (.served entry bad)) := by
    refine move (.look rfl) ?_
    exact (congrArg _ (if_pos (List.mem_singleton_self key))).trans (goTo_between ..).2
  rw [hstart]
  refine ⟨_, _, .cons h1 (.cons h2 (.cons h3 (.cons h4 (.cons h5 (.cons h6 (.cons h7 (.cons h8
    (.cons h9
    (.cons h10 (.cons h11 (.cons h12 (.cons h13 (.cons h14 (.single h15)))))))))))))), rfl, ?_⟩
  rintro rfl m hm
  simp only [List.mem_cons, List.not_mem_nil, or_false] at hm
  rcases hm with rfl | rfl | rfl | rfl | rfl | rfl | rfl | rfl | rfl | rfl | rfl | rfl | rfl | rfl | rfl
  case inr.inr.inr.inr.inr.inr.inr.inl =>
    intro entry handle key _ hmem
    cases hmem
  case inr.inr.inr.inr.inr.inr.inr.inr.inr.inl =>
    intro entry' handle key' hphase
    cases hphase
    rfl
  case inr.inr.inr.inr.inr.inr.inr.inr.inr.inr.inr.inr.inr.inr =>
    intro entry' handle key' hphase _
    cases hphase
    exact ⟨rfl, (genuine_of_verified hverified).1⟩
  all_goals trivial

/-- A manifest of one artifact of three bytes. -/
def releaseFields : PyDict :=
  [("schema_version", .int 1), ("version", .str "1.2.3"), ("protocol_version", .int 1),
    ("platforms", .dict [("windows-x86_64", .dict [
      ("filename", .str "threadforge-worker-windows-x86_64.exe"), ("size", .int 3),
      ("sha256", .str (String.ofList (List.replicate 64 'a')))])]),
    ("signature", .dict [("algorithm", .str "ed25519"), ("value", .str "c2ln")])]

/-- Version 1 of the artifact is the signed one and version 2 is another one; version 0 is the
manifest. -/
def releaseServices : Services where
  txt := .ascii
  isDigit := Char.isDigit
  bytes version := if version = 1 then [1, 2, 3] else if version = 2 then [6, 6] else [0]
  loads bytes := if bytes = [0] then some (.dict releaseFields) else none
  verify _ _ := true
  sha256 bytes := String.ofList (List.replicate 64 (if bytes = [1, 2, 3] then 'a' else 'b'))
  chunks bytes := [bytes]
  chunks_flatten bytes := by simp
  resolve version filename := some (version ++ "/" ++ filename)
  maxBytes := 1000

theorem releaseFields_valid : validManifest releaseServices releaseFields = true := by
  have hencodable : ∀ text, PyText.ascii.encodable text = true := by
    intro text
    simp [PyText.encodable, PyText.ascii]
  unfold validManifest
  simp only [Bool.and_eq_true]
  refine ⟨⟨⟨⟨by decide +kernel, ?_⟩, by decide +kernel⟩, by decide +kernel⟩, by decide +kernel⟩
  exact congrArg (fun fits => true && fits && true) (hencodable _)

def releaseManifest : Manifest releaseServices := ⟨releaseFields, releaseFields_valid⟩

def releaseEntry : Entry releaseServices where
  manifest := releaseManifest
  platform := "windows-x86_64"
  artifact := [("filename", .str "threadforge-worker-windows-x86_64.exe"), ("size", .int 3),
    ("sha256", .str (String.ofList (List.replicate 64 'a')))]
  listed := ⟨_, rfl, rfl⟩

theorem release_published : Published releaseServices 0 1 "windows-x86_64"
    "1.2.3/threadforge-worker-windows-x86_64.exe" (fun _ => some 1) releaseManifest
    releaseEntry where
  read := by
    have hread : releaseServices.loads (releaseServices.bytes 0) = some (.dict releaseFields) := rfl
    unfold readManifest
    rw [if_neg (by decide), hread]
    exact dif_pos releaseFields_valid
  chosen := rfl
  path_eq := rfl
  file := rfl
  verified := by decide +kernel

/-- A call that is served before and one after a file was renamed to itself. -/
theorem genuine_of_faithful_release :
    ∃ ms t, Run Step (initial releaseServices Bool (some 0) fun _ => some 1) ms t ∧
      t.phase true = .served releaseEntry 1 ∧ Genuine t := by
  obtain ⟨ms, t, hrun, hserved, hfaithful⟩ := exists_poisoned_run release_published 1
  exact ⟨ms, t, hrun, hserved, (genuine_of_faithful hrun (hfaithful rfl)).1.1⟩

/-- Two bytes are served as three with another digest. -/
theorem replaced_file_served :
    ¬∀ ms t, Run Step (initial releaseServices Bool (some 0) fun _ => some 1) ms t → Genuine t := by
  intro hall
  obtain ⟨ms, t, hrun, hserved, -⟩ := exists_poisoned_run release_published 2
  have hlength := (hall ms t hrun true releaseEntry 2 hserved).1
  exact absurd hlength (by decide +kernel)

end Release

end ThreadForge

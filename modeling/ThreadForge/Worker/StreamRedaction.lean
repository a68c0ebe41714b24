import ThreadForge.Lib.Table
import ThreadForge.Worker.Streaming

/-!
# What a streamed answer shows of the secrets

Within one attempt of the model, `_emit_public_delta` gets the visible text piece by piece. What it
sends is the redacted text but for an end that may begin a secret, which it holds back.

## Main results

* `redactPieces_of_clashFree` — where no secret overruns a later one, the pieces give what the whole
  visible text gives.
* `Attempt.correct_iff` — the streamed text is the redacted one exactly there, and for the attempts
  that come to their end.
-/

namespace ThreadForge

open Redaction

/-! ## What is held back -/

section HoldBack

variable {secrets : List (List Char)} {secret buffer p q : List Char} {keep : Nat}

theorem mem_heldSizes {size : Nat} : size ∈ heldSizes secret buffer keep ↔
    keep < size ∧ size ≤ secret.length - 1 ∧ size ≤ buffer.length := by
  rw [heldSizes, List.mem_reverse, List.mem_range'_1]
  omega

/-- One round of the loop over the secrets. -/
def holdSecret (buffer : List Char) (keep : Nat) (secret : List Char) : Nat :=
  ((heldSizes secret buffer keep).find? fun size => (secret.take size).isSuffixOf buffer).getD keep

theorem holdBack_eq : holdBack secrets buffer = secrets.foldl (holdSecret buffer) 0 := rfl

theorem le_holdSecret : keep ≤ holdSecret buffer keep secret := by
  unfold holdSecret
  cases hfind : (heldSizes secret buffer keep).find? fun size =>
      (secret.take size).isSuffixOf buffer with
  | none => exact le_rfl
  | some size => exact (mem_heldSizes.mp (List.mem_of_find?_eq_some hfind)).1.le

theorem holdSecret_le (h : keep ≤ buffer.length) : holdSecret buffer keep secret ≤ buffer.length := by
  unfold holdSecret
  cases hfind : (heldSizes secret buffer keep).find? fun size =>
      (secret.take size).isSuffixOf buffer with
  | none => exact h
  | some size => exact (mem_heldSizes.mp (List.mem_of_find?_eq_some hfind)).2.2

/-- The sizes are tried from the longest on. -/
theorem length_le_holdSecret (hq : q ≠ []) (hsecret : secret = p ++ q) (hp : p <:+ buffer) :
    p.length ≤ holdSecret buffer keep secret := by
  by_cases hkeep : p.length ≤ keep
  · exact hkeep.trans le_holdSecret
  · have hpos := List.length_pos_iff.mpr hq
    have hlength := congrArg List.length hsecret
    rw [List.length_append] at hlength
    have hmem : p.length ∈ heldSizes secret buffer keep := by
      rw [mem_heldSizes]
      exact ⟨by omega, by omega, hp.length_le⟩
    have hfits : (secret.take p.length).isSuffixOf buffer = true := by
      rw [hsecret, List.take_left, List.isSuffixOf_iff_suffix]
      exact hp
    unfold holdSecret
    cases hfind : (heldSizes secret buffer keep).find? fun size =>
        (secret.take size).isSuffixOf buffer with
    | none => exact absurd hfits (by simpa using List.find?_eq_none.mp hfind _ hmem)
    | some size =>
      -- everything before the first hit is longer
      by_contra hlt
      rw [Option.getD_some, Nat.not_le] at hlt
      obtain ⟨_, before, after, hsplit, hbefore⟩ := List.find?_eq_some_iff_append.mp hfind
      have hsorted : (heldSizes secret buffer keep).Pairwise (· > ·) := by
        rw [heldSizes, List.pairwise_reverse]
        exact List.pairwise_lt_range'
      rw [hsplit] at hmem hsorted
      rcases List.mem_append.mp hmem with hmem | hmem
      · simpa [hfits] using hbefore _ hmem
      · rcases List.mem_cons.mp hmem with heq | hmem
        · omega
        · have hgt := (List.pairwise_cons.mp (List.pairwise_append.mp hsorted).2.1).1 _ hmem
          omega

theorem holdBack_le : holdBack secrets buffer ≤ buffer.length := by
  rw [holdBack_eq]
  suffices hall : ∀ keep ≤ buffer.length, secrets.foldl (holdSecret buffer) keep ≤ buffer.length from
    hall 0 (Nat.zero_le _)
  induction secrets with
  | nil => exact fun keep hkeep => hkeep
  | cons secret secrets ih => exact fun keep hkeep => ih _ (holdSecret_le hkeep)

/-- An end of the buffer that begins a secret is held back. -/
theorem length_le_holdBack (hmem : p ++ q ∈ secrets) (hq : q ≠ []) (hp : p <:+ buffer) :
    p.length ≤ holdBack secrets buffer := by
  rw [holdBack_eq]
  have hmono : ∀ (rest : List (List Char)) (keep : Nat),
      keep ≤ rest.foldl (holdSecret buffer) keep := by
    intro rest
    induction rest with
    | nil => exact fun keep => le_rfl
    | cons secret rest ih => exact fun keep => le_holdSecret.trans (ih _)
  suffices hall : ∀ keep, p.length ≤ secrets.foldl (holdSecret buffer) keep from hall 0
  induction secrets with
  | nil => cases hmem
  | cons secret secrets ih =>
    intro keep
    rcases List.mem_cons.mp hmem with heq | hmem
    · exact (length_le_holdSecret hq heq.symm hp).trans (hmono secrets _)
    · exact ih hmem _

/-- What is held back begins a secret. -/
def Begins (secrets : List (List Char)) (buffer : List Char) : Prop :=
  ∃ q, q ≠ [] ∧ buffer ++ q ∈ secrets

theorem begins_holdBack (h : 0 < holdBack secrets buffer) :
    Begins secrets (buffer.drop (buffer.length - holdBack secrets buffer)) := by
  suffices hall : ∀ (rest : List (List Char)) (keep : Nat), rest ⊆ secrets →
      (0 < keep → Begins secrets (buffer.drop (buffer.length - keep))) →
      0 < rest.foldl (holdSecret buffer) keep →
      Begins secrets (buffer.drop (buffer.length - rest.foldl (holdSecret buffer) keep)) from
    hall secrets 0 (List.Subset.refl _) (fun hpos => absurd hpos (lt_irrefl 0)) h
  intro rest
  induction rest with
  | nil => exact fun keep _ hkeep hpos => hkeep hpos
  | cons secret rest ih =>
    intro keep hsub hkeep
    refine ih _ (fun other hother => hsub (List.mem_cons_of_mem secret hother)) fun hpos => ?_
    unfold holdSecret at hpos ⊢
    cases hfind : (heldSizes secret buffer keep).find? fun size =>
        (secret.take size).isSuffixOf buffer with
    | none =>
      rw [hfind] at hpos
      exact hkeep hpos
    | some size =>
      obtain ⟨hlt, hsecret, hbuffer⟩ := mem_heldSizes.mp (List.mem_of_find?_eq_some hfind)
      have hfits : (secret.take size).isSuffixOf buffer = true :=
        List.find?_some (p := fun size => (secret.take size).isSuffixOf buffer) hfind
      obtain ⟨x, hx⟩ := List.isSuffixOf_iff_suffix.mp hfits
      have hlength : (secret.take size).length = size := by
        rw [List.length_take]
        omega
      have hdrop : buffer.drop (buffer.length - size) = secret.take size := by
        have hxlength := congrArg List.length hx
        rw [List.length_append, hlength] at hxlength
        have hx' : buffer.length - size = x.length := by omega
        rw [hx', ← hx, List.drop_left]
      rw [Option.getD_some, hdrop]
      refine ⟨secret.drop size, fun hnil => ?_, ?_⟩
      · have hzero := congrArg List.length hnil
        rw [List.length_drop, List.length_nil] at hzero
        omega
      · rw [List.take_append_drop]
        exact hsub List.mem_cons_self

end HoldBack

/-! ## Pieces of a visible text -/

variable {secrets : List (List Char)}

theorem longestFirst_of_sorted (h : Sorted secrets) : longestFirst secrets = secrets := by
  refine List.mergeSort_of_pairwise (h.imp fun hle => ?_)
  exact decide_eq_true hle

/-- The values of secrets that the law is about. -/
def Redactable (secrets : List (List Char)) : Prop := Foreign redactedMarker secrets

theorem mem_longestFirst {s : List Char} : s ∈ longestFirst secrets ↔ s ∈ secrets :=
  (List.mergeSort_perm secrets _).mem_iff

instance : Decidable (Redactable secrets) :=
  inferInstanceAs (Decidable (∀ s ∈ secrets, redactedMarker.Foreign s))

theorem Redactable.sorted (h : Redactable secrets) :
    Foreign redactedMarker (longestFirst secrets) :=
  fun s hs => h s (mem_longestFirst.mp hs)

/-- No secret can begin in an occurrence of one that `redact_text` takes later, and end behind it. -/
def NoOverrun (secrets : List (List Char)) : Prop := ClashFree (longestFirst secrets).eraseDups

instance : Decidable (NoOverrun secrets) :=
  inferInstanceAs (Decidable (ClashFree (longestFirst secrets).eraseDups))

/-- Each piece is redacted behind what was made of the pieces before it. -/
def redactPieces (secrets : List (List Char)) (redacted : List Char) (pieces : List (List Char)) :
    List Char :=
  pieces.foldl (fun redacted piece => redactChars secrets (redacted ++ piece)) redacted

theorem redactChars_eraseDups (h : Redactable secrets) (text : List Char) :
    redactAll redactedMarker (longestFirst secrets).eraseDups text = redactChars secrets text :=
  redactAll_eraseDups h.sorted

theorem Redactable.eraseDups (h : Redactable secrets) :
    Foreign redactedMarker (longestFirst secrets).eraseDups :=
  fun s hs => h.sorted s (List.mem_eraseDups.mp hs)

/-- **The pieces give what the whole text gives.** -/
theorem redactPieces_of_clashFree (h : Redactable secrets) (hfree : NoOverrun secrets)
    (text : List Char) (pieces : List (List Char)) :
    redactPieces secrets (redactChars secrets text) pieces =
      redactChars secrets (text ++ pieces.flatten) := by
  induction pieces generalizing text with
  | nil => rw [List.flatten_nil, List.append_nil]; rfl
  | cons piece pieces ih =>
    have hpiece : redactChars secrets (redactChars secrets text ++ piece) =
        redactChars secrets (text ++ piece) := by
      have hsame := redactAll_redactAll_append h.eraseDups hfree text piece
      rwa [redactChars_eraseDups h, redactChars_eraseDups h, redactChars_eraseDups h] at hsame
    rw [redactPieces, List.foldl_cons, hpiece, List.flatten_cons, ← List.append_assoc]
    exact ih (text ++ piece)

/-! ## What is sent of the pieces -/

/-- What `_emit_public_delta` lets out, and what it holds back. -/
def emitted (secrets : List (List Char)) (buffer : List Char) (delta : PublicDelta) :
    List Char × List Char :=
  let text := redactChars secrets (buffer ++ delta.text)
  if delta.completed then (text, [])
  else
    let visible := text.length - holdBack secrets text
    (text.take visible, text.drop visible)

/-- The same over several calls. -/
def emittedAll (secrets : List (List Char)) : List Char → List PublicDelta → List Char × List Char
  | buffer, [] => ([], buffer)
  | buffer, delta :: deltas =>
    let first := emitted secrets buffer delta
    let rest := emittedAll secrets first.2 deltas
    (first.1 ++ rest.1, rest.2)

section Emitted

variable {out buffer : List Char} {delta : PublicDelta} {deltas : List PublicDelta}

theorem emitted_append (hopen : delta.completed = false) :
    (emitted secrets buffer delta).1 ++ (emitted secrets buffer delta).2 =
      redactChars secrets (buffer ++ delta.text) := by
  simp only [emitted, hopen, Bool.false_eq_true, if_false]
  exact List.take_append_drop _ _

theorem emitted_completed (hcompleted : delta.completed = true) :
    emitted secrets buffer delta = (redactChars secrets (buffer ++ delta.text), []) := by
  simp only [emitted, hcompleted, if_true]

/-- An end of the redacted text that begins a secret is held back. -/
theorem suffix_emitted (hopen : delta.completed = false) {p q : List Char}
    (hmem : p ++ q ∈ secrets) (hq : q ≠ [])
    (hp : p <:+ redactChars secrets (buffer ++ delta.text)) :
    p <:+ (emitted secrets buffer delta).2 := by
  have hle := length_le_holdBack hmem hq hp
  have hbound : holdBack secrets (redactChars secrets (buffer ++ delta.text)) ≤
      (redactChars secrets (buffer ++ delta.text)).length := holdBack_le
  simp only [emitted, hopen, Bool.false_eq_true, if_false]
  refine List.suffix_of_suffix_length_le hp (List.drop_suffix _ _) ?_
  rw [List.length_drop]
  omega

/-- **One more piece.** -/
theorem held_emitted (h : Redactable secrets) (hheld : Held (longestFirst secrets) out buffer)
    (hopen : delta.completed = false) :
    out ++ (emitted secrets buffer delta).1 ++ (emitted secrets buffer delta).2 =
        redactChars secrets (out ++ buffer ++ delta.text) ∧
      Held (longestFirst secrets) (out ++ (emitted secrets buffer delta).1)
        (emitted secrets buffer delta).2 := by
  have hwhole : out ++ (emitted secrets buffer delta).1 ++ (emitted secrets buffer delta).2 =
      redactChars secrets (out ++ buffer ++ delta.text) := by
    rw [List.append_assoc, emitted_append hopen, List.append_assoc]
    exact (redactAll_append_of_held h.sorted hheld delta.text).symm
  refine ⟨hwhole, fun s hs => ?_, fun s hs p q hp hq hsplit hsuffix => ?_⟩
  · rw [hwhole]
    exact redactAll_clean h.sorted hs
  · rw [List.append_assoc, emitted_append hopen] at hsuffix
    have hmem : p ++ q ∈ secrets := mem_longestFirst.mp (hsplit ▸ hs)
    rcases List.suffix_or_suffix_of_suffix hsuffix
        (List.suffix_append out (redactChars secrets (buffer ++ delta.text))) with hle | ⟨w, rfl⟩
    · exact suffix_emitted hopen hmem hq hle
    · cases w with
      | nil => exact suffix_emitted hopen hmem hq (List.suffix_refl _)
      | cons c w =>
        -- the secret begins in what is out: then nothing behind it was replaced
        have hforeign := h _ hmem
        have hfirst : redactedMarker.first ∉ redactChars secrets (buffer ++ delta.text) := by
          intro hin
          refine hforeign.first (List.mem_append_left q (List.mem_append_right (c :: w) hin))
        have hsame := redactAll_eq_of_first_not_mem h.sorted hfirst
        change redactChars secrets (buffer ++ delta.text) = buffer ++ delta.text at hsame
        have hout : c :: w <:+ out := by
          obtain ⟨x, hx⟩ := hsuffix
          rw [← List.append_assoc] at hx
          exact ⟨x, List.append_cancel_right hx⟩
        have hlong : (c :: w) ++ buffer <:+ buffer := by
          refine hheld.tail _ (mem_longestFirst.mpr hmem) ((c :: w) ++ buffer) (delta.text ++ q)
            (by simp) (by simp [hq]) ?_ ?_
          · rw [hsame]
            simp only [List.append_assoc]
          · obtain ⟨x, hx⟩ := hout
            exact ⟨x, by rw [← hx, List.append_assoc]⟩
        have hlength := hlong.length_le
        simp only [List.length_append, List.length_cons] at hlength
        omega

/-- Only the last call is the one that completes the answer. -/
def LastOnly (deltas : List PublicDelta) : Prop :=
  ∀ delta ∈ deltas.dropLast, delta.completed = false

/-- **What is out and what is held back after several calls.** -/
theorem emittedAll_append (h : Redactable secrets) (hlast : LastOnly deltas)
    (hheld : Held (longestFirst secrets) out buffer) :
    out ++ (emittedAll secrets buffer deltas).1 ++ (emittedAll secrets buffer deltas).2 =
        redactPieces secrets (out ++ buffer) (deltas.map PublicDelta.text) ∧
      ((∃ delta ∈ deltas, delta.completed = true) → (emittedAll secrets buffer deltas).2 = []) ∧
      ((∀ delta ∈ deltas, delta.completed = false) →
        Held (longestFirst secrets) (out ++ (emittedAll secrets buffer deltas).1)
          (emittedAll secrets buffer deltas).2) := by
  induction deltas generalizing out buffer with
  | nil =>
    refine ⟨by simp [emittedAll, redactPieces], by simp, fun _ => ?_⟩
    simpa [emittedAll] using hheld
  | cons delta deltas ih =>
    cases hcompleted : delta.completed with
    | false =>
      obtain ⟨hwhole, hheld'⟩ := held_emitted h hheld hcompleted
      have hlast' : LastOnly deltas := by
        intro other hother
        refine hlast other ?_
        cases deltas with
        | nil => cases hother
        | cons _ _ => exact List.mem_cons_of_mem delta hother
      obtain ⟨hrest, hclosed, hopen⟩ := ih hlast' hheld'
      refine ⟨?_, fun hsome => hclosed ?_, fun hnone => ?_⟩
      · simp only [emittedAll]
        rw [← List.append_assoc out, hrest, hwhole]
        rfl
      · obtain ⟨other, hother, hyes⟩ := hsome
        rcases List.mem_cons.mp hother with rfl | hother
        · rw [hcompleted] at hyes
          cases hyes
        · exact ⟨other, hother, hyes⟩
      · simp only [emittedAll]
        rw [← List.append_assoc out]
        exact hopen fun other hother => hnone other (List.mem_cons_of_mem delta hother)
    | true =>
      -- nothing comes after the call that completes the answer
      have hnil : deltas = [] := by
        cases deltas with
        | nil => rfl
        | cons other rest =>
          have hno := hlast delta List.mem_cons_self
          rw [hcompleted] at hno
          cases hno
      subst hnil
      have hwhole : out ++ redactChars secrets (buffer ++ delta.text) =
          redactChars secrets (out ++ buffer ++ delta.text) := by
        rw [List.append_assoc]
        exact (redactAll_append_of_held h.sorted hheld delta.text).symm
      refine ⟨?_, fun _ => ?_, fun hnone => ?_⟩
      · simp only [emittedAll, emitted_completed hcompleted, List.append_nil]
        rw [hwhole]
        rfl
      · simp only [emittedAll, emitted_completed hcompleted]
      · rw [hnone delta List.mem_cons_self] at hcompleted
        cases hcompleted

theorem begins_emittedAll (hopen : ∀ delta ∈ deltas, delta.completed = false)
    (hbuffer : buffer = [] ∨ Begins secrets buffer) :
    (emittedAll secrets buffer deltas).2 = [] ∨
      Begins secrets (emittedAll secrets buffer deltas).2 := by
  induction deltas generalizing buffer with
  | nil => exact hbuffer
  | cons delta deltas ih =>
    refine ih (fun other hother => hopen other (List.mem_cons_of_mem delta hother)) ?_
    simp only [emitted, hopen delta List.mem_cons_self, Bool.false_eq_true, if_false]
    by_cases hpos : 0 < holdBack secrets (redactChars secrets (buffer ++ delta.text))
    · exact Or.inr (begins_holdBack hpos)
    · refine Or.inl (List.drop_eq_nil_of_le ?_)
      omega

end Emitted

/-! ## What the hooks send -/

namespace RemoteExecutionHooks

variable {txt : PyText} {h : RemoteExecutionHooks}

/-- The text that was let out, in the order it was: sent, or put aside. -/
def published (h : RemoteExecutionHooks) : List Char :=
  if h.answerCandidateActive then h.answerCandidateDeltas.flatten
  else (h.sent.map AssistantDelta.text).flatten

theorem flatten_deltaChunks (text : List Char) : (deltaChunks text).flatten = text := by
  have hall : ∀ n, ((List.range n).map fun i => (text.drop (i * 4000)).take 4000).flatten =
      text.take (n * 4000) := by
    intro n
    induction n with
    | zero => simp
    | succ n ih =>
      rw [List.range_succ, List.map_append, List.flatten_append, ih, List.map_singleton,
        List.flatten_singleton, Nat.succ_mul, List.take_add]
  rw [deltaChunks, hall, List.take_of_length_le]
  omega

/-- One call lets out some text, and changes the buffer. -/
structure Emits (h h' : RemoteExecutionHooks) (out buffer : List Char) : Prop where
  published : h'.published = h.published ++ out
  buffer : h'.redactionBuffer = buffer
  active : h'.answerCandidateActive = h.answerCandidateActive
  recogniser : h'.toRecogniser = h.toRecogniser

theorem emits_publish (h : RemoteExecutionHooks) (visible : List Char) (isFinal : Bool) :
    Emits h (h.publish visible isFinal) visible h.redactionBuffer := by
  unfold publish
  split
  · next hnil => exact ⟨by rw [hnil, List.append_nil], rfl, rfl, rfl⟩
  · simp only
    split
    · next hactive =>
      refine ⟨?_, rfl, rfl, rfl⟩
      simp only [published, hactive, if_true, List.flatten_append, flatten_deltaChunks]
    · next hactive =>
      refine ⟨?_, rfl, rfl, rfl⟩
      simp only [published, hactive, if_false, List.map_append, List.flatten_append, List.map_map,
        Function.comp_def, List.map_id_fun', id_eq, flatten_deltaChunks, Bool.false_eq_true]

theorem emits_emitPublicDelta (secrets : List (List Char)) (h : RemoteExecutionHooks)
    (delta : PublicDelta) :
    Emits h (h.emitPublicDelta secrets delta) (emitted secrets h.redactionBuffer delta).1
      (emitted secrets h.redactionBuffer delta).2 := by
  unfold emitPublicDelta emitted
  simp only
  split
  · exact ⟨(emits_publish _ _ _).published, (emits_publish _ _ _).buffer,
      (emits_publish _ _ _).active, (emits_publish _ _ _).recogniser⟩
  · exact ⟨(emits_publish _ _ _).published, (emits_publish _ _ _).buffer,
      (emits_publish _ _ _).active, (emits_publish _ _ _).recogniser⟩

end RemoteExecutionHooks

/-! ## One attempt of the model -/

namespace Recogniser

variable (txt : PyText)

/-- The recogniser after a text in pieces. -/
def readAll (r : Recogniser) (pieces : List (List Char)) : Recogniser :=
  pieces.foldl (fun r piece => (r.read txt piece).1) r

/-- The calls of `_emit_public_delta` for a text in pieces. -/
def deltas (r : Recogniser) : List (List Char) → List PublicDelta
  | [] => []
  | piece :: pieces => (r.read txt piece).2.toList ++ (r.read txt piece).1.deltas pieces

end Recogniser

/-- How an attempt begins. -/
inductive AttemptStart
  | beforeModel
  | modelRetrying (stage : String)
  deriving DecidableEq, Repr

/-- One attempt: the hooks before it, the text of the model in pieces, and whether `after_model` is
called. -/
structure Attempt where
  hooks : RemoteExecutionHooks
  start : AttemptStart
  pieces : List (List Char)
  ended : Bool

namespace Attempt

variable (txt : PyText) (secrets : List (List Char))

/-- The hooks when the text begins. -/
def began (a : Attempt) : RemoteExecutionHooks :=
  match a.start with
  | .beforeModel => a.hooks.beforeModel
  | .modelRetrying stage => a.hooks.modelRetrying stage

/-- The hooks when the text has ended. -/
def read (a : Attempt) : RemoteExecutionHooks :=
  a.pieces.foldl (fun h piece => h.modelTextDelta txt secrets "execute" piece) a.began

/-- The hooks at the end of the attempt. -/
def result (a : Attempt) : RemoteExecutionHooks :=
  if a.ended then (a.read txt secrets).afterModel secrets else a.read txt secrets

/-- The text that the attempt has sent or put aside. -/
def out (a : Attempt) : List Char :=
  (a.result txt secrets).published.drop a.began.published.length

/-- The recogniser when the text has ended. -/
def recognised (a : Attempt) : Recogniser := a.began.toRecogniser.readAll txt a.pieces

/-- The calls of `_emit_public_delta`. -/
def deltas (a : Attempt) : List PublicDelta :=
  a.began.toRecogniser.deltas txt a.pieces ++
    if a.ended ∧ (a.recognised txt).streamMode = .plainFinal then [{ text := [], completed := true }]
    else []

/-- The whole visible text. -/
def visible (a : Attempt) : List Char := ((a.deltas txt).map PublicDelta.text).flatten

/-- No secret is shown, and what is shown is the redacted visible text. -/
structure Correct (a : Attempt) : Prop where
  clean : ∀ s ∈ secrets, ¬s <:+: a.out txt secrets
  whole : a.out txt secrets = redactChars secrets (a.visible txt)

/-- The answer came to its end: its closing tag was read, or it was a plain one and `after_model` was
called. Or no end of the redacted text begins a secret. -/
def Complete (a : Attempt) : Prop :=
  (∃ delta ∈ a.deltas txt, delta.completed = true) ∨
    ∀ p, p ≠ [] → p <:+ redactChars secrets (a.visible txt) → ¬Begins secrets p

end Attempt

/-! ## The calls of an attempt -/

namespace Recogniser

variable {txt : PyText} {r : Recogniser} {piece : List Char} {delta : PublicDelta}

theorem readFinal_completed (h : r.readFinal.2 = some delta) (hcompleted : delta.completed = true) :
    r.readFinal.1.streamMode = .blocked := by
  unfold readFinal at h ⊢
  split
  · rfl
  · next hbreak =>
    rw [hbreak] at h
    simp only at h
    split at h
    · cases h
    · cases h
      cases hcompleted

/-- After the call that completes the answer, nothing is read any more. -/
theorem read_completed (h : (r.read txt piece).2 = some delta) (hcompleted : delta.completed = true) :
    (r.read txt piece).1.streamMode = .blocked := by
  unfold read at h ⊢
  split
  · next hmode =>
    rw [hmode] at h
    cases h
  · next hmode =>
    rw [hmode] at h
    cases h
    cases hcompleted
  · next hmode =>
    rw [hmode] at h
    simp only [readPending] at h ⊢
    split at h
    · split at h
      · cases h
        cases hcompleted
      · cases h
    · split at h
      · cases h
      · next hearliest hfinal =>
        simp only [hfinal, if_false]
        exact readFinal_completed h hcompleted
  · next hmode =>
    simp only [hmode] at h ⊢
    exact readFinal_completed h hcompleted

theorem read_blocked (h : r.streamMode = .blocked) : r.read txt piece = (r, none) := by
  unfold read
  rw [h]

theorem deltas_blocked (txt : PyText) (h : r.streamMode = .blocked) (pieces : List (List Char)) :
    r.deltas txt pieces = [] ∧ r.readAll txt pieces = r := by
  induction pieces with
  | nil => exact ⟨rfl, rfl⟩
  | cons piece pieces ih =>
    rw [deltas, readAll, List.foldl_cons, read_blocked h]
    exact ih

/-- Only the last call can complete the answer, and then the text is blocked. -/
theorem deltas_lastOnly (txt : PyText) (r : Recogniser) (pieces : List (List Char)) :
    LastOnly (r.deltas txt pieces) ∧ ((∃ delta ∈ r.deltas txt pieces, delta.completed = true) →
      (r.readAll txt pieces).streamMode = .blocked) := by
  induction pieces generalizing r with
  | nil => exact ⟨nofun, nofun⟩
  | cons piece pieces ih =>
    obtain ⟨hlast, hblocked⟩ := ih (r.read txt piece).1
    rw [readAll, List.foldl_cons]
    cases hread : (r.read txt piece).2 with
    | none =>
      rw [deltas, hread]
      exact ⟨hlast, hblocked⟩
    | some delta =>
      rw [deltas, hread, Option.toList_some, List.singleton_append]
      cases hcompleted : delta.completed with
      | true =>
        obtain ⟨hnil, hsame⟩ := deltas_blocked txt (read_completed hread hcompleted) pieces
        rw [hnil]
        refine ⟨nofun, fun _ => ?_⟩
        show ((r.read txt piece).1.readAll txt pieces).streamMode = .blocked
        rw [hsame]
        exact read_completed hread hcompleted
      | false =>
        constructor
        · intro other hother
          cases hrest : (r.read txt piece).1.deltas txt pieces with
          | nil =>
            rw [hrest] at hother
            cases hother
          | cons first rest =>
            rw [hrest, List.dropLast_cons_cons] at hother
            rcases List.mem_cons.mp hother with rfl | hother
            · exact hcompleted
            · exact hlast other (hrest ▸ hother)
        · rintro ⟨other, hother, hyes⟩
          rcases List.mem_cons.mp hother with rfl | hother
          · rw [hcompleted] at hyes
            cases hyes
          · exact hblocked ⟨other, hother, hyes⟩

end Recogniser

theorem emittedAll_append_list (buffer : List Char) (front back : List PublicDelta) :
    emittedAll secrets buffer (front ++ back) =
      ((emittedAll secrets buffer front).1 ++
          (emittedAll secrets (emittedAll secrets buffer front).2 back).1,
        (emittedAll secrets (emittedAll secrets buffer front).2 back).2) := by
  induction front generalizing buffer with
  | nil => rfl
  | cons delta front ih =>
    simp only [List.cons_append, emittedAll]
    rw [ih]
    simp only [List.append_assoc]

namespace RemoteExecutionHooks

variable {txt : PyText} {h : RemoteExecutionHooks}

/-- The hooks after some text: what the calls let out and hold back, and the recogniser. -/
structure Streams (secrets : List (List Char)) (h h' : RemoteExecutionHooks)
    (deltas : List PublicDelta) (r : Recogniser) : Prop where
  published : h'.published = h.published ++ (emittedAll secrets h.redactionBuffer deltas).1
  buffer : h'.redactionBuffer = (emittedAll secrets h.redactionBuffer deltas).2
  recogniser : h'.toRecogniser = r

theorem streams_modelTextDelta (txt : PyText) (secrets : List (List Char))
    (h : RemoteExecutionHooks) (piece : List Char) :
    Streams secrets h (h.modelTextDelta txt secrets "execute" piece)
      (h.toRecogniser.read txt piece).2.toList (h.toRecogniser.read txt piece).1 := by
  unfold modelTextDelta
  simp only [ne_eq, not_true_eq_false, if_false]
  cases hread : h.toRecogniser.read txt piece with
  | mk r delta =>
    cases delta with
    | none => exact ⟨by simp [emittedAll, published], rfl, rfl⟩
    | some delta =>
      have hemits := emits_emitPublicDelta secrets { h with toRecogniser := r } delta
      refine ⟨?_, ?_, hemits.recogniser⟩
      · rw [hemits.published]
        simp only [Option.toList_some, emittedAll, List.append_nil]
        rfl
      · rw [hemits.buffer]
        rfl

theorem streams_read (txt : PyText) (secrets : List (List Char)) (h : RemoteExecutionHooks)
    (pieces : List (List Char)) :
    Streams secrets h
      (pieces.foldl (fun h piece => h.modelTextDelta txt secrets "execute" piece) h)
      (h.toRecogniser.deltas txt pieces) (h.toRecogniser.readAll txt pieces) := by
  induction pieces generalizing h with
  | nil => exact ⟨by simp [emittedAll, Recogniser.deltas], rfl, rfl⟩
  | cons piece pieces ih =>
    have hfirst := streams_modelTextDelta txt secrets h piece
    have hrest := ih (h.modelTextDelta txt secrets "execute" piece)
    rw [List.foldl_cons, Recogniser.deltas, Recogniser.readAll, List.foldl_cons]
    rw [hfirst.recogniser] at hrest
    refine ⟨?_, ?_, hrest.recogniser⟩
    · rw [hrest.published, hfirst.published, hfirst.buffer, emittedAll_append_list,
        List.append_assoc]
    · rw [hrest.buffer, hfirst.buffer, emittedAll_append_list]

end RemoteExecutionHooks

namespace Attempt

open RemoteExecutionHooks

variable {txt : PyText} (a : Attempt)

theorem began_buffer : a.began.redactionBuffer = [] := by
  unfold began
  split
  · rfl
  · unfold modelRetrying
    simp only
    split <;> rfl

/-- **What an attempt sends is what its calls let out.** -/
theorem out_eq (secrets : List (List Char)) :
    a.out txt secrets = (emittedAll secrets [] (a.deltas txt)).1 := by
  have hread := streams_read txt secrets a.began a.pieces
  have hfirst := hread.published
  have hbuffer := hread.buffer
  rw [a.began_buffer] at hfirst hbuffer
  have hmode : (a.read txt secrets).streamMode = (a.recognised txt).streamMode := by
    rw [read, hread.recogniser]
    rfl
  have hpublished : (a.result txt secrets).published =
      a.began.published ++ (emittedAll secrets [] (a.deltas txt)).1 := by
    unfold result Attempt.deltas
    by_cases hended : a.ended = true
    · rw [if_pos hended]
      unfold afterModel
      by_cases hplain : (a.recognised txt).streamMode = .plainFinal
      · rw [if_pos (hmode.trans hplain), if_pos ⟨hended, hplain⟩, emittedAll_append_list]
        have hemits := emits_emitPublicDelta secrets (a.read txt secrets)
          { text := [], completed := true }
        have hsame : ({ (a.read txt secrets).emitPublicDelta secrets
            { text := [], completed := true } with streamMode := .blocked } :
              RemoteExecutionHooks).published =
            ((a.read txt secrets).emitPublicDelta secrets
              { text := [], completed := true }).published := rfl
        rw [hsame, hemits.published, read, hfirst, hbuffer, List.append_assoc]
        simp only [emittedAll, List.append_nil]
      · rw [if_neg fun hyes => hplain (hmode ▸ hyes), if_neg fun hyes => hplain hyes.2,
          List.append_nil]
        exact hfirst
    · rw [if_neg hended, if_neg fun hyes => hended hyes.1, List.append_nil]
      exact hfirst
  rw [out, hpublished, List.drop_left]

theorem lastOnly_deltas (txt : PyText) : LastOnly (a.deltas txt) := by
  obtain ⟨hlast, hblocked⟩ := Recogniser.deltas_lastOnly txt a.began.toRecogniser a.pieces
  unfold Attempt.deltas
  split
  · next hplain =>
    intro delta hmem
    rw [List.dropLast_concat] at hmem
    by_contra hcompleted
    -- a text that is blocked is not a plain answer
    have hmode := hblocked ⟨delta, hmem, Bool.not_eq_false _ |>.mp hcompleted⟩
    have hplain' := hplain.2
    rw [recognised, hmode] at hplain'
    cases hplain'
  · rw [List.append_nil]
    exact hlast

theorem held_nil (h : Redactable secrets) : Held (longestFirst secrets) [] [] where
  clean _ hs hpart := (h.sorted _ hs).ne (List.infix_nil.mp hpart)
  tail _ _ _ _ hp _ _ hsuffix := absurd (List.suffix_nil.mp hsuffix) hp

/-- What is sent and what is held back is made of the pieces of the visible text. -/
theorem out_append (txt : PyText) (h : Redactable secrets) :
    a.out txt secrets ++ (emittedAll secrets [] (a.deltas txt)).2 =
      redactPieces secrets [] ((a.deltas txt).map PublicDelta.text) := by
  have hall := (emittedAll_append h (a.lastOnly_deltas txt) (held_nil h)).1
  rwa [List.nil_append, List.append_nil, ← a.out_eq] at hall

/-- **No attempt shows a secret**, whatever the secrets are. -/
theorem out_clean (h : Redactable secrets) {s : List Char} (hs : s ∈ secrets) :
    ¬s <:+: a.out txt secrets := by
  intro hpart
  have hwhole : s <:+: a.out txt secrets ++ (emittedAll secrets [] (a.deltas txt)).2 :=
    List.infix_append_of_infix_left hpart
  rw [a.out_append txt h] at hwhole
  have hne := (h s hs).ne
  rcases List.eq_nil_or_concat ((a.deltas txt).map PublicDelta.text) with hnil | ⟨front, last, heq⟩
  · rw [hnil] at hwhole
    exact hne (List.infix_nil.mp hwhole)
  · rw [heq, redactPieces, List.concat_eq_append, List.foldl_append] at hwhole
    exact redactAll_clean h.sorted (mem_longestFirst.mpr hs) hwhole

/-- Where no secret overruns a later one, what is sent and held back is the redacted text. -/
theorem out_append_of_noOverrun (txt : PyText) (h : Redactable secrets) (hfree : NoOverrun secrets) :
    a.out txt secrets ++ (emittedAll secrets [] (a.deltas txt)).2 =
      redactChars secrets (a.visible txt) := by
  have hnil : redactChars secrets [] = [] :=
    redactAll_of_clean fun s hs hyes => (h.sorted s hs).ne (List.infix_nil.mp hyes)
  have hall := redactPieces_of_clashFree h hfree [] ((a.deltas txt).map PublicDelta.text)
  rw [hnil, List.nil_append] at hall
  rw [a.out_append txt h, hall, visible]

/-- An attempt is correct exactly where it comes to its end. -/
theorem correct_of_noOverrun (h : Redactable secrets) (hfree : NoOverrun secrets) :
    a.Correct txt secrets ↔ a.Complete txt secrets := by
  have hwhole := a.out_append_of_noOverrun txt h hfree
  have hall := emittedAll_append h (a.lastOnly_deltas txt) (held_nil h)
  obtain ⟨_, hclosed, hopen⟩ := hall
  constructor
  · intro hcorrect
    -- then nothing is held back
    have hnil : (emittedAll secrets [] (a.deltas txt)).2 = [] := by
      rw [hcorrect.whole] at hwhole
      simpa using hwhole
    by_cases hsome : ∃ delta ∈ a.deltas txt, delta.completed = true
    · exact Or.inl hsome
    · refine Or.inr fun p hp hsuffix ⟨q, hq, hmem⟩ => hp ?_
      have hnone : ∀ delta ∈ a.deltas txt, delta.completed = false := fun delta hdelta =>
        Bool.eq_false_iff.mpr fun hyes => hsome ⟨delta, hdelta, hyes⟩
      have htail := (hopen hnone).tail (p ++ q) (mem_longestFirst.mpr hmem) p q hp hq rfl
      rw [List.nil_append, ← a.out_eq, hwhole, hnil] at htail
      exact List.suffix_nil.mp (htail hsuffix)
  · intro hcomplete
    have hnil : (emittedAll secrets [] (a.deltas txt)).2 = [] := by
      rcases hcomplete with hsome | hnobegin
      · exact hclosed hsome
      · by_cases hsome : ∃ delta ∈ a.deltas txt, delta.completed = true
        · exact hclosed hsome
        · have hnone : ∀ delta ∈ a.deltas txt, delta.completed = false := fun delta hdelta =>
            Bool.eq_false_iff.mpr fun hyes => hsome ⟨delta, hdelta, hyes⟩
          by_contra hne
          have hbegins := (begins_emittedAll hnone (Or.inl rfl)).resolve_left hne
          refine hnobegin _ hne ?_ hbegins
          rw [← hwhole]
          exact List.suffix_append _ _
    rw [hnil, List.append_nil] at hwhole
    exact ⟨fun s hs => a.out_clean h hs, hwhole⟩

/-! ## An answer in two pieces -/

section TwoPieces

variable {u v : List Char}

/-- A closing tag stands only where its first character does. -/
theorem not_infix_closing (hu : '<' ∉ u) {w : List Char} (hw : w.length ≤ 7) :
    ¬closingTag <:+: u ++ w := by
  intro hpart
  rcases List.infix_append_iff_ne_nil.mp hpart with hin | hin | ⟨p, q, hp, _, hsplit, hsuffix, _⟩
  · exact hu (hin.subset (by decide))
  · have hle := hin.length_le
    have hlength : closingTag.length = 8 := by decide
    omega
  · cases p with
    | nil => exact hp rfl
    | cons c p =>
      have hc : '<' = c := (List.cons.inj hsplit).1
      exact hu (hsuffix.subset (hc ▸ List.mem_cons_self))

/-- The answer `u ++ v`, cut so that `u` is let through alone. -/
def twoPieces (u v : List Char) : Attempt where
  hooks := {}
  start := .beforeModel
  pieces := [finalTag ++ (u ++ (v ++ closingTag).take 7), (v ++ closingTag).drop 7]
  ended := false

/-- The recogniser behind the opening tag. -/
def readingFinal (buffer : List Char) : Recogniser :=
  { streamMode := .final, streamBuffer := buffer }

theorem read_opening (rest : List Char) :
    ({} : Recogniser).read txt (finalTag ++ rest) = (readingFinal rest).readFinal := by
  have hfirst : PyChars.EndsFirst finalTag [] := fun hpart => by
    have hle := hpart.length_le
    revert hle
    decide
  have hfind : PyChars.breakAt finalTag ([] ++ finalTag ++ rest) = some ([], rest) :=
    PyChars.breakAt_of_endsFirst (by decide) hfirst
  rw [List.nil_append] at hfind
  -- the opening tag is at the start, and no other marker can stand before it
  have hearliest : ∀ items : List (Nat × StreamMode),
      items.foldl (fun best item => if item.1 < best.1 then item else best) (0, .final) =
        (0, .final) := by
    intro items
    induction items with
    | nil => rfl
    | cons item items ih => rw [List.foldl_cons, if_neg (Nat.not_lt_zero _), ih]
  have hmarker : Recogniser.earliest (Recogniser.markerPositions (finalTag ++ rest)) =
      some (0, .final) := by
    rw [Recogniser.markerPositions, List.filterMap_cons_some (b := (0, StreamMode.final)),
      Recogniser.earliest, hearliest]
    simp only [hfind, Option.map_some, List.length_nil]
  have hdrop : (finalTag ++ rest).drop (0 + finalTag.length) = rest := by
    rw [Nat.zero_add, List.drop_left]
  show Recogniser.readPending txt { streamBuffer := [] ++ (finalTag ++ rest) } = _
  rw [List.nil_append, Recogniser.readPending]
  simp only [hmarker, hdrop]
  rfl

/-- An answer that is not closed yet is let through but for its last seven characters. -/
theorem readFinal_open (hu : '<' ∉ u) {w : List Char} (hw : w.length = 7) :
    (readingFinal (u ++ w)).readFinal =
      (readingFinal w, if u = [] then none else some { text := u }) := by
  have hbreak : PyChars.breakAt closingTag (u ++ w) = none :=
    (PyChars.breakAt_eq_none_iff (by decide)).mpr (not_infix_closing hu hw.le)
  have hseven : closingTag.length - 1 = 7 := by decide
  simp only [Recogniser.readFinal, readingFinal, hbreak, hseven]
  by_cases hnil : u = []
  · subst hnil
    rw [List.nil_append, if_pos hw.le, if_pos rfl]
  · have hpos := List.length_pos_iff.mpr hnil
    have hlength : (u ++ w).length = u.length + 7 := by rw [List.length_append, hw]
    rw [if_neg (by omega), if_neg hnil, lastChars, hlength, Nat.add_sub_cancel, List.take_left,
      List.drop_left]

/-- The closing tag ends the answer. -/
theorem readFinal_closed (hv : '<' ∉ v) :
    (readingFinal (v ++ closingTag)).readFinal =
      ({ streamMode := .blocked }, some { text := v, completed := true }) := by
  have hbreak : PyChars.breakAt closingTag (v ++ closingTag ++ []) = some (v, []) :=
    PyChars.breakAt_of_endsFirst (by decide) (not_infix_closing hv (by decide))
  rw [List.append_nil] at hbreak
  simp only [Recogniser.readFinal, readingFinal, hbreak]

/-- `u` is let through, and then `v` with the end of the answer. -/
theorem deltas_twoPieces (txt : PyText) (hu : '<' ∉ u) (hv : '<' ∉ v) :
    (twoPieces u v).deltas txt =
      (if u = [] then [] else [{ text := u }]) ++ [{ text := v, completed := true }] := by
  have hw : ((v ++ closingTag).take 7).length = 7 := by
    have hlength : closingTag.length = 8 := by decide
    rw [List.length_take, List.length_append]
    omega
  have hsecond : (readingFinal ((v ++ closingTag).take 7)).read txt ((v ++ closingTag).drop 7) =
      ({ streamMode := .blocked }, some { text := v, completed := true }) := by
    show (readingFinal ((v ++ closingTag).take 7 ++ (v ++ closingTag).drop 7)).readFinal = _
    rw [List.take_append_drop]
    exact readFinal_closed hv
  show ({} : Recogniser).deltas txt (twoPieces u v).pieces ++ [] = _
  rw [List.append_nil]
  simp only [twoPieces, Recogniser.deltas]
  rw [read_opening, readFinal_open hu hw, hsecond]
  split <;> rfl

/-- What is sent of it is redacted in two steps. -/
theorem out_twoPieces (txt : PyText) (h : Redactable secrets) (hu : '<' ∉ u) (hv : '<' ∉ v) :
    (twoPieces u v).out txt secrets = redactChars secrets (redactChars secrets u ++ v) ∧
      (twoPieces u v).visible txt = u ++ v ∧ (twoPieces u v).Complete txt secrets := by
  have hdeltas := deltas_twoPieces txt hu hv
  have hsome : ∃ delta ∈ (twoPieces u v).deltas txt, delta.completed = true := by
    rw [hdeltas]
    exact ⟨_, List.mem_append_right _ List.mem_cons_self, rfl⟩
  have hclosed := (emittedAll_append h ((twoPieces u v).lastOnly_deltas txt) (held_nil h)).2.1 hsome
  have hwhole := (twoPieces u v).out_append txt h
  rw [hclosed, List.append_nil, hdeltas] at hwhole
  refine ⟨?_, ?_, Or.inl hsome⟩
  · rw [hwhole]
    by_cases hnil : u = []
    · have hempty : redactChars secrets [] = [] :=
        redactAll_of_clean fun s hs hyes => (h.sorted s hs).ne (List.infix_nil.mp hyes)
      rw [if_pos hnil, hnil, hempty]
      rfl
    · rw [if_neg hnil]
      rfl
  · rw [visible, hdeltas]
    by_cases hnil : u = []
    · rw [if_pos hnil, hnil]
      simp
    · rw [if_neg hnil]
      simp

end TwoPieces

/-! ## The law -/

/-- `redact_text` takes the longest values first. -/
theorem sorted_longestFirst (secrets : List (List Char)) :
    Sorted (longestFirst secrets).eraseDups := by
  have hall : (longestFirst secrets).Pairwise fun a b => decide (b.length ≤ a.length) = true :=
    List.pairwise_mergeSort (fun a b c hab hbc => by simp_all; omega)
      (fun a b => by simp; omega) secrets
  exact List.Pairwise.sublist (List.eraseDups_sublist _) (hall.imp fun h => of_decide_eq_true h)

/-- **No attempt shows a secret**, and the streamed text is the redacted one exactly where no secret
overruns a later one, for the attempts that come to their end. -/
theorem correct_iff (txt : PyText) (h : Redactable secrets) :
    (∀ (a : Attempt), ∀ s ∈ secrets, ¬s <:+: a.out txt secrets) ∧
      ((∀ a : Attempt, a.Correct txt secrets ↔ a.Complete txt secrets) ↔ NoOverrun secrets) := by
  refine ⟨fun a s hs => a.out_clean h hs, fun hall => ?_, fun hfree a => a.correct_of_noOverrun h hfree⟩
  refine clashFree_of_redactAll_append h.eraseDups (sorted_longestFirst secrets)
    (List.nodup_eraseDups _) fun u v hu hv => ?_
  obtain ⟨hout, hvisible, hcomplete⟩ := out_twoPieces txt h hu hv
  have hcorrect := ((hall (twoPieces u v)).mpr hcomplete).whole
  rw [hout, hvisible] at hcorrect
  rwa [redactChars_eraseDups h, redactChars_eraseDups h, redactChars_eraseDups h]

/-- Two tokens that share a beginning. -/
theorem correct_iff_tokens :
    NoOverrun ["sk-one".toList, "sk-two".toList] ∧
      ∀ a : Attempt, a.Correct .ascii ["sk-one".toList, "sk-two".toList] ↔
        a.Complete .ascii ["sk-one".toList, "sk-two".toList] := by
  have hredactable : Redactable ["sk-one".toList, "sk-two".toList] := by decide +kernel
  have hfree : NoOverrun ["sk-one".toList, "sk-two".toList] := by
    rw [NoOverrun, longestFirst_of_sorted (by decide +kernel)]
    decide +kernel
  exact ⟨hfree, (correct_iff .ascii hredactable).2.mpr hfree⟩

/-- The answer `abc`, cut behind its second character. -/
def cutSecret : Attempt := twoPieces "ab".toList "c".toList

/-- With the secrets `abc` and `ab`, `redact_text` takes the longer one; what is sent shows its last
character. -/
theorem cutSecret_shows_tail :
    Redactable ["abc".toList, "ab".toList] ∧ cutSecret.Complete .ascii ["abc".toList, "ab".toList] ∧
      redactChars ["abc".toList, "ab".toList] (cutSecret.visible .ascii) = "<redacted>".toList ∧
      cutSecret.out .ascii ["abc".toList, "ab".toList] = "<redacted>c".toList ∧
      ¬cutSecret.Correct .ascii ["abc".toList, "ab".toList] := by
  have hredactable : Redactable ["abc".toList, "ab".toList] := by decide +kernel
  have hsort : longestFirst ["abc".toList, "ab".toList] = ["abc".toList, "ab".toList] :=
    longestFirst_of_sorted (by decide +kernel)
  obtain ⟨hout, hvisible, hcomplete⟩ :=
    out_twoPieces (u := "ab".toList) (v := "c".toList) .ascii hredactable (by decide) (by decide)
  change cutSecret.out _ _ = _ at hout
  change cutSecret.visible _ = _ at hvisible
  have hredacted :
      redactChars ["abc".toList, "ab".toList] (cutSecret.visible .ascii) = "<redacted>".toList := by
    rw [hvisible, redactChars, hsort]
    decide +kernel
  have hshown : cutSecret.out .ascii ["abc".toList, "ab".toList] = "<redacted>c".toList := by
    rw [hout, redactChars, redactChars, hsort]
    decide +kernel
  refine ⟨hredactable, hcomplete, hredacted, hshown, fun hcorrect => ?_⟩
  have hsame := hcorrect.whole
  rw [hshown, hredacted] at hsame
  revert hsame
  decide

end Attempt

end ThreadForge

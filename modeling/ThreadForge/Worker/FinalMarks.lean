import ThreadForge.Worker.StreamRedaction

/-!
# Which deltas are marked final

A plain answer leaves through three calls of `_emit_public_delta`: the chunk with which it is
recognised, the chunks behind it, and `after_model`, which sends what was held back. Only the second
one says that the text is final.

## Main results

* `RemoteExecutionHooks.Sends` : the deltas that a text sends, with their marks
* `Recogniser.deltas_plainFinal` : the calls for a plain answer
* `Attempt.final_throughout_iff` : when each delta of a plain answer is marked final
-/

namespace ThreadForge

open Redaction

variable {secrets : List (List Char)}

/-! ## What is sent, with its marks -/

/-- The deltas that some calls send. -/
def marked (secrets : List (List Char)) : List Char → List PublicDelta → List AssistantDelta
  | _, [] => []
  | buffer, delta :: deltas =>
    ((deltaChunks (emitted secrets buffer delta).1).map fun chunk =>
      { text := chunk, final := delta.isFinal }) ++
      marked secrets (emitted secrets buffer delta).2 deltas

theorem marked_append (buffer : List Char) (front back : List PublicDelta) :
    marked secrets buffer (front ++ back) =
      marked secrets buffer front ++
        marked secrets (emittedAll secrets buffer front).2 back := by
  induction front generalizing buffer with
  | nil => rfl
  | cons delta front ih =>
    rw [List.cons_append, marked, marked, ih, List.append_assoc]
    rfl

theorem deltaChunks_eq_nil_iff {text : List Char} : deltaChunks text = [] ↔ text = [] := by
  constructor
  · intro h
    have hflatten := RemoteExecutionHooks.flatten_deltaChunks text
    rw [h, List.flatten_nil] at hflatten
    exact hflatten.symm
  · rintro rfl
    rfl

/-- All that one call sends is marked, or it sends nothing. -/
theorem forall_final_iff {text : List Char} {isFinal : Bool} :
    (∀ delta ∈ (deltaChunks text).map fun chunk =>
        ({ text := chunk, final := isFinal } : AssistantDelta), delta.final = true) ↔
      isFinal = true ∨ text = [] := by
  rw [← deltaChunks_eq_nil_iff, List.forall_mem_map]
  constructor
  · intro h
    rcases hchunks : deltaChunks text with _ | ⟨chunk, chunks⟩
    · exact Or.inr rfl
    · refine Or.inl (h chunk ?_)
      rw [hchunks]
      exact List.mem_cons_self
  · rintro (h | h) chunk hchunk
    · exact h
    · rw [h] at hchunk
      cases hchunk

namespace RemoteExecutionHooks

variable {txt : PyText}

/-- The hooks after some calls: what these sent, unless an answer candidate is collected. -/
structure Sends (secrets : List (List Char)) (h h' : RemoteExecutionHooks)
    (deltas : List PublicDelta) : Prop where
  sent : h'.sent = h.sent ++
    if h.answerCandidateActive then [] else marked secrets h.redactionBuffer deltas
  active : h'.answerCandidateActive = h.answerCandidateActive

theorem sent_publish (h : RemoteExecutionHooks) (visible : List Char) (isFinal : Bool) :
    (h.publish visible isFinal).sent = h.sent ++
      if h.answerCandidateActive then []
      else (deltaChunks visible).map fun chunk => { text := chunk, final := isFinal } := by
  unfold publish
  split
  · next hnil =>
    rw [hnil]
    split
    · rw [List.append_nil]
    · exact (List.append_nil _).symm
  · dsimp only
    split
    · exact (List.append_nil _).symm
    · rfl

theorem sends_emitPublicDelta (secrets : List (List Char)) (h : RemoteExecutionHooks)
    (delta : PublicDelta) : Sends secrets h (h.emitPublicDelta secrets delta) [delta] := by
  refine ⟨?_, (emits_emitPublicDelta secrets h delta).active⟩
  rw [marked, marked, List.append_nil]
  unfold emitPublicDelta emitted
  dsimp only
  split
  · exact sent_publish _ _ _
  · exact sent_publish _ _ _

theorem sends_modelTextDelta (txt : PyText) (secrets : List (List Char))
    (h : RemoteExecutionHooks) (piece : List Char) :
    Sends secrets h (h.modelTextDelta txt secrets "execute" piece)
      (h.toRecogniser.read txt piece).2.toList := by
  unfold modelTextDelta
  rw [if_neg (fun hne => hne rfl)]
  rcases hread : h.toRecogniser.read txt piece with ⟨r, _ | delta⟩
  · refine ⟨?_, rfl⟩
    show h.sent = h.sent ++ if h.answerCandidateActive then [] else []
    rw [ite_self, List.append_nil]
  · have hsends := sends_emitPublicDelta secrets { h with toRecogniser := r } delta
    exact ⟨hsends.sent, hsends.active⟩

theorem sends_read (txt : PyText) (secrets : List (List Char)) (h : RemoteExecutionHooks)
    (pieces : List (List Char)) :
    Sends secrets h
      (pieces.foldl (fun h piece => h.modelTextDelta txt secrets "execute" piece) h)
      (h.toRecogniser.deltas txt pieces) := by
  induction pieces generalizing h with
  | nil =>
    refine ⟨?_, rfl⟩
    show h.sent = h.sent ++ if h.answerCandidateActive then [] else []
    rw [ite_self, List.append_nil]
  | cons piece pieces ih =>
    have hstream := streams_modelTextDelta txt secrets h piece
    have hfirst := sends_modelTextDelta txt secrets h piece
    have hrest := ih (h.modelTextDelta txt secrets "execute" piece)
    rw [hstream.recogniser] at hrest
    refine ⟨?_, hrest.active.trans hfirst.active⟩
    rw [List.foldl_cons, hrest.sent, hfirst.sent, hfirst.active, hstream.buffer,
      Recogniser.deltas, marked_append]
    split
    · exact List.append_nil _
    · rw [List.append_assoc]

end RemoteExecutionHooks

/-! ## The calls for a plain answer -/

namespace Recogniser

variable {txt : PyText} {r : Recogniser} {piece text : List Char} {rest : List (List Char)}

theorem deltas_append (r : Recogniser) (front back : List (List Char)) :
    r.deltas txt (front ++ back) = r.deltas txt front ++ (r.readAll txt front).deltas txt back := by
  induction front generalizing r with
  | nil => rfl
  | cons piece front ih =>
    rw [List.cons_append, deltas, deltas, ih, List.append_assoc]
    rfl

/-- Each chunk behind the one with which the answer was recognised is a final one. -/
theorem deltas_of_plainFinal (txt : PyText) (h : r.streamMode = .plainFinal)
    (pieces : List (List Char)) :
    r.deltas txt pieces = pieces.map (fun piece => { text := piece, isFinal := true }) ∧
      (r.readAll txt pieces).streamMode = .plainFinal := by
  have hread : ∀ piece, r.read txt piece = (r, some { text := piece, isFinal := true }) := by
    intro piece
    unfold read
    rw [h]
  induction pieces with
  | nil => exact ⟨rfl, h⟩
  | cons piece pieces ih =>
    rw [deltas, readAll, List.foldl_cons, hread]
    exact ⟨congrArg _ ih.1, ih.2⟩

theorem mem_of_earliest {marks : List (Nat × StreamMode)} {mark : Nat × StreamMode}
    (h : earliest marks = some mark) : mark ∈ marks := by
  have hall : ∀ (rest : List (Nat × StreamMode)) (best : Nat × StreamMode),
      rest.foldl (fun best item => if item.1 < best.1 then item else best) best ∈ best :: rest := by
    intro rest
    induction rest with
    | nil => exact fun best => List.mem_cons_self
    | cons item rest ih =>
      intro best
      rw [List.foldl_cons]
      rcases List.mem_cons.mp (ih (if item.1 < best.1 then item else best)) with heq | hmem
      · rw [heq]
        split
        · exact List.mem_cons_of_mem best List.mem_cons_self
        · exact List.mem_cons_self
      · exact List.mem_cons_of_mem best (List.mem_cons_of_mem item hmem)
  cases marks with
  | nil => cases h
  | cons first rest =>
    obtain rfl := Option.some.inj h
    exact hall rest first

/-- A marker decides between an answer and a text that is blocked. -/
theorem mode_of_earliest {buffer : List Char} {position : Nat} {mode : StreamMode}
    (h : earliest (markerPositions buffer) = some (position, mode)) :
    mode = .final ∨ mode = .blocked := by
  obtain ⟨marker, hmarker, hbreak⟩ := List.mem_filterMap.mp (mem_of_earliest h)
  obtain ⟨parts, -, heq⟩ := Option.map_eq_some_iff.mp hbreak
  obtain ⟨-, rfl⟩ := Prod.mk.inj heq
  rcases List.mem_cons.mp hmarker with rfl | hmarker
  · exact Or.inl rfl
  rcases List.mem_cons.mp hmarker with rfl | hmarker
  · exact Or.inr rfl
  rw [List.mem_singleton.mp hmarker]
  exact Or.inr rfl

theorem streamMode_readFinal (r : Recogniser) :
    r.readFinal.1.streamMode = .blocked ∨ r.readFinal.1.streamMode = r.streamMode := by
  unfold readFinal
  split
  · exact Or.inl rfl
  · split
    · exact Or.inr rfl
    · exact Or.inr rfl

/-- A chunk of a text that is not decided yet: it stays so; or the text is a plain answer and is let
through as far as it was read; or a marker was found. -/
theorem read_pending_cases (txt : PyText) (h : r.streamMode = .pending) (piece : List Char) :
    ((r.read txt piece).1.streamMode = .pending ∧ (r.read txt piece).2 = none) ∨
      ((r.read txt piece).1.streamMode = .plainFinal ∧
        (r.read txt piece).2 = some { text := r.streamBuffer ++ piece } ∧
        r.streamBuffer ++ piece ≠ []) ∨
      ((r.read txt piece).1.streamMode = .final ∨ (r.read txt piece).1.streamMode = .blocked) := by
  unfold read
  rw [h]
  unfold readPending
  dsimp only
  split
  · split
    · next hplain =>
      refine Or.inr (Or.inl ⟨rfl, rfl, fun hnil => ?_⟩)
      rw [hnil] at hplain
      simp at hplain
    · exact Or.inl ⟨rfl, rfl⟩
  · next position mode hmarks =>
    right
    right
    split
    · exact mode_of_earliest hmarks
    · next hfinal =>
      rcases streamMode_readFinal { r with
        streamMode := mode
        streamBuffer := (r.streamBuffer ++ piece).drop (position + finalTag.length) } with
        hmode | hmode
      · exact Or.inr hmode
      · exact Or.inl (hmode.trans (not_not.mp hfinal))

/-- After a marker, a text stays an answer or blocked. -/
theorem readAll_marked (txt : PyText) (h : r.streamMode = .final ∨ r.streamMode = .blocked)
    (pieces : List (List Char)) : (r.readAll txt pieces).streamMode = .final ∨
      (r.readAll txt pieces).streamMode = .blocked := by
  induction pieces generalizing r with
  | nil => exact h
  | cons piece pieces ih =>
    rw [readAll, List.foldl_cons]
    refine ih ?_
    rcases h with h | h
    · unfold read
      rw [h]
      dsimp only
      rcases streamMode_readFinal { r with
        streamMode := .final
        streamBuffer := r.streamBuffer ++ piece } with hmode | hmode
      · exact Or.inr hmode
      · exact Or.inl hmode
    · rw [read_blocked h]
      exact Or.inr h

/-- While a text is not decided, nothing of it is let through. -/
theorem deltas_of_pending (h : r.streamMode = .pending) {pieces : List (List Char)}
    (hend : (r.readAll txt pieces).streamMode = .pending) : r.deltas txt pieces = [] := by
  induction pieces generalizing r with
  | nil => rfl
  | cons piece pieces ih =>
    rw [readAll, List.foldl_cons] at hend
    rcases read_pending_cases txt h piece with ⟨hmode, hnone⟩ | ⟨hmode, -, -⟩ | hmode
    · rw [deltas, hnone, ih hmode hend]
      rfl
    · have hplain := (deltas_of_plainFinal txt hmode pieces).2
      rw [readAll, hend] at hplain
      cases hplain
    · rcases readAll_marked txt hmode pieces with hmarked | hmarked
      · rw [readAll, hend] at hmarked
        cases hmarked
      · rw [readAll, hend] at hmarked
        cases hmarked

/-- The text up to the chunk with which it is recognised as a plain answer, and the chunks behind
it. -/
def Opening (txt : PyText) (r : Recogniser) (pieces : List (List Char)) (text : List Char)
    (rest : List (List Char)) : Prop :=
  ∃ before piece, pieces = before ++ piece :: rest ∧
    (r.readAll txt before).streamMode = .pending ∧
    ((r.readAll txt before).read txt piece).1.streamMode = .plainFinal ∧
    text = (r.readAll txt before).streamBuffer ++ piece

/-- The calls for a plain answer: its opening is let through as one text that is not marked, the
chunks behind it are marked. -/
theorem deltas_of_opening (h : r.streamMode = .pending) {pieces : List (List Char)}
    (hopen : r.Opening txt pieces text rest) :
    r.deltas txt pieces =
        { text := text } :: rest.map (fun piece => { text := piece, isFinal := true }) ∧
      text ≠ [] ∧ (r.readAll txt pieces).streamMode = .plainFinal := by
  obtain ⟨before, piece, rfl, hpending, hplain, rfl⟩ := hopen
  obtain ⟨hdeltas, hmode⟩ := deltas_of_plainFinal txt hplain rest
  have hread : r.readAll txt (before ++ piece :: rest) =
      ((r.readAll txt before).read txt piece).1.readAll txt rest := by
    unfold readAll
    rw [List.foldl_append, List.foldl_cons]
  rw [deltas_append, deltas_of_pending h hpending, List.nil_append, deltas, hdeltas, hread]
  rcases read_pending_cases txt hpending piece with ⟨hother, -⟩ | ⟨-, hsome, hne⟩ | hother
  · rw [hplain] at hother
    cases hother
  · rw [hsome]
    exact ⟨rfl, hne, hmode⟩
  · rcases hother with hother | hother
    · rw [hplain] at hother
      cases hother
    · rw [hplain] at hother
      cases hother

end Recogniser

/-! ## The law -/

section Held

variable {text : List Char}

theorem redactChars_eq_nil (h : redactChars secrets text = []) : text = [] := by
  have hall : ∀ (L : List (List Char)) (text : List Char),
      redactAll redactedMarker L text = [] → text = [] := by
    intro L
    induction L with
    | nil => exact fun text htext => htext
    | cons s L ih =>
      intro text htext
      rw [redactAll_cons] at htext
      have hnil := ih _ htext
      cases text with
      | nil => rfl
      | cons c cs =>
        -- the first character is kept, or a marker takes its place
        rw [PyChars.replaceAll] at hnil
        split at hnil
        · cases hnil
        · cases hnil
  exact hall _ text h

/-- The first piece is held back as a whole exactly if it begins a secret. -/
theorem emitted_eq_nil_iff (hne : text ≠ []) {isFinal : Bool} :
    (emitted secrets [] { text := text, isFinal := isFinal }).1 = [] ↔
      Begins secrets (redactChars secrets text) := by
  have hredacted : redactChars secrets text ≠ [] := fun hnil => hne (redactChars_eq_nil hnil)
  have hpos := List.length_pos_iff.mpr hredacted
  have hvisible : (emitted secrets [] { text := text, isFinal := isFinal }).1 =
      (redactChars secrets text).take
        ((redactChars secrets text).length - holdBack secrets (redactChars secrets text)) := rfl
  rw [hvisible, List.take_eq_nil_iff, or_iff_left hredacted]
  constructor
  · intro hzero
    have hall : holdBack secrets (redactChars secrets text) = (redactChars secrets text).length := by
      have hle : holdBack secrets (redactChars secrets text) ≤ (redactChars secrets text).length :=
        holdBack_le
      omega
    have hbegins := begins_holdBack (hall.symm ▸ hpos)
    rwa [hall, Nat.sub_self, List.drop_zero] at hbegins
  · rintro ⟨q, hq, hmem⟩
    have hle := length_le_holdBack hmem hq (List.suffix_refl _)
    omega

/-- The flush at the end sends nothing exactly if nothing is held back. -/
theorem flush_eq_nil_iff {buffer : List Char} :
    (emitted secrets buffer { text := [], completed := true }).1 = [] ↔ buffer = [] := by
  have hsent : (emitted secrets buffer { text := [], completed := true }).1 =
      redactChars secrets (buffer ++ []) := rfl
  rw [hsent, List.append_nil]
  refine ⟨redactChars_eq_nil, ?_⟩
  rintro rfl
  have hall : ∀ L : List (List Char), redactAll redactedMarker L [] = [] := by
    intro L
    induction L with
    | nil => rfl
    | cons s L ih => exact ih
  exact hall _

theorem begins_redactChars_iff (h : Redactable secrets) :
    Begins secrets (redactChars secrets text) ↔
      Begins secrets text ∧ ∀ s ∈ secrets, ¬s <:+: text := by
  constructor
  · rintro ⟨q, hq, hmem⟩
    -- a marker is no part of a secret, so nothing was replaced
    have hfirst : redactedMarker.first ∉ redactChars secrets text := fun hin =>
      (h _ hmem).first (List.mem_append_left q hin)
    have hsame : redactChars secrets text = text := redactAll_eq_of_first_not_mem h.sorted hfirst
    rw [hsame] at hmem
    refine ⟨⟨q, hq, hmem⟩, fun s hs => ?_⟩
    have hclean : ¬s <:+: redactChars secrets text :=
      redactAll_clean h.sorted (mem_longestFirst.mpr hs)
    rwa [hsame] at hclean
  · rintro ⟨hbegins, hclean⟩
    have hsame : redactChars secrets text = text :=
      redactAll_of_clean fun s hs => hclean s (mem_longestFirst.mp hs)
    rwa [hsame]

end Held

namespace Attempt

open RemoteExecutionHooks

variable {txt : PyText} {a : Attempt} {text : List Char} {rest : List (List Char)}

/-- The deltas that the attempt sends. -/
def sent (txt : PyText) (secrets : List (List Char)) (a : Attempt) : List AssistantDelta :=
  (a.result txt secrets).sent.drop a.hooks.sent.length

/-- The attempt of a round with which the text is recognised as a plain answer. -/
structure PlainAnswer (txt : PyText) (a : Attempt) (text : List Char) (rest : List (List Char)) :
    Prop where
  start : a.start = .beforeModel
  ended : a.ended = true
  opening : a.began.toRecogniser.Opening txt a.pieces text rest

/-- What is held back of a plain answer when its last chunk was read. -/
def heldAtEnd (secrets : List (List Char)) (text : List Char) (rest : List (List Char)) :
    List Char :=
  (emittedAll secrets [] ({ text := text } :: rest.map fun piece =>
    { text := piece, isFinal := true })).2

theorem heldAtEnd_iff (h : Redactable secrets) :
    heldAtEnd secrets text rest = [] ↔
      ∀ p, p ≠ [] → p <:+ redactPieces secrets [] (text :: rest) → ¬Begins secrets p := by
  have hopen : ∀ delta ∈ ({ text := text } :: rest.map fun piece =>
      { text := piece, isFinal := true } : List PublicDelta), delta.completed = false := by
    intro delta hdelta
    rcases List.mem_cons.mp hdelta with rfl | hdelta
    · rfl
    · obtain ⟨piece, -, rfl⟩ := List.mem_map.mp hdelta
      rfl
  have hlast : LastOnly ({ text := text } :: rest.map fun piece =>
      { text := piece, isFinal := true } : List PublicDelta) :=
    fun delta hdelta => hopen delta (List.mem_of_mem_dropLast hdelta)
  obtain ⟨hwhole, -, hheld⟩ := emittedAll_append h hlast (held_nil h)
  have hpieces : ({ text := text } :: rest.map fun piece =>
      { text := piece, isFinal := true } : List PublicDelta).map PublicDelta.text = text :: rest := by
    rw [List.map_cons, List.map_map]
    exact congrArg (text :: ·) (List.map_id rest)
  rw [hpieces, List.nil_append, List.append_nil] at hwhole
  unfold heldAtEnd
  constructor
  · rintro hnil p hp hsuffix ⟨q, hq, hmem⟩
    rw [← hwhole] at hsuffix
    have htail := (hheld hopen).tail (p ++ q) (mem_longestFirst.mpr hmem) p q hp hq rfl
    rw [List.nil_append] at htail
    have hshort := htail hsuffix
    rw [hnil] at hshort
    exact hp (List.suffix_nil.mp hshort)
  · intro hnone
    rcases @begins_emittedAll secrets _ _ hopen (Or.inl rfl) with hnil | hbegins
    · exact hnil
    · by_contra hne
      refine hnone _ hne ?_ hbegins
      rw [← hwhole]
      exact List.suffix_append _ _

theorem marked_final (buffer : List Char) :
    ∀ delta ∈ marked secrets buffer (rest.map fun piece => { text := piece, isFinal := true }),
      delta.final = true := by
  induction rest generalizing buffer with
  | nil => exact fun delta hdelta => absurd hdelta List.not_mem_nil
  | cons piece rest ih =>
    intro delta hdelta
    rw [List.map_cons, marked, List.mem_append] at hdelta
    rcases hdelta with hdelta | hdelta
    · exact forall_final_iff.mpr (Or.inl rfl) delta hdelta
    · exact ih _ delta hdelta

/-- **What an attempt sends are the deltas of its calls.** -/
theorem sent_eq (secrets : List (List Char)) (a : Attempt) :
    a.sent txt secrets =
      if a.hooks.answerCandidateActive then [] else marked secrets [] (a.deltas txt) := by
  have hbegan : a.began.sent = a.hooks.sent ∧
      a.began.answerCandidateActive = a.hooks.answerCandidateActive := by
    unfold began
    split
    · exact ⟨rfl, rfl⟩
    · unfold modelRetrying
      dsimp only
      split
      · exact ⟨rfl, rfl⟩
      · exact ⟨rfl, rfl⟩
  have hread := sends_read txt secrets a.began a.pieces
  have hstream := streams_read txt secrets a.began a.pieces
  have hsent := hread.sent
  have hactive := hread.active
  have hbuffer := hstream.buffer
  rw [a.began_buffer] at hsent hbuffer
  have hmode : (a.read txt secrets).streamMode = (a.recognised txt).streamMode := by
    rw [read, hstream.recogniser]
    rfl
  have hresult : (a.result txt secrets).sent = a.hooks.sent ++
      if a.hooks.answerCandidateActive then [] else marked secrets [] (a.deltas txt) := by
    rw [← hbegan.1, ← hbegan.2]
    unfold result Attempt.deltas
    by_cases hflush : a.ended = true ∧ (a.recognised txt).streamMode = .plainFinal
    · obtain ⟨hended, hplain⟩ := hflush
      unfold afterModel
      have hflush : a.ended = true ∧ (a.recognised txt).streamMode = .plainFinal := ⟨hended, hplain⟩
      rw [if_pos hended, if_pos (hmode.trans hplain), if_pos hflush, marked_append]
      have hsends := (sends_emitPublicDelta secrets (a.read txt secrets)
        { text := [], completed := true }).sent
      dsimp only
      rw [hsends, read, hsent, hactive, hbuffer]
      split
      · exact List.append_nil _
      · rw [List.append_assoc]
    · rw [if_neg hflush, List.append_nil]
      by_cases hended : a.ended = true
      · unfold afterModel
        rw [if_pos hended, if_neg fun hplain => hflush ⟨hended, hmode.symm.trans hplain⟩]
        exact hsent
      · rw [if_neg hended]
        exact hsent
  unfold sent
  rw [hresult, List.drop_left]

theorem deltas_of_plainAnswer (h : a.PlainAnswer txt text rest) :
    a.deltas txt = ({ text := text } :: rest.map fun piece => { text := piece, isFinal := true }) ++
        [{ text := [], completed := true }] ∧ text ≠ [] := by
  have hpending : a.began.streamMode = .pending := by
    unfold began
    rw [h.start]
    rfl
  obtain ⟨hdeltas, hne, hmode⟩ := Recogniser.deltas_of_opening hpending h.opening
  refine ⟨?_, hne⟩
  unfold Attempt.deltas
  rw [hdeltas, if_pos ⟨h.ended, hmode⟩]

/-- **A plain answer is marked final throughout** exactly if nothing is sent for it, or its opening
is held back as a whole and nothing is held back at its end. -/
theorem final_throughout_iff (h : a.PlainAnswer txt text rest) :
    ((∀ delta ∈ a.sent txt secrets, delta.final = true) ↔
        a.hooks.answerCandidateActive = true ∨
          Begins secrets (redactChars secrets text) ∧ heldAtEnd secrets text rest = []) ∧
      (Redactable secrets →
        (Begins secrets (redactChars secrets text) ↔
          Begins secrets text ∧ ∀ s ∈ secrets, ¬s <:+: text) ∧
        (heldAtEnd secrets text rest = [] ↔
          ∀ p, p ≠ [] → p <:+ redactPieces secrets [] (text :: rest) → ¬Begins secrets p)) := by
  obtain ⟨hdeltas, hne⟩ := deltas_of_plainAnswer h
  refine ⟨?_, fun hredactable => ⟨begins_redactChars_iff hredactable, heldAtEnd_iff hredactable⟩⟩
  rw [sent_eq]
  split
  · next hactive =>
    exact iff_of_true (fun delta hdelta => absurd hdelta List.not_mem_nil) (Or.inl hactive)
  · next hactive =>
    rw [or_iff_right hactive, hdeltas, marked_append, List.forall_mem_append, marked,
      List.forall_mem_append, forall_final_iff, marked, marked, List.append_nil, forall_final_iff,
      or_iff_right Bool.false_ne_true, or_iff_right Bool.false_ne_true, emitted_eq_nil_iff hne,
      flush_eq_nil_iff]
    exact and_congr_left fun _ => and_iff_left (marked_final _)

/-- A round in which a plain answer may come, in some chunks. -/
def plainRound (pieces : List String) : Attempt where
  hooks := { allowPlainTextFinal := true }
  start := .beforeModel
  pieces := pieces.map String.toList
  ended := true

/-- An answer that begins like the secret is sent with its second chunk. -/
theorem final_throughout_held :
    (plainRound ["sk-", "it"]).PlainAnswer .ascii "sk-".toList ["it".toList] ∧
      ∀ delta ∈ (plainRound ["sk-", "it"]).sent .ascii ["sk-1".toList], delta.final = true := by
  have hplain : (plainRound ["sk-", "it"]).PlainAnswer .ascii "sk-".toList ["it".toList] :=
    ⟨rfl, rfl, [], "sk-".toList, rfl, rfl, by decide +kernel, rfl⟩
  refine ⟨hplain, (final_throughout_iff hplain).1.mpr (Or.inr ⟨?_, by decide +kernel⟩)⟩
  exact ⟨"1".toList, by decide, by decide +kernel⟩

/-- The chunk with which an answer is recognised is sent as commentary. -/
theorem opening_not_final :
    (plainRound ["hel", "lo"]).PlainAnswer .ascii "hel".toList ["lo".toList] ∧
      (plainRound ["hel", "lo"]).sent .ascii [] =
        [{ text := "hel".toList, final := false }, { text := "lo".toList, final := true }] := by
  refine ⟨⟨rfl, rfl, [], "hel".toList, rfl, rfl, ?_, rfl⟩, ?_⟩
  · decide +kernel
  · decide +kernel

end Attempt

end ThreadForge

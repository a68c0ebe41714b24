import ThreadForge.Lib.Traverse
import ThreadForge.Pico.ResponseStream

/-!
# Whether the text that was passed on is the text that is returned

The consumer shows what it can of each event and returns the last whole text it read. Both are what
`SpelledStream` makes of the pieces and wholes the events bring, so they agree exactly if the last
whole is spelled by the events before it and nothing but it is shown after. A retry starts anew.

The events of one output part are such a stream. Those of two parts are not: what is shown is the text
of both, and what is returned is the first part.

## Main results

* `ResponseStream.consume_spec` — a consumer that is not interrupted shows and returns what
  `SpelledStream` does of its events.
* `shown_iff_returned` — exactly when what was passed on since the last retry is what is returned.
-/

namespace ThreadForge

open SpelledStream

variable {env : StreamEnv}

/-! ## The pieces of the events -/

/-- The response that is known once the event is read. -/
def notedResponse (last : Option PyDict) (event : PyDict) : Option PyDict :=
  match event.getD "response" .none with
  | .dict response => some response
  | _ => last

/-- The text of the response, if there is one. -/
def wholeOf (response : PyDict) : Option (Piece Char) :=
  match extractOpenAiText response with
  | .ok (.str text) => if text = "" then none else some (.whole text.toList)
  | _ => none

/-- What an event says of the text, the response known with it being `last`. -/
def pieceOf (last : Option PyDict) (event : PyDict) : Option (Piece Char) :=
  let type := event.getD "type" (.str "")
  if type = deltaEvent then
    match event.getD "delta" .none with
    | .str delta => some (.more delta.toList)
    | _ => none
  else if type = doneEvent then
    match event.getD "text" .none with
    | .str text => if text = "" then none else some (.whole text.toList)
    | _ => none
  else if type = completedEvent then last.bind wholeOf
  else none

theorem deltaEvent_ne_completed : deltaEvent ≠ completedEvent := fun h =>
  absurd (PyValue.str.inj h) (by decide)

theorem doneEvent_ne_completed : doneEvent ≠ completedEvent := fun h =>
  absurd (PyValue.str.inj h) (by decide)

/-- The event ends the stream. -/
def isLast (last : Option PyDict) (event : PyDict) : Bool :=
  event.getD "type" (.str "") == completedEvent && last.isSome

/-- What the lines say of the text, up to the event that ends the stream. -/
def piecesOf (env : StreamEnv) : Option PyDict → List (List UInt8) → List (Piece Char)
  | _, [] => []
  | last, raw :: lines => match eventOf env true raw with
    | .ok none => piecesOf env last lines
    | .ok (some (.dict event)) =>
      let last := notedResponse last event
      (pieceOf last event).toList ++ if isLast last event then [] else piecesOf env last lines
    | _ => []

namespace ResponseStream

variable {s s' : ResponseStream} {event : PyDict} {lines : List (List UInt8)} {b : Bool}

/-- What was passed on. -/
def shown (s : ResponseStream) : List Char := (String.join s.deltas).toList

theorem note_spec (s : ResponseStream) (event : PyDict) :
    (s.note event).lastResponse = notedResponse s.lastResponse event ∧
      (s.note event).deltas = s.deltas ∧ (s.note event).doneText = s.doneText := by
  unfold note notedResponse
  cases event.getD "response" .none with
  | dict response =>
    show (if _ then _ else _ : ResponseStream).lastResponse = some response ∧ _
    split <;> exact ⟨rfl, rfl, rfl⟩
  | _ => exact ⟨rfl, rfl, rfl⟩

theorem shown_append (s : ResponseStream) (delta : String) :
    ({ s with deltas := s.deltas ++ [delta] } : ResponseStream).shown = s.shown ++ delta.toList := by
  simp [shown, String.toList_join]

/-- The missing suffix is shown, if what was shown is a beginning of the text. -/
theorem emitMissingSuffix_spec (s : ResponseStream) (text : String) :
    (s.emitMissingSuffix text).shown = push s.shown (.whole text.toList) ∧
      (s.emitMissingSuffix text).lastResponse = s.lastResponse := by
  have hstarts : pyStartsWith text (String.join s.deltas) = true ↔ s.shown <+: text.toList :=
    List.isPrefixOf_iff_prefix
  show (if !pyStartsWith text (String.join s.deltas) then s else _).shown =
      (if s.shown <+: text.toList then text.toList else s.shown) ∧
    (if !pyStartsWith text (String.join s.deltas) then s else _).lastResponse = s.lastResponse
  by_cases hpre : s.shown <+: text.toList
  · rw [if_neg (by simp [hstarts.mpr hpre]), if_pos hpre]
    obtain ⟨suffix, hsuffix⟩ := hpre
    have hdrop : pyDrop text (String.join s.deltas).length = String.ofList suffix := by
      rw [pyDrop, ← hsuffix, ← String.length_toList]
      exact congrArg String.ofList List.drop_left
    rw [hdrop]
    split
    · next hempty =>
      have hnil : suffix = [] := by simpa using congrArg String.toList hempty
      rw [← hsuffix, hnil, List.append_nil]
      exact ⟨rfl, rfl⟩
    · rw [shown_append, String.toList_ofList]
      exact ⟨hsuffix, rfl⟩
  · have hno : (!pyStartsWith text (String.join s.deltas)) = true := by
      rw [Bool.not_eq_true', Bool.eq_false_iff, ne_eq, hstarts]
      exact hpre
    rw [if_pos hno, if_neg hpre]
    exact ⟨rfl, rfl⟩

/-- What the state holds after some pieces. -/
structure After (s s' : ResponseStream) (ps : List (Piece Char)) : Prop where
  shown : s'.shown = shownAfter s.shown ps
  doneText : s'.doneText.toList = (lastWhole ps).getD s.doneText.toList

theorem After.refl (hshown : s'.deltas = s.deltas) (hdone : s'.doneText = s.doneText) :
    After s s' [] where
  shown := by
    show s'.shown = s.shown
    rw [ResponseStream.shown, hshown]
    rfl
  doneText := congrArg String.toList hdone

theorem lastWhole_append (ps qs : List (Piece Char)) :
    lastWhole (ps ++ qs) = (lastWhole qs).or (lastWhole ps) := by
  induction ps with
  | nil => simp [lastWhole]
  | cons p ps ih =>
    cases p with
    | more xs => exact ih
    | whole xs =>
      show some ((lastWhole (ps ++ qs)).getD xs) = (lastWhole qs).or (some ((lastWhole ps).getD xs))
      rw [ih]
      cases lastWhole qs <;> rfl

theorem After.trans {t : ResponseStream} {ps qs : List (Piece Char)} (h : After s t ps)
    (h' : After t s' qs) : After s s' (ps ++ qs) where
  shown := by rw [shownAfter_append, ← h.shown, h'.shown]
  doneText := by
    rw [h'.doneText, h.doneText, lastWhole_append]
    cases lastWhole qs <;> rfl

/-- A whole text was read. -/
theorem After.whole (s : ResponseStream) (text : String) :
    After s { s.emitMissingSuffix text with doneText := text } [.whole text.toList] where
  shown := (emitMissingSuffix_spec s text).1
  doneText := rfl

/-- One event shows what its piece brings. -/
theorem read_spec (h : s.read event = .ok (s', b)) :
    After s s' (pieceOf (notedResponse s.lastResponse event) event).toList ∧
      s'.lastResponse = notedResponse s.lastResponse event ∧
      b = isLast (notedResponse s.lastResponse event) event := by
  obtain ⟨hlast, hdeltas, hdone⟩ := note_spec s event
  have hnote : After s (s.note event) [] := After.refl hdeltas hdone
  unfold read at h
  unfold pieceOf isLast
  rw [← hlast]
  generalize s.note event = t at h hnote ⊢
  by_cases hdelta : event.getD "type" (.str "") = deltaEvent
  · have hno : (event.getD "type" (.str "") == completedEvent) = false :=
      beq_eq_false_iff_ne.mpr fun h => deltaEvent_ne_completed (hdelta.symm.trans h)
    simp only [if_pos hdelta] at h ⊢
    rw [hno, Bool.false_and]
    generalize event.getD "delta" .none = value at h ⊢
    cases value with
    | str delta =>
      obtain ⟨rfl, rfl⟩ := Prod.mk.inj (Except.ok.inj h)
      refine ⟨hnote.trans ?_, ?_, rfl⟩
      · split
        · next hempty =>
          rw [hempty]
          exact ⟨by simp [shownAfter, push], rfl⟩
        · exact ⟨shown_append t delta, rfl⟩
      · split <;> rfl
    | none | bool | int | float | list | dict =>
      obtain ⟨rfl, rfl⟩ := Prod.mk.inj (Except.ok.inj h)
      exact ⟨hnote, rfl, rfl⟩
  simp only [if_neg hdelta] at h ⊢
  by_cases hdoneEvent : event.getD "type" (.str "") = doneEvent
  · have hno : (event.getD "type" (.str "") == completedEvent) = false :=
      beq_eq_false_iff_ne.mpr fun h => doneEvent_ne_completed (hdoneEvent.symm.trans h)
    simp only [if_pos hdoneEvent] at h ⊢
    rw [hno, Bool.false_and]
    generalize event.getD "text" .none = value at h ⊢
    cases value with
    | str text =>
      obtain ⟨rfl, rfl⟩ := Prod.mk.inj (Except.ok.inj h)
      by_cases hempty : text = ""
      · simp only [if_pos hempty]
        exact ⟨hnote, trivial, trivial⟩
      · simp only [if_neg hempty]
        exact ⟨hnote.trans (After.whole t text), (emitMissingSuffix_spec t text).2, trivial⟩
    | none | bool | int | float | list | dict =>
      obtain ⟨rfl, rfl⟩ := Prod.mk.inj (Except.ok.inj h)
      exact ⟨hnote, rfl, rfl⟩
  simp only [if_neg hdoneEvent] at h ⊢
  by_cases hcompleted : event.getD "type" (.str "") = completedEvent
  · simp only [if_pos hcompleted] at h ⊢
    have hyes : (event.getD "type" (.str "") == completedEvent) = true := beq_iff_eq.mpr hcompleted
    rw [hyes, Bool.true_and]
    cases hresponse : t.lastResponse with
    | none =>
      rw [hresponse] at h
      obtain ⟨rfl, rfl⟩ := Prod.mk.inj (Except.ok.inj h)
      exact ⟨hnote, hresponse, rfl⟩
    | some response =>
      rw [hresponse] at h
      obtain ⟨u, hu, hpair⟩ := Except.map_eq_ok h
      obtain ⟨rfl, rfl⟩ := Prod.mk.inj hpair
      obtain ⟨text, htext, hrest⟩ := Except.bind_eq_ok hu
      show After s u (wholeOf response).toList ∧ _
      unfold wholeOf
      rw [htext]
      split at hrest
      · next hfalse =>
        obtain rfl := Except.ok.inj hrest
        split
        · next t' heq =>
          obtain rfl := Except.ok.inj heq
          rw [if_pos (by simpa [PyValue.truthy] using hfalse)]
          exact ⟨hnote, hresponse, rfl⟩
        · exact ⟨hnote, hresponse, rfl⟩
      · next htrue =>
        split at hrest
        · next t' =>
          obtain rfl := Except.ok.inj hrest
          have hne : t' ≠ "" := by simpa [PyValue.truthy] using htrue
          simp only [if_neg hne]
          exact ⟨hnote.trans (After.whole t t'),
            (emitMissingSuffix_spec t t').2.trans hresponse, rfl⟩
        · cases hrest
  · simp only [if_neg hcompleted] at h ⊢
    obtain ⟨rfl, rfl⟩ := Prod.mk.inj (Except.ok.inj h)
    have hno : (event.getD "type" (.str "") == completedEvent) = false := by
      simpa using hcompleted
    rw [hno, Bool.false_and]
    exact ⟨hnote, rfl, rfl⟩

/-- **A consumer that is not interrupted shows the pieces of its lines and holds the last whole.** -/
theorem consume_spec (h : s.consume env lines = (s', .ok b)) :
    After s s' (piecesOf env s.lastResponse lines) := by
  induction lines generalizing s with
  | nil =>
    obtain ⟨rfl, -⟩ := Prod.mk.inj h
    exact After.refl rfl rfl
  | cons raw lines ih =>
    rw [consume] at h
    rw [piecesOf]
    cases hevent : eventOf env true raw with
    | error e =>
      have hstep : s.step env raw = .error e := by rw [step, hevent]; rfl
      rw [hstep] at h
      cases (Prod.mk.inj h).2
    | ok event? =>
      cases event? with
      | none =>
        have hstep : s.step env raw = .ok (s, false) := by rw [step, hevent]; rfl
        rw [hstep] at h
        exact ih h
      | some value =>
        by_cases hdict : ∃ event, value = .dict event
        · obtain ⟨event, rfl⟩ := hdict
          have hstep : s.step env raw = s.read event := by rw [step, hevent]; rfl
          rw [hstep] at h
          cases hread : s.read event with
          | error e =>
            rw [hread] at h
            cases (Prod.mk.inj h).2
          | ok out =>
            obtain ⟨t, ends⟩ := out
            rw [hread] at h
            obtain ⟨hafter, hlast, hends⟩ := read_spec hread
            show After s s' ((pieceOf _ event).toList ++ if isLast _ event = true then [] else _)
            rw [← hends, ← hlast]
            rw [← hlast] at hafter
            cases ends with
            | true =>
              obtain ⟨rfl, -⟩ := Prod.mk.inj h
              simpa using hafter
            | false => exact hafter.trans (ih h)
        · have hstep : s.step env raw = .error .attributeError := by
            rw [step, hevent]
            cases value with
            | dict event => exact absurd ⟨event, rfl⟩ hdict
            | _ => rfl
          rw [hstep] at h
          cases (Prod.mk.inj h).2

/-- No whole is empty. -/
theorem ne_nil_of_pieceOf {last : Option PyDict} {xs : List Char}
    (h : pieceOf last event = some (.whole xs)) : xs ≠ [] := by
  have hwhole : ∀ {text : String},
      (if text = "" then none else some (Piece.whole text.toList)) = some (.whole xs) → xs ≠ [] := by
    intro text heq hnil
    split at heq
    · cases heq
    · next hne =>
      rw [hnil, Option.some.injEq, Piece.whole.injEq, String.toList_eq_nil_iff] at heq
      exact hne heq
  unfold pieceOf at h
  simp only at h
  split at h
  · split at h <;> cases h
  split at h
  · split at h
    · exact hwhole h
    · cases h
  split at h
  · obtain ⟨response, -, hresponse⟩ := Option.bind_eq_some_iff.mp h
    unfold wholeOf at hresponse
    split at hresponse
    · exact hwhole hresponse
    · cases hresponse
  · cases h

theorem ne_nil_of_mem_piecesOf {last : Option PyDict} {xs : List Char}
    (h : .whole xs ∈ piecesOf env last lines) : xs ≠ [] := by
  induction lines generalizing last with
  | nil => cases h
  | cons raw lines ih =>
    rw [piecesOf] at h
    split at h
    · exact ih h
    · next event hevent =>
      rcases List.mem_append.mp h with hpiece | hrest
      · exact ne_nil_of_pieceOf (Option.mem_toList.mp hpiece)
      · split at hrest
        · cases hrest
        · exact ih hrest
    · cases h

/-- What is shown and what is returned, of a stream from its beginning. -/
theorem consume_text (h : ResponseStream.consume env {} lines = (s', .ok b)) :
    s'.shown = shownAfter [] (piecesOf env none lines) ∧
      s'.text.toList = result (piecesOf env none lines) := by
  obtain ⟨hshown, hdone⟩ := consume_spec h
  have hstart : ({} : ResponseStream).shown = [] := rfl
  rw [hstart] at hshown
  refine ⟨hshown, ?_⟩
  unfold text result
  cases hlast : lastWhole (piecesOf env none lines) with
  | none =>
    have hempty : s'.doneText = "" := by
      rw [hlast] at hdone
      exact String.toList_inj.mp hdone
    rw [if_neg (not_not.mpr hempty)]
    exact hshown
  | some t =>
    obtain ⟨before, after, heq, -⟩ := exists_lastWhole hlast
    have hne : t ≠ [] := by
      have hpiece : .whole t ∈ piecesOf env none lines := by
        rw [heq]
        exact List.mem_append_right _ List.mem_cons_self
      exact ne_nil_of_mem_piecesOf hpiece
    rw [hlast] at hdone
    have hdoneText : s'.doneText ≠ "" := fun hempty => hne (by
      have hnil : ("" : String).toList = t := hempty ▸ hdone
      exact hnil.symm)
    rw [if_pos hdoneText]
    exact hdone

end ResponseStream

/-! ## The attempts -/

/-- The last whole text of the lines is spelled by the events before it, and nothing follows it. -/
def SpelledByEvents (env : StreamEnv) (lines : List (List UInt8)) : Prop :=
  ∀ before t after, piecesOf env none lines = before ++ .whole t :: after → lastWhole after = none →
    Spells t [] before ∧ Silent after

/-- The attempt fails and another one is made. -/
def Retried (env : StreamEnv) (nativeTools : Bool) (a : ResponseAttempt) : Prop :=
  a.late = false ∧ ∃ fault code, (attemptOnce env nativeTools a.reply).2 = .error fault ∧
    fault.retryCode? = some code

/-- The text of the lines is returned by the attempts: those before were given up. -/
def AnsweredBy (env : StreamEnv) (nativeTools : Bool) (attempts : List ResponseAttempt)
    (lines : List (List UInt8)) : Prop :=
  ∃ earlier a later ending streamed normalized, attempts = earlier ++ a :: later ∧
    (∀ e ∈ earlier, Retried env nativeTools e) ∧ a.reply = .stream lines ending ∧
    (attemptOnce env nativeTools a.reply).2 = .ok (.text streamed normalized)

/-- What was passed on since the last retry is the text of the consumer, whenever a text is
returned. -/
def ShowsWhatItReturns (env : StreamEnv) (nativeTools : Bool) (attempts : List ResponseAttempt) :
    Prop :=
  ∀ callbacks streamed normalized,
    completeResponses env nativeTools attempts = (callbacks, .ok (.text streamed normalized)) →
      shownSinceRetry callbacks = streamed

variable {nativeTools : Bool} {attempts : List ResponseAttempt}

theorem shownSinceRetry_deltas (deltas : List String) :
    shownSinceRetry (deltas.map .delta) = String.join deltas := by
  unfold shownSinceRetry String.join
  rw [List.foldl_map]

/-- A retry makes void what was passed on before. -/
theorem shownSinceRetry_retry (before after : List Callback) (attempt : Nat) (code : String) :
    shownSinceRetry (before ++ .retry attempt code :: after) = shownSinceRetry after := by
  unfold shownSinceRetry
  rw [List.foldl_append, List.foldl_cons]

/-- An attempt that gives a text consumed its stream. -/
theorem attemptOnce_text {reply : Reply} {streamed normalized : String}
    (h : (attemptOnce env nativeTools reply).2 = .ok (.text streamed normalized)) :
    ∃ lines ending, reply = .stream lines ending ∧
      (String.join (attemptOnce env nativeTools reply).1).toList =
        shownAfter [] (piecesOf env none lines) ∧
      streamed.toList = result (piecesOf env none lines) := by
  cases reply with
  | httpError code retryable => cases h
  | noConnection timedOut => cases h
  | stream lines ending =>
    refine ⟨lines, ending, rfl, ?_⟩
    unfold attemptOnce at h ⊢
    simp only at h ⊢
    generalize hconsume : ResponseStream.consume env {} lines = consumed at h ⊢
    obtain ⟨s, ended⟩ := consumed
    simp only at h ⊢
    have hok : ∃ b, ended = .ok b ∧
        answerOf env nativeTools s = .ok (.text streamed normalized) := by
      cases ended with
      | error e => cases h
      | ok b =>
        refine ⟨b, rfl, ?_⟩
        split at h
        · next heq => cases heq
        · cases h
        · cases h
        · exact h
    obtain ⟨b, rfl, hanswer⟩ := hok
    obtain ⟨hshown, htext⟩ := ResponseStream.consume_text hconsume
    have hstreamed : s.text = streamed := by
      unfold answerOf at hanswer
      split at hanswer
      · cases hanswer
      · cases hanswer
      · cases hanswer
      · split at hanswer
        · cases hanswer
        · exact (Answer.text.inj (Except.ok.inj hanswer)).1
    exact ⟨hshown, hstreamed ▸ htext⟩

/-- Attempts that are given up leave nothing of what they passed on. -/
theorem completeFrom_retried {earlier : List ResponseAttempt} (a : ResponseAttempt)
    (later : List ResponseAttempt) (hearlier : ∀ e ∈ earlier, Retried env nativeTools e) (k : Nat) :
    shownSinceRetry (completeFrom env nativeTools k (earlier ++ a :: later)).1 =
        shownSinceRetry (completeFrom env nativeTools (k + earlier.length) (a :: later)).1 ∧
      (completeFrom env nativeTools k (earlier ++ a :: later)).2 =
        (completeFrom env nativeTools (k + earlier.length) (a :: later)).2 := by
  induction earlier generalizing k with
  | nil => exact ⟨rfl, rfl⟩
  | cons e earlier ih =>
    obtain ⟨⟨hlate, fault, code, hfault, hcode⟩, hrest⟩ := List.forall_mem_cons.mp hearlier
    have hne : earlier ++ a :: later ≠ [] := by simp
    obtain ⟨hshown, hout⟩ := ih hrest (k + 1)
    have hk : k + 1 + earlier.length = k + (e :: earlier).length := by
      rw [List.length_cons]
      omega
    rw [hk] at hshown hout
    rw [← hshown, ← hout, List.cons_append, completeFrom]
    simp only [hfault, hcode, hne, hlate, if_false, Bool.false_eq_true]
    exact ⟨shownSinceRetry_retry _ _ _ _, trivial⟩

/-- A text that is returned is the text of the first attempt that is not given up. -/
theorem exists_of_completeFrom_text {k : Nat} {callbacks : List Callback}
    {streamed normalized : String}
    (h : completeFrom env nativeTools k attempts = (callbacks, .ok (.text streamed normalized))) :
    ∃ earlier a later, attempts = earlier ++ a :: later ∧
      (∀ e ∈ earlier, Retried env nativeTools e) ∧
      (attemptOnce env nativeTools a.reply).2 = .ok (.text streamed normalized) ∧
      shownSinceRetry callbacks = String.join (attemptOnce env nativeTools a.reply).1 := by
  induction attempts generalizing k callbacks with
  | nil => cases (Prod.mk.inj h).2
  | cons a rest ih =>
    rw [completeFrom] at h
    cases htried : (attemptOnce env nativeTools a.reply).2 with
    | ok answer =>
      simp only [htried] at h
      obtain ⟨rfl, hanswer⟩ := Prod.mk.inj h
      obtain rfl := Except.ok.inj hanswer
      exact ⟨[], a, rest, rfl, fun _ he => absurd he List.not_mem_nil, htried,
        shownSinceRetry_deltas _⟩
    | error fault =>
      simp only [htried] at h
      cases hcode : fault.retryCode? with
      | none =>
        rw [hcode] at h
        cases (Prod.mk.inj h).2
      | some code =>
        simp only [hcode] at h
        split at h
        · cases (Prod.mk.inj h).2
        split at h
        · cases (Prod.mk.inj h).2
        · next hlate =>
          obtain ⟨hcalls, hout⟩ := Prod.mk.inj h
          obtain ⟨earlier, b, later, rfl, hearlier, hb, hshown⟩ := ih (Prod.ext rfl hout)
          refine ⟨a :: earlier, b, later, rfl, ?_, hb, ?_⟩
          · refine List.forall_mem_cons.mpr ⟨⟨by simpa using hlate, fault, code, htried, hcode⟩, ?_⟩
            exact hearlier
          · rw [← hcalls, shownSinceRetry_retry]
            exact hshown

/-- **What was passed on since the last retry is the text that is returned exactly if the events of
the answering attempt spell the last whole text among them.** -/
theorem shown_iff_returned (env : StreamEnv) (nativeTools : Bool)
    (attempts : List ResponseAttempt) :
    ShowsWhatItReturns env nativeTools attempts ↔
      ∀ lines, AnsweredBy env nativeTools attempts lines → SpelledByEvents env lines := by
  constructor
  · rintro h lines ⟨earlier, a, later, ending, streamed, normalized, rfl, hearlier, hreply, hout⟩
    obtain ⟨lines', ending', hreply', hshown, hstreamed⟩ := attemptOnce_text hout
    rw [hreply] at hreply'
    obtain ⟨rfl, rfl⟩ := Reply.stream.inj hreply'
    obtain ⟨hsince, hanswer⟩ :=
      completeFrom_retried a later hearlier 1
    have hlast : completeFrom env nativeTools (1 + earlier.length) (a :: later) =
        ((attemptOnce env nativeTools a.reply).1.map .delta, .ok (.text streamed normalized)) := by
      rw [completeFrom]
      simp only [hout]
    rw [hlast] at hsince hanswer
    have hsame := h _ streamed normalized (Prod.ext rfl hanswer)
    rw [completeResponses, hsince, shownSinceRetry_deltas] at hsame
    refine (result_eq_shown_iff (piecesOf env none lines)).mp ?_
    rw [← hstreamed, ← hshown, hsame]
  · intro h callbacks streamed normalized hcomplete
    obtain ⟨earlier, a, later, heq, hearlier, hout, hsince⟩ :=
      exists_of_completeFrom_text hcomplete
    obtain ⟨lines, ending, hreply, hshown, hstreamed⟩ := attemptOnce_text hout
    have hspelled := h lines
      ⟨earlier, a, later, ending, streamed, normalized, heq, hearlier, hreply, hout⟩
    have hresult := (result_eq_shown_iff (piecesOf env none lines)).mpr hspelled
    rw [hsince]
    refine String.toList_inj.mp ?_
    rw [hshown, hstreamed, hresult]

/-! ## A message with two parts -/

/-- A CPython that reads ASCII. -/
def asciiStreams : StreamEnv where
  txt := .ascii
  decode raw := raw.map fun b => Char.ofNat b.toNat
  tables := ⟨fun _ => .nan, fun _ => '?'⟩
  fault _ := none

/-- The line of an event. -/
def eventLine (event : PyDict) : List UInt8 :=
  ("data: ".toList ++ PyJson.dumps .ascii (.dict event)).map fun c => UInt8.ofNat c.toNat

/-- The stream of a message whose text has the parts `A` and `B`. -/
def twoParts : List (List UInt8) :=
  let part (text : String) : List PyDict :=
    [[("type", deltaEvent), ("delta", .str text)], [("type", doneEvent), ("text", .str text)]]
  let content := ["A", "B"].map fun text => PyValue.dict [("text", .str text)]
  let response : PyDict := [("output", .list [.dict [("content", .list content)]])]
  (part "A" ++ part "B" ++ [[("type", completedEvent), ("response", .dict response)]]).map eventLine

/-- The second part is shown and not returned. -/
theorem second_part_not_returned :
    ¬ ∀ (env : StreamEnv) (nativeTools : Bool) (attempts : List ResponseAttempt),
      ShowsWhatItReturns env nativeTools attempts := by
  intro h
  have hrun : completeResponses asciiStreams true [{ reply := .stream twoParts .finished }] =
      ([.delta "A", .delta "B"], .ok (.text "A" "<final>A</final>")) := by decide +kernel
  exact absurd (h asciiStreams true _ _ _ _ hrun) (by decide)

end ThreadForge

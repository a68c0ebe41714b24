import ThreadForge.Worker.FinalMarks

/-!
# The reply that is audited

`model.completed` carries the first 4000 characters of the text that its round has let out.
`before_model` clears that text, `model_retrying` does not, so the text of an attempt that broke off
stays in front of the one that succeeded.

## Main results

* `take_append_eq_take_iff` : when a text in front leaves the first characters as they are
* `RemoteExecutionHooks.modelReply_afterRound` : the reply, attempt by attempt
* `RemoteExecutionHooks.reply_of_last_iff` : when the audited reply is the one of the last attempt
-/

namespace ThreadForge

variable {txt : PyText} {secrets : List (List Char)}

/-! ## A text in front -/

/-- The first `n` characters are those of `front`, again and again. -/
def RepeatsFront (front text : List Char) (n : Nat) : Prop :=
  n ≤ text.length ∧ ∀ i < n, text[i]? = front[i % front.length]?

/-- A text in front leaves the first characters as they are exactly if they repeat it. -/
theorem take_append_eq_take_iff {front text : List Char} {n : Nat} :
    (front ++ text).take n = text.take n ↔ front = [] ∨ RepeatsFront front text n := by
  rcases List.eq_nil_or_concat front with rfl | ⟨init, last, heq⟩
  · exact iff_of_true rfl (Or.inl rfl)
  have hpos : 0 < front.length := by
    rw [heq, List.length_concat]
    omega
  rw [or_iff_right (List.length_pos_iff.mp hpos)]
  constructor
  · intro h
    have hlength := congrArg List.length h
    rw [List.length_take, List.length_take, List.length_append] at hlength
    refine ⟨by omega, fun i => ?_⟩
    -- by induction on the place: behind `front` the text stands one round earlier
    induction i using Nat.strong_induction_on with
    | _ i ih =>
      intro hi
      have hsame : text[i]? = (front ++ text)[i]? := by
        rw [← List.getElem?_take_of_lt hi, ← h, List.getElem?_take_of_lt hi]
      rw [hsame]
      by_cases hfront : i < front.length
      · rw [List.getElem?_append_left hfront, Nat.mod_eq_of_lt hfront]
      · have hle : front.length ≤ i := by omega
        rw [List.getElem?_append_right hle, ih _ (by omega) (by omega), Nat.mod_eq_sub_mod hle]
  · rintro ⟨hlength, hround⟩
    refine List.ext_getElem? fun i => ?_
    by_cases hi : i < n
    · rw [List.getElem?_take_of_lt hi, List.getElem?_take_of_lt hi, hround i hi]
      by_cases hfront : i < front.length
      · rw [List.getElem?_append_left hfront, Nat.mod_eq_of_lt hfront]
      · have hle : front.length ≤ i := by omega
        rw [List.getElem?_append_right hle, hround _ (by omega), Nat.mod_eq_sub_mod hle]
    · have hle : n ≤ i := by omega
      rw [List.getElem?_take_eq_none hle, List.getElem?_take_eq_none hle]

/-! ## The calls of a round -/

/-- A call of the hooks between `before_model` and `after_model`. -/
inductive RoundCall
  | textDelta (stage : String) (text : List Char)
  | retrying (stage : String)

/-- The chunks of the attempts that broke off, and those of the last one. A chunk of another stage
than `execute` is not read. -/
def addCall (attempts : List (List (List Char)) × List (List Char)) :
    RoundCall → List (List (List Char)) × List (List Char)
  | .textDelta stage text =>
    if stage = "execute" then (attempts.1, attempts.2 ++ [text]) else attempts
  | .retrying _ => (attempts.1 ++ [attempts.2], [])

def attemptsOf (calls : List RoundCall) : List (List (List Char)) × List (List Char) :=
  calls.foldl addCall ([], [])

/-- The redacted visible text of an attempt, as it is let out when no other attempt is there. -/
def shownAlone (txt : PyText) (secrets : List (List Char)) (allow ended : Bool)
    (pieces : List (List Char)) : List Char :=
  ({ hooks := { allowPlainTextFinal := allow }, start := .beforeModel, pieces := pieces,
     ended := ended } : Attempt).out txt secrets

namespace Recogniser

theorem readFinal_allow (r : Recogniser) :
    r.readFinal.1.allowPlainTextFinal = r.allowPlainTextFinal := by
  unfold readFinal
  split
  · rfl
  · split
    · rfl
    · rfl

/-- Reading does not change whether a plain answer is allowed. -/
theorem readAll_allow (txt : PyText) (r : Recogniser) (pieces : List (List Char)) :
    (r.readAll txt pieces).allowPlainTextFinal = r.allowPlainTextFinal := by
  have hread : ∀ (r : Recogniser) (piece : List Char),
      (r.read txt piece).1.allowPlainTextFinal = r.allowPlainTextFinal := by
    intro r piece
    unfold read
    split
    · rfl
    · rfl
    · unfold readPending
      dsimp only
      split
      · split
        · rfl
        · rfl
      · split
        · rfl
        · exact readFinal_allow _
    · exact readFinal_allow _
  induction pieces generalizing r with
  | nil => rfl
  | cons piece pieces ih =>
    rw [readAll, List.foldl_cons]
    exact (ih _).trans (hread r piece)

end Recogniser

namespace RemoteExecutionHooks

variable {h : RemoteExecutionHooks}

/-- One call. -/
def call (txt : PyText) (secrets : List (List Char)) (h : RemoteExecutionHooks) :
    RoundCall → RemoteExecutionHooks
  | .textDelta stage text => h.modelTextDelta txt secrets stage text
  | .retrying stage => h.modelRetrying stage

/-- The calls of a round, between `before_model` and `after_model`. -/
def afterRound (txt : PyText) (secrets : List (List Char)) (h : RemoteExecutionHooks)
    (calls : List RoundCall) : RemoteExecutionHooks :=
  (calls.foldl (call txt secrets) h.beforeModel).afterModel secrets

/-- The `text` of `model.completed`. -/
def completedText (h : RemoteExecutionHooks) : List Char := h.modelReply.take 4000

/-! ## What the reply is made of -/

theorem modelReply_emitPublicDelta (secrets : List (List Char)) (h : RemoteExecutionHooks)
    (delta : PublicDelta) :
    (h.emitPublicDelta secrets delta).modelReply =
      h.modelReply ++ (emitted secrets h.redactionBuffer delta).1 := by
  have hpublish : ∀ (g : RemoteExecutionHooks) (visible : List Char) (isFinal : Bool),
      (g.publish visible isFinal).modelReply = g.modelReply ++ visible := by
    intro g visible isFinal
    unfold publish
    split
    · next hnil => rw [hnil, List.append_nil]
    · dsimp only
      split
      · rfl
      · rfl
  unfold emitPublicDelta emitted
  dsimp only
  split
  · exact hpublish _ _ _
  · exact hpublish _ _ _

/-- The recogniser at the start of an attempt. -/
def fresh (allow : Bool) : Recogniser := { allowPlainTextFinal := allow }

/-- The text that an attempt lets out before it ends, and what it holds back. -/
def soFar (txt : PyText) (secrets : List (List Char)) (allow : Bool) (pieces : List (List Char)) :
    List Char × List Char :=
  emittedAll secrets [] ((fresh allow).deltas txt pieces)

theorem shownAlone_open (allow : Bool) (pieces : List (List Char)) :
    shownAlone txt secrets allow false pieces = (soFar txt secrets allow pieces).1 := by
  unfold shownAlone soFar
  rw [Attempt.out_eq]
  unfold Attempt.deltas
  rw [if_neg fun hended => absurd hended.1 Bool.false_ne_true, List.append_nil]
  rfl

/-- The hooks within a round: the attempts that broke off have left what they let out, the last one
is being read. -/
structure Within (txt : PyText) (secrets : List (List Char)) (allow : Bool)
    (h : RemoteExecutionHooks) (attempts : List (List (List Char)) × List (List Char)) : Prop where
  reply : h.modelReply = (attempts.1.map (shownAlone txt secrets allow false)).flatten ++
    (soFar txt secrets allow attempts.2).1
  buffer : h.redactionBuffer = (soFar txt secrets allow attempts.2).2
  recogniser : h.toRecogniser = (fresh allow).readAll txt attempts.2

theorem within_beforeModel (h : RemoteExecutionHooks) :
    Within txt secrets h.allowPlainTextFinal h.beforeModel ([], []) := ⟨rfl, rfl, rfl⟩

theorem Within.call {allow : Bool} {attempts : List (List (List Char)) × List (List Char)}
    (hwithin : Within txt secrets allow h attempts) (c : RoundCall) :
    Within txt secrets allow (h.call txt secrets c) (addCall attempts c) := by
  cases c with
  | textDelta stage text =>
    by_cases hstage : stage = "execute"
    swap
    · have hattempts : addCall attempts (.textDelta stage text) = attempts := if_neg hstage
      have hhooks : h.call txt secrets (.textDelta stage text) = h := if_pos hstage
      rw [hattempts, hhooks]
      exact hwithin
    subst hstage
    have hdeltas : (fresh allow).deltas txt (attempts.2 ++ [text]) =
        (fresh allow).deltas txt attempts.2 ++
          (((fresh allow).readAll txt attempts.2).read txt text).2.toList := by
      rw [Recogniser.deltas_append]
      exact congrArg _ (List.append_nil _)
    have hreadAll : (fresh allow).readAll txt (attempts.2 ++ [text]) =
        (((fresh allow).readAll txt attempts.2).read txt text).1 := by
      unfold Recogniser.readAll
      rw [List.foldl_append]
      rfl
    have hstream := streams_modelTextDelta txt secrets h text
    have hsoFar : soFar txt secrets allow (attempts.2 ++ [text]) =
        ((soFar txt secrets allow attempts.2).1 ++ (emittedAll secrets
            (soFar txt secrets allow attempts.2).2 (h.toRecogniser.read txt text).2.toList).1,
          (emittedAll secrets (soFar txt secrets allow attempts.2).2
            (h.toRecogniser.read txt text).2.toList).2) := by
      unfold soFar
      rw [hdeltas, emittedAll_append_list, hwithin.recogniser]
    have hreply : (h.modelTextDelta txt secrets "execute" text).modelReply = h.modelReply ++
        (emittedAll secrets h.redactionBuffer (h.toRecogniser.read txt text).2.toList).1 := by
      unfold modelTextDelta
      rw [if_neg fun hne => hne rfl]
      rcases hread : h.toRecogniser.read txt text with ⟨r, _ | delta⟩
      · exact (List.append_nil _).symm
      · refine (modelReply_emitPublicDelta secrets { h with toRecogniser := r } delta).trans ?_
        rw [Option.toList_some, emittedAll, emittedAll, List.append_nil]
    have hattempts : addCall attempts (.textDelta "execute" text) =
        (attempts.1, attempts.2 ++ [text]) := by
      show (if "execute" = "execute" then (attempts.1, attempts.2 ++ [text]) else attempts) = _
      exact if_pos rfl
    rw [hattempts]
    refine ⟨?_, ?_, ?_⟩
    · show (h.modelTextDelta txt secrets "execute" text).modelReply = _
      rw [hreply, hwithin.reply, hwithin.buffer, hsoFar, List.append_assoc]
    · show (h.modelTextDelta txt secrets "execute" text).redactionBuffer = _
      rw [hstream.buffer, hwithin.buffer, hsoFar]
    · show (h.modelTextDelta txt secrets "execute" text).toRecogniser = _
      rw [hstream.recogniser, hreadAll, hwithin.recogniser]
  | retrying stage =>
    have hallow : h.toRecogniser.reset = fresh allow := by
      rw [hwithin.recogniser]
      unfold Recogniser.reset
      rw [Recogniser.readAll_allow]
      rfl
    have hreset : ∀ g : RemoteExecutionHooks, (g.modelRetrying stage).modelReply = g.modelReply ∧
        (g.modelRetrying stage).redactionBuffer = [] ∧
        (g.modelRetrying stage).toRecogniser = g.toRecogniser.reset := by
      intro g
      unfold modelRetrying
      dsimp only
      split
      · exact ⟨rfl, rfl, rfl⟩
      · exact ⟨rfl, rfl, rfl⟩
    obtain ⟨hreply, hbuffer, hrecogniser⟩ := hreset h
    refine ⟨?_, hbuffer, hrecogniser.trans hallow⟩
    show (h.modelRetrying stage).modelReply = _
    rw [hreply, hwithin.reply]
    unfold addCall
    dsimp only
    rw [List.map_append, List.flatten_append, List.map_singleton, List.flatten_singleton,
      shownAlone_open]
    exact (List.append_nil _).symm

/-- **The reply after a round** is what each of its attempts lets out. -/
theorem modelReply_afterRound (h : RemoteExecutionHooks) (calls : List RoundCall) :
    (h.afterRound txt secrets calls).modelReply =
      ((attemptsOf calls).1.map (shownAlone txt secrets h.allowPlainTextFinal false)).flatten ++
        shownAlone txt secrets h.allowPlainTextFinal true (attemptsOf calls).2 := by
  have hrun : ∀ (calls : List RoundCall) (g : RemoteExecutionHooks)
      (attempts : List (List (List Char)) × List (List Char)),
      Within txt secrets h.allowPlainTextFinal g attempts →
      Within txt secrets h.allowPlainTextFinal (calls.foldl (call txt secrets) g)
        (calls.foldl addCall attempts) := by
    intro calls
    induction calls with
    | nil => exact fun g attempts hwithin => hwithin
    | cons c calls ih => exact fun g attempts hwithin => ih _ _ (hwithin.call c)
  have hwithin := hrun calls h.beforeModel ([], []) (within_beforeModel h)
  have hlast : shownAlone txt secrets h.allowPlainTextFinal true (attemptsOf calls).2 =
      (emittedAll secrets [] ((fresh h.allowPlainTextFinal).deltas txt (attemptsOf calls).2 ++
        if ((fresh h.allowPlainTextFinal).readAll txt (attemptsOf calls).2).streamMode = .plainFinal
        then [{ text := [], completed := true }] else [])).1 := by
    unfold shownAlone
    rw [Attempt.out_eq]
    unfold Attempt.deltas
    simp only [true_and]
    rfl
  unfold afterRound attemptsOf at *
  generalize calls.foldl (call txt secrets) h.beforeModel = g at *
  generalize calls.foldl addCall ([], []) = attempts at *
  rw [hlast]
  unfold afterModel
  rw [hwithin.recogniser]
  split
  · have hflush := modelReply_emitPublicDelta secrets g { text := [], completed := true }
    show (g.emitPublicDelta secrets { text := [], completed := true }).modelReply = _
    rw [hflush, hwithin.reply, hwithin.buffer, emittedAll_append_list, List.append_assoc]
    unfold soFar
    simp only [emittedAll, List.append_nil]
  · rw [hwithin.reply, List.append_nil]
    rfl

/-- **The audited reply is the reply of the last attempt** exactly if the attempts that broke off
have let out nothing, or the last one repeats what they let out over its first 4000 characters. -/
theorem reply_of_last_iff (h : RemoteExecutionHooks) (calls : List RoundCall) :
    (h.afterRound txt secrets calls).completedText =
        (shownAlone txt secrets h.allowPlainTextFinal true (attemptsOf calls).2).take 4000 ↔
      (∀ pieces ∈ (attemptsOf calls).1, shownAlone txt secrets h.allowPlainTextFinal false pieces = []) ∨
        RepeatsFront ((attemptsOf calls).1.map (shownAlone txt secrets h.allowPlainTextFinal false)).flatten
          (shownAlone txt secrets h.allowPlainTextFinal true (attemptsOf calls).2) 4000 := by
  unfold completedText
  rw [modelReply_afterRound, take_append_eq_take_iff, List.flatten_eq_nil_iff, List.forall_mem_map]

/-- An attempt that breaks off after `one`, and one that answers `two`. -/
def brokenRound : List RoundCall :=
  [.textDelta "execute" "one".toList, .retrying "execute", .textDelta "execute" "two".toList]

/-- The text of the attempt that broke off is audited in front of the answer. -/
theorem broken_attempt_audited :
    (({ allowPlainTextFinal := true } : RemoteExecutionHooks).afterRound .ascii []
        brokenRound).completedText = "onetwo".toList ∧
      (shownAlone .ascii [] true true (attemptsOf brokenRound).2).take 4000 = "two".toList := by
  constructor
  · decide +kernel
  · decide +kernel

end RemoteExecutionHooks

end ThreadForge

import ThreadForge.Pico.Steady

/-!
# A run, turn by turn

A turn of the loop hears the model and answers it. What it hears (`hearModel`), and the verdict on a
final answer that it hears (`submission`), are parts of `loopTurn`; `Reached` says with which local
variables, reviews and state a run comes to the head of a turn, and `Reached.continues` that the rest
of the run starts from there.
-/

namespace ThreadForge

open Eff AgentM

variable {X : Type} (env : AgentEnv X)

/-! ## What a turn hears -/

/-- The reply of the model, with the variables it is answered under. -/
structure Heard where
  locals : Locals
  last : Bool
  raw : PyValue
  decision : Decision

/-- The variables once the reply was readable. -/
def Heard.taken (heard : Heard) : Locals := heard.locals.heard heard.decision

/-- The reply that comes after a head that is done. -/
def hearNext (userMessage : String) (l : Locals) (finalizationOnly : Bool) :
    AgentM X (LoopEnd ⊕ Heard) :=
  if 2 ≤ l.consecutiveFinalRejected then pure (.inl .finalsRejected)
  else do
    let prompt ← buildTurnPrompt env userMessage l finalizationOnly
    let raw ← askModel env l finalizationOnly prompt
    let decision ← readReply env l raw
    pure (.inr ⟨l, finalizationOnly, raw, decision⟩)

/-- The reply in a turn within the budget. -/
def hearWithin (userMessage : String) (l : Locals) : AgentM X (LoopEnd ⊕ Heard) := do
  let t ← task
  let current := (t.evidence.length, t.completedItems.length)
  let cache ← checkChecklistProgress env l.cmdCache
  let finalizationOnly ← assessLastTurn env l current
  hearNext env userMessage (l.nextTurn current cache finalizationOnly) finalizationOnly

/-- A turn up to the reply of the model: what was heard, or why the loop ends without it. -/
def hearModel (userMessage : String) (l : Locals) : AgentM X (LoopEnd ⊕ Heard) := do
  raiseIfCancelled env
  let cap ← budgetCap env
  match cap with
  | some reason => pure (.inl (.capHit reason l.attempts))
  | none => hearWithin env userMessage l

/-- What a turn does with what it heard. -/
def answerHeard (userMessage : String) : LoopEnd ⊕ Heard → AgentM X Turn
  | .inl ending => pure (.stop ending)
  | .inr heard => answerReply env userMessage heard.locals heard.last heard.raw heard.decision

theorem proceedTurn_eq (userMessage : String) (l : Locals) (finalizationOnly : Bool) :
    proceedTurn env userMessage l finalizationOnly =
      hearNext env userMessage l finalizationOnly >>= answerHeard env userMessage := by
  unfold proceedTurn hearNext askAndAct
  split
  · rfl
  · simp only [bind_assoc]
    rfl

/-- A turn hears the model and answers it. -/
theorem loopTurn_eq (userMessage : String) (l : Locals) :
    loopTurn env userMessage l = hearModel env userMessage l >>= answerHeard env userMessage := by
  unfold loopTurn hearModel turnWithin hearWithin
  simp only [bind_assoc, proceedTurn_eq]
  congr
  funext _
  congr
  funext cap
  cases cap with
  | some reason => rfl
  | none =>
    simp only [bind_assoc]

/-! ## A final answer and its verdict -/

/-- The final answer in what a turn hears. The last turn takes a text that can pass for one. -/
def Heard.final (txt : PyText) (heard : Heard) : Option String :=
  match heard.decision with
  | .final text => some text
  | _ => if heard.last then plainFinal txt heard.taken heard.raw else none

/-- A text that is taken for a final answer is announced as such. -/
def Heard.announce (heard : Heard) : AgentM X Unit :=
  match heard.decision with
  | .final _ => pure ()
  | _ => emitTrace env "finalization_plain_text_accepted"

/-- A final answer that was submitted, the variables at that time, and the verdict on it. -/
structure Submission where
  locals : Locals
  final : String
  decision : ReviewDecision

/-- The variables once the review is counted. -/
def Submission.counted (submitted : Submission) : Locals :=
  submitted.locals.countRound submitted.decision

/-- The review of what was heard, where it is a final answer. -/
def submit (userMessage : String) (heard : Heard) : AgentM X (Option Submission) :=
  match heard.final env.txt with
  | none => pure none
  | some final => do
    heard.announce env
    raiseIfCancelled env
    let decision ← reviewFinal env userMessage heard.taken
    pure (some ⟨heard.taken, final, decision⟩)

/-- A turn up to the verdict on the final answer that the model submits in it. -/
def submission (userMessage : String) (l : Locals) : AgentM X (Option Submission) := do
  let heard ← hearModel env userMessage l
  match heard with
  | .inl _ => pure none
  | .inr heard => submit env userMessage heard

/-- What a turn does after the verdict. -/
def concludeFinal (userMessage : String) (submitted : Submission) : AgentM X Turn := do
  applyReviewCompletedSteps env submitted.decision
  judgeFinal env userMessage submitted.counted submitted.final submitted.decision

/-- A final answer is answered by its review and what follows from the verdict. -/
theorem answerReply_of_final (userMessage : String) {heard : Heard} {final : String}
    (hfinal : heard.final env.txt = some final) :
    answerReply env userMessage heard.locals heard.last heard.raw heard.decision =
      heard.announce env >>= fun _ => onFinal env userMessage heard.taken final := by
  obtain ⟨l, last, raw, decision⟩ := heard
  unfold answerReply Heard.announce Heard.taken
  unfold Heard.final Heard.taken at hfinal
  cases decision with
  | final text =>
    cases hfinal
    cases last <;> rfl
  | _ =>
    dsimp only at hfinal ⊢
    cases last with
    | false => simp at hfinal
    | true =>
      rw [if_pos rfl] at hfinal
      rw [if_pos rfl]
      unfold dispatchLast
      rw [hfinal]

/-- A turn in which a final answer is submitted goes on from the verdict. -/
theorem loopTurn_of_submission {userMessage : String} {l : Locals} {s u : AgentState X}
    {submitted : Submission}
    (hrun : (submission env userMessage l).run s = (.ok (some submitted), u)) :
    (loopTurn env userMessage l).run s = (concludeFinal env userMessage submitted).run u := by
  unfold submission at hrun
  obtain ⟨heard, t, hheard, hrun⟩ := bind_eq_ok hrun
  rw [loopTurn_eq, run_bind_ok hheard]
  rcases heard with ending | heard
  · cases hrun
  · unfold submit at hrun
    dsimp only at hrun
    unfold answerHeard
    dsimp only
    rcases hfinal : heard.final env.txt with _ | final
    · rw [hfinal] at hrun
      cases hrun
    · rw [hfinal] at hrun
      obtain ⟨_, v, hannounce, hrun⟩ := bind_eq_ok hrun
      obtain ⟨_, w, hcancel, hrun⟩ := bind_eq_ok hrun
      obtain ⟨decision, x, hreview, hrun⟩ := bind_eq_ok hrun
      cases hrun
      rw [answerReply_of_final env userMessage hfinal, run_bind_ok hannounce]
      unfold onFinal
      rw [run_bind_ok hcancel, run_bind_ok hreview]
      rfl

/-! ## How far a run has come -/

/-- The verdicts of the reviews of final answers in a turn. Where nothing was written, no review is
asked. -/
def verdictsOf : Except Failure (Option Submission) → List ReviewDecision
  | .ok (some submitted) => if submitted.locals.hasWriteOrShell then [submitted.decision] else []
  | _ => []

/-- The run up to the head of the first turn. -/
def beforeLoop (userMessage : String) : AgentM X Unit := do
  onTask fun t => t.setPhase .gatherContext
    "Inspect the workspace only when evidence is needed"
  writeTaskState env
  emitAgentState env
  initialPlan env userMessage
  raiseIfCancelled env

/-- The run that started in `s₀` is at the head of a turn with `n` attempts left, the variables `l`,
the verdicts `verdicts` on the final answers so far, and the state `s`. -/
inductive Reached (userMessage taskId runId : String) (s₀ : AgentState X) :
    Nat → Locals → List ReviewDecision → AgentState X → Prop
  | first {s t : AgentState X} (start : (startRun env userMessage taskId runId).run s₀ = (.ok (), s))
      (before : (beforeLoop env userMessage).run s = (.ok (), t)) :
      Reached userMessage taskId runId s₀ maxAttemptsSafety {} [] t
  | next {n : Nat} {l l' : Locals} {verdicts : List ReviewDecision} {s t : AgentState X}
      (reached : Reached userMessage taskId runId s₀ (n + 1) l verdicts s)
      (going : l.finalizationAttempted = false)
      (turn : (loopTurn env userMessage l).run s = (.ok (.again l'), t)) :
      Reached userMessage taskId runId s₀ n l'
        (verdicts ++ verdictsOf ((submission env userMessage l).run s).1) t

/-- The run from the head of a turn on. -/
def restOfRun (userMessage : String) (n : Nat) (l : Locals) : AgentM X String :=
  Eff.tryExcept (loopFrom env userMessage n l >>= finishLoop env userMessage) Failure.endsRun
    (handleEnd env)

variable {env} {userMessage taskId runId : String} {s₀ s t : AgentState X} {n : Nat} {l : Locals}
  {verdicts : List ReviewDecision}

theorem runBody_eq (userMessage : String) :
    runBody env userMessage = beforeLoop env userMessage >>= fun _ =>
      loopFrom env userMessage maxAttemptsSafety {} >>= finishLoop env userMessage := by
  unfold runBody planAndLoop beforeLoop runLoop
  simp only [bind_assoc]

theorem run_tryExcept_congr {A : Type} {m m' : AgentM X A} {catches : Failure → Bool}
    {handler : Failure → AgentM X A} (h : m.run s = m'.run t) :
    (Eff.tryExcept m catches handler).run s = (Eff.tryExcept m' catches handler).run t := by
  rw [run_tryExcept, run_tryExcept, h]

/-- The rest of the run starts where the run has come to. -/
theorem Reached.continues (h : Reached env userMessage taskId runId s₀ n l verdicts s) :
    (AgentLoop.run env userMessage taskId runId).run s₀ =
      (restOfRun env userMessage n l).run s := by
  induction h with
  | first start before =>
    unfold AgentLoop.run restOfRun
    rw [run_bind_ok start]
    refine run_tryExcept_congr ?_
    rw [runBody_eq, run_bind_ok before]
  | next reached going turn ih =>
    rw [ih]
    refine run_tryExcept_congr ?_
    rw [run_bind, run_bind, loopFrom, if_neg (by rw [going]; simp), run_bind_ok turn]

/-- A turn that ends the loop ends the run. -/
theorem Reached.ends (h : Reached env userMessage taskId runId s₀ (n + 1) l verdicts s)
    (going : l.finalizationAttempted = false) {ending : LoopEnd}
    (turn : (loopTurn env userMessage l).run s = (.ok (.stop ending), t)) :
    (AgentLoop.run env userMessage taskId runId).run s₀ =
      (Eff.tryExcept (finishLoop env userMessage ending) Failure.endsRun (handleEnd env)).run t := by
  rw [h.continues]
  refine run_tryExcept_congr ?_
  have hloop : (loopFrom env userMessage (n + 1) l).run s = (.ok ending, t) := by
    rw [loopFrom, if_neg (by rw [going]; simp), run_bind_ok turn]
    rfl
  rw [run_bind_ok hloop]

/-- A turn that was the last one leaves the loop. -/
theorem Reached.leaves (h : Reached env userMessage taskId runId s₀ n l verdicts s)
    (hlast : n = 0 ∨ l.finalizationAttempted = true) :
    (AgentLoop.run env userMessage taskId runId).run s₀ =
      (Eff.tryExcept (finishLoop env userMessage (.left l.protocolFailed l.attempts))
        Failure.endsRun (handleEnd env)).run s := by
  rw [h.continues]
  refine run_tryExcept_congr ?_
  have hloop : (loopFrom env userMessage n l).run s =
      (.ok (.left l.protocolFailed l.attempts), s) := by
    rcases hlast with rfl | hattempted
    · rfl
    · cases n with
      | zero => rfl
      | succ n => rw [loopFrom, if_pos hattempted, run_pure]
  rw [run_bind_ok hloop]

/-! ## Runs that are followed -/

/-- The head of the turn after `k` turns, where the run comes so far. -/
def headAfter (env : AgentEnv X) (userMessage taskId runId : String) (s₀ : AgentState X) :
    Nat → Option (Locals × List ReviewDecision × AgentState X)
  | 0 =>
    match (startRun env userMessage taskId runId >>= fun _ => beforeLoop env userMessage).run s₀ with
    | (.ok _, t) => some ({}, [], t)
    | (.error _, _) => none
  | k + 1 =>
    match headAfter env userMessage taskId runId s₀ k with
    | none => none
    | some (l, verdicts, s) =>
      match l.finalizationAttempted, (loopTurn env userMessage l).run s with
      | false, (.ok (.again l'), t) =>
        some (l', verdicts ++ verdictsOf ((submission env userMessage l).run s).1, t)
      | _, _ => none

theorem reached_of_headAfter :
    ∀ {k : Nat} {l : Locals} {verdicts : List ReviewDecision} {s : AgentState X},
      k ≤ maxAttemptsSafety →
      headAfter env userMessage taskId runId s₀ k = some (l, verdicts, s) →
      Reached env userMessage taskId runId s₀ (maxAttemptsSafety - k) l verdicts s
  | 0, l, verdicts, s, _, h => by
    unfold headAfter at h
    split at h
    · next hrun =>
      cases h
      obtain ⟨_, u, hstart, hbefore⟩ := bind_eq_ok hrun
      exact .first hstart hbefore
    · cases h
  | k + 1, l, verdicts, s, hk, h => by
    rw [headAfter] at h
    split at h
    · cases h
    · next l₀ verdicts₀ s₁ hhead =>
      split at h
      · next hgoing hturn =>
        cases h
        have hreached := reached_of_headAfter (Nat.le_of_succ_le hk) hhead
        have hn : maxAttemptsSafety - k = maxAttemptsSafety - (k + 1) + 1 := by omega
        rw [hn] at hreached
        exact hreached.next hgoing hturn
      · cases h

/-- After `k` turns a final answer is submitted, with this property. -/
def submitsAfter (env : AgentEnv X) (userMessage taskId runId : String) (s₀ : AgentState X) (k : Nat)
    (p : Locals → List ReviewDecision → Submission → Bool) : Bool :=
  match headAfter env userMessage taskId runId s₀ k with
  | none => false
  | some (l, verdicts, s) =>
    match ((submission env userMessage l).run s).1 with
    | .ok (some submitted) => !l.finalizationAttempted && p l verdicts submitted
    | _ => false

theorem submitsAfter_spec {k : Nat} {p : Locals → List ReviewDecision → Submission → Bool}
    (hk : k < maxAttemptsSafety) (h : submitsAfter env userMessage taskId runId s₀ k p = true) :
    ∃ n l verdicts s submitted u, Reached env userMessage taskId runId s₀ (n + 1) l verdicts s ∧
      l.finalizationAttempted = false ∧
      (submission env userMessage l).run s = (.ok (some submitted), u) ∧
      p l verdicts submitted = true := by
  unfold submitsAfter at h
  split at h
  · cases h
  · next l verdicts s hhead =>
    split at h
    · next submitted hsubmitted =>
      simp only [Bool.and_eq_true, Bool.not_eq_true'] at h
      have hreached := reached_of_headAfter (Nat.le_of_lt hk) hhead
      have hn : maxAttemptsSafety - k = maxAttemptsSafety - (k + 1) + 1 := by omega
      rw [hn] at hreached
      exact ⟨_, l, verdicts, s, submitted, _, hreached, h.1, Prod.ext hsubmitted rfl, h.2⟩
    · cases h

end ThreadForge

import ThreadForge.Pico.NoCrash
import ThreadForge.Pico.Turns

/-!
# Final answers and their reviews

Where something was written, a final answer is reviewed before the run may end with it. A review that
sends it back is always followed; one that agrees ends the run, unless the main loop is first asked to
confirm (`Confirmed`). `finalEnds_iff` says when a final answer that comes after two reviews ends the
run, and `agreedFinal_kept_iff` when one that the last turn submits is the answer of the run.
-/

namespace ThreadForge

open Eff AgentM

variable {X : Type}

/-! ## Statements -/

/-- The run returned this answer, and its task is completed with it. -/
def CompletedWith (ended : Except Failure String × AgentState X) (final : String) : Prop :=
  ended.1 = .ok final ∧ ended.2.task.status = .completed ∧ ended.2.task.finalAnswer = final

/-- The review counts as a round of the battle. -/
def countsAsRound (decision : ReviewDecision) : Bool :=
  decision.reason ≠ "read_only_no_result_review"

/-- An agreed final answer is not asked to be confirmed: it is the confirmation of an agreement
before, its review names a reason for that or has failed, or the battle had its two rounds. -/
def NeedsNoConfirmation (l : Locals) (verdicts : List ReviewDecision) (decision : ReviewDecision) :
    Prop :=
  l.awaitingReviewConfirmation = true ∨ decision.reason ∈ directReasons ∨ decision.failed = true ∨
    reviewBattleMaxRounds ≤ (verdicts ++ [decision]).countP countsAsRound

/-- The turn ends the loop with the final answer, and the run completes with it. -/
def FinalEnds (env : AgentEnv X) (userMessage taskId runId : String) (s₀ : AgentState X) (l : Locals)
    (s : AgentState X) (final : String) : Prop :=
  (∃ t, (loopTurn env userMessage l).run s = (.ok (.stop (.answered final)), t)) ∧
    CompletedWith ((AgentLoop.run env userMessage taskId runId).run s₀) final

/-- The memory and the checkpoints do not fail. -/
structure LayersQuiet (env : AgentEnv X) : Prop where
  layer : ∀ call t w, (env.layer call t w).1 = .ok ()

variable {env : AgentEnv X} {userMessage taskId runId : String} {s₀ s t u : AgentState X} {n : Nat}
  {l l' : Locals} {verdicts : List ReviewDecision} {submitted : Submission}

/-! ## The rounds are counted -/

/-- What the head of a turn leaves of the variables. -/
structure HeardFrom (l : Locals) (heard : Heard) : Prop where
  rounds : heard.locals.reviewBattleRounds = l.reviewBattleRounds
  awaiting : heard.locals.awaitingReviewConfirmation = l.awaitingReviewConfirmation

theorem hearModel_ok {heard : Heard}
    (hrun : (hearModel env userMessage l).run s = (.ok (.inr heard), t)) : HeardFrom l heard := by
  unfold hearModel at hrun
  obtain ⟨_, _, _, hrun⟩ := bind_eq_ok hrun
  obtain ⟨cap, _, _, hrun⟩ := bind_eq_ok hrun
  cases cap with
  | some reason => cases hrun
  | none =>
    unfold hearWithin at hrun
    obtain ⟨_, _, _, hrun⟩ := bind_eq_ok hrun
    obtain ⟨cache, _, _, hrun⟩ := bind_eq_ok hrun
    obtain ⟨last, _, _, hrun⟩ := bind_eq_ok hrun
    unfold hearNext at hrun
    split at hrun
    · cases hrun
    · obtain ⟨_, _, _, hrun⟩ := bind_eq_ok hrun
      obtain ⟨_, _, _, hrun⟩ := bind_eq_ok hrun
      obtain ⟨_, _, _, hrun⟩ := bind_eq_ok hrun
      cases hrun
      exact ⟨rfl, rfl⟩

theorem Heard.taken_rounds (heard : Heard) :
    heard.taken.reviewBattleRounds = heard.locals.reviewBattleRounds := by
  unfold Heard.taken Locals.heard
  split <;> rfl

theorem Heard.taken_awaiting (heard : Heard) :
    heard.taken.awaitingReviewConfirmation = heard.locals.awaitingReviewConfirmation := by
  unfold Heard.taken Locals.heard
  split <;> rfl

/-- The review of what is submitted, where nothing was written. -/
theorem reviewFinal_readOnly {decision : ReviewDecision} (hread : l.hasWriteOrShell = false)
    (hrun : (reviewFinal env userMessage l).run s = (.ok decision, t)) :
    decision = readOnlyDecision := by
  unfold reviewFinal at hrun
  rw [hread] at hrun
  cases hrun
  rfl

/-- What a submission comes from. -/
theorem submission_ok
    (hrun : (submission env userMessage l).run s = (.ok (some submitted), u)) :
    submitted.locals.reviewBattleRounds = l.reviewBattleRounds ∧
      submitted.locals.awaitingReviewConfirmation = l.awaitingReviewConfirmation ∧
      (submitted.locals.hasWriteOrShell = false → submitted.decision = readOnlyDecision) := by
  unfold submission at hrun
  obtain ⟨heard, t, hheard, hrun⟩ := bind_eq_ok hrun
  rcases heard with ending | heard
  · cases hrun
  have hfrom := hearModel_ok hheard
  dsimp only at hrun
  unfold submit at hrun
  rcases hfinal : heard.final env.txt with _ | final
  · rw [hfinal] at hrun
    cases hrun
  · rw [hfinal] at hrun
    obtain ⟨_, _, _, hrun⟩ := bind_eq_ok hrun
    obtain ⟨_, _, _, hrun⟩ := bind_eq_ok hrun
    obtain ⟨decision, _, hreview, hrun⟩ := bind_eq_ok hrun
    cases hrun
    exact ⟨heard.taken_rounds.trans hfrom.rounds, heard.taken_awaiting.trans hfrom.awaiting,
      fun hread => reviewFinal_readOnly hread hreview⟩

/-- Where a turn goes on, it has counted the reviews of final answers in it. -/
def GoesOnWith (m : AgentM X Turn) (rounds : Nat) : Prop :=
  ∀ s l t, m.run s = (.ok (.again l), t) → l.reviewBattleRounds = rounds

theorem GoesOnWith.after {A : Type} {m : AgentM X A} {k : A → AgentM X Turn} {rounds : Nat}
    (hk : ∀ a, GoesOnWith (k a) rounds) : GoesOnWith (m >>= k) rounds := by
  intro s l t hrun
  obtain ⟨a, u, _, hrest⟩ := bind_eq_ok hrun
  exact hk a u l t hrest

theorem GoesOnWith.again {l : Locals} {rounds : Nat} (h : l.reviewBattleRounds = rounds) :
    GoesOnWith (pure (.again l) : AgentM X Turn) rounds := by
  intro s l' t hrun
  cases hrun
  exact h

theorem GoesOnWith.stop {ending : LoopEnd} {rounds : Nat} :
    GoesOnWith (pure (.stop ending) : AgentM X Turn) rounds := by
  intro s l' t hrun
  cases hrun

theorem GoesOnWith.ite {p : Prop} [Decidable p] {m m' : AgentM X Turn} {rounds : Nat}
    (h : GoesOnWith m rounds) (h' : GoesOnWith m' rounds) :
    GoesOnWith (if p then m else m') rounds := by
  split
  · exact h
  · exact h'

theorem goesOn_periodicReview (l : Locals) :
    GoesOnWith (periodicReview env userMessage l) l.reviewBattleRounds := by
  unfold periodicReview
  refine GoesOnWith.ite (GoesOnWith.again rfl) (GoesOnWith.after fun decision => ?_)
  refine GoesOnWith.after fun _ => GoesOnWith.ite (GoesOnWith.after fun _ => ?_) ?_
  · exact GoesOnWith.ite (GoesOnWith.after fun _ => GoesOnWith.stop) (GoesOnWith.again rfl)
  · exact GoesOnWith.again rfl

/-- A turn without a final answer counts nothing. -/
theorem goesOn_dispatch (l : Locals) {decision : Decision} (hfinal : ∀ text, decision ≠ .final text) :
    GoesOnWith (dispatch env userMessage l decision) l.reviewBattleRounds := by
  cases decision with
  | talk text =>
    refine GoesOnWith.after fun _ => GoesOnWith.after fun _ => GoesOnWith.after fun _ => ?_
    exact GoesOnWith.again rfl
  | tool name args =>
    refine GoesOnWith.after fun _ => GoesOnWith.after fun _ => GoesOnWith.after fun result => ?_
    exact GoesOnWith.after fun _ => goesOn_periodicReview _
  | toolBatch tools =>
    refine GoesOnWith.after fun _ => GoesOnWith.ite ?_ ?_
    · exact GoesOnWith.after fun _ => GoesOnWith.after fun _ => GoesOnWith.again rfl
    · refine GoesOnWith.after fun _ => GoesOnWith.after fun _ => GoesOnWith.after fun _ => ?_
      exact GoesOnWith.after fun _ => GoesOnWith.after fun _ => goesOn_periodicReview _
  | retry notice =>
    refine GoesOnWith.after fun _ => GoesOnWith.ite ?_ ?_
    · refine GoesOnWith.after fun _ => GoesOnWith.after fun _ => GoesOnWith.after fun _ => ?_
      exact GoesOnWith.again rfl
    · exact GoesOnWith.after fun _ => GoesOnWith.stop
  | final text => exact absurd rfl (hfinal text)

theorem goesOn_concludeFinal (submitted : Submission) :
    GoesOnWith (concludeFinal env userMessage submitted) submitted.counted.reviewBattleRounds := by
  unfold concludeFinal
  refine GoesOnWith.after fun _ => GoesOnWith.ite (GoesOnWith.ite ?_ GoesOnWith.stop) ?_
  · refine GoesOnWith.after fun _ => GoesOnWith.after fun _ => GoesOnWith.after fun _ => ?_
    exact GoesOnWith.after fun _ => GoesOnWith.after fun _ => GoesOnWith.again rfl
  · refine GoesOnWith.ite GoesOnWith.stop (GoesOnWith.ite ?_ ?_)
    · exact GoesOnWith.after fun _ => GoesOnWith.stop
    · refine GoesOnWith.after fun _ => GoesOnWith.after fun _ => GoesOnWith.after fun _ => ?_
      exact GoesOnWith.again rfl

/-- One more round, where the review counts as one. -/
theorem Submission.counted_rounds (submitted : Submission) :
    submitted.counted.reviewBattleRounds =
      submitted.locals.reviewBattleRounds + [submitted.decision].countP countsAsRound := by
  unfold Submission.counted Locals.countRound
  by_cases hreason : submitted.decision.reason = "read_only_no_result_review"
  · rw [if_pos hreason, List.countP_singleton, countsAsRound]
    simp [hreason]
  · rw [if_neg hreason, List.countP_singleton, countsAsRound]
    simp [hreason]

theorem goesOn_answerReply {heard : Heard} (hfinal : heard.final env.txt = none) :
    GoesOnWith (answerReply env userMessage heard.locals heard.last heard.raw heard.decision)
      heard.taken.reviewBattleRounds := by
  obtain ⟨l, last, raw, decision⟩ := heard
  have hnot : ∀ text, decision ≠ .final text := by
    rintro text rfl
    cases hfinal
  unfold answerReply
  cases last with
  | false => exact goesOn_dispatch _ hnot
  | true =>
    -- the last turn is over, where nothing in it passes for a final answer
    unfold Heard.final Heard.taken at hfinal
    cases decision with
    | final text => cases hfinal
    | _ =>
      dsimp only at hfinal ⊢
      rw [if_pos rfl] at hfinal
      rw [if_pos rfl]
      unfold dispatchLast
      rw [hfinal]
      exact GoesOnWith.after fun _ => GoesOnWith.after fun _ => GoesOnWith.stop

/-- A turn that goes on after a final answer has a verdict on it. -/
theorem submission_of_answer {heard : Heard} {final : String}
    (hheard : (hearModel env userMessage l).run s = (.ok (.inr heard), u))
    (hfinal : heard.final env.txt = some final) {turn : Turn}
    (hanswer : (answerReply env userMessage heard.locals heard.last heard.raw heard.decision).run u =
      (.ok turn, t)) :
    ∃ submitted v, (submission env userMessage l).run s = (.ok (some submitted), v) := by
  rw [answerReply_of_final env userMessage hfinal] at hanswer
  obtain ⟨_, v, hannounce, hanswer⟩ := bind_eq_ok hanswer
  unfold onFinal at hanswer
  obtain ⟨_, w, hcancel, hanswer⟩ := bind_eq_ok hanswer
  obtain ⟨decision, x, hreview, _⟩ := bind_eq_ok hanswer
  refine ⟨⟨heard.taken, final, decision⟩, x, ?_⟩
  unfold submission
  rw [run_bind_ok hheard]
  dsimp only
  unfold submit
  rw [hfinal]
  dsimp only
  rw [run_bind_ok hannounce, run_bind_ok hcancel, run_bind_ok hreview, run_pure]

/-- The rounds that a turn adds are the reviews of final answers in it that count. -/
theorem loopTurn_rounds (hrun : (loopTurn env userMessage l).run s = (.ok (.again l'), t)) :
    l'.reviewBattleRounds = l.reviewBattleRounds +
      (verdictsOf ((submission env userMessage l).run s).1).countP countsAsRound := by
  have hturn := hrun
  rw [loopTurn_eq] at hrun
  obtain ⟨heard, u, hheard, hanswer⟩ := bind_eq_ok hrun
  rcases heard with ending | heard
  · cases hanswer
  unfold answerHeard at hanswer
  dsimp only at hanswer
  have hfrom := hearModel_ok hheard
  rcases hfinal : heard.final env.txt with _ | final
  · -- no final answer is submitted, and nothing is counted
    have hnone : (submission env userMessage l).run s = (.ok none, u) := by
      unfold submission
      rw [run_bind_ok hheard]
      dsimp only
      unfold submit
      rw [hfinal]
      rfl
    rw [hnone, goesOn_answerReply hfinal u l' t hanswer, heard.taken_rounds, hfrom.rounds]
    rfl
  · obtain ⟨submitted, v, hsubmitted⟩ := submission_of_answer hheard hfinal hanswer
    obtain ⟨hrounds, _, hread⟩ := submission_ok hsubmitted
    rw [loopTurn_of_submission env hsubmitted] at hturn
    rw [goesOn_concludeFinal submitted v l' t hturn, submitted.counted_rounds, hrounds, hsubmitted]
    unfold verdictsOf
    dsimp only
    by_cases hwritten : submitted.locals.hasWriteOrShell = true
    · rw [if_pos hwritten]
    · -- nothing was written, so no review was asked
      rw [if_neg hwritten, hread (Bool.eq_false_iff.mpr hwritten)]
      rfl

/-- The counter of the loop is the number of rounds so far. -/
theorem Reached.rounds (h : Reached env userMessage taskId runId s₀ n l verdicts s) :
    l.reviewBattleRounds = verdicts.countP countsAsRound := by
  induction h with
  | first start before => rfl
  | next reached going turn ih => rw [loopTurn_rounds turn, ih, List.countP_append]

/-! ## After the verdict -/

theorem applyReviewCompletedSteps_returns (h : StorageQuiet env) (decision : ReviewDecision)
    (s : AgentState X) : ∃ t, (applyReviewCompletedSteps env decision).run s = (.ok (), t) := by
  obtain ⟨_, t, hrun⟩ :=
    returns_of_noRaise ((storageLaws_noRaise h).applyReviewCompletedSteps decision) s
  exact ⟨t, hrun⟩

/-- The loop asks for no confirmation. -/
def Submission.Confirmed (submitted : Submission) : Prop :=
  submitted.counted.awaitingReviewConfirmation = true ∨
    submitted.decision.reason ∈ directReasons ∨ submitted.decision.failed = true ∨
    reviewBattleMaxRounds ≤ submitted.counted.reviewBattleRounds

theorem Submission.counted_awaiting (submitted : Submission) :
    submitted.counted.awaitingReviewConfirmation =
      submitted.locals.awaitingReviewConfirmation := by
  unfold Submission.counted Locals.countRound
  split <;> rfl

theorem Submission.counted_written (submitted : Submission) :
    submitted.counted.hasWriteOrShell = submitted.locals.hasWriteOrShell := by
  unfold Submission.counted Locals.countRound
  split <;> rfl

/-- The condition of the loop is the one on the history of the run. -/
theorem Reached.confirmed_iff (h : Reached env userMessage taskId runId s₀ n l verdicts s)
    (hsubmitted : (submission env userMessage l).run s = (.ok (some submitted), u)) :
    submitted.Confirmed ↔ NeedsNoConfirmation l verdicts submitted.decision := by
  obtain ⟨hrounds, hawaiting, _⟩ := submission_ok hsubmitted
  unfold Submission.Confirmed NeedsNoConfirmation
  rw [submitted.counted_awaiting, hawaiting, submitted.counted_rounds, hrounds, h.rounds,
    List.countP_append]

/-- An agreed final answer that needs no confirmation ends the loop. -/
theorem concludeFinal_confirmed (h : StorageQuiet env)
    (hverdict : submitted.decision.verdict ≠ .redirect) (hconfirmed : submitted.Confirmed)
    (s : AgentState X) :
    ∃ t, (concludeFinal env userMessage submitted).run s =
      (.ok (.stop (.answered (pyStrip env.txt submitted.final))), t) := by
  obtain ⟨u, happly⟩ := applyReviewCompletedSteps_returns h submitted.decision s
  unfold concludeFinal judgeFinal settleFinal
  rw [run_bind_ok happly, if_neg hverdict]
  by_cases hdirect : submitted.counted.awaitingReviewConfirmation = true ∨
      submitted.decision.reason ∈ directReasons ∨ submitted.decision.failed = true
  · rw [if_pos hdirect]
    exact ⟨u, rfl⟩
  · have hrounds : reviewBattleMaxRounds ≤ submitted.counted.reviewBattleRounds := by
      rcases hconfirmed with hcase | hcase | hcase | hcase
      · exact absurd (Or.inl hcase) hdirect
      · exact absurd (Or.inr (Or.inl hcase)) hdirect
      · exact absurd (Or.inr (Or.inr hcase)) hdirect
      · exact hcase
    obtain ⟨_, t, htrace⟩ :=
      returns_of_noRaise ((storageLaws_noRaise h).emitTrace "review_battle_cap_reached") u
    rw [if_neg hdirect, if_pos hrounds, run_bind_ok htrace]
    exact ⟨t, rfl⟩

/-- An agreed final answer that needs a confirmation is put off. -/
theorem concludeFinal_awaits (h : StorageQuiet env)
    (hverdict : submitted.decision.verdict ≠ .redirect) (hconfirmed : ¬submitted.Confirmed)
    (s : AgentState X) :
    ∃ t, (concludeFinal env userMessage submitted).run s =
      (.ok (.again (submitted.counted.awaiting submitted.decision)), t) := by
  obtain ⟨u, happly⟩ := applyReviewCompletedSteps_returns h submitted.decision s
  have hdirect : ¬(submitted.counted.awaitingReviewConfirmation = true ∨
      submitted.decision.reason ∈ directReasons ∨ submitted.decision.failed = true) := by
    rintro (hcase | hcase | hcase)
    · exact hconfirmed (Or.inl hcase)
    · exact hconfirmed (Or.inr (Or.inl hcase))
    · exact hconfirmed (Or.inr (Or.inr (Or.inl hcase)))
  have hrounds : ¬reviewBattleMaxRounds ≤ submitted.counted.reviewBattleRounds :=
    fun hcase => hconfirmed (Or.inr (Or.inr (Or.inr hcase)))
  have hwait : Keeps (noRaise X) (awaitConfirmation env submitted.counted submitted.decision) := by
    have hstorage := storageLaws_noRaise h
    refine Keeps.bind (hstorage.onTask _ ⟨fun _ => rfl, fun _ => rfl⟩) fun _ => ?_
    refine Keeps.bind (hstorage.emitTrace _) fun _ => ?_
    exact Keeps.bind hstorage.writeTaskState fun _ => Keeps.pure _
  obtain ⟨turn, t, hrun⟩ := returns_of_noRaise hwait u
  have hturn : turn = .again (submitted.counted.awaiting submitted.decision) := by
    unfold awaitConfirmation at hrun
    obtain ⟨_, _, _, hrest⟩ := bind_eq_ok hrun
    obtain ⟨_, _, _, hrest⟩ := bind_eq_ok hrest
    obtain ⟨_, _, _, hrest⟩ := bind_eq_ok hrest
    cases hrest
    rfl
  refine ⟨t, ?_⟩
  unfold concludeFinal judgeFinal settleFinal
  rw [run_bind_ok happly, if_neg hverdict, if_neg hdirect, if_neg hrounds, hrun, hturn]

/-- A final answer that is sent back does not end the loop. -/
theorem concludeFinal_redirect (hverdict : submitted.decision.verdict = .redirect)
    (hwritten : submitted.locals.hasWriteOrShell = true) {ending : LoopEnd} :
    (concludeFinal env userMessage submitted).run s ≠ (.ok (.stop ending), t) := by
  intro hrun
  unfold concludeFinal judgeFinal at hrun
  obtain ⟨_, _, _, hrun⟩ := bind_eq_ok hrun
  rw [if_pos hverdict, if_pos (submitted.counted_written.trans hwritten)] at hrun
  unfold rejectFinal at hrun
  obtain ⟨_, _, _, hrun⟩ := bind_eq_ok hrun
  obtain ⟨_, _, _, hrun⟩ := bind_eq_ok hrun
  obtain ⟨_, _, _, hrun⟩ := bind_eq_ok hrun
  obtain ⟨_, _, _, hrun⟩ := bind_eq_ok hrun
  obtain ⟨_, _, _, hrun⟩ := bind_eq_ok hrun
  cases hrun

/-! ## The ends -/

/-- The task is left with its status and its answer. -/
def settledLaw (X : Type) : RunLaw (AgentState X) Failure where
  holds s _ t := t.task.status = s.task.status ∧ t.task.finalAnswer = s.task.finalAnswer
  refl _ := ⟨rfl, rfl⟩
  trans h h' := ⟨h'.1.trans h.1, h'.2.trans h.2⟩

theorem settledLaw_of_steady {A : Type} {m : AgentM X A} (h : Keeps (steady X) m) :
    Keeps (settledLaw X) m := fun s =>
  ⟨congrArg TaskState.Outcome.status (h s).1, congrArg TaskState.Outcome.finalAnswer (h s).1⟩

theorem settled_emitEnd (env : AgentEnv X) : Keeps (settledLaw X) (emitEnd env) := by
  refine keeps_emitEnd (fun call hcall => ?_) (fun _ => ⟨rfl, rfl⟩) (fun _ _ => ⟨rfl, rfl⟩)
    fun _ _ => ⟨rfl, rfl⟩
  exact settledLaw_of_steady ((stepLaws_steady env).storage call hcall)

theorem settled_announceEnd (env : AgentEnv X) (message : TaskState → String) :
    Keeps (settledLaw X) (announceEnd env message) :=
  Keeps.bind (settled_emitEnd env) fun _ => Keeps.bind keeps_task fun _ =>
    settledLaw_of_steady ((stepLaws_steady env).service _)

/-- A run that was cut short is not completed. -/
theorem handleEnd_not_completed {e : Failure} {final : String}
    (hrun : (handleEnd env e).run s = (.ok final, t)) : t.task.status ≠ .completed := by
  have hwrite : Keeps (settledLaw X) (writeTaskState env) :=
    settledLaw_of_steady (stepLaws_steady env).writeTaskState
  have hcancelled : (endCancelled env).run s = (.ok final, t) → t.task.status = .stopped := by
    intro hrun
    unfold endCancelled onTask at hrun
    rw [run_modify_bind] at hrun
    obtain ⟨_, u, hwritten, hrun⟩ := bind_eq_ok hrun
    obtain ⟨_, v, hannounced, hrun⟩ := bind_eq_ok hrun
    cases hrun
    exact ((settled_announceEnd env _).ok hannounced).1.trans (hwrite.ok hwritten).1
  cases e with
  | cleanupFailed =>
    unfold handleEnd endCleanupFailed onTask at hrun
    dsimp only at hrun
    rw [run_modify_bind] at hrun
    obtain ⟨_, u, hwritten, hrun⟩ := bind_eq_ok hrun
    obtain ⟨_, v, hemitted, hrun⟩ := bind_eq_ok hrun
    cases hrun
    have hfailed : t.task.status = .failed :=
      ((settled_emitEnd env).ok hemitted).1.trans (hwrite.ok hwritten).1
    rw [hfailed]
    simp
  | _ =>
    rw [hcancelled hrun]
    simp

theorem noRaise_layer (h : LayersQuiet env) (call : Layer) : Keeps (noRaise X) (layer env call) := by
  intro s
  rw [(layer_ok_iff call s).mpr (h.layer call s.task s.world)]
  rfl

theorem noRaise_emitEnd (h : StorageQuiet env) : Keeps (noRaise X) (emitEnd env) :=
  keeps_emitEnd (storageLaws_noRaise h).storage (fun _ => rfl) (fun _ _ => rfl) fun _ _ => rfl

theorem noRaise_finishAnswered (h : StorageQuiet env) (hlayers : LayersQuiet env)
    (userMessage final : String) : Keeps (noRaise X) (finishAnswered env userMessage final) := by
  have hstorage := storageLaws_noRaise h
  have hkeep : Keeps (noRaise X) (keepAnswer env userMessage final) := by
    refine Keeps.bind hstorage.writeTaskState fun _ => ?_
    refine Keeps.bind hstorage.emitAgentState fun _ => ?_
    refine Keeps.bind (Keeps.when (noRaise_layer hlayers _)) fun _ => ?_
    refine Keeps.bind (Keeps.when (noRaise_layer hlayers _)) fun _ => ?_
    exact Keeps.bind hstorage.writeTaskState fun _ => Keeps.when (hstorage.emitTrace _)
  refine Keeps.bind ?_ fun _ => Keeps.bind ?_ fun _ => Keeps.pure _
  · exact Keeps.bind (hstorage.verifyAnswer final) fun _ => Keeps.bind (fun _ => rfl) fun _ => hkeep
  · exact Keeps.bind (noRaise_emitEnd h) fun _ => Keeps.bind keeps_task fun t =>
      hstorage.emitProgress _

/-- A loop that ends with an answer completes the run with it. -/
theorem answered_completes (h : StorageQuiet env) (hlayers : LayersQuiet env)
    (userMessage final : String) (s : AgentState X) :
    CompletedWith ((Eff.tryExcept (finishLoop env userMessage (.answered final)) Failure.endsRun
      (handleEnd env)).run s) final := by
  obtain ⟨answer, t, hrun⟩ :=
    returns_of_noRaise (noRaise_finishAnswered h hlayers userMessage final) s
  rw [finishLoop, run_tryExcept_ok hrun]
  unfold finishAnswered at hrun
  obtain ⟨_, u, hsettle, hrun⟩ := bind_eq_ok hrun
  obtain ⟨_, v, hannounce, hrun⟩ := bind_eq_ok hrun
  cases hrun
  unfold settleAnswered at hsettle
  obtain ⟨_, w, _, hsettle⟩ := bind_eq_ok hsettle
  unfold onTask at hsettle
  rw [run_modify_bind] at hsettle
  have hkept := (settledLaw_of_steady ((stepLaws_steady env).keepAnswer userMessage final)).ok hsettle
  have hannounced := (settled_announceEnd env _).ok hannounce
  exact ⟨rfl, hannounced.1.trans hkept.1, hannounced.2.trans hkept.2⟩

/-- A loop that is left does not complete the run. -/
theorem left_not_completed (protocolFailed : Bool) (attempts : Nat) (s : AgentState X)
    (final : String) :
    ¬CompletedWith ((Eff.tryExcept (finishLoop env userMessage (.left protocolFailed attempts))
      Failure.endsRun (handleEnd env)).run s) final := by
  rintro ⟨hresult, hstatus, _⟩
  rcases hleft : (finishLoop env userMessage (.left protocolFailed attempts)).run s with
    ⟨e | answer, t⟩
  · by_cases hcatch : e.endsRun = true
    · rw [run_tryExcept_caught hleft hcatch] at hresult hstatus
      exact handleEnd_not_completed (Prod.ext hresult rfl) hstatus
    · rw [run_tryExcept_passed hleft hcatch] at hresult
      cases hresult
  · rw [run_tryExcept_ok hleft] at hstatus
    unfold finishLoop finishLeft at hleft
    dsimp only at hleft
    obtain ⟨_, u, _, hleft⟩ := bind_eq_ok hleft
    obtain ⟨_, v, hsettle, hleft⟩ := bind_eq_ok hleft
    obtain ⟨_, w, hannounce, hleft⟩ := bind_eq_ok hleft
    cases hleft
    unfold settleLeft onTask at hsettle
    rw [run_modify_bind] at hsettle
    have hkept := (settledLaw_of_steady ((stepLaws_steady env).keepLeft userMessage _ _)).ok hsettle
    have hstopped := ((settled_announceEnd env _).ok hannounce).1.trans hkept.1
    rw [hstopped] at hstatus
    cases hstatus

/-! ## The results -/

theorem Reached.completes (h : Reached env userMessage taskId runId s₀ (n + 1) l verdicts s)
    (hquiet : StorageQuiet env) (hlayers : LayersQuiet env) (going : l.finalizationAttempted = false)
    {final : String} (turn : (loopTurn env userMessage l).run s = (.ok (.stop (.answered final)), t)) :
    CompletedWith ((AgentLoop.run env userMessage taskId runId).run s₀) final := by
  rw [h.ends going turn]
  exact answered_completes hquiet hlayers userMessage final t

/-- A final answer ends the run exactly where its review does not send it back, and it needs no
confirmation. -/
theorem finalEnds_iff (hquiet : StorageQuiet env) (hlayers : LayersQuiet env)
    (hreached : Reached env userMessage taskId runId s₀ (n + 1) l verdicts s)
    (hgoing : l.finalizationAttempted = false)
    (hsubmitted : (submission env userMessage l).run s = (.ok (some submitted), u)) :
    FinalEnds env userMessage taskId runId s₀ l s (pyStrip env.txt submitted.final) ↔
      submitted.decision.verdict ≠ .redirect ∧
        NeedsNoConfirmation l verdicts submitted.decision := by
  have hturn := loopTurn_of_submission env hsubmitted
  rw [← hreached.confirmed_iff hsubmitted]
  constructor
  · rintro ⟨⟨t, hends⟩, _⟩
    rw [hturn] at hends
    by_cases hverdict : submitted.decision.verdict = .redirect
    · -- only what was written is reviewed, and then the answer is sent back
      have hwritten : submitted.locals.hasWriteOrShell = true := by
        by_contra hread
        have hdecision := (submission_ok hsubmitted).2.2 (Bool.eq_false_iff.mpr hread)
        rw [hdecision] at hverdict
        cases hverdict
      exact absurd hends (concludeFinal_redirect hverdict hwritten)
    · refine ⟨hverdict, ?_⟩
      by_contra hconfirmed
      obtain ⟨v, hawaits⟩ :=
        concludeFinal_awaits hquiet hverdict hconfirmed u
      rw [hawaits] at hends
      cases hends
  · rintro ⟨hverdict, hconfirmed⟩
    obtain ⟨t, hends⟩ :=
      concludeFinal_confirmed hquiet hverdict hconfirmed u
    rw [← hturn] at hends
    exact ⟨⟨t, hends⟩, hreached.completes hquiet hlayers hgoing hends⟩

/-- **After two reviews of final answers, the next final answer ends the run exactly where its review
does not send it back and it needs no confirmation; where all reviews before counted as rounds, it
needs none.** -/
theorem battleEnds_iff (env : AgentEnv X) (hquiet : StorageQuiet env) (hlayers : LayersQuiet env)
    (hreached : Reached env userMessage taskId runId s₀ (n + 1) l verdicts s)
    (hgoing : l.finalizationAttempted = false)
    (hreviewed : reviewBattleMaxRounds ≤ verdicts.length)
    (hsubmitted : (submission env userMessage l).run s = (.ok (some submitted), u)) :
    (FinalEnds env userMessage taskId runId s₀ l s (pyStrip env.txt submitted.final) ↔
      submitted.decision.verdict ≠ .redirect ∧
        NeedsNoConfirmation l verdicts submitted.decision) ∧
    ((∀ decision ∈ verdicts, countsAsRound decision = true) →
      NeedsNoConfirmation l verdicts submitted.decision) := by
  refine ⟨finalEnds_iff hquiet hlayers hreached hgoing hsubmitted, fun hcounted => ?_⟩
  refine Or.inr (Or.inr (Or.inr ?_))
  rw [List.countP_append, List.countP_eq_length.mpr hcounted]
  omega

/-- **A final answer that its review agrees with in the last turn is the answer of the run exactly
where it needs no confirmation.** -/
theorem agreedFinal_kept_iff (env : AgentEnv X) (hquiet : StorageQuiet env)
    (hlayers : LayersQuiet env)
    (hreached : Reached env userMessage taskId runId s₀ (n + 1) l verdicts s)
    (hgoing : l.finalizationAttempted = false)
    (hsubmitted : (submission env userMessage l).run s = (.ok (some submitted), u))
    (hagreed : submitted.decision.verdict ≠ .redirect)
    (hlast : n = 0 ∨ submitted.locals.finalizationAttempted = true) :
    CompletedWith ((AgentLoop.run env userMessage taskId runId).run s₀)
        (pyStrip env.txt submitted.final) ↔
      NeedsNoConfirmation l verdicts submitted.decision := by
  have hturn := loopTurn_of_submission env hsubmitted
  rw [← hreached.confirmed_iff hsubmitted]
  constructor
  · intro hcompleted
    by_contra hconfirmed
    -- the answer is put off, and no turn is left to confirm it
    obtain ⟨t, hawaits⟩ := concludeFinal_awaits hquiet hagreed hconfirmed u
    rw [← hturn] at hawaits
    have hnext := Reached.next hreached hgoing hawaits
    have hover : n = 0 ∨
        (submitted.counted.awaiting submitted.decision).finalizationAttempted = true := by
      refine hlast.imp_right fun hattempted => ?_
      show submitted.counted.finalizationAttempted = true
      unfold Submission.counted Locals.countRound
      split
      · exact hattempted
      · exact hattempted
    rw [hnext.leaves hover] at hcompleted
    exact left_not_completed _ _ t _ hcompleted
  · intro hconfirmed
    obtain ⟨t, hends⟩ := concludeFinal_confirmed hquiet hagreed hconfirmed u
    rw [← hturn] at hends
    exact hreached.completes hquiet hlayers hgoing hends

/-! ## Runs of a scripted agent -/

theorem layersQuiet_scripted (json : List (String × PyValue)) (strategy : ApprovalStrategy)
    (planning reviewSubagent : Bool) :
    LayersQuiet (.scripted json strategy planning reviewSubagent) where
  layer _ _ _ := rfl

/-- A reply of the review. -/
def verdictJson (verdict : String) : String × PyValue :=
  (verdict, .dict [("verdict", .str verdict), ("feedback", .str "look again"),
    ("reason", .str "because")])

/-- An agent with a review and without a plan. -/
def reviewedAgent : AgentEnv Script :=
  .scripted [verdictJson "redirect", verdictJson "continue"] .auto false true

/-- A native call. -/
def nativeCall (name : String) (args : PyDict) : PyValue :=
  .dict [("name", .str name), ("args", .dict args)]

/-- Three final answers after a write, with calls between them. The review sends two of them back;
`last` is its third verdict. -/
def battleScript (last : String) : Script where
  replies := [nativeCall "write_file" [("path", .str "a"), ("content", .str "x")],
    .str "<final>done</final>", nativeCall "list_files" [("path", .str ".")],
    .str "<final>done</final>", nativeCall "read_file" [("path", .str "a")],
    .str "<final>done</final>"]
  reviews := [.str "redirect", .str "redirect", .str last]

/-- The third answer is sent back as well. -/
theorem third_final_sent_back :
    ∃ n l verdicts s submitted u,
      Reached reviewedAgent "fix it" "task_1" "run_1" (.fresh (battleScript "redirect")) (n + 1) l
        verdicts s ∧
      l.finalizationAttempted = false ∧ reviewBattleMaxRounds ≤ verdicts.length ∧
      (submission reviewedAgent "fix it" l).run s = (.ok (some submitted), u) ∧
      ¬FinalEnds reviewedAgent "fix it" "task_1" "run_1" (.fresh (battleScript "redirect")) l s
        (pyStrip .ascii submitted.final) := by
  have hrun : submitsAfter reviewedAgent "fix it" "task_1" "run_1"
      (.fresh (battleScript "redirect")) 5 (fun _ verdicts submitted =>
        decide (reviewBattleMaxRounds ≤ verdicts.length) &&
          decide (submitted.decision.verdict = .redirect)) = true := by
    decide +kernel
  obtain ⟨n, l, verdicts, s, submitted, u, hreached, hgoing, hsubmitted, hcase⟩ :=
    submitsAfter_spec (by decide) hrun
  simp only [Bool.and_eq_true, decide_eq_true_eq] at hcase
  refine ⟨n, l, verdicts, s, submitted, u, hreached, hgoing, hcase.1, hsubmitted, fun hends => ?_⟩
  have hverdict := ((finalEnds_iff (quietOutside_scripted _ _ _ _).toStorageQuiet
    (layersQuiet_scripted _ _ _ _) hreached hgoing hsubmitted).mp hends).1
  exact hverdict hcase.2

/-- The third answer ends the run where the third review agrees. -/
theorem battleEnds_iff_agreed :
    ∃ l s, ∃ submitted : Submission, FinalEnds reviewedAgent "fix it" "task_1" "run_1"
      (.fresh (battleScript "continue")) l s (pyStrip .ascii submitted.final) := by
  have hrun : submitsAfter reviewedAgent "fix it" "task_1" "run_1"
      (.fresh (battleScript "continue")) 5 (fun _ verdicts submitted =>
        decide (reviewBattleMaxRounds ≤ verdicts.length) && verdicts.all countsAsRound &&
          decide (submitted.decision.verdict ≠ .redirect)) = true := by
    decide +kernel
  obtain ⟨n, l, verdicts, s, submitted, u, hreached, hgoing, hsubmitted, hcase⟩ :=
    submitsAfter_spec (by decide) hrun
  simp only [Bool.and_eq_true, decide_eq_true_eq, List.all_eq_true] at hcase
  obtain ⟨hiff, hneeds⟩ := battleEnds_iff reviewedAgent
    (quietOutside_scripted _ _ _ _).toStorageQuiet (layersQuiet_scripted _ _ _ _) hreached hgoing
    hcase.1.1 hsubmitted
  exact ⟨l, s, submitted, hiff.mpr ⟨hcase.2, hneeds hcase.1.2⟩⟩

/-- A write, then a call that is repeated until only a final answer may follow. `before` comes in
between. -/
def lastTurnScript (before : List PyValue) : Script where
  replies := [nativeCall "write_file" [("path", .str "a"), ("content", .str "x")]] ++ before ++
    [nativeCall "list_files" [("path", .str ".")], nativeCall "list_files" [("path", .str ".")],
      nativeCall "list_files" [("path", .str ".")], nativeCall "list_files" [("path", .str ".")],
      .str "<final>done</final>"]
  reviews := [.str "continue", .str "continue"]

/-- The review agrees with the answer of the last turn, and the run is left without an answer. -/
theorem agreed_final_lost :
    ∃ n l verdicts s submitted u,
      Reached reviewedAgent "fix it" "task_1" "run_1" (.fresh (lastTurnScript [])) (n + 1) l
        verdicts s ∧
      l.finalizationAttempted = false ∧
      (submission reviewedAgent "fix it" l).run s = (.ok (some submitted), u) ∧
      submitted.decision.verdict ≠ .redirect ∧ submitted.locals.finalizationAttempted = true ∧
      ¬CompletedWith ((AgentLoop.run reviewedAgent "fix it" "task_1" "run_1").run
        (.fresh (lastTurnScript []))) (pyStrip .ascii submitted.final) := by
  have hrun : submitsAfter reviewedAgent "fix it" "task_1" "run_1" (.fresh (lastTurnScript [])) 5
      (fun _ _ submitted => decide (submitted.decision.verdict ≠ .redirect) &&
        submitted.locals.finalizationAttempted) = true := by
    decide +kernel
  have hstopped : ((AgentLoop.run reviewedAgent "fix it" "task_1" "run_1").run
      (.fresh (lastTurnScript []))).2.task.status = .stopped := by
    decide +kernel
  obtain ⟨n, l, verdicts, s, submitted, u, hreached, hgoing, hsubmitted, hcase⟩ :=
    submitsAfter_spec (by decide) hrun
  simp only [Bool.and_eq_true, decide_eq_true_eq] at hcase
  refine ⟨n, l, verdicts, s, submitted, u, hreached, hgoing, hsubmitted, hcase.1, hcase.2, ?_⟩
  rintro ⟨_, hcompleted, _⟩
  rw [hstopped] at hcompleted
  cases hcompleted

/-- With a round of the battle before, the answer of the last turn is kept. -/
theorem agreedFinal_kept_iff_second :
    ∃ submitted : Submission, CompletedWith
      ((AgentLoop.run reviewedAgent "fix it" "task_1" "run_1").run
        (.fresh (lastTurnScript [.str "<final>done</final>"])))
      (pyStrip .ascii submitted.final) := by
  have hrun : submitsAfter reviewedAgent "fix it" "task_1" "run_1"
      (.fresh (lastTurnScript [.str "<final>done</final>"])) 6 (fun _ verdicts submitted =>
        decide (submitted.decision.verdict ≠ .redirect) &&
          submitted.locals.finalizationAttempted &&
          decide (reviewBattleMaxRounds ≤
            (verdicts ++ [submitted.decision]).countP countsAsRound)) = true := by
    decide +kernel
  obtain ⟨n, l, verdicts, s, submitted, u, hreached, hgoing, hsubmitted, hcase⟩ :=
    submitsAfter_spec (by decide) hrun
  simp only [Bool.and_eq_true, decide_eq_true_eq] at hcase
  exact ⟨submitted, (agreedFinal_kept_iff reviewedAgent
    (quietOutside_scripted _ _ _ _).toStorageQuiet (layersQuiet_scripted _ _ _ _) hreached hgoing
    hsubmitted hcase.1.1 (Or.inr hcase.1.2)).mpr (Or.inr (Or.inr (Or.inr hcase.2)))⟩

end ThreadForge

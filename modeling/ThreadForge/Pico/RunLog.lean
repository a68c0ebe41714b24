import ThreadForge.Pico.LoopLaws

/-!
# What a run leaves in the log

A `LogLaw` is a property of what a computation adds to the log and of whether it raised
`ProcessCleanupFailed`. Most steps add nothing to it but sites; what the three routes to a runner
add is said once here (`runTool_log`, `executeReviewTool_log`), and a law that allows it
(`LogLaw.Allows`) holds of every run.
-/

namespace ThreadForge

open Eff AgentM

variable {X : Type}

/-! ## The routes to a runner -/

/-- A computation that changes neither the log nor the task, and does not raise
`ProcessCleanupFailed`. -/
def silent (X : Type) : RunLaw (AgentState X) Failure where
  holds s r t := (t.log = s.log ∧ t.task = s.task) ∧ r ≠ some .cleanupFailed
  refl s := ⟨⟨rfl, rfl⟩, by simp⟩
  trans h h' := ⟨⟨h'.1.1.trans h.1.1, h'.1.2.trans h.1.2⟩, h'.2⟩

theorem silent_outer {A : Type} (f : Outer X A) : Keeps (silent X) (outer f) := by
  intro s
  rcases outer_cases f s with ⟨a, w, hrun⟩ | ⟨e, w, hrun, hkind⟩
  · rw [hrun]
    exact (silent X).refl s
  · rw [hrun]
    exact ⟨⟨rfl, rfl⟩, ne_cleanupFailed_of_outer hkind⟩

theorem silent_observe {A : Type} (f : World X → A × World X) : Keeps (silent X) (observe f) :=
  fun s => (silent X).refl { s with world := (f s.world).2 }

theorem silent_onFiles {A : Type} (m : FileM A) : Keeps (silent X) (onFiles m) := by
  intro s
  rcases onFiles_cases m s with ⟨a, t, _, hrun⟩ | ⟨exc, t, _, hrun⟩
  · rw [hrun]
    exact ⟨⟨rfl, rfl⟩, by simp⟩
  · rw [hrun]
    exact ⟨⟨rfl, rfl⟩, by simp⟩

/-- What a runner adds to the log. -/
def RunnerLog (route : Route) (tool : ToolName) (s : AgentState X) (r : Option Failure)
    (t : AgentState X) : Prop :=
  t.task = s.task ∧
    ((t.log = s.log ++ [.started route tool] ∧ r ≠ some .cleanupFailed) ∨
      (tool = .runShell ∧ t.log = s.log ++ [.started route .runShell, .cleanupFailed route] ∧
        r = some .cleanupFailed))

/-- A shell command whose cleanup failed is noted, and raises. -/
theorem runShell_log (env : AgentEnv X) (route : Route) (args : PyDict) (s : AgentState X) :
    ((runShell env route args).run s).2.task = s.task ∧
    ((((runShell env route args).run s).2.log = s.log ∧
        ending ((runShell env route args).run s).1 ≠ some .cleanupFailed) ∨
      (((runShell env route args).run s).2.log = s.log ++ [.cleanupFailed route] ∧
        ending ((runShell env route args).run s).1 = some .cleanupFailed)) := by
  unfold runShell
  rcases harguments : (onFiles (Eff.ofExcept (shellArguments env.files args)) :
      AgentM X (String × Nat)).run s with ⟨e | ⟨command, timeout⟩, u⟩
  · obtain ⟨⟨hlog, htask⟩, hne⟩ := (silent_onFiles _).error harguments
    rw [run_bind_error harguments]
    exact ⟨htask, Or.inl ⟨hlog, hne⟩⟩
  obtain ⟨⟨hlog, htask⟩, _⟩ := (silent_onFiles _).ok harguments
  rw [run_bind_ok harguments]
  dsimp only
  rcases hshell : (outer (env.shell command timeout)).run u with ⟨e | result, v⟩
  · obtain ⟨⟨hlog', htask'⟩, hne⟩ := (silent_outer _).error hshell
    rw [run_bind_error hshell]
    exact ⟨htask'.trans htask, Or.inl ⟨hlog'.trans hlog, hne⟩⟩
  obtain ⟨⟨hlog', htask'⟩, _⟩ := (silent_outer _).ok hshell
  rw [run_bind_ok hshell]
  split
  · refine ⟨htask'.trans htask, Or.inr ⟨?_, rfl⟩⟩
    show v.log ++ _ = _
    rw [hlog', hlog]
  split
  · exact ⟨htask'.trans htask, Or.inl ⟨hlog'.trans hlog, by simp⟩⟩
  · exact ⟨htask'.trans htask, Or.inl ⟨hlog'.trans hlog, by simp⟩⟩

theorem runTool_log (env : AgentEnv X) (route : Route) (tool : ToolName) (args : PyDict)
    (s : AgentState X) :
    RunnerLog route tool s (ending ((runTool env route tool args).run s).1)
      ((runTool env route tool args).run s).2 := by
  unfold runTool note
  rw [run_modify_bind]
  by_cases hshell : tool = .runShell
  · subst hshell
    rw [if_pos rfl]
    obtain ⟨htask, ⟨hlog, hne⟩ | ⟨hlog, herr⟩⟩ := runShell_log env route args
      { s with log := s.log ++ [.started route .runShell] }
    · exact ⟨htask, Or.inl ⟨hlog, hne⟩⟩
    · refine ⟨htask, Or.inr ⟨rfl, ?_, herr⟩⟩
      rw [hlog]
      exact List.append_assoc _ _ _
  · rw [if_neg hshell]
    have hsilent : Keeps (silent X) (observe env.oracle >>= fun oracle =>
        onFiles (runFileTool env.files oracle tool args)) :=
      Keeps.bind (silent_observe _) fun oracle => silent_onFiles _
    obtain ⟨⟨hlog, htask⟩, hne⟩ := hsilent { s with log := s.log ++ [.started route tool] }
    exact ⟨htask, Or.inl ⟨hlog, hne⟩⟩

/-- The executor hides every exception of a runner but a cancellation and a failed cleanup. -/
theorem perform_log (env : AgentEnv X) (route : Route) {name : PyValue}
    (call : ReadyCall env name) (args : PyDict) (s : AgentState X) :
    RunnerLog route call.tool s (ending ((perform env route call args).run s).1)
      ((perform env route call args).run s).2 := by
  have hlog := runTool_log env route call.tool args s
  unfold perform
  rcases hrun : (runTool env route call.tool args).run s with ⟨e | content, t⟩
  · rw [hrun] at hlog
    by_cases hcatch : e.isError = true
    · rw [run_tryExcept_caught (run_bind_error hrun) hcatch]
      obtain ⟨htask, ⟨hlog, _⟩ | ⟨_, _, herr⟩⟩ := hlog
      · exact ⟨htask, Or.inl ⟨hlog, by simp⟩⟩
      · rw [Option.some.inj herr] at hcatch
        cases hcatch
    · rw [run_tryExcept_passed (run_bind_error hrun) hcatch]
      exact hlog
  · rw [hrun] at hlog
    rw [run_tryExcept_ok (run_bind_ok hrun)]
    exact hlog

/-! ## The tools of the review -/

/-- A reply of the review that makes it run a shell command. -/
def AsksForShell (env : AgentEnv X) (raw : PyValue) : Prop :=
  ∃ args command timeout, parseReviewAction env.txt env.loads raw = .tool "run_shell" (.dict args) ∧
    isAllowed env (.str "run_shell") = true ∧
    shellArguments env.files args = .ok (command, timeout)

/-- What a review adds to the log after a reply. -/
def ReviewLog (env : AgentEnv X) (raw : PyValue) (new : List Event) : Prop :=
  (new = [] ∧ ¬AsksForShell env raw) ∨
  (∃ tool, new = [.started .review tool] ∧ tool ∉ [.writeFile, .patchFile] ∧
    (tool = .runShell ↔ AsksForShell env raw)) ∨
  (new = [.started .review .runShell, .cleanupFailed .review] ∧ AsksForShell env raw)

/-- The arguments of a shell command that the review may run. -/
def ShellArguments (env : AgentEnv X) (args : PyValue) : Prop :=
  ∃ entries command timeout, args = .dict entries ∧
    shellArguments env.files entries = .ok (command, timeout)

theorem asksForShell_iff {env : AgentEnv X} {raw args : PyValue} {name : String}
    (hparse : parseReviewAction env.txt env.loads raw = .tool name args) :
    AsksForShell env raw ↔
      name = "run_shell" ∧ isAllowed env (.str "run_shell") = true ∧ ShellArguments env args := by
  constructor
  · rintro ⟨entries, command, timeout, hraw, hallowed, hargs⟩
    rw [hparse] at hraw
    cases hraw
    exact ⟨rfl, hallowed, entries, command, timeout, rfl, hargs⟩
  · rintro ⟨rfl, hallowed, entries, command, timeout, rfl, hargs⟩
    exact ⟨entries, command, timeout, hparse, hallowed, hargs⟩

theorem validateTool_runShell (env : FileEnv) (args : PyDict) (s : FileState) :
    (validateTool env .runShell args).run s =
      match shellArguments env args with
      | .ok _ => (.ok (), s)
      | .error exc => (.error exc, s) := by
  show ((Eff.ofExcept (shellArguments env args) : FileM (String × Nat)) >>= fun _ => pure ()).run s = _
  cases harguments : shellArguments env args with
  | ok arguments => rfl
  | error exc => rfl

theorem shellArguments_nil (env : FileEnv) : ∃ exc, shellArguments env [] = .error exc := by
  refine ⟨.value "command must not be empty", ?_⟩
  unfold shellArguments
  exact if_pos rfl

/-- Validation leaves the log alone, and a shell command passes it by its arguments. -/
theorem validate_log (env : AgentEnv X) (tool : ToolName) (args : PyDict) (s : AgentState X) :
    ∃ r u, (onFiles (validateTool env.files tool args)).run s = (r, u) ∧ u.log = s.log ∧
      u.task = s.task ∧ r ≠ .error .cleanupFailed ∧
      (tool = .runShell → (r = .ok () ↔ ShellArguments env (.dict args))) := by
  rcases hrun : (onFiles (validateTool env.files tool args)).run s with ⟨r, u⟩
  have hsilent := silent_onFiles (validateTool env.files tool args) s
  rw [hrun] at hsilent
  obtain ⟨⟨hlog, htask⟩, hne⟩ := hsilent
  refine ⟨r, u, rfl, hlog, htask, ?_, ?_⟩
  · rintro rfl
    exact hne rfl
  rintro rfl
  unfold onFiles at hrun
  dsimp only at hrun
  rw [validateTool_runShell] at hrun
  rcases harguments : shellArguments env.files args with exc | ⟨command, timeout⟩
  · rw [harguments] at hrun
    cases hrun
    constructor
    · intro hok
      cases hok
    · rintro ⟨entries, command, timeout, heq, hargs⟩
      cases heq
      rw [harguments] at hargs
      cases hargs
  · rw [harguments] at hrun
    cases hrun
    exact ⟨fun _ => ⟨args, command, timeout, rfl, harguments⟩, fun _ => rfl⟩

theorem validateAndRun_noDict (env : AgentEnv X) (tool : ToolName) {args : PyValue}
    (hargs : ∀ entries, args ≠ .dict entries) :
    validateAndRun env tool args =
      if args.truthy then Eff.raise (notADict tool)
      else onFiles (validateTool env.files tool []) >>= fun _ =>
        note (.started .review tool) >>= fun _ => Eff.raise (notADict tool) := by
  cases args with
  | dict entries => exact absurd rfl (hargs entries)
  | _ => rfl

/-- What the runner of the review adds to the log: nothing where the call is not valid. -/
theorem validateAndRun_log (env : AgentEnv X) (tool : ToolName) (args : PyValue)
    (s : AgentState X) :
    ∃ r t, (validateAndRun env tool args).run s = (r, t) ∧
      ((t.task = s.task ∧ t.log = s.log ∧ ¬(tool = .runShell ∧ ShellArguments env args)) ∨
        (RunnerLog .review tool s (ending r) t ∧ (tool = .runShell → ShellArguments env args))) := by
  by_cases hdict : ∃ entries, args = .dict entries
  · obtain ⟨entries, rfl⟩ := hdict
    obtain ⟨r, u, hvalidate, hlog, htask, _, hshell⟩ := validate_log env tool entries s
    unfold validateAndRun
    cases r with
    | error e =>
      refine ⟨.error e, u, run_bind_error hvalidate, Or.inl ⟨htask, hlog, ?_⟩⟩
      rintro ⟨htool, hargs⟩
      cases (hshell htool).mpr hargs
    | ok _ =>
      have hargs : tool = .runShell → ShellArguments env (.dict entries) := fun htool =>
        (hshell htool).mp rfl
      have hrunner := runTool_log env .review tool entries u
      rw [run_bind_ok hvalidate]
      rcases hrun : (runTool env .review tool entries).run u with ⟨e | content, t⟩
      · rw [hrun] at hrunner
        refine ⟨.error e, t, run_bind_error hrun, Or.inr ⟨?_, hargs⟩⟩
        rwa [RunnerLog, hlog, htask] at hrunner
      · rw [hrun] at hrunner
        refine ⟨.ok (clipText content maxToolOutput), t, run_bind_ok hrun, Or.inr ⟨?_, hargs⟩⟩
        rwa [RunnerLog, hlog, htask] at hrunner
  · have hargs : ∀ entries, args ≠ .dict entries := fun entries heq => hdict ⟨entries, heq⟩
    have hnot : ¬ShellArguments env args := by
      rintro ⟨entries, _, _, heq, _⟩
      exact hargs entries heq
    rw [validateAndRun_noDict env tool hargs]
    by_cases htruthy : args.truthy = true
    · rw [if_pos htruthy]
      exact ⟨_, s, rfl, Or.inl ⟨rfl, rfl, fun h => hnot h.2⟩⟩
    · rw [if_neg htruthy]
      obtain ⟨r, u, hvalidate, hlog, htask, _, hshell⟩ := validate_log env tool [] s
      cases r with
      | error e =>
        exact ⟨.error e, u, run_bind_error hvalidate, Or.inl ⟨htask, hlog, fun h => hnot h.2⟩⟩
      | ok _ =>
        have htool : tool ≠ .runShell := by
          intro htool
          obtain ⟨entries, command, timeout, heq, hok⟩ := (hshell htool).mp rfl
          obtain ⟨exc, herr⟩ := shellArguments_nil env.files
          cases heq
          rw [herr] at hok
          cases hok
        refine ⟨.error (notADict tool), { u with log := u.log ++ [.started .review tool] },
          run_bind_ok hvalidate, Or.inr ⟨⟨htask, Or.inl ⟨?_, ?_⟩⟩, fun h => absurd h htool⟩⟩
        · show u.log ++ _ = _
          rw [hlog]
        · intro heq
          cases heq

/-- A call of the review that is executed, and what it adds to the log. -/
theorem executeReviewTool_log (env : AgentEnv X) {raw args : PyValue} {name : String}
    (hparse : parseReviewAction env.txt env.loads raw = .tool name args) (s : AgentState X) :
    ∃ r t new, (executeReviewTool env name args).run s = (r, t) ∧
      (∀ e, r = .error e → e = .cancelled) ∧
      t.task = s.task ∧ t.log = s.log ++ new ∧ ReviewLog env raw new := by
  have hok : ∀ {text : String} (e : Failure), (.ok text : Except Failure String) = .error e →
      e = .cancelled := by
    intro text e heq
    cases heq
  have hasks := asksForShell_iff hparse
  unfold executeReviewTool
  by_cases hname : name ∉ reviewAllowedTools
  · rw [if_pos hname]
    refine ⟨_, s, [], rfl, hok, rfl, (List.append_nil _).symm, Or.inl ⟨rfl, ?_⟩⟩
    rw [hasks]
    rintro ⟨rfl, _⟩
    exact hname (by decide)
  rw [if_neg hname]
  rcases htool : toolNamed env (.str name) with _ | tool
  · refine ⟨_, s, [], rfl, hok, rfl, (List.append_nil _).symm, Or.inl ⟨rfl, ?_⟩⟩
    rw [hasks]
    rintro ⟨rfl, hallowed, _⟩
    unfold toolNamed at htool
    dsimp only at htool
    rw [if_pos hallowed] at htool
    cases htool
  have htext : name = tool.text := PyValue.str.inj (toolNamed_eq_some env htool)
  have hallowed : isAllowed env (.str name) = true := by
    unfold toolNamed at htool
    dsimp only at htool
    by_contra hnot
    rw [if_neg hnot] at htool
    cases htool
  have hshell : tool = .runShell ∧ ShellArguments env args ↔ AsksForShell env raw := by
    rw [hasks]
    constructor
    · rintro ⟨rfl, hargs⟩
      rw [htext] at hallowed
      exact ⟨htext, hallowed, hargs⟩
    · rintro ⟨hrun, _, hargs⟩
      refine ⟨?_, hargs⟩
      rw [hrun] at htext
      revert htext
      cases tool <;> decide
  have hreads : tool ∉ [ToolName.writeFile, .patchFile] := by
    rw [htext] at hname
    revert hname
    cases tool <;> decide
  obtain ⟨r, t, hrun, hlog⟩ := validateAndRun_log env tool args s
  -- the handler answers with a text, and adds nothing
  have hcaught : ∃ r', (Eff.tryExcept (validateAndRun env tool args) Failure.isNotCancelled
      fun failure => pure ("error: " ++ failureName env failure ++ ": " ++
        failureText env failure)).run s = (r', t) ∧ ∀ e, r' = .error e → e = .cancelled := by
    cases r with
    | ok content => exact ⟨_, run_tryExcept_ok hrun, hok⟩
    | error e =>
      by_cases hcatch : e.isNotCancelled = true
      · exact ⟨_, run_tryExcept_caught hrun hcatch, hok⟩
      · refine ⟨_, run_tryExcept_passed hrun hcatch, ?_⟩
        rintro e' heq
        cases heq
        cases e with
        | cancelled => rfl
        | _ => exact absurd rfl hcatch
  obtain ⟨r', hcaught, hne⟩ := hcaught
  rcases hlog with ⟨htask, hlog, hnot⟩ | ⟨⟨htask, ⟨hlog, _⟩ | ⟨hrunShell, hlog, _⟩⟩, hargs⟩
  · refine ⟨r', t, [], hcaught, hne, htask, ?_, Or.inl ⟨rfl, fun h => hnot (hshell.mpr h)⟩⟩
    rw [hlog, List.append_nil]
  · refine ⟨r', t, _, hcaught, hne, htask, hlog, Or.inr (Or.inl ⟨tool, rfl, hreads, ?_⟩)⟩
    exact ⟨fun h => hshell.mp ⟨h, hargs h⟩, fun h => (hshell.mpr h).1⟩
  · refine ⟨r', t, _, hcaught, hne, htask, hlog, Or.inr (Or.inr ⟨rfl, ?_⟩)⟩
    exact hshell.mp ⟨hrunShell, hargs hrunShell⟩

/-- A round of a review ends as its call does. -/
theorem reviewToolRound_of_ok (env : AgentEnv X) (progress : ReviewProgress) {name : String}
    {args : PyValue} {s t : AgentState X} {result : String}
    (hrun : (executeReviewTool env name args).run s = (.ok result, t)) :
    ∃ progress' u, (reviewToolRound env progress name args).run s = (.ok progress', u) ∧
      u.log = t.log ∧ u.task.outcome = t.task.outcome := by
  unfold reviewToolRound
  rw [run_bind_ok hrun]
  dsimp only
  unfold Eff.when
  split
  · exact ⟨_, _, rfl, rfl, rfl⟩
  · exact ⟨_, _, rfl, rfl, rfl⟩

/-- What a review does with a reply, in the log. -/
theorem answerReview_log (env : AgentEnv X) (progress : ReviewProgress) (raw : PyValue)
    (s : AgentState X) :
    ∃ r t new, (answerReview env progress raw).run s = (r, t) ∧
      (∀ e, r = .error e → e = .cancelled) ∧ t.task.outcome = s.task.outcome ∧
      t.log = s.log ++ .reviewReply raw :: new ∧ ReviewLog env raw new := by
  unfold answerReview note
  rw [run_modify_bind]
  rcases hparse : parseReviewAction env.txt env.loads raw with decision | ⟨name, args⟩ | message
  · refine ⟨_, _, [], rfl, (fun e heq => by cases heq), rfl, rfl, Or.inl ⟨rfl, ?_⟩⟩
    rintro ⟨_, _, _, hraw, _⟩
    rw [hparse] at hraw
    cases hraw
  · dsimp only
    obtain ⟨r, t, new, hrun, hne, htask, hlog, hreview⟩ := executeReviewTool_log env hparse
      { s with log := s.log ++ [.reviewReply raw] }
    have hlog' : t.log = s.log ++ .reviewReply raw :: new := by
      rw [hlog]
      exact List.append_assoc _ _ _
    cases r with
    | error e =>
      refine ⟨.error e, t, new, run_bind_error (run_bind_error hrun), ?_, ?_, hlog', hreview⟩
      · rintro e' heq
        cases heq
        exact hne e rfl
      · rw [htask]
    | ok result =>
      obtain ⟨progress', u, hround, hlogU, hout⟩ := reviewToolRound_of_ok env progress hrun
      refine ⟨_, u, new, run_bind_ok hround, (fun e heq => by cases heq), ?_, hlogU.trans hlog', hreview⟩
      rw [hout, htask]
  · refine ⟨_, _, [], rfl, (fun e heq => by cases heq), rfl, rfl, Or.inl ⟨rfl, ?_⟩⟩
    rintro ⟨_, _, _, hraw, _⟩
    rw [hparse] at hraw
    cases hraw

/-! ## Laws of the log -/

/-- A property of what a computation adds to the log and of whether it raised
`ProcessCleanupFailed`, closed under sequencing. -/
structure LogLaw where
  holds : List Event → Bool → Prop
  sites : ∀ {new}, (∀ event ∈ new, ∃ site, event = .site site) → holds new false
  append : ∀ {new more raised}, holds new false → holds more raised → holds (new ++ more) raised

namespace LogLaw

variable (P : LogLaw)

def law (X : Type) : RunLaw (AgentState X) Failure where
  holds s r t := ∃ new, t.log = s.log ++ new ∧ P.holds new (decide (r = some .cleanupFailed))
  refl s := ⟨[], (List.append_nil _).symm, P.sites fun _ hmem => by cases hmem⟩
  trans := by
    rintro s t u r ⟨new, hnew, hP⟩ ⟨more, hmore, hP'⟩
    refine ⟨new ++ more, ?_, P.append hP hP'⟩
    rw [hmore, hnew, List.append_assoc]

variable {P}

/-- Nothing is added to the log. -/
theorem holds_of_silent {s t : AgentState X} {r : Option Failure} (hlog : t.log = s.log)
    (hne : r ≠ some .cleanupFailed) : (P.law X).holds s r t := by
  refine ⟨[], ?_, ?_⟩
  · rw [hlog, List.append_nil]
  · rw [decide_eq_false hne]
    exact P.sites fun _ hmem => by cases hmem

/-- A site is added to the log. -/
theorem holds_of_site {s t : AgentState X} {r : Option Failure} {site : Site}
    (hlog : t.log = s.log ++ [.site site]) (hne : r ≠ some .cleanupFailed) :
    (P.law X).holds s r t := by
  refine ⟨[.site site], hlog, ?_⟩
  rw [decide_eq_false hne]
  exact P.sites fun event hmem => ⟨site, List.mem_singleton.mp hmem⟩

theorem keeps_of_silent {A : Type} {m : AgentM X A} (h : Keeps (silent X) m) :
    Keeps (P.law X) m := fun s => holds_of_silent (h s).1.1 (h s).2

/-- A change that leaves the log alone. -/
theorem keeps_modify {f : AgentState X → AgentState X} (h : ∀ s, (f s).log = s.log) :
    Keeps (P.law X) (Eff.modify f) := fun s => holds_of_silent (h s) (by simp)

theorem stepLaws (env : AgentEnv X) : StepLaws env (P.law X) where
  world _ _ := holds_of_silent rfl (by simp)
  storage _ _ := Keeps.bind keeps_task fun _ => keeps_of_silent (silent_outer _)
  layered f := by
    intro s
    rcases layered_cases f s with ⟨a, w, hrun⟩ | ⟨e, w, hrun, hkind⟩
    · rw [hrun]
      exact holds_of_silent rfl (by simp)
    · rw [hrun]
      exact holds_of_site rfl (ne_cleanupFailed_of_outer hkind)
  onTask _ _ := keeps_modify fun _ => rfl
  store := keeps_modify fun _ => rfl
  remember _ := keeps_modify fun _ => rfl
  cancelled _ _ := holds_of_silent rfl (by simp)
  hook _ _ := Keeps.bind keeps_task fun _ => keeps_of_silent (silent_outer _)
  ask _ := keeps_of_silent (silent_outer _)
  attempt site x _ := by
    intro s
    rcases attempt_cases site x s with ⟨a, _, hrun⟩ | ⟨kind, _, hrun⟩
    · rw [hrun]
      exact holds_of_site rfl (by simp)
    · rw [hrun]
      exact holds_of_site rfl (by simp)

theorem forgives {e : Failure} (he : e ≠ .cleanupFailed) : (P.law X).Forgives e := by
  rintro s t ⟨new, hlog, hP⟩
  refine ⟨new, hlog, ?_⟩
  rwa [decide_eq_false fun h => he (Option.some.inj h)] at hP

theorem late {e : Failure} (he : e ≠ .cleanupFailed) : (P.law X).Late e := by
  rintro s t u hst htu
  obtain ⟨new, hlog, hP⟩ := (P.law X).trans (forgives he s t hst) htu
  refine ⟨new, hlog, ?_⟩
  rwa [decide_eq_false fun h => he (Option.some.inj h)]

/-- The same property, whatever was raised. -/
def hidden (P : LogLaw) : LogLaw where
  holds new _ := P.holds new false
  sites := P.sites
  append := P.append

/-! ## What a law allows -/

/-- The law holds of what the routes to a runner add to the log. -/
structure Allows (P : LogLaw) (env : AgentEnv X) : Prop where
  main : ∀ tool : ToolName, (tool.risky = true → env.refusing = false) →
    P.holds [.started .main tool] false
  mainCleanup : env.refusing = false →
    P.holds [.started .main .runShell, .cleanupFailed .main] true
  checklist : ∀ tool : ToolName, (tool.risky = true → env.refusing = false) →
    P.holds [.started .checklist tool] false
  checklistCleanup : env.refusing = false →
    P.holds [.started .checklist .runShell, .cleanupFailed .checklist] false
  review : ∀ raw new, ReviewLog env raw new → P.holds (.reviewReply raw :: new) false

variable {env : AgentEnv X} (h : P.Allows env)

include h

theorem Allows.perform {name : PyValue} (call : ReadyCall env name) (args : PyDict) :
    Keeps (P.law X) (perform env .main call args) := by
  intro s
  obtain ⟨_, ⟨hlog, hne⟩ | ⟨hshell, hlog, herr⟩⟩ := perform_log env .main call args s
  · refine ⟨_, hlog, ?_⟩
    rw [decide_eq_false hne]
    exact h.main call.tool call.permitted
  · refine ⟨_, hlog, ?_⟩
    rw [herr]
    exact h.mainCleanup (call.permitted (by rw [hshell]; rfl))

theorem Allows.performCriterion {name : PyValue} (call : ReadyCall env name) (args : PyDict) :
    Keeps (P.hidden.law X) (ThreadForge.perform env .checklist call args) := by
  intro s
  obtain ⟨_, ⟨hlog, _⟩ | ⟨hshell, hlog, _⟩⟩ := perform_log env .checklist call args s
  · exact ⟨_, hlog, h.checklist call.tool call.permitted⟩
  · exact ⟨_, hlog, h.checklistCleanup (call.permitted (by rw [hshell]; rfl))⟩

/-- A criterion hides what its command raised. -/
theorem Allows.criterion (command : String) : Keeps (P.law X) (runCriterion env command) := by
  have hkeeps : Keeps (P.hidden.law X) (ToolExecutor.execute env .checklist (.str "run_shell")
      [("command", .str command), ("timeout", .int 30)]) :=
    (stepLaws env).execute fun call => h.performCriterion call _
  intro s
  unfold runCriterion
  rcases hrun : (ToolExecutor.execute env .checklist (.str "run_shell")
    [("command", .str command), ("timeout", .int 30)]).run s with ⟨e | result, t⟩
  · rw [run_tryExcept_caught (run_bind_error hrun) rfl]
    exact hkeeps.error hrun
  · rw [run_tryExcept_ok (run_bind_ok hrun)]
    exact hkeeps.ok hrun

theorem Allows.answerReview (progress : ReviewProgress) (raw : PyValue) :
    Keeps (P.law X) (answerReview env progress raw) := by
  intro s
  obtain ⟨r, t, new, hrun, hne, _, hlog, hreview⟩ := answerReview_log env progress raw s
  rw [hrun]
  refine ⟨_, hlog, ?_⟩
  rw [decide_eq_false]
  · exact h.review raw new hreview
  · cases r with
    | ok a => simp
    | error e =>
      rw [hne e rfl]
      simp

theorem Allows.loopLaws : LoopLaws env (P.law X) where
  toStepLaws := stepLaws env
  commit _ _ _ _ _ _ := (stepLaws env).commitToolAction (fun _ => keeps_modify fun _ => rfl) _ _ _ _ _
  perform call args := h.perform call args
  model _ _ := keeps_of_silent (silent_outer _)
  criterion command := h.criterion command
  answerReview progress raw := h.answerReview progress raw
  forgives _ he := forgives he
  late _ he := late he

omit h

/-! ## The whole run -/

variable (P) (env : AgentEnv X)

theorem startLaws : StartLaws env (P.law X) where
  toStoreLaws := (stepLaws env).toStoreLaws
  enter _ _ _ := keeps_modify fun _ => rfl

theorem endLaws : EndLaws env (P.law X) where
  toStoreLaws := (stepLaws env).toStoreLaws
  settle _ _ := keeps_modify fun _ => rfl
  emitEnd := keeps_emitEnd (stepLaws env).storage (keeps_modify fun _ => rfl)
    (fun _ => keeps_modify fun _ => rfl) fun _ => keeps_modify fun _ => rfl

theorem keeps_handleEnd (failure : Failure) : Keeps (P.law X) (handleEnd env failure) :=
  (endLaws P env).handleEnd (fun _ => keeps_modify fun _ => rfl) failure

variable {P} {env}

theorem Allows.runBody (h : P.Allows env) (userMessage : String) :
    Keeps (P.law X) (runBody env userMessage) :=
  Keeps.bind (h.loopLaws.planAndLoop userMessage) fun ending =>
    (endLaws P env).finishLoop userMessage ending

end LogLaw

end ThreadForge

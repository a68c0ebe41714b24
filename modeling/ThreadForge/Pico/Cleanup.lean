import ThreadForge.Pico.Steady
import Mathlib.Data.List.Basic

/-!
# A shell process that could not be proven gone

`ProcessCleanupFailed` ends a run that gets to see it: the main loop passes it on, and
`AgentLoop.run` makes a failed run of it. The checklist and the review run shell commands behind
handlers that catch every exception, and go on.
-/

namespace ThreadForge

open Eff AgentM

variable {X : Type}

/-! ## The law of the log -/

/-- Where `ProcessCleanupFailed` was raised, the last thing that happened is that the cleanup of a
shell command of the main loop failed, for the first time; else no such cleanup failed. -/
def cleanupLaw : LogLaw where
  holds new raised :=
    if raised then ∃ before, new = before ++ [.started .main .runShell, .cleanupFailed .main] ∧
      .cleanupFailed .main ∉ before
    else .cleanupFailed .main ∉ new
  sites h := by
    rw [if_neg (by simp)]
    intro hmem
    obtain ⟨site, heq⟩ := h _ hmem
    cases heq
  append {new more raised} hnew hmore := by
    rw [if_neg (by simp)] at hnew
    cases raised with
    | false =>
      rw [if_neg (by simp)] at hmore ⊢
      exact fun hmem => (List.mem_append.mp hmem).elim hnew hmore
    | true =>
      rw [if_pos rfl] at hmore ⊢
      obtain ⟨before, rfl, hbefore⟩ := hmore
      refine ⟨new ++ before, (List.append_assoc _ _ _).symm, ?_⟩
      exact fun hmem => (List.mem_append.mp hmem).elim hnew hbefore

theorem cleanupLaw_allows (env : AgentEnv X) : cleanupLaw.Allows env where
  main tool _ := by simp [cleanupLaw]
  mainCleanup _ := ⟨[], rfl, by simp⟩
  checklist tool _ := by simp [cleanupLaw]
  checklistCleanup _ := by simp [cleanupLaw]
  review raw new h := by
    rcases h with ⟨rfl, _⟩ | ⟨tool, rfl, _⟩ | ⟨rfl, _⟩ <;> simp [cleanupLaw]

/-! ## The result -/

/-- After a cleanup that failed no runner is started, and the run ends as failed. -/
def CleanupEndsRun (new : List Event) (t : AgentState X) : Prop :=
  ∀ before route after, new = before ++ .cleanupFailed route :: after →
    (∀ route' tool, .started route' tool ∉ after) ∧ t.task.status = .failed ∧
      t.task.stopReason = some .processCleanupFailed

/-- Every cleanup that failed was one of the main loop. -/
def MainCleanupsOnly (new : List Event) : Prop :=
  ∀ route, .cleanupFailed route ∈ new → route = .main

/-- A list of sites. -/
def Sites (new : List Event) : Prop := ∀ event ∈ new, ∃ site, event = .site site

theorem Sites.not_started {new : List Event} (h : Sites new) (route : Route) (tool : ToolName) :
    .started route tool ∉ new := by
  intro hmem
  obtain ⟨site, heq⟩ := h _ hmem
  cases heq

theorem Sites.not_cleanup {new : List Event} (h : Sites new) (route : Route) :
    .cleanupFailed route ∉ new := by
  intro hmem
  obtain ⟨site, heq⟩ := h _ hmem
  cases heq

/-- Only sites are added to the log, and no cleanup failed. -/
def sitesLaw : LogLaw where
  holds new raised := Sites new ∧ raised = false
  sites h := ⟨h, rfl⟩
  append hnew hmore :=
    ⟨fun event hmem => (List.mem_append.mp hmem).elim (hnew.1 event) (hmore.1 event), hmore.2⟩

/-! ## The ends of a run -/

/-- What follows the decision of `endCleanupFailed` leaves it. -/
theorem endCleanupFailed_outcome (env : AgentEnv X) (s : AgentState X) :
    ((endCleanupFailed env).run s).2.task.status = .failed ∧
      ((endCleanupFailed env).run s).2.task.stopReason = some .processCleanupFailed := by
  let decided : RunLaw (AgentState X) Failure := {
    holds := fun s _ t => t.task.status = s.task.status ∧ t.task.stopReason = s.task.stopReason
    refl := fun _ => ⟨rfl, rfl⟩
    trans := fun h h' => ⟨h'.1.trans h.1, h'.2.trans h.2⟩ }
  have hsteady : ∀ {A : Type} {m : AgentM X A}, Keeps (steady X) m → Keeps decided m := by
    intro A m hm s
    have hout := (hm s).1
    exact ⟨congrArg TaskState.Outcome.status hout, congrArg TaskState.Outcome.stopReason hout⟩
  have hsteps := stepLaws_steady env
  have hend : Keeps decided (emitEnd env) :=
    keeps_emitEnd (fun call hcall => hsteady (hsteps.storage call hcall)) (fun _ => ⟨rfl, rfl⟩)
      (fun _ _ => ⟨rfl, rfl⟩) fun _ _ => ⟨rfl, rfl⟩
  have hrest : Keeps decided (do
      writeTaskState env
      emitEnd env
      pure "agent run failed: shell process cleanup could not be confirmed") :=
    Keeps.bind (hsteady hsteps.writeTaskState) fun _ => Keeps.bind hend fun _ => Keeps.pure _
  exact hrest _

/-- A run that begins is running. -/
theorem startRun_running {env : AgentEnv X} {userMessage taskId runId : String}
    {s u : AgentState X} (hrun : (startRun env userMessage taskId runId).run s = (.ok (), u)) :
    u.task.status ≠ .failed := by
  unfold startRun at hrun
  obtain ⟨_, v, _, hrun⟩ := bind_eq_ok hrun
  obtain ⟨_, w, _, hrun⟩ := bind_eq_ok hrun
  rw [run_modify_bind] at hrun
  have hstore := storeLaws_unfailed env
  have hrest : Keeps (unfailed X) (do
      service env .startRun
      emitProgress env ("run " ++ runId ++ " started")
      emitTrace env "run_started"
      onTask fun t => t.setPhase .understandRequest "Gather the minimum workspace context"
        "Understand the request and acceptance criteria"
      writeTaskState env
      emitAgentState env) := by
    refine Keeps.bind (hstore.storage _ rfl) fun _ => ?_
    refine Keeps.bind (hstore.emitProgress _) fun _ => ?_
    refine Keeps.bind (hstore.emitTrace _) fun _ => ?_
    refine Keeps.bind (hstore.onTask _ ⟨fun _ => rfl, fun _ => rfl⟩) fun _ => ?_
    exact Keeps.bind hstore.writeTaskState fun _ => hstore.emitAgentState
  exact hrest.ok hrun (by simp)

/-! ## The law of a run -/

/-- A run in whose log no cleanup of the main loop failed, and which is not a failed one. -/
theorem cleanupEndsRun_of_unfailed {new : List Event} {t : AgentState X}
    (hmain : .cleanupFailed .main ∉ new) (ht : t.task.status ≠ .failed) :
    CleanupEndsRun new t ↔ MainCleanupsOnly new := by
  constructor
  · intro h route hmem
    obtain ⟨before, after, hsplit⟩ := List.append_of_mem hmem
    exact absurd (h before route after hsplit).2.1 ht
  · intro h before route after hsplit
    have hmem : .cleanupFailed route ∈ new := by
      rw [hsplit]
      exact List.mem_append_right _ List.mem_cons_self
    rw [h route hmem] at hmem
    exact absurd hmem hmain

/-- A run without events but sites. -/
theorem cleanupEndsRun_of_sites {new : List Event} (t : AgentState X) (h : Sites new) :
    CleanupEndsRun new t ↔ MainCleanupsOnly new := by
  refine iff_of_true ?_ fun route hmem => absurd hmem (h.not_cleanup route)
  intro before route after hsplit
  refine absurd ?_ (h.not_cleanup route)
  rw [hsplit]
  exact List.mem_append_right _ List.mem_cons_self

/-- A run that a failed cleanup of the main loop ended. -/
theorem cleanupEndsRun_of_failed {before tail : List Event} {t : AgentState X}
    (hbefore : .cleanupFailed .main ∉ before) (htail : Sites tail)
    (hstatus : t.task.status = .failed) (hreason : t.task.stopReason = some .processCleanupFailed) :
    CleanupEndsRun (before ++ [.started .main .runShell, .cleanupFailed .main] ++ tail) t ↔
      MainCleanupsOnly (before ++ [.started .main .runShell, .cleanupFailed .main] ++ tail) := by
  have hshape : before ++ [.started .main .runShell, .cleanupFailed .main] ++ tail =
      (before ++ [.started .main .runShell]) ++ .cleanupFailed .main :: tail := by simp
  rw [hshape]
  constructor
  · intro h route hmem
    rcases List.mem_append.mp hmem with hmem | hmem
    · -- a runner of the main loop was started after this cleanup
      rcases List.mem_append.mp hmem with hmem | hmem
      · obtain ⟨first, rest, rfl⟩ := List.append_of_mem hmem
        have hafter := (h first route
          (rest ++ [.started .main .runShell] ++ .cleanupFailed .main :: tail) (by simp)).1
        exact absurd (by simp) (hafter .main .runShell)
      · cases List.mem_singleton.mp hmem
    · rcases List.mem_cons.mp hmem with heq | hmem
      · cases heq
        rfl
      · exact absurd hmem (htail.not_cleanup route)
  · intro h first route after hsplit
    have hroute : route = .main := by
      refine h route ?_
      rw [hsplit]
      exact List.mem_append_right _ List.mem_cons_self
    subst hroute
    have hfirst : .cleanupFailed .main ∉ before ++ [.started .main .runShell] := by
      simp [hbefore]
    -- this is the only cleanup of the main loop, so only sites follow it
    obtain ⟨_, _, rfl⟩ := (List.append_cons_inj_of_notMem hfirst (htail.not_cleanup .main)).mp hsplit
    exact ⟨fun route' tool => htail.not_started route' tool, hstatus, hreason⟩

/-- **A cleanup that failed ends the run as failed, with no runner started after it, exactly when no
cleanup failed on the route of the checklist or of the review.** -/
theorem cleanupEndsRun_iff (env : AgentEnv X) (userMessage taskId runId : String)
    (s : AgentState X) :
    ∃ new, ((AgentLoop.run env userMessage taskId runId).run s).2.log = s.log ++ new ∧
      (CleanupEndsRun new ((AgentLoop.run env userMessage taskId runId).run s).2 ↔
        MainCleanupsOnly new) := by
  have hsites := LogLaw.startLaws sitesLaw env
  have hlaw := (cleanupLaw_allows env).runBody userMessage
  have hunfailed : Keeps (unfailed X) (runBody env userMessage) :=
    Keeps.bind (fun s => unfailed_of_steady ((loopLaws_steady env).planAndLoop userMessage s))
      fun ending => (endLaws_unfailed env).finishLoop userMessage ending
  generalize hend : ((AgentLoop.run env userMessage taskId runId).run s).2 = t
  have hshape := runShape env userMessage taskId runId s
  rw [hend] at hshape
  cases hshape with
  | unstarted e hstart =>
    obtain ⟨new, hlog, hnew, _⟩ := (hsites.startRun _ _ _).error hstart
    exact ⟨new, hlog, cleanupEndsRun_of_sites t hnew⟩
  | passed u r hstart hbody huncaught =>
    obtain ⟨start, hlogStart, hstartSites, _⟩ := (hsites.startRun _ _ _).ok hstart
    obtain ⟨body, hlogBody, hbodyLaw⟩ := hlaw u
    have hstatus := hunfailed u (startRun_running hstart)
    rw [hbody] at hlogBody hbodyLaw hstatus
    refine ⟨start ++ body, ?_, cleanupEndsRun_of_unfailed ?_ hstatus⟩
    · rw [hlogBody, hlogStart, List.append_assoc]
    · have hflag : decide (ending r = some Failure.cleanupFailed) = false := by
        refine decide_eq_false ?_
        cases r with
        | ok final => simp
        | error e => exact fun heq => huncaught (congrArg _ (Option.some.inj heq))
      rw [hflag] at hbodyLaw
      exact fun hmem => (List.mem_append.mp hmem).elim (hstartSites.not_cleanup .main) hbodyLaw
  | handled u v e hstart hbody hhandler =>
    obtain ⟨start, hlogStart, hstartSites, _⟩ := (hsites.startRun _ _ _).ok hstart
    obtain ⟨body, hlogBody, hbodyLaw⟩ := hlaw u
    have hstatus := hunfailed u (startRun_running hstart)
    rw [hbody] at hlogBody hbodyLaw hstatus
    obtain ⟨tail, hlogTail, htail, _⟩ := LogLaw.keeps_handleEnd sitesLaw env e v
    rw [hhandler] at hlogTail
    have hlog : t.log = s.log ++ (start ++ body ++ tail) := by
      rw [hlogTail, hlogBody, hlogStart]
      simp only [List.append_assoc]
    refine ⟨start ++ body ++ tail, hlog, ?_⟩
    by_cases hcleanup : e = .cleanupFailed
    · subst hcleanup
      obtain ⟨before, rfl, hbefore⟩ := hbodyLaw
      rw [← List.append_assoc start before]
      refine cleanupEndsRun_of_failed ?_ htail ?_ ?_
      · exact fun hmem => (List.mem_append.mp hmem).elim (hstartSites.not_cleanup .main) hbefore
      · rw [← hhandler]
        exact (endCleanupFailed_outcome env v).1
      · rw [← hhandler]
        exact (endCleanupFailed_outcome env v).2
    · have hflag : decide (ending (.error e : Except Failure String) =
          some Failure.cleanupFailed) = false :=
        decide_eq_false fun heq => hcleanup (Option.some.inj heq)
      rw [hflag] at hbodyLaw
      have hcancelled : handleEnd env e = endCancelled env := by
        cases e with
        | cleanupFailed => exact absurd rfl hcleanup
        | _ => rfl
      refine cleanupEndsRun_of_unfailed ?_ ?_
      · intro hmem
        rcases List.mem_append.mp hmem with hmem | hmem
        · exact (List.mem_append.mp hmem).elim (hstartSites.not_cleanup .main) hbodyLaw
        · exact htail.not_cleanup .main hmem
      · rw [← hhandler, hcancelled]
        exact (endLaws_unfailed env).endCancelled v hstatus

/-- The plan whose one step is done when `make` runs through. -/
def makePlan : String :=
  "\x7b\"steps\": [\x7b\"goal\": \"build\", \"done_when\": [\"cmd:make\"]\x7d]\x7d"

/-- An agent that approves everything, with a plan and without a review. -/
def makeAgent : AgentEnv Script :=
  .scripted
    [(makePlan, .dict [("steps", .list [.dict [("goal", .str "build"),
      ("done_when", .list [.str "cmd:make"])]])])]
    .auto true false

/-- The process of the first shell command cannot be proven gone. -/
def lostShell : ShellResult where
  returncode := 0
  stdout := ""
  stderr := ""
  cleanupSucceeded := false

/-- The checklist runs `make`; then the model asks for a listing and gives an answer. -/
def makeScript : Script where
  replies := [.dict [("name", .str "list_files"), ("args", .dict [])], .str "<final>done</final>"]
  plans := [.str makePlan]
  shells := [lostShell]

/-- A run whose checklist met a failed cleanup lists files after it, and completes. -/
theorem checklist_hides_cleanup :
    ¬CleanupEndsRun
      ((AgentLoop.run makeAgent "build it" "task_1" "run_1").run (.fresh makeScript)).2.log
      ((AgentLoop.run makeAgent "build it" "task_1" "run_1").run (.fresh makeScript)).2 := by
  have hended : (((AgentLoop.run makeAgent "build it" "task_1" "run_1").run
      (.fresh makeScript)).2.log.any fun event =>
        match event with
        | .cleanupFailed .checklist => true
        | _ => false) = true ∧
      ((AgentLoop.run makeAgent "build it" "task_1" "run_1").run
        (.fresh makeScript)).2.task.status = .completed := by
    decide +kernel
  obtain ⟨hfailed, hstatus⟩ := hended
  intro h
  obtain ⟨event, hmem, hevent⟩ := List.any_eq_true.mp hfailed
  split at hevent
  · obtain ⟨before, after, hsplit⟩ := List.append_of_mem hmem
    have hfailedStatus := (h before .checklist after hsplit).2.1
    rw [hstatus] at hfailedStatus
    cases hfailedStatus
  · cases hevent

end ThreadForge

import ThreadForge.Pico.RunLog

/-!
# Risky tools of an agent that refuses them

An agent that is read-only, or whose strategy is the one of the policies `never` and `plan`, approves
no risky tool (`approveOutcome`). The main loop and the checklist ask it; the review does not, and
runs a shell command where its model asks for one.
-/

namespace ThreadForge

open Eff AgentM

variable {X : Type}

/-- No runner of a risky tool was started. -/
def NoRiskyRunner (log : List Event) : Prop :=
  ∀ route tool, .started route tool ∈ log → tool.risky = false

/-- No reply of the review asks for a shell command that may be run. -/
def NoShellReview (env : AgentEnv X) (log : List Event) : Prop :=
  ∀ raw, .reviewReply raw ∈ log → ¬AsksForShell env raw

/-! ## The law -/

theorem noRiskyRunner_append {new more : List Event} :
    NoRiskyRunner (new ++ more) ↔ NoRiskyRunner new ∧ NoRiskyRunner more := by
  constructor
  · intro h
    exact ⟨fun route tool hmem => h route tool (List.mem_append_left _ hmem),
      fun route tool hmem => h route tool (List.mem_append_right _ hmem)⟩
  · rintro ⟨hnew, hmore⟩ route tool hmem
    rcases List.mem_append.mp hmem with hmem | hmem
    · exact hnew route tool hmem
    · exact hmore route tool hmem

theorem noShellReview_append {env : AgentEnv X} {new more : List Event} :
    NoShellReview env (new ++ more) ↔ NoShellReview env new ∧ NoShellReview env more := by
  constructor
  · intro h
    exact ⟨fun raw hmem => h raw (List.mem_append_left _ hmem),
      fun raw hmem => h raw (List.mem_append_right _ hmem)⟩
  · rintro ⟨hnew, hmore⟩ raw hmem
    rcases List.mem_append.mp hmem with hmem | hmem
    · exact hnew raw hmem
    · exact hmore raw hmem

/-- One event that starts no risky runner and is no reply of the review. -/
theorem noRiskyRunner_started {route : Route} {tool : ToolName} :
    NoRiskyRunner [.started route tool] ↔ tool.risky = false := by
  constructor
  · intro h
    exact h route tool List.mem_cons_self
  · intro h route' tool' hmem
    cases List.mem_singleton.mp hmem
    exact h

/-- Risky runners are started exactly where the review asks for a shell command. -/
def refusalLaw (env : AgentEnv X) : LogLaw where
  holds new _ := NoRiskyRunner new ↔ NoShellReview env new
  sites {new} h := by
    refine iff_of_true ?_ ?_
    · intro route tool hmem
      obtain ⟨site, heq⟩ := h _ hmem
      cases heq
    · intro raw hmem
      obtain ⟨site, heq⟩ := h _ hmem
      cases heq
  append hnew hmore := by
    rw [noRiskyRunner_append, noShellReview_append, hnew, hmore]

/-- A runner of a tool that is not risky, on a route that is not the one of the review. -/
theorem refusalLaw_started (env : AgentEnv X) (hrefuse : env.refusing = true) (route : Route)
    {tool : ToolName} (hpermitted : tool.risky = true → env.refusing = false) (raised : Bool) :
    (refusalLaw env).holds [.started route tool] raised := by
  refine iff_of_true (noRiskyRunner_started.mpr ?_) ?_
  · by_contra hrisky
    rw [hpermitted (Bool.not_eq_false _ ▸ hrisky)] at hrefuse
    cases hrefuse
  · intro raw hmem
    cases List.mem_singleton.mp hmem

theorem refusalLaw_review (env : AgentEnv X) {raw : PyValue} {new : List Event}
    (h : ReviewLog env raw new) : NoRiskyRunner (.reviewReply raw :: new) ↔
      NoShellReview env (.reviewReply raw :: new) := by
  have hreviews : NoShellReview env (.reviewReply raw :: new) ↔ ¬AsksForShell env raw := by
    constructor
    · intro hno
      exact hno raw List.mem_cons_self
    · intro hno raw' hmem
      rcases List.mem_cons.mp hmem with heq | hmem
      · cases heq
        exact hno
      · rcases h with ⟨rfl, _⟩ | ⟨tool, rfl, _⟩ | ⟨rfl, _⟩ <;> simp at hmem
  rw [hreviews]
  rcases h with ⟨rfl, hno⟩ | ⟨tool, rfl, hreads, hshell⟩ | ⟨rfl, hasks⟩
  · refine iff_of_true ?_ hno
    intro route tool hmem
    cases List.mem_singleton.mp hmem
  · rw [← hshell]
    constructor
    · rintro hno rfl
      cases hno .review .runShell (List.mem_cons_of_mem _ List.mem_cons_self)
    · intro hno route tool' hmem
      simp only [List.mem_cons, reduceCtorEq, false_or, Event.started.injEq, List.not_mem_nil,
        or_false] at hmem
      obtain ⟨_, rfl⟩ := hmem
      revert hreads hno
      cases tool' <;> decide
  · refine iff_of_false ?_ (not_not_intro hasks)
    intro hno
    cases hno .review .runShell (List.mem_cons_of_mem _ List.mem_cons_self)

theorem refusalLaw_allows {env : AgentEnv X} (hrefuse : env.refusing = true) :
    (refusalLaw env).Allows env where
  main tool hpermitted := refusalLaw_started env hrefuse .main hpermitted false
  mainCleanup hfalse := by
    rw [hrefuse] at hfalse
    cases hfalse
  checklist tool hpermitted := refusalLaw_started env hrefuse .checklist hpermitted false
  checklistCleanup hfalse := by
    rw [hrefuse] at hfalse
    cases hfalse
  review raw new h := refusalLaw_review env h

/-- A law of the log that does not mind what was raised holds of every run. -/
theorem refusalLaw_run {env : AgentEnv X} (hrefuse : env.refusing = true)
    (userMessage taskId runId : String) :
    Keeps ((refusalLaw env).law X) (AgentLoop.run env userMessage taskId runId) := by
  refine Keeps.bind ((LogLaw.startLaws _ env).startRun _ _ _) fun _ => ?_
  refine Keeps.tryExcept ((refusalLaw_allows hrefuse).runBody userMessage) ?_ ?_
  · rintro e _ s t ⟨new, hlog, hlaw⟩
    exact ⟨new, hlog, hlaw⟩
  · intro e _
    exact LogLaw.keeps_handleEnd _ env e

/-! ## The result -/

/-- **In a mode that refuses risky tools, a run starts a runner of a risky tool exactly when a reply
of the review asks for a shell command that may be run.** -/
theorem noRiskyRunner_iff (env : AgentEnv X) (hrefuse : env.refusing = true)
    (userMessage taskId runId : String) (s : AgentState X) :
    ∃ new, ((AgentLoop.run env userMessage taskId runId).run s).2.log = s.log ++ new ∧
      (NoRiskyRunner new ↔ NoShellReview env new) :=
  refusalLaw_run hrefuse userMessage taskId runId s

/-- The review's reply that asks for `touch x`. -/
def touchReply : String :=
  "\x7b\"name\": \"run_shell\", \"args\": \x7b\"command\": \"touch x\"\x7d\x7d"

/-- An agent with the policy `never`, and what its JSON texts mean. -/
def neverAgent : AgentEnv Script :=
  .scripted
    [(touchReply, .dict [("name", .str "run_shell"), ("args", .dict [("command", .str "touch x")])])]
    (.forPolicy .ascii "never") false true

/-- The model asks for a write, which is refused, and gives an answer; the review asks for a shell
command. -/
def touchScript : Script where
  replies := [.dict [("name", .str "write_file"),
    ("args", .dict [("path", .str "a"), ("content", .str "x")])], .str "<final>done</final>"]
  reviews := [.str touchReply]

/-- The review of an agent with the policy `never` runs a shell command. -/
theorem review_runs_shell_unasked :
    neverAgent.refusing = true ∧
      ¬NoRiskyRunner
        ((AgentLoop.run neverAgent "do it" "task_1" "run_1").run (.fresh touchScript)).2.log := by
  have hstarted : (((AgentLoop.run neverAgent "do it" "task_1" "run_1").run
      (.fresh touchScript)).2.log.any fun event =>
        match event with
        | .started .review .runShell => true
        | _ => false) = true := by
    decide +kernel
  refine ⟨by decide, fun hno => ?_⟩
  obtain ⟨event, hmem, hevent⟩ := List.any_eq_true.mp hstarted
  split at hevent
  · cases hno .review .runShell hmem
  · cases hevent

/-- A run of the agent whose model only reads. -/
theorem noRiskyRunner_iff_reading :
    neverAgent.refusing = true ∧
      ∃ new, ((AgentLoop.run neverAgent "do it" "task_1" "run_1").run
          (.fresh { replies := [.str "<final>done</final>"] })).2.log = [] ++ new ∧
        (NoRiskyRunner new ↔ NoShellReview neverAgent new) :=
  ⟨by decide, noRiskyRunner_iff neverAgent (by decide) "do it" "task_1" "run_1" _⟩

end ThreadForge

import ThreadForge.Pico.AgentLoop
import ThreadForge.Pico.ToolResults
import Mathlib.Data.List.Forall2

/-!
# Results that count as a write

A result that went well and is not marked as read-only is one of `write_file`, `patch_file` or
`run_shell` (`NamesWrite`): the executor marks a result by the tool it ran, and what it turned away did
not go well. The results of a batch are those of its calls, each with its own name
(`executeBatch_namesWrite`).
-/

namespace ThreadForge

open Eff AgentM

variable {X : Type} {env : AgentEnv X}

/-- The name is one of the tools that may write. -/
def isWriteName (name : PyValue) : Bool :=
  ["write_file", "patch_file", "run_shell"].any fun tool => name = .str tool

/-- A result of a call of this name that went well and may have written has the name of such a
tool. -/
def NamesWrite (name : PyValue) (result : ToolResult) : Prop :=
  result.status.succeeded = true → result.readOnly = false → isWriteName name = true

theorem NamesWrite.of_rejected {name : PyValue} {result : ToolResult}
    (h : result.status = .rejected) : NamesWrite name result := by
  intro hsucceeded _
  rw [h] at hsucceeded
  cases hsucceeded

theorem isWriteName_of_risky {tool : ToolName} (h : tool.risky = true) :
    isWriteName (.str tool.text) = true := by
  cases tool with
  | listFiles | readFile | search => cases h
  | writeFile | patchFile | runShell => decide

/-! ## One call -/

/-- What the executor concludes is marked by the tool it ran. -/
theorem conclude_readOnly {name : PyValue} {call : ReadyCall env name} {args : PyDict}
    {outcome : Except String String} {s t : AgentState X} {result : ToolResult}
    (h : (conclude env call args outcome).run s = (.ok result, t)) :
    result.readOnly = !call.tool.risky := by
  cases outcome with
  | ok content =>
    unfold conclude concludeReturned at h
    obtain ⟨_, _, _, h⟩ := bind_eq_ok h
    dsimp only at h
    obtain ⟨_, _, _, h⟩ := bind_eq_ok h
    obtain ⟨_, _, _, h⟩ := bind_eq_ok h
    obtain ⟨_, _, _, h⟩ := bind_eq_ok h
    cases h
    rfl
  | error problem =>
    unfold conclude concludeFailed at h
    obtain ⟨_, _, _, h⟩ := bind_eq_ok h
    dsimp only at h
    obtain ⟨_, _, _, h⟩ := bind_eq_ok h
    obtain ⟨_, _, _, h⟩ := bind_eq_ok h
    obtain ⟨_, _, _, h⟩ := bind_eq_ok h
    cases h
    rfl

theorem conclude_namesWrite {name : PyValue} {call : ReadyCall env name} {args : PyDict}
    {outcome : Except String String} {s t : AgentState X} {result : ToolResult}
    (h : (conclude env call args outcome).run s = (.ok result, t)) : NamesWrite name result := by
  intro _ hwrite
  rw [conclude_readOnly h] at hwrite
  have hrisky : call.tool.risky = true := by
    cases hr : call.tool.risky with
    | true => rfl
    | false =>
      rw [hr] at hwrite
      cases hwrite
  rw [call.named]
  exact isWriteName_of_risky hrisky

theorem execute_namesWrite {route : Route} {name : PyValue} {args : PyDict} {s t : AgentState X}
    {result : ToolResult} (h : (ToolExecutor.execute env route name args).run s = (.ok result, t)) :
    NamesWrite name result := by
  unfold ToolExecutor.execute at h
  obtain ⟨admitted, _, hcall, h⟩ := bind_eq_ok h
  cases admitted with
  | inl rejected =>
    cases h
    exact .of_rejected (admitCall_ok hcall)
  | inr call =>
    obtain ⟨_, _, _, h⟩ := bind_eq_ok h
    exact conclude_namesWrite h

theorem rejectRepeat_namesWrite {name : PyValue} {s t : AgentState X} {result : ToolResult}
    (h : (rejectRepeat env name).run s = (.ok result, t)) : NamesWrite name result := by
  unfold rejectRepeat at h
  obtain ⟨_, _, _, h⟩ := bind_eq_ok h
  obtain ⟨_, _, _, h⟩ := bind_eq_ok h
  cases h
  exact .of_rejected rfl

theorem executeToolAction_namesWrite {attempts : Nat} {name : PyValue} {args : PyDict}
    {window : List WindowEntry} {s t : AgentState X} {result : ToolResult}
    (h : (executeToolAction env attempts name args window).run s = (.ok result, t)) :
    NamesWrite name result := by
  unfold executeToolAction at h
  obtain ⟨repeated, _, _, h⟩ := bind_eq_ok h
  split at h
  · exact rejectRepeat_namesWrite h
  · exact execute_namesWrite h

/-! ## A batch -/

/-- A stage that has a result has one for its name. -/
def StageNames {name : String} (stage : JobStage env (.str name)) : Prop :=
  ∀ result, stage = .done (.ok result) → NamesWrite (.str name) result

theorem stepStage_names {attempts : Nat} {window : List WindowEntry} {name : String}
    {args : PyDict} {stage stage' : JobStage env (.str name)} {s t : AgentState X}
    (hstage : StageNames stage)
    (h : (stepStage env attempts window name args stage).run s = (.ok stage', t)) :
    StageNames stage' := by
  cases stage with
  | queued =>
    unfold stepStage at h
    obtain ⟨repeated, _, _, h⟩ := bind_eq_ok h
    split at h
    · obtain ⟨result, _, hreject, h⟩ := bind_eq_ok h
      cases h
      intro result' heq
      cases heq
      exact rejectRepeat_namesWrite hreject
    · cases h
      intro result heq
      cases heq
  | checked =>
    unfold stepStage at h
    obtain ⟨admitted, _, hcall, h⟩ := bind_eq_ok h
    cases admitted with
    | inl rejected =>
      cases h
      intro result heq
      cases heq
      exact .of_rejected (admitCall_ok hcall)
    | inr call =>
      cases h
      intro result heq
      cases heq
  | ready call =>
    unfold stepStage at h
    obtain ⟨outcome, _, _, h⟩ := bind_eq_ok h
    cases h
    intro result heq
    cases heq
  | ran call outcome =>
    unfold stepStage at h
    obtain ⟨result, _, hconclude, h⟩ := bind_eq_ok h
    cases h
    intro result' heq
    cases heq
    exact conclude_namesWrite hconclude
  | done result =>
    cases h
    exact hstage

theorem stepJob_names {attempts : Nat} {window : List WindowEntry} {job job' : Job env}
    {s t : AgentState X} (hjob : StageNames job.stage)
    (h : (stepJob env attempts window job).run s = (.ok job', t)) :
    job'.name = job.name ∧ StageNames job'.stage := by
  unfold stepJob at h
  rcases hstage : (stepStage env attempts window job.name job.args job.stage).run s with
    ⟨e | stage, u⟩
  · rw [run_bind_ok (run_capture hstage)] at h
    cases h
    refine ⟨rfl, fun result heq => ?_⟩
    cases heq
  · rw [run_bind_ok (run_capture hstage)] at h
    cases h
    exact ⟨rfl, stepStage_names hjob hstage⟩

/-- The jobs have results for their names, and these are the names of the calls. -/
def JobsNamed (names : List String) (jobs : List (Job env)) : Prop :=
  jobs.map Job.name = names ∧ ∀ job ∈ jobs, StageNames job.stage

theorem JobsNamed.cons {name : String} {names : List String} {job : Job env}
    {jobs : List (Job env)} (hname : job.name = name) (hjob : StageNames job.stage)
    (hjobs : JobsNamed names jobs) : JobsNamed (name :: names) (job :: jobs) := by
  refine ⟨?_, ?_⟩
  · rw [List.map_cons, hname, hjobs.1]
  · intro job' hmem
    rcases List.mem_cons.mp hmem with rfl | hmem
    · exact hjob
    · exact hjobs.2 job' hmem

theorem stepNth_names {attempts : Nat} {window : List WindowEntry} :
    ∀ {n : Nat} {names : List String} {jobs jobs' : List (Job env)} {s t : AgentState X},
      JobsNamed names jobs → (stepNth env attempts window n jobs).run s = (.ok jobs', t) →
      JobsNamed names jobs'
  | _, _, [], _, _, _, hjobs, h => by
    unfold stepNth at h
    cases h
    exact hjobs
  | n, _, job :: jobs, _, _, _, hjobs, h => by
    obtain ⟨rfl, hsound⟩ := hjobs
    have hhead : StageNames job.stage := hsound job List.mem_cons_self
    have htail : JobsNamed (jobs.map Job.name) jobs :=
      ⟨rfl, fun job' hmem => hsound job' (List.mem_cons_of_mem _ hmem)⟩
    unfold stepNth at h
    split at h
    · obtain ⟨later, _, hlater, h⟩ := bind_eq_ok h
      cases h
      exact .cons rfl hhead (stepNth_names htail hlater)
    · cases n with
      | zero =>
        obtain ⟨stepped, _, hstep, h⟩ := bind_eq_ok h
        cases h
        obtain ⟨hname, hstage⟩ := stepJob_names hhead hstep
        exact .cons hname hstage htail
      | succ n =>
        obtain ⟨later, _, hlater, h⟩ := bind_eq_ok h
        cases h
        exact .cons rfl hhead (stepNth_names htail hlater)

theorem runPicks_names {attempts : Nat} {window : List WindowEntry} {names : List String} :
    ∀ {picks : List Nat} {jobs jobs' : List (Job env)} {s t : AgentState X},
      JobsNamed names jobs → (runPicks env attempts window picks jobs).run s = (.ok jobs', t) →
      JobsNamed names jobs'
  | [], _, _, _, _, hjobs, h => by
    cases h
    exact hjobs
  | _ :: _, _, _, _, _, hjobs, h => by
    unfold runPicks at h
    obtain ⟨_, _, hstep, h⟩ := bind_eq_ok h
    exact runPicks_names (stepNth_names hjobs hstep) h

theorem finishStage_names {attempts : Nat} {window : List WindowEntry} {name : String}
    {args : PyDict} {stage : JobStage env (.str name)} {s t : AgentState X} {result : ToolResult}
    (hstage : StageNames stage)
    (h : (finishStage env attempts window name args stage).run s = (.ok result, t)) :
    NamesWrite (.str name) result := by
  cases stage with
  | queued => exact executeToolAction_namesWrite h
  | checked => exact execute_namesWrite h
  | ready call =>
    unfold finishStage at h
    obtain ⟨_, _, _, h⟩ := bind_eq_ok h
    exact conclude_namesWrite h
  | ran call outcome => exact conclude_namesWrite h
  | done ended =>
    have hended : ended = .ok result := congrArg Prod.fst h
    exact hstage result (by rw [hended])

theorem finishJobs_names {attempts : Nat} {window : List WindowEntry} :
    ∀ {names : List String} {jobs : List (Job env)} {results : List (Except Failure ToolResult)}
      {s t : AgentState X}, JobsNamed names jobs →
      (finishJobs env attempts window jobs).run s = (.ok results, t) →
      List.Forall₂ (fun name ended => ∀ result, ended = .ok result →
        NamesWrite (.str name) result) names results
  | _, [], _, _, _, hjobs, h => by
    unfold finishJobs at h
    cases h
    rw [← hjobs.1]
    exact .nil
  | _, job :: jobs, _, s, _, hjobs, h => by
    obtain ⟨rfl, hsound⟩ := hjobs
    unfold finishJobs at h
    obtain ⟨ended, u, hended, h⟩ := bind_eq_ok h
    obtain ⟨later, _, hlater, h⟩ := bind_eq_ok h
    cases h
    refine .cons ?_ (finishJobs_names
      ⟨rfl, fun job' hmem => hsound job' (List.mem_cons_of_mem _ hmem)⟩ hlater)
    rintro result rfl
    rcases hstage : (finishStage env attempts window job.name job.args job.stage).run s with ⟨r, v⟩
    rw [run_capture hstage] at hended
    cases hended
    exact finishStage_names (hsound job List.mem_cons_self) hstage

/-- The values of results that are all values. -/
theorem values_of_mapM_ok {A : Type} {P : String → A → Prop} :
    ∀ {names : List String} {results : List (Except Failure A)} {values : List A},
      List.Forall₂ (fun name ended => ∀ a, ended = .ok a → P name a) names results →
      results.mapM id = .ok values → List.Forall₂ P names values
  | _, _, values, .nil, h => by
    cases h
    exact .nil
  | _, ended :: results, values, .cons hhead htail, h => by
    rw [List.mapM_cons] at h
    cases ended with
    | error e => cases h
    | ok a =>
      rcases hrest : results.mapM id with e | later
      · rw [hrest] at h
        cases h
      · rw [hrest] at h
        cases h
        exact .cons (hhead a rfl) (values_of_mapM_ok htail hrest)

theorem runConcurrent_names {attempts : Nat} {window : List WindowEntry} {calls : List BatchCall}
    {results : List ToolResult} {s t : AgentState X}
    (h : (runConcurrent env attempts window calls).run s = (.ok results, t)) :
    List.Forall₂ (fun name result => NamesWrite (.str name) result)
      (calls.map (BatchCall.nameText env.txt)) results := by
  unfold runConcurrent at h
  obtain ⟨_, _, _, h⟩ := bind_eq_ok h
  obtain ⟨jobs, _, hpicks, h⟩ := bind_eq_ok h
  obtain ⟨ended, _, hfinish, h⟩ := bind_eq_ok h
  have hqueued : JobsNamed (calls.map (BatchCall.nameText env.txt)) (calls.map fun call =>
      ({ name := call.nameText env.txt, args := call.args } : Job env)) := by
    refine ⟨?_, ?_⟩
    · rw [List.map_map]
      rfl
    · intro job hmem result hstage
      obtain ⟨call, _, rfl⟩ := List.mem_map.mp hmem
      cases hstage
  have hreleased : ended.mapM id = .ok results := congrArg Prod.fst h
  exact values_of_mapM_ok (finishJobs_names (runPicks_names hqueued hpicks) hfinish) hreleased

theorem runSerial_names {attempts : Nat} {window : List WindowEntry} :
    ∀ {calls : List BatchCall} {results : List ToolResult} {s t : AgentState X},
      (runSerial env attempts window calls).run s = (.ok results, t) →
      List.Forall₂ (fun name result => NamesWrite (.str name) result)
        (calls.map (BatchCall.nameText env.txt)) results
  | [], _, _, _, h => by
    cases h
    exact .nil
  | call :: calls, _, _, _, h => by
    unfold runSerial at h
    obtain ⟨result, _, hresult, h⟩ := bind_eq_ok h
    obtain ⟨later, _, hlater, h⟩ := bind_eq_ok h
    cases h
    exact .cons (executeToolAction_namesWrite hresult) (runSerial_names hlater)

/-- Each call of a group has the result at its place. -/
theorem namesWrite_of_mem_zip {txt : PyText} : ∀ {group : List (Nat × BatchCall)}
    {results : List ToolResult}, List.Forall₂ (fun name result => NamesWrite (.str name) result)
      ((group.map Prod.snd).map (BatchCall.nameText txt)) results →
    ∀ item ∈ group.zip results, NamesWrite (.str (item.1.2.nameText txt)) item.2
  | [], _, _, _, hmem => by cases hmem
  | call :: group, _, .cons hhead htail, item, hmem => by
    rcases List.mem_cons.mp hmem with rfl | hmem
    · exact hhead
    · exact namesWrite_of_mem_zip htail item hmem

/-- **The results of a batch are named.** -/
theorem executeBatch_namesWrite {attempts : Nat} {window : List WindowEntry}
    {calls : List BatchCall} {executed : List (BatchCall × ToolResult)} {s t : AgentState X}
    (h : (executeBatch env attempts window calls).run s = (.ok executed, t)) :
    ∀ item ∈ executed, NamesWrite (.str (item.1.nameText env.txt)) item.2 := by
  unfold executeBatch at h
  obtain ⟨concurrent, _, hconcurrent, h⟩ := bind_eq_ok h
  obtain ⟨serial, _, hserial, h⟩ := bind_eq_ok h
  cases h
  intro item hmem
  obtain ⟨placed, hplaced, rfl⟩ := List.mem_map.mp hmem
  rcases List.mem_append.mp ((List.mem_insertionSort _).mp hplaced) with hplaced | hplaced
  · exact namesWrite_of_mem_zip (runConcurrent_names hconcurrent) placed hplaced
  · exact namesWrite_of_mem_zip (runSerial_names hserial) placed hplaced

end ThreadForge

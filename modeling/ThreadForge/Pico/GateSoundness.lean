import ThreadForge.Pico.ReviewGate
import ThreadForge.Pico.WriteEvidence
import Mathlib.Data.List.Dedup

/-!
# When the completion gate lets a run pass

`run_review_gate` counts: `_checklist_remaining` takes the number of completed items from that of the
goals. So goals that are missing are made up for by completed items that are no goals, such as those
of the phases, as far as no goal is repeated (`checklistRemaining_eq_zero_iff`). And under the intent
`auto` a run without write evidence is turned back by its last tool alone.

## Main results

* `gateSound_iff`: after every run, the gate is sound exactly where the missing goals and the repeated
  ones are not outnumbered by other completed items, and where a run that tried to write, and never
  succeeded, has a write as its last tool or no answer.
* `not_gateSound`: two goals of which none is completed pass after one write, and a write that failed
  passes after a look into a directory.
-/

namespace ThreadForge

open Eff AgentM

/-! ## Counting -/

section Counting

variable {α : Type*} [DecidableEq α]

/-- The elements of a list that another one has are as many as those of the other that it has. -/
theorem length_dedup_filter_mem_comm (as bs : List α) :
    (as.dedup.filter (· ∈ bs)).length = (bs.dedup.filter (· ∈ as)).length := by
  refine List.Perm.length_eq ?_
  rw [List.perm_ext_iff_of_nodup ((List.nodup_dedup as).filter _) ((List.nodup_dedup bs).filter _)]
  intro a
  simp only [List.mem_filter, List.mem_dedup, decide_eq_true_eq]
  exact And.comm

/-- A list is no longer than the number of elements of another one where what it lacks there, and
what it has more than once, is made up for by elements that it does not have. -/
theorem length_le_length_dedup_iff (as bs : List α) :
    as.length ≤ bs.dedup.length ↔
      (as.dedup.filter (· ∉ bs)).length + (as.length - as.dedup.length) ≤
        (bs.dedup.filter (· ∉ as)).length := by
  have hsplit : ∀ cs ds : List α, cs.dedup.length =
      (cs.dedup.filter (· ∈ ds)).length + (cs.dedup.filter (· ∉ ds)).length := by
    intro cs ds
    rw [cs.dedup.length_eq_length_filter_add fun a => decide (a ∈ ds)]
    simp only [decide_not]
  have has := hsplit as bs
  have hbs := hsplit bs as
  have hcomm := length_dedup_filter_mem_comm as bs
  have hle : as.dedup.length ≤ as.length := (List.dedup_sublist as).length_le
  omega

end Counting

/-! ## The items of a checklist -/

/-- The goals that are not completed, each once. -/
def missingGoals (t : TaskState) : List String :=
  t.checklist.dedup.filter fun item => item ∉ t.completedItems

/-- How often a goal stands in the checklist once more. -/
def repeatedGoals (t : TaskState) : Nat := t.checklist.length - t.checklist.dedup.length

/-- The completed items that are no goals. -/
def otherItems (t : TaskState) : List String :=
  t.completedItems.dedup.filter fun item => item ∉ t.checklist

/-- Nothing remains, as `_checklist_remaining` counts. -/
theorem checklistRemaining_eq_zero_iff (t : TaskState) :
    checklistRemaining t = 0 ↔
      (missingGoals t).length + repeatedGoals t ≤ (otherItems t).length := by
  unfold checklistRemaining missingGoals repeatedGoals otherItems
  rw [Nat.sub_eq_zero_iff_le]
  exact length_le_length_dedup_iff t.checklist t.completedItems

theorem missingGoals_eq_nil_iff (t : TaskState) :
    missingGoals t = [] ↔ ∀ item ∈ t.checklist, item ∈ t.completedItems := by
  unfold missingGoals
  rw [List.filter_eq_nil_iff]
  simp only [List.mem_dedup, decide_eq_true_eq, not_not]

/-! ## What the gate promises -/

variable (txt : PyText) (sha256 : String → String)

/-- `run_review_gate` with a step budget that is not used up. -/
def reviewGateUnlimited (intent : Intent) (t : TaskState) : Except PyError GateStatus := do
  let _ ← roundSignature txt sha256 t
  pure (gateByIntent txt intent t)

/-- A call that may write was tried: the tool was started, or the call has a result. -/
def Event.isWriteAttempt : Event → Bool
  | .started .main tool => tool.risky
  | .site (.result name _ _) => isWriteName name
  | _ => false

/-- Some call that may write was tried, and none went well. -/
def WritesFailed (new : List Event) : Prop :=
  (∃ event ∈ new, event.isWriteAttempt = true) ∧ ¬WriteSucceeded new

instance (new : List Event) : Decidable (WritesFailed new) :=
  inferInstanceAs (Decidable (_ ∧ ¬_))

/-- **The gate is sound for a run**: where it lets the run pass, an explicit checklist is completed if
there is write evidence, and writes that were tried did not all fail. -/
def GateSound (new : List Event) (t : TaskState) : Prop :=
  ∀ intent, intent = .auto ∨ intent = .codeChange →
    reviewGateUnlimited txt sha256 intent t = .ok .pass →
      (hasWriteEvidence t = true → checklistIsExplicit t = true →
        ∀ item ∈ t.checklist, item ∈ t.completedItems) ∧ ¬WritesFailed new

/-- Where goals are missing after a write, other completed items do not make up for them. -/
def GoalsCounted (t : TaskState) : Prop :=
  hasWriteEvidence t = true → checklistIsExplicit t = true → missingGoals t ≠ [] →
    (otherItems t).length < (missingGoals t).length + repeatedGoals t

/-- Where all writes failed, the last tool was one, or there is no answer. -/
def FailureNamed (new : List Event) (t : TaskState) : Prop :=
  WritesFailed new → t.lastTool ∈ ["write_file", "patch_file", "run_shell"] ∨
    pyStrip txt t.finalAnswer = ""

/-- The condition under which the gate is sound: a gate that cannot encode the paths of the evidence
lets nothing pass. -/
def GateMeets (new : List Event) (t : TaskState) : Prop :=
  txt.encodable (toolKeysText txt t) = true → GoalsCounted t ∧ FailureNamed txt new t

variable {txt sha256}

/-- What the gate returns. -/
theorem reviewGateUnlimited_eq_pass_iff {intent : Intent} {t : TaskState} :
    reviewGateUnlimited txt sha256 intent t = .ok .pass ↔
      txt.encodable (toolKeysText txt t) = true ∧ gateByIntent txt intent t = .pass := by
  unfold reviewGateUnlimited roundSignature
  by_cases hencodable : txt.encodable (toolKeysText txt t) = true
  · dsimp only
    rw [if_pos hencodable]
    constructor
    · intro h
      exact ⟨hencodable, Except.ok.inj h⟩
    · rintro ⟨_, h⟩
      rw [h]
      rfl
  · dsimp only
    rw [if_neg hencodable]
    constructor
    · intro h
      cases h
    · rintro ⟨h, _⟩
      exact absurd h hencodable

theorem gateOfChange_eq_pass_iff {t : TaskState} :
    gateOfChange t = .pass ↔ hasWriteEvidence t = true ∧
      (checklistIsExplicit t = false ∨ checklistRemaining t = 0) := by
  unfold gateOfChange
  split
  · next h => exact iff_of_true rfl h
  · next h => exact iff_of_false (fun hpass => by cases hpass) h

/-- Without write evidence, `auto` passes an answer unless the last tool may write. -/
theorem gateByIntent_auto_eq_pass_iff {t : TaskState} (hnone : hasWriteEvidence t = false) :
    gateByIntent txt .auto t = .pass ↔
      ¬(t.lastTool ∈ ["write_file", "patch_file", "run_shell"] ∨ pyStrip txt t.finalAnswer = "") := by
  unfold gateByIntent
  dsimp only
  rw [if_neg (by rw [hnone]; exact Bool.false_ne_true)]
  by_cases htool : t.lastTool ∈ ["write_file", "patch_file", "run_shell"]
  · rw [if_pos htool]
    exact iff_of_false (fun h => by cases h) fun h => h (Or.inl htool)
  rw [if_neg htool]
  by_cases hblank : pyStrip txt t.finalAnswer = ""
  · rw [if_pos hblank]
    exact iff_of_false (fun h => by cases h) fun h => h (Or.inr hblank)
  · rw [if_neg hblank]
    exact iff_of_true rfl fun h => h.elim htool hblank

/-- With write evidence, `auto` is as `code_change`. -/
theorem gateByIntent_auto_of_write {t : TaskState} (hwrite : hasWriteEvidence t = true) :
    gateByIntent txt .auto t = gateOfChange t := by
  unfold gateByIntent
  dsimp only
  rw [if_pos hwrite]

/-- Goals are counted well enough exactly where a gate that passes a change leaves none behind. -/
theorem goalsCounted_iff {t : TaskState} :
    GoalsCounted t ↔ (gateOfChange t = .pass → checklistIsExplicit t = true →
      ∀ item ∈ t.checklist, item ∈ t.completedItems) := by
  constructor
  · intro hcounted hpass hexplicit
    obtain ⟨hwrite, hcomplete⟩ := gateOfChange_eq_pass_iff.mp hpass
    have hzero : checklistRemaining t = 0 := by
      rcases hcomplete with hnot | hzero
      · rw [hexplicit] at hnot
        cases hnot
      · exact hzero
    rw [← missingGoals_eq_nil_iff]
    by_contra hmissing
    have hlt := hcounted hwrite hexplicit hmissing
    have hle := (checklistRemaining_eq_zero_iff t).mp hzero
    omega
  · intro hsound hwrite hexplicit hmissing
    by_contra hnot
    have hzero := (checklistRemaining_eq_zero_iff t).mpr (Nat.le_of_not_lt hnot)
    have hpass := gateOfChange_eq_pass_iff.mpr ⟨hwrite, Or.inr hzero⟩
    exact hmissing ((missingGoals_eq_nil_iff t).mpr (hsound hpass hexplicit))

/-! ## After every run -/

variable {X : Type} {env : AgentEnv X}

/-- Where all writes of a run failed there is no write evidence. -/
theorem noWriteEvidence_of_failed {userMessage taskId runId : String} {s t : AgentState X}
    {new : List Event} (h : RanTo env userMessage taskId runId s new t)
    (hfailed : WritesFailed new) : hasWriteEvidence t.task = false := by
  rw [Bool.eq_false_iff]
  intro hwrite
  obtain ⟨item, hitem, hcounts⟩ := List.any_eq_true.mp hwrite
  exact hfailed.2 (evidence_of_ranTo h hitem hcounts)

/-- **The gate is sound exactly under its condition.** -/
theorem gateSound_iff {userMessage taskId runId : String} {s t : AgentState X} {new : List Event}
    (h : RanTo env userMessage taskId runId s new t) :
    GateSound env.txt sha256 new t.task ↔ GateMeets env.txt new t.task := by
  constructor
  · intro hsound hencodable
    refine ⟨?_, ?_⟩
    · rw [goalsCounted_iff]
      intro hpass hexplicit
      have hgate : reviewGateUnlimited env.txt sha256 .codeChange t.task = .ok .pass :=
        reviewGateUnlimited_eq_pass_iff.mpr ⟨hencodable, hpass⟩
      exact (hsound .codeChange (Or.inr rfl) hgate).1 (gateOfChange_eq_pass_iff.mp hpass).1 hexplicit
    · intro hfailed
      by_contra hnamed
      have hpass := (gateByIntent_auto_eq_pass_iff (noWriteEvidence_of_failed h hfailed)).mpr hnamed
      have hgate : reviewGateUnlimited env.txt sha256 .auto t.task = .ok .pass :=
        reviewGateUnlimited_eq_pass_iff.mpr ⟨hencodable, hpass⟩
      exact (hsound .auto (Or.inl rfl) hgate).2 hfailed
  · intro hmeets intent hintent hgate
    obtain ⟨hencodable, hpass⟩ := reviewGateUnlimited_eq_pass_iff.mp hgate
    obtain ⟨hcounted, hnamed⟩ := hmeets hencodable
    -- with write evidence both intents look at the change
    have hchange : hasWriteEvidence t.task = true → gateOfChange t.task = .pass := by
      intro hwrite
      rcases hintent with rfl | rfl
      · rw [gateByIntent_auto_of_write hwrite] at hpass
        exact hpass
      · exact hpass
    refine ⟨fun hwrite => goalsCounted_iff.mp hcounted (hchange hwrite), fun hfailed => ?_⟩
    have hnone := noWriteEvidence_of_failed h hfailed
    rcases hintent with rfl | rfl
    · exact (gateByIntent_auto_eq_pass_iff hnone).mp hpass (hnamed hfailed)
    · have hwrite := (gateOfChange_eq_pass_iff.mp hpass).1
      rw [hnone] at hwrite
      cases hwrite

/-! ## Two runs -/

/-- The reply of the model when it is asked for a plan. -/
def planText : String := "\x7b\"steps\": [\"one\", \"two\"]\x7d"

/-- The agent for which it is a plan of two goals, whose criteria are free texts. -/
def twoGoalsAgent : AgentEnv Script :=
  .scripted [(planText, .dict [("steps", .list [.str "one", .str "two"])])] .auto true false

/-- One file is written, and then the model answers. -/
def oneWriteScript : Script where
  replies := [.dict [("name", .str "write_file"),
    ("args", .dict [("path", .str "a"), ("content", .str "x")])], .str "<final>done</final>"]
  plans := [.str planText]

/-- The state after this run. -/
def afterOneWrite : Except Failure String × AgentState Script :=
  (AgentLoop.run twoGoalsAgent "do it" "task_1" "run_1").run (.fresh oneWriteScript)

/-- A patch fails, a directory is listed, and then the model answers. -/
def failedPatchScript : Script where
  replies := [.dict [("name", .str "patch_file"),
      ("args", .dict [("path", .str "a"), ("old_text", .str "x"), ("new_text", .str "y")])],
    .dict [("name", .str "list_files"), ("args", .dict [("path", .str ".")])],
    .str "<final>done</final>"]

/-- The agent without a plan. -/
def unplannedAgent : AgentEnv Script := .scripted [] .auto false false

/-- The state after this run. -/
def afterFailedPatch : Except Failure String × AgentState Script :=
  (AgentLoop.run unplannedAgent "do it" "task_1" "run_1").run (.fresh failedPatchScript)

theorem results_afterOneWrite :
    afterOneWrite.1 = .ok "done" ∧
    reviewGateUnlimited .ascii id .codeChange afterOneWrite.2.task = .ok .pass ∧
    hasWriteEvidence afterOneWrite.2.task = true ∧
    checklistIsExplicit afterOneWrite.2.task = true ∧
    "one" ∈ afterOneWrite.2.task.checklist ∧ "one" ∉ afterOneWrite.2.task.completedItems := by
  decide +kernel

/-- The agent for which it is a plan of one goal, which is a file. -/
def oneGoalAgent : AgentEnv Script :=
  .scripted [(planText, .dict [("steps", .list [.dict [("goal", .str "one"),
    ("done_when", .list [.str "file:a"])]])])] .auto true false

/-- The state after the run of this agent. -/
def afterGoalWritten : Except Failure String × AgentState Script :=
  (AgentLoop.run oneGoalAgent "do it" "task_1" "run_1").run (.fresh oneWriteScript)

theorem results_afterFailedPatch :
    afterFailedPatch.1 = .ok "done" ∧
    reviewGateUnlimited .ascii id .auto afterFailedPatch.2.task = .ok .pass ∧
    WritesFailed afterFailedPatch.2.log := by
  decide +kernel

/-- The log of a run of a fresh agent is what the run added. -/
theorem log_of_ranTo {env : AgentEnv Script} {userMessage taskId runId : String} {script : Script}
    {new : List Event} {t : AgentState Script}
    (h : RanTo env userMessage taskId runId (.fresh script) new t) : t.log = new := by
  obtain ⟨_, _, _, _, hlog⟩ := h
  exact hlog

/-- Said of any pair, so that no run is evaluated for it. -/
theorem eq_mk_of_fst {α β : Type} {p : α × β} {a : α} (h : p.1 = a) : p = (a, p.2) := by
  rw [← h]

/-- With a plan of two goals, of which none is completed, one write is enough to pass; and a patch that
failed is forgotten once a directory was listed. -/
theorem not_gateSound :
    (∃ new t, RanTo twoGoalsAgent "do it" "task_1" "run_1" (.fresh oneWriteScript) new t ∧
      ¬GateSound .ascii id new t.task) ∧
    ∃ new t, RanTo unplannedAgent "do it" "task_1" "run_1" (.fresh failedPatchScript) new t ∧
      ¬GateSound .ascii id new t.task := by
  constructor
  · obtain ⟨hanswer, hgate, hwrite, hexplicit, hgoal, hopen⟩ := results_afterOneWrite
    have hran : afterOneWrite = (.ok "done", afterOneWrite.2) := eq_mk_of_fst hanswer
    obtain ⟨new, hreached⟩ := ranTo_of_returned hran
    refine ⟨new, _, hreached, fun hsound => ?_⟩
    exact hopen ((hsound .codeChange (Or.inr rfl) hgate).1 hwrite hexplicit "one" hgoal)
  · obtain ⟨hanswer, hgate, hfailed⟩ := results_afterFailedPatch
    have hran : afterFailedPatch = (.ok "done", afterFailedPatch.2) := eq_mk_of_fst hanswer
    obtain ⟨new, hreached⟩ := ranTo_of_returned hran
    refine ⟨new, _, hreached, fun hsound => ?_⟩
    rw [log_of_ranTo hreached] at hfailed
    exact (hsound .auto (Or.inl rfl) hgate).2 hfailed

/-- After a run with a plan whose one goal is a file that was written, the gate is sound. -/
theorem gateSound_iff_goalWritten :
    ∃ new t, RanTo oneGoalAgent "do it" "task_1" "run_1" (.fresh oneWriteScript) new t ∧
      hasWriteEvidence t.task = true ∧ GateSound .ascii id new t.task := by
  have hresults : afterGoalWritten.1 = .ok "done" ∧
      hasWriteEvidence afterGoalWritten.2.task = true ∧ missingGoals afterGoalWritten.2.task = [] ∧
        WriteSucceeded afterGoalWritten.2.log := by decide +kernel
  obtain ⟨hanswer, hwrite, hmissing, hsucceeded⟩ := hresults
  have hran : afterGoalWritten = (.ok "done", afterGoalWritten.2) := eq_mk_of_fst hanswer
  obtain ⟨new, hreached⟩ := ranTo_of_returned hran
  rw [log_of_ranTo hreached] at hsucceeded
  refine ⟨new, _, hreached, hwrite, (gateSound_iff hreached).mpr fun _ => ⟨?_, ?_⟩⟩
  · intro _ _ hnot
    exact absurd hmissing hnot
  · intro hfailed
    exact absurd hsucceeded hfailed.2

end ThreadForge

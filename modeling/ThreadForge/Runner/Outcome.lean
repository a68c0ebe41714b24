import ThreadForge.Runner.State
import ThreadForge.Lib.Transition

/-!
# The outcome of a backend run

An abstract model of what the threads around a run persist: the stored status, the token, whether
the gate is closed, and every status written so far. Its purpose is `OutcomeLaw`: a persisted
cancel is not answered by `COMPLETED` or `BLOCKED`, and the first terminal status is the last.

The law fails at two writes only. The runner persists an outcome it decided before a cancel, and
`shutdown` writes `INTERRUPTED` without looking at the status.
-/

namespace ThreadForge

open Transition

/-- What the outcome of a run depends on. -/
structure RunView where
  status : TaskStatus
  token : Bool
  closed : Bool
  /-- The runner has persisted an outcome and not closed the gate yet. -/
  persisted : Bool
  writes : List (Writer × TaskStatus)

/-- The two writes the law can fail at, and everything else. -/
inductive RunLabel
  | persist (status : TaskStatus)
  | interrupt
  | other

namespace RunView

def write (v : RunView) (writer : Writer) (status : TaskStatus) : RunView :=
  { v with status := status, writes := v.writes ++ [(writer, status)] }

/-- What one step of a thread can do to the outcome. -/
inductive Step : RunView → RunLabel → RunView → Prop
  | silent {v : RunView} {token closed persisted : Bool} : (v.token = true → token = true) →
      (v.closed = true → closed = true) →
      (v.persisted = true → persisted = true ∨ closed = true) →
      Step v .other { v with token := token, closed := closed, persisted := persisted }
  | work {v : RunView} {status : TaskStatus} :
      status = .running ∨ status = .waitingForApproval → v.token = false → v.closed = false →
      v.persisted = false → Step v .other (v.write .worker status)
  | request {v : RunView} : v.status.terminal = false → v.status ≠ .cancelRequested →
      v.closed = false → Step v .other { v.write .cancel .cancelRequested with token := true }
  | persist {v : RunView} {status : TaskStatus} {closed persisted : Bool} :
      status.terminal = true → v.closed = false → v.persisted = false →
      persisted = true ∨ closed = true →
      Step v (.persist status)
        { v.write .worker status with closed := closed, persisted := persisted }
  | interrupt {v : RunView} : v.closed = true →
      Step v .interrupt (v.write .shutdown .interrupted)

/-! ## The law and its guard -/

/-- Once a cancel is persisted, neither `COMPLETED` nor `BLOCKED` is. -/
def CancelWins (writes : List (Writer × TaskStatus)) : Prop :=
  writes.Pairwise fun earlier later =>
    earlier = (.cancel, .cancelRequested) → later.2 ≠ .completed ∧ later.2 ≠ .blocked

/-- Once the runner or `shutdown` persisted a terminal status, no other status is persisted. -/
def TerminalFinal (writes : List (Writer × TaskStatus)) : Prop :=
  writes.Pairwise fun earlier later =>
    earlier.1 ≠ .cancel → earlier.2.terminal = true → later.2 = earlier.2

/-- **Cancellation wins and terminal is final.** -/
def OutcomeLaw (writes : List (Writer × TaskStatus)) : Prop :=
  CancelWins writes ∧ TerminalFinal writes

/-- The write finds a status it may follow: `COMPLETED` and `BLOCKED` no requested cancel,
`INTERRUPTED` no other terminal status. -/
def WriteOk (v : RunView) : RunLabel → Prop
  | .persist status => v.status = .cancelRequested → status ≠ .completed ∧ status ≠ .blocked
  | .interrupt => v.status.terminal = true → v.status = .interrupted
  | .other => True

/-- What holds of every run, whatever its threads do. -/
structure Fenced (v : RunView) : Prop where
  cancel_logged : v.status = .cancelRequested → (.cancel, .cancelRequested) ∈ v.writes
  cancel_token : (.cancel, .cancelRequested) ∈ v.writes → v.token = true
  cancel_kept : (.cancel, .cancelRequested) ∈ v.writes →
    v.status = .cancelRequested ∨ v.status.terminal = true
  terminal_logged : v.status.terminal = true → ∃ writer, writer ≠ .cancel ∧
    (writer, v.status) ∈ v.writes
  terminal_fenced : v.status.terminal = true → v.closed = true ∨ v.persisted = true

/-- What a lawful run has written so far: the terminal status it has, if any. -/
structure Lawful (v : RunView) : Prop where
  law : OutcomeLaw v.writes
  terminal_kept : ∀ entry ∈ v.writes, entry.1 ≠ .cancel → entry.2.terminal = true →
    v.status = entry.2

/-! ## Every run is fenced -/

theorem Fenced.not_terminal {v : RunView} (h : Fenced v) (hclosed : v.closed = false)
    (hpersisted : v.persisted = false) : v.status.terminal = false := by
  cases hterminal : v.status.terminal with
  | false => rfl
  | true =>
    rcases h.terminal_fenced hterminal with hc | hp
    · rw [hclosed] at hc; cases hc
    · rw [hpersisted] at hp; cases hp

theorem mem_write {v : RunView} {writer : Writer} {status : TaskStatus}
    {entry : Writer × TaskStatus} :
    entry ∈ (v.write writer status).writes ↔ entry ∈ v.writes ∨ entry = (writer, status) := by
  simp [write]

theorem Step.fenced {v v' : RunView} {label : RunLabel} (h : Fenced v) (hstep : Step v label v') :
    Fenced v' := by
  cases hstep with
  | silent htoken hclosed hpersisted =>
    exact {
      cancel_logged := h.cancel_logged
      cancel_token := fun hc => htoken (h.cancel_token hc)
      cancel_kept := h.cancel_kept
      terminal_logged := h.terminal_logged
      terminal_fenced := fun ht => by
        rcases h.terminal_fenced ht with hc | hp
        · exact Or.inl (hclosed hc)
        · exact (hpersisted hp).symm }
  | @work status hstatus htoken hclosed hpersisted =>
    -- the token is not cancelled, so no cancel was persisted
    have hnone : (Writer.cancel, TaskStatus.cancelRequested) ∉ (v.write .worker status).writes := by
      intro hc
      rcases mem_write.mp hc with hc | hc
      · have := h.cancel_token hc
        rw [htoken] at this
        cases this
      · cases hc
    have hlive : status.terminal = false ∧ status ≠ .cancelRequested := by
      rcases hstatus with rfl | rfl <;> decide
    exact {
      cancel_logged := fun hc => absurd hc hlive.2
      cancel_token := fun hc => absurd hc hnone
      cancel_kept := fun hc => absurd hc hnone
      terminal_logged := fun ht => absurd (hlive.1.symm.trans ht) (by decide)
      terminal_fenced := fun ht => absurd (hlive.1.symm.trans ht) (by decide) }
  | request hlive hnew hclosed =>
    exact {
      cancel_logged := fun _ => mem_write.mpr (Or.inr rfl)
      cancel_token := fun _ => rfl
      cancel_kept := fun _ => Or.inl rfl
      terminal_logged := fun ht => by cases ht
      terminal_fenced := fun ht => by cases ht }
  | @persist status closed persisted hterminal hclosed hpersisted hfence =>
    exact {
      cancel_logged := fun hc => by
        have hstatus : status = .cancelRequested := hc
        rw [hstatus] at hterminal
        cases hterminal
      cancel_token := fun hc => by
        rcases mem_write.mp hc with hc | hc
        · exact h.cancel_token hc
        · cases hc
      cancel_kept := fun _ => Or.inr hterminal
      terminal_logged := fun _ => ⟨.worker, by decide, mem_write.mpr (Or.inr rfl)⟩
      terminal_fenced := fun _ => hfence.symm }
  | interrupt hclosed =>
    exact {
      cancel_logged := fun hc => by cases hc
      cancel_token := fun hc => by
        rcases mem_write.mp hc with hc | hc
        · exact h.cancel_token hc
        · cases hc
      cancel_kept := fun _ => Or.inr rfl
      terminal_logged := fun _ => ⟨.shutdown, by decide, mem_write.mpr (Or.inr rfl)⟩
      terminal_fenced := fun _ => Or.inl hclosed }

/-! ## A guarded step is lawful -/

/-- A write that follows the stored status as the law asks keeps the run lawful. -/
theorem Lawful.write {v : RunView} (h : Lawful v) {writer : Writer} {status : TaskStatus}
    (hcancel : (.cancel, .cancelRequested) ∈ v.writes → status ≠ .completed ∧ status ≠ .blocked)
    (hterminal : v.status.terminal = true → status = v.status) :
    Lawful (v.write writer status) where
  law := by
    constructor
    · refine List.pairwise_append.mpr ⟨h.law.1, List.pairwise_singleton .., ?_⟩
      intro earlier hearlier later hlater he
      rw [List.mem_singleton] at hlater
      subst hlater he
      exact hcancel hearlier
    · refine List.pairwise_append.mpr ⟨h.law.2, List.pairwise_singleton .., ?_⟩
      intro earlier hearlier later hlater hwriter hend
      rw [List.mem_singleton] at hlater
      subst hlater
      have hkept := h.terminal_kept earlier hearlier hwriter hend
      exact (hterminal (hkept ▸ hend)).trans hkept
  terminal_kept entry hentry hwriter hend := by
    rcases mem_write.mp hentry with hold | rfl
    · have hkept := h.terminal_kept entry hold hwriter hend
      exact (hterminal (hkept ▸ hend)).trans hkept
    · rfl

theorem Lawful.of_writes_eq {v v' : RunView} (h : Lawful v) (hwrites : v'.writes = v.writes)
    (hstatus : v'.status = v.status) : Lawful v' where
  law := by rw [hwrites]; exact h.law
  terminal_kept := by rw [hwrites, hstatus]; exact h.terminal_kept

/-- **A guarded step keeps the run lawful.** -/
theorem Step.lawful {v v' : RunView} {label : RunLabel} (hfenced : Fenced v) (h : Lawful v)
    (hok : WriteOk v label) (hstep : Step v label v') : Lawful v' := by
  cases hstep with
  | silent _ _ _ => exact h.of_writes_eq rfl rfl
  | work hstatus htoken hclosed hpersisted =>
    refine h.write (fun hc => ?_) fun ht => ?_
    · have := hfenced.cancel_token hc
      rw [htoken] at this
      cases this
    · rw [hfenced.not_terminal hclosed hpersisted] at ht
      cases ht
  | request hlive _ _ =>
    have hwrite : Lawful (v.write .cancel .cancelRequested) :=
      h.write (fun _ => by decide) fun ht => by rw [hlive] at ht; cases ht
    exact hwrite.of_writes_eq rfl rfl
  | @persist status _ _ hterminal hclosed hpersisted _ =>
    have hlive := hfenced.not_terminal hclosed hpersisted
    have hwrite : Lawful (v.write .worker status) := by
      refine h.write (fun hc => ?_) fun ht => by rw [hlive] at ht; cases ht
      rcases hfenced.cancel_kept hc with hrequested | hend
      · exact hok hrequested
      · rw [hlive] at hend
        cases hend
    exact hwrite.of_writes_eq rfl rfl
  | interrupt _ =>
    refine h.write (fun _ => by decide) fun ht => (hok ht).symm

/-- An unguarded write breaks the law: the guard is exact. -/
theorem Step.writeOk {v v' : RunView} {label : RunLabel} (hfenced : Fenced v)
    (hstep : Step v label v') (hlaw : OutcomeLaw v'.writes) : WriteOk v label := by
  cases hstep with
  | @persist status _ _ _ _ _ _ =>
    intro hrequested
    have hpair := (List.pairwise_append.mp hlaw.1).2.2 _ (hfenced.cancel_logged hrequested)
      (.worker, status) (List.mem_singleton_self _)
    exact hpair rfl
  | interrupt _ =>
    intro hend
    obtain ⟨writer, hwriter, hlogged⟩ := hfenced.terminal_logged hend
    have hpair := (List.pairwise_append.mp hlaw.2).2.2 _ hlogged
      (.shutdown, .interrupted) (List.mem_singleton_self _)
    exact (hpair hwriter hend).symm
  | _ => trivial

/-- A step only adds writes at the end. -/
theorem Step.writes_prefix {v v' : RunView} {label : RunLabel} (hstep : Step v label v') :
    v.writes <+: v'.writes := by
  cases hstep with
  | silent _ _ _ => exact List.prefix_refl _
  | _ => exact List.prefix_append _ _

theorem OutcomeLaw.of_prefix {earlier later : List (Writer × TaskStatus)}
    (h : OutcomeLaw later) (hearlier : earlier <+: later) : OutcomeLaw earlier :=
  ⟨h.1.sublist hearlier.sublist, h.2.sublist hearlier.sublist⟩

end RunView

end ThreadForge

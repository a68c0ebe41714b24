import Mathlib.Data.List.Basic

/-!
# Sequences of writes that can fail

A write to a store fails before it takes effect or after: a store made of two copies reports a
failed second copy although the first one holds the new value. A sequence of writes stops at the
first failure; the compensations that follow are each tried, whatever becomes of the others.

Both are functions from the faults to the writes that took effect and whether everything went
through, so what an operation leaves behind is the fold of a list.
-/

namespace Faults

/-- How one write ends. -/
inductive Fault
  | none
  /-- It raises and nothing is written. -/
  | before
  /-- It is written and raises afterwards. -/
  | after
  deriving DecidableEq, Repr

/-- The write is in the store. -/
def Fault.takesEffect : Fault → Bool
  | .none | .after => true
  | .before => false

variable {α σ : Type*}

/-- The writes of a sequence that take effect, and whether all of them went through. -/
def attempt : List (α × Fault) → List α × Bool
  | [] => ([], true)
  | (w, .none) :: rest => (w :: (attempt rest).1, (attempt rest).2)
  | (_, .before) :: _ => ([], false)
  | (w, .after) :: _ => ([w], false)

/-- The compensations that take effect, and whether all of them went through. -/
def tryEach (ws : List (α × Fault)) : List α × Bool :=
  ((ws.filter fun w => w.2.takesEffect).map Prod.fst, ws.all fun w => decide (w.2 = .none))

/-- The store after the writes. -/
def applyAll (apply : σ → α → σ) (s : σ) (ws : List α) : σ := ws.foldl apply s

/-! ## One write at a time -/

@[simp] theorem attempt_nil : attempt ([] : List (α × Fault)) = ([], true) := rfl

@[simp] theorem attempt_none (w : α) (rest : List (α × Fault)) :
    attempt ((w, .none) :: rest) = (w :: (attempt rest).1, (attempt rest).2) := rfl

@[simp] theorem attempt_before (w : α) (rest : List (α × Fault)) :
    attempt ((w, .before) :: rest) = ([], false) := rfl

@[simp] theorem attempt_after (w : α) (rest : List (α × Fault)) :
    attempt ((w, .after) :: rest) = ([w], false) := rfl

@[simp] theorem applyAll_nil (apply : σ → α → σ) (s : σ) : applyAll apply s [] = s := rfl

@[simp] theorem applyAll_cons (apply : σ → α → σ) (s : σ) (w : α) (ws : List α) :
    applyAll apply s (w :: ws) = applyAll apply (apply s w) ws := rfl

theorem applyAll_append (apply : σ → α → σ) (s : σ) (ws vs : List α) :
    applyAll apply s (ws ++ vs) = applyAll apply (applyAll apply s ws) vs :=
  List.foldl_append

/-! ## Whole sequences -/

/-- A sequence goes through exactly when no write of it fails. -/
theorem attempt_ok_iff (ws : List (α × Fault)) :
    (attempt ws).2 = true ↔ ∀ w ∈ ws, w.2 = .none := by
  induction ws with
  | nil => simp
  | cons w rest ih =>
    obtain ⟨w, fault⟩ := w
    cases fault with
    | none => simp [ih]
    | before => simp
    | after => simp

/-- What goes through is written whole. -/
theorem attempt_of_ok {ws : List (α × Fault)} (h : ∀ w ∈ ws, w.2 = .none) :
    attempt ws = (ws.map Prod.fst, true) := by
  induction ws with
  | nil => rfl
  | cons w rest ih =>
    obtain ⟨w, fault⟩ := w
    have hnone : fault = .none := h (w, fault) List.mem_cons_self
    have hrest := ih fun v hv => h v (List.mem_cons_of_mem _ hv)
    subst hnone
    rw [attempt_none, hrest]
    rfl

/-- What takes effect of a sequence is the start of it. -/
theorem attempt_take (ws : List (α × Fault)) :
    ∃ n, (attempt ws).1 = (ws.map Prod.fst).take n := by
  induction ws with
  | nil => exact ⟨0, rfl⟩
  | cons w rest ih =>
    obtain ⟨w, fault⟩ := w
    obtain ⟨n, hn⟩ := ih
    cases fault with
    | none => exact ⟨n + 1, by rw [attempt_none, hn]; rfl⟩
    | before => exact ⟨0, rfl⟩
    | after => exact ⟨1, by rw [attempt_after]; simp⟩

theorem mem_of_mem_attempt {ws : List (α × Fault)} {w : α} (h : w ∈ (attempt ws).1) :
    w ∈ ws.map Prod.fst := by
  obtain ⟨n, hn⟩ := attempt_take ws
  rw [hn] at h
  exact List.mem_of_mem_take h

theorem mem_of_mem_tryEach {ws : List (α × Fault)} {w : α} (h : w ∈ (tryEach ws).1) :
    w ∈ ws.map Prod.fst := by
  obtain ⟨v, hv, hw⟩ := List.mem_map.mp h
  exact List.mem_map.mpr ⟨v, List.mem_of_mem_filter hv, hw⟩

/-- After a sequence that goes through, the next one begins. -/
theorem attempt_append_of_ok {ws : List (α × Fault)} (h : (attempt ws).2 = true)
    (vs : List (α × Fault)) :
    attempt (ws ++ vs) = ((attempt ws).1 ++ (attempt vs).1, (attempt vs).2) := by
  induction ws with
  | nil => rfl
  | cons w rest ih =>
    obtain ⟨w, fault⟩ := w
    cases fault with
    | none => rw [List.cons_append, attempt_none, ih h]; rfl
    | before => cases h
    | after => cases h

/-- A sequence that fails is the end of it. -/
theorem attempt_append_of_failed {ws : List (α × Fault)} (h : (attempt ws).2 = false)
    (vs : List (α × Fault)) : attempt (ws ++ vs) = attempt ws := by
  induction ws with
  | nil => cases h
  | cons w rest ih =>
    obtain ⟨w, fault⟩ := w
    cases fault with
    | none => rw [List.cons_append, attempt_none, ih h]; rfl
    | before => rfl
    | after => rfl

/-- What every write keeps, the store keeps. -/
theorem applyAll_invariant (Inv : σ → Prop) {apply : σ → α → σ} {ws : List α}
    (hkeep : ∀ w ∈ ws, ∀ s, Inv s → Inv (apply s w)) {s : σ} (hs : Inv s) :
    Inv (applyAll apply s ws) := by
  induction ws generalizing s with
  | nil => exact hs
  | cons w rest ih =>
    have hw : Inv (apply s w) := hkeep w List.mem_cons_self s hs
    exact ih (fun v hv => hkeep v (List.mem_cons_of_mem _ hv)) hw

/-- What is there after a list of writes, where each of them leaves what it does not remove. -/
theorem applyAll_iff_of_removes {apply : σ → α → σ} {P : σ → Prop} {removes : α → Prop}
    {ws : List α} (hone : ∀ w ∈ ws, ∀ s, P (apply s w) ↔ P s ∧ ¬ removes w) {s : σ} :
    P (applyAll apply s ws) ↔ P s ∧ ∀ w ∈ ws, ¬ removes w := by
  induction ws generalizing s with
  | nil => exact ⟨fun h => ⟨h, List.forall_mem_nil _⟩, And.left⟩
  | cons w rest ih =>
    rw [applyAll_cons, ih fun v hv => hone v (List.mem_cons_of_mem _ hv),
      hone w List.mem_cons_self, List.forall_mem_cons, and_assoc]

/-! ## Between the writes of a list -/

/-- A law each write of a list meets at the store it finds. -/
def EachWrite (apply : σ → α → σ) (law : σ → α → Prop) : σ → List α → Prop
  | _, [] => True
  | s, w :: ws => law s w ∧ EachWrite apply law (apply s w) ws

variable {apply : σ → α → σ} {P : σ → Prop} {law : σ → α → Prop} {s : σ}

theorem eachWrite_append {ws vs : List α} :
    EachWrite apply law s (ws ++ vs) ↔
      EachWrite apply law s ws ∧ EachWrite apply law (applyAll apply s ws) vs := by
  induction ws generalizing s with
  | nil => exact ⟨fun h => ⟨trivial, h⟩, And.right⟩
  | cons w rest ih =>
    rw [List.cons_append]
    simp only [EachWrite, applyAll_cons, ih, and_assoc]

theorem EachWrite.take {ws : List α} (h : EachWrite apply law s ws) (n : Nat) :
    EachWrite apply law s (ws.take n) := by
  rw [← List.take_append_drop n ws, eachWrite_append] at h
  exact h.1

/-- Under an invariant that gives the law, every write meets it. -/
theorem eachWrite_of_invariant {ws : List α} (hkeep : ∀ w ∈ ws, ∀ s, P s → P (apply s w))
    (hlaw : ∀ w ∈ ws, ∀ s, P s → law s w) (hs : P s) : EachWrite apply law s ws := by
  induction ws generalizing s with
  | nil => trivial
  | cons w rest ih =>
    have hw : P (apply s w) := hkeep w List.mem_cons_self s hs
    exact ⟨hlaw w List.mem_cons_self s hs, ih (fun v hv => hkeep v (List.mem_cons_of_mem _ hv))
      (fun v hv => hlaw v (List.mem_cons_of_mem _ hv)) hw⟩

end Faults

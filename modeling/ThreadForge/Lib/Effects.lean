import Mathlib.Logic.Basic

/-!
# Computations with a state and exceptions

`Eff σ ε α` is a computation of an imperative language: it reads and changes a state, and ends by
returning a value or by raising an exception. What it did to the state before it raised stays done.

## Laws of runs

A `RunLaw` relates the state before a computation, the way it ended, and the state after it. It is
closed under sequencing, so it holds of a program as soon as it holds of its primitive steps: that
is what `Keeps.bind`, `Keeps.forEach` and the rules for `try` say. A law with several programs in
view is proved of each step once, and walks up through them by these rules alone.

## Triples

`Triple P m Q E` is for what a law cannot say: facts that start from a condition on the state, and
facts about the value returned. `Q` is what holds where `m` returns and `E` where it raises.
-/

/-- A computation over a state that returns a value or raises. -/
structure Eff (σ ε α : Type) where
  run : σ → Except ε α × σ

namespace Eff

variable {σ ε ε' α β γ : Type}

/-- Run `m`, then `k` on what it returned. An exception skips `k`. -/
def bind (m : Eff σ ε α) (k : α → Eff σ ε β) : Eff σ ε β where
  run s := match m.run s with
    | (.ok a, t) => (k a).run t
    | (.error e, t) => (.error e, t)

instance : Monad (Eff σ ε) where
  pure a := ⟨fun s => (.ok a, s)⟩
  bind := Eff.bind

/-- The state. -/
def get : Eff σ ε σ := ⟨fun s => (.ok s, s)⟩

/-- Change the state. -/
def modify (f : σ → σ) : Eff σ ε Unit := ⟨fun s => (.ok (), f s)⟩

/-- `raise e`. -/
def raise (e : ε) : Eff σ ε α := ⟨fun s => (.error e, s)⟩

/-- The outcome of a pure computation. -/
def ofExcept (x : Except ε α) : Eff σ ε α := ⟨fun s => (x, s)⟩

/-- `try: m` with a handler for the exceptions that `catches` picks; the others go on. -/
def tryExcept (m : Eff σ ε α) (catches : ε → Bool) (handler : ε → Eff σ ε α) : Eff σ ε α where
  run s := match m.run s with
    | (.ok a, t) => (.ok a, t)
    | (.error e, t) => if catches e then (handler e).run t else (.error e, t)

/-- `if c: m`. -/
def when (c : Prop) [Decidable c] (m : Eff σ ε Unit) : Eff σ ε Unit := if c then m else pure ()

/-- Run `m`, and return how it ended. -/
def capture (m : Eff σ ε α) : Eff σ ε (Except ε α) where
  run s := (.ok (m.run s).1, (m.run s).2)

/-- The first exception among captured results, or their values. -/
def release (results : List (Except ε α)) : Eff σ ε (List α) := ofExcept (results.mapM id)

/-- `for x in xs: f(x)`. -/
def forEach : List α → (α → Eff σ ε Unit) → Eff σ ε Unit
  | [], _ => pure ()
  | x :: xs, f => do
    f x
    forEach xs f

/-- `for x in xs`, with a local variable that each turn updates. -/
def foldEach : List α → β → (β → α → Eff σ ε β) → Eff σ ε β
  | [], b, _ => pure b
  | x :: xs, b, f => do
    let b' ← f b x
    foldEach xs b' f

/-! ## How the primitives run -/

@[simp] theorem run_pure (a : α) (s : σ) : (pure a : Eff σ ε α).run s = (.ok a, s) := rfl

@[simp] theorem run_get (s : σ) : (get : Eff σ ε σ).run s = (.ok s, s) := rfl

@[simp] theorem run_modify (f : σ → σ) (s : σ) : (modify f : Eff σ ε Unit).run s = (.ok (), f s) := rfl

@[simp] theorem run_raise (e : ε) (s : σ) : (raise e : Eff σ ε α).run s = (.error e, s) := rfl

@[simp] theorem run_ofExcept (x : Except ε α) (s : σ) : (ofExcept x : Eff σ ε α).run s = (x, s) := rfl

theorem run_bind (m : Eff σ ε α) (k : α → Eff σ ε β) (s : σ) :
    (m >>= k).run s = match m.run s with
      | (.ok a, t) => (k a).run t
      | (.error e, t) => (.error e, t) := rfl

theorem run_bind_ok {m : Eff σ ε α} {k : α → Eff σ ε β} {s t : σ} {a : α}
    (h : m.run s = (.ok a, t)) : (m >>= k).run s = (k a).run t := by
  rw [run_bind, h]

theorem run_bind_error {m : Eff σ ε α} {k : α → Eff σ ε β} {s t : σ} {e : ε}
    (h : m.run s = (.error e, t)) : (m >>= k).run s = (.error e, t) := by
  rw [run_bind, h]

theorem run_tryExcept (m : Eff σ ε α) (catches : ε → Bool) (handler : ε → Eff σ ε α) (s : σ) :
    (tryExcept m catches handler).run s = match m.run s with
      | (.ok a, t) => (.ok a, t)
      | (.error e, t) => if catches e then (handler e).run t else (.error e, t) := rfl

theorem run_tryExcept_ok {m : Eff σ ε α} {catches : ε → Bool} {handler : ε → Eff σ ε α} {s t : σ}
    {a : α} (h : m.run s = (.ok a, t)) : (tryExcept m catches handler).run s = (.ok a, t) := by
  rw [run_tryExcept, h]

theorem run_tryExcept_caught {m : Eff σ ε α} {catches : ε → Bool} {handler : ε → Eff σ ε α}
    {s t : σ} {e : ε} (h : m.run s = (.error e, t)) (hc : catches e = true) :
    (tryExcept m catches handler).run s = (handler e).run t := by
  rw [run_tryExcept, h]
  exact if_pos hc

theorem run_tryExcept_passed {m : Eff σ ε α} {catches : ε → Bool} {handler : ε → Eff σ ε α}
    {s t : σ} {e : ε} (h : m.run s = (.error e, t)) (hc : ¬catches e = true) :
    (tryExcept m catches handler).run s = (.error e, t) := by
  rw [run_tryExcept, h]
  exact if_neg hc

@[simp] theorem run_get_bind (k : σ → Eff σ ε β) (s : σ) : (get >>= k).run s = (k s).run s := rfl

@[simp] theorem run_modify_bind (f : σ → σ) (k : Unit → Eff σ ε β) (s : σ) :
    (modify f >>= k).run s = (k ()).run (f s) := rfl

@[simp] theorem run_pure_bind (a : α) (k : α → Eff σ ε β) (s : σ) :
    ((pure a : Eff σ ε α) >>= k).run s = (k a).run s := rfl

theorem when_pos {c : Prop} [Decidable c] (h : c) (m : Eff σ ε Unit) : when c m = m := if_pos h

theorem when_neg {c : Prop} [Decidable c] (h : ¬c) (m : Eff σ ε Unit) : when c m = pure () :=
  if_neg h

instance : LawfulMonad (Eff σ ε) := by
  refine LawfulMonad.mk' (Eff σ ε) ?_ (fun _ _ => rfl) ?_
  · intro α m
    show bind m (fun a => ⟨fun s => (.ok a, s)⟩) = m
    unfold bind
    congr
    funext s
    rcases m.run s with ⟨e | a, t⟩ <;> rfl
  · intro α β γ m f g
    show bind (bind m f) g = bind m fun a => bind (f a) g
    unfold bind
    congr
    funext s
    dsimp only
    rcases m.run s with ⟨e | a, t⟩ <;> rfl

/-- A computation that returned went through its first part. -/
theorem bind_eq_ok {m : Eff σ ε α} {k : α → Eff σ ε β} {s u : σ} {b : β}
    (h : (m >>= k).run s = (.ok b, u)) : ∃ a t, m.run s = (.ok a, t) ∧ (k a).run t = (.ok b, u) := by
  rcases hm : m.run s with ⟨r, t⟩
  cases r with
  | error e =>
    rw [run_bind_error hm] at h
    simp at h
  | ok a =>
    rw [run_bind_ok hm] at h
    exact ⟨a, t, rfl, h⟩

theorem run_capture {m : Eff σ ε α} {s t : σ} {r : Except ε α} (h : m.run s = (r, t)) :
    (capture m).run s = (.ok r, t) := by
  show ((Except.ok (m.run s).1 : Except ε (Except ε α)), (m.run s).2) = _
  rw [h]

/-- An exception that is released is one of the captured ones. -/
theorem mem_of_mapM_error {e : ε} :
    ∀ {results : List (Except ε α)}, results.mapM id = .error e → .error e ∈ results
  | [], h => by cases h
  | .error e' :: results, h => by
    have heq : e' = e := by
      rw [List.mapM_cons] at h
      exact Except.error.inj h
    rw [heq]
    exact List.mem_cons_self
  | .ok a :: results, h => by
    rw [List.mapM_cons] at h
    rcases hrest : results.mapM id with e' | values
    · rw [hrest] at h
      have heq : e' = e := Except.error.inj h
      subst heq
      exact List.mem_cons_of_mem _ (mem_of_mapM_error hrest)
    · rw [hrest] at h
      cases h

/-! ## Laws of runs -/

/-- How a computation ended: with an exception, or without one. -/
def ending : Except ε α → Option ε
  | .ok _ => none
  | .error e => some e

@[simp] theorem ending_ok (a : α) : ending (.ok a : Except ε α) = none := rfl

@[simp] theorem ending_error (e : ε) : ending (.error e : Except ε α) = some e := rfl

/-- A relation of the state before, the ending and the state after, closed under sequencing. -/
structure RunLaw (σ ε : Type) where
  holds : σ → Option ε → σ → Prop
  refl : ∀ s, holds s none s
  trans : ∀ {s t u r}, holds s none t → holds t r u → holds s r u

/-- Every run of `m` meets the law. -/
def Keeps (law : RunLaw σ ε) (m : Eff σ ε α) : Prop :=
  ∀ s, law.holds s (ending (m.run s).1) (m.run s).2

/-- A law forgives an exception when a run that it ended may count as one that returned. -/
def RunLaw.Forgives (law : RunLaw σ ε) (e : ε) : Prop :=
  ∀ s t, law.holds s (some e) t → law.holds s none t

/-- A law allows an exception to be late when it may be raised after more has been done. -/
def RunLaw.Late (law : RunLaw σ ε) (e : ε) : Prop :=
  ∀ s t u, law.holds s (some e) t → law.holds t none u → law.holds s (some e) u

variable {law : RunLaw σ ε}

theorem Keeps.ok {m : Eff σ ε α} (h : Keeps law m) {s t : σ} {a : α} (hm : m.run s = (.ok a, t)) :
    law.holds s none t := by
  have hs := h s
  rw [hm] at hs
  exact hs

theorem Keeps.error {m : Eff σ ε α} (h : Keeps law m) {s t : σ} {e : ε}
    (hm : m.run s = (.error e, t)) : law.holds s (some e) t := by
  have hs := h s
  rw [hm] at hs
  exact hs

theorem Keeps.pure (a : α) : Keeps law (pure a : Eff σ ε α) := fun s => law.refl s

theorem Keeps.modify {f : σ → σ} (h : ∀ s, law.holds s none (f s)) :
    Keeps law (modify f : Eff σ ε Unit) := h

theorem Keeps.raise {e : ε} (h : ∀ s, law.holds s (some e) s) :
    Keeps law (raise e : Eff σ ε α) := h

/-- The rest need keep the law only for the values that the first part can return. -/
theorem Keeps.bind_of {m : Eff σ ε α} {k : α → Eff σ ε β} {P : α → Prop} (hm : Keeps law m)
    (hvalue : ∀ s a t, m.run s = (.ok a, t) → P a) (hk : ∀ a, P a → Keeps law (k a)) :
    Keeps law (m >>= k) := by
  intro s
  rcases h : m.run s with ⟨r, t⟩
  cases r with
  | error e =>
    rw [run_bind_error h]
    exact hm.error h
  | ok a =>
    rw [run_bind_ok h]
    exact law.trans (hm.ok h) (hk a (hvalue s a t h) t)

theorem Keeps.bind {m : Eff σ ε α} {k : α → Eff σ ε β} (hm : Keeps law m)
    (hk : ∀ a, Keeps law (k a)) : Keeps law (m >>= k) :=
  hm.bind_of (fun _ _ _ _ => trivial) fun a _ => hk a

/-- What is read from the state is known to come from a state. -/
theorem Keeps.get_bind {k : σ → Eff σ ε β} (hk : ∀ s, Keeps law (k s)) :
    Keeps law (Eff.get >>= k) := fun s => hk s s

theorem Keeps.ite {p : Prop} [Decidable p] {m n : Eff σ ε α} (hm : Keeps law m)
    (hn : Keeps law n) : Keeps law (if p then m else n) := by
  split
  · exact hm
  · exact hn

theorem Keeps.when {p : Prop} [Decidable p] {m : Eff σ ε Unit} (hm : Keeps law m) :
    Keeps law (when p m) := Keeps.ite hm (Keeps.pure ())

theorem Keeps.foldEach_of_mem {f : β → α → Eff σ ε β} :
    ∀ {xs : List α} (b : β), (∀ b, ∀ x ∈ xs, Keeps law (f b x)) → Keeps law (foldEach xs b f)
  | [], b, _ => Keeps.pure b
  | x :: _, b, hf => Keeps.bind (hf b x List.mem_cons_self) fun b' =>
      Keeps.foldEach_of_mem b' fun b x hx => hf b x (List.mem_cons_of_mem _ hx)

theorem Keeps.foldEach {f : β → α → Eff σ ε β} (hf : ∀ b x, Keeps law (f b x)) (xs : List α)
    (b : β) : Keeps law (foldEach xs b f) :=
  Keeps.foldEach_of_mem b fun b x _ => hf b x

/-- A handler for forgiven exceptions keeps the law when its body does. -/
theorem Keeps.tryExcept {m : Eff σ ε α} {catches : ε → Bool} {handler : ε → Eff σ ε α}
    (hm : Keeps law m) (hforgive : ∀ e, catches e = true → law.Forgives e)
    (hhandler : ∀ e, catches e = true → Keeps law (handler e)) :
    Keeps law (tryExcept m catches handler) := by
  intro s
  rcases h : m.run s with ⟨r, t⟩
  cases r with
  | ok a =>
    rw [run_tryExcept_ok h]
    exact hm.ok h
  | error e =>
    by_cases hc : catches e = true
    · rw [run_tryExcept_caught h hc]
      exact law.trans (hforgive e hc s t (hm.error h)) (hhandler e hc t)
    · rw [run_tryExcept_passed h hc]
      exact hm.error h

/-! ## Triples -/

/-- From `P`, the computation returns with `Q` or raises with `E`. -/
def Triple (P : σ → Prop) (m : Eff σ ε α) (Q : α → σ → Prop) (E : ε → σ → Prop) : Prop :=
  ∀ s, P s → match m.run s with
    | (.ok a, t) => Q a t
    | (.error e, t) => E e t

variable {P : σ → Prop} {Q : α → σ → Prop} {E : ε → σ → Prop}

theorem Triple.of_ok {m : Eff σ ε α} (h : Triple P m Q E) {s t : σ} {a : α} (hs : P s)
    (hm : m.run s = (.ok a, t)) : Q a t := by
  have hpost := h s hs
  rw [hm] at hpost
  exact hpost

theorem Triple.of_error {m : Eff σ ε α} (h : Triple P m Q E) {s t : σ} {e : ε} (hs : P s)
    (hm : m.run s = (.error e, t)) : E e t := by
  have hpost := h s hs
  rw [hm] at hpost
  exact hpost

/-- A fact that does not mention the state can be assumed. -/
theorem Triple.assume {p : Prop} {m : Eff σ ε α} (h : p → Triple P m Q E) :
    Triple (fun s => P s ∧ p) m Q E := fun s hs => h hs.2 s hs.1

theorem Triple.pure {a : α} (h : ∀ s, P s → Q a s) : Triple P (pure a : Eff σ ε α) Q E := h

theorem Triple.raise {e : ε} (h : ∀ s, P s → E e s) : Triple P (raise e : Eff σ ε α) Q E := h

theorem Triple.bind {R : β → σ → Prop} {m : Eff σ ε α} {k : α → Eff σ ε β} (hm : Triple P m Q E)
    (hk : ∀ a, Triple (Q a) (k a) R E) : Triple P (m >>= k) R E := by
  intro s hs
  rcases h : m.run s with ⟨r, t⟩
  cases r with
  | error e =>
    rw [run_bind_error h]
    exact hm.of_error hs h
  | ok a =>
    rw [run_bind_ok h]
    exact hk a t (hm.of_ok hs h)

end Eff

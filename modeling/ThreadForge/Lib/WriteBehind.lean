import Mathlib.Data.List.Basic

/-!
# A log written behind a buffer

Entries are applied to a stored value. Some are applied as they come, others are kept in a buffer
and applied later, in one write; whoever applies an entry at once writes the buffer first. The
stored value is then behind, but `effective`, the stored value with the buffer applied to it, is at
every moment what applying each entry at once would have stored (`run_effective`).
-/

namespace WriteBehind

variable {β ε : Type*}

/-- A stored value, and the entries still to be applied to it. -/
structure Log (β ε : Type*) where
  stored : β
  buffer : List ε

/-- What can be done to a log. -/
inductive Op (ε : Type*)
  | enqueue (e : ε)
  | writeThrough (e : ε)
  | flush

/-- The entry an operation accepts. -/
def Op.accepted : Op ε → List ε
  | .enqueue e | .writeThrough e => [e]
  | .flush => []

namespace Log

variable (apply : β → ε → β)

/-- The stored value once the buffer is written. -/
def effective (l : Log β ε) : β := l.buffer.foldl apply l.stored

/-- Write the buffer. -/
def flush (l : Log β ε) : Log β ε := { stored := l.effective apply, buffer := [] }

def enqueue (l : Log β ε) (e : ε) : Log β ε := { l with buffer := l.buffer ++ [e] }

/-- Write the buffer, and then an entry. -/
def writeThrough (l : Log β ε) (e : ε) : Log β ε :=
  { stored := apply (l.effective apply) e, buffer := [] }

def perform (l : Log β ε) : Op ε → Log β ε
  | .enqueue e => l.enqueue e
  | .writeThrough e => l.writeThrough apply e
  | .flush => l.flush apply

/-- The log after operations. -/
def run (l : Log β ε) (ops : List (Op ε)) : Log β ε := ops.foldl (perform apply) l

variable {apply} {l : Log β ε}

theorem effective_of_empty (h : l.buffer = []) : l.effective apply = l.stored := by
  rw [effective, h]
  rfl

/-- An empty buffer has nothing to write. -/
theorem flush_of_empty (h : l.buffer = []) : l.flush apply = l := by
  rw [flush, effective_of_empty h, ← h]

theorem flush_flush : (l.flush apply).flush apply = l.flush apply := flush_of_empty rfl

theorem effective_perform (op : Op ε) :
    (l.perform apply op).effective apply = op.accepted.foldl apply (l.effective apply) := by
  cases op with
  | enqueue e => exact List.foldl_append
  | writeThrough e => rfl
  | flush => rfl

/-- **Behind the buffer, nothing is different.** -/
theorem run_effective (ops : List (Op ε)) (l : Log β ε) :
    (l.run apply ops).effective apply
      = (ops.flatMap Op.accepted).foldl apply (l.effective apply) := by
  induction ops generalizing l with
  | nil => rfl
  | cons op ops ih =>
    have hstep : l.run apply (op :: ops) = (l.perform apply op).run apply ops := rfl
    rw [hstep, ih, effective_perform, List.flatMap_cons, List.foldl_append]

theorem run_append (ops ops' : List (Op ε)) :
    l.run apply (ops ++ ops') = (l.run apply ops).run apply ops' := List.foldl_append

end Log

end WriteBehind

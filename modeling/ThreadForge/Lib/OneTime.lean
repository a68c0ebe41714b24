import Mathlib.Data.List.Induction

/-!
# Codes that are used once

A dictionary of codes that expire; one that is consumed is gone.
-/

namespace OneTime

structure Code where
  code : String
  value : String
  expiresAt : Nat

/-- `made` is the clock behind the expiry, and `now` that of the purge. -/
inductive Op
  | create (code value : String) (made now : Nat)
  | consume (code : String) (now : Nat)

def Op.code : Op → String
  | .create code .. => code
  | .consume code _ => code

/-- The last operation on a code. -/
def lastOn (ops : List Op) (code : String) : Option Op := ops.reverse.find? fun o => o.code = code

def purge (codes : List Code) (now : Nat) : List Code := codes.filter fun c => now < c.expiresAt

/-- `codes[new.code] = new`. -/
def assign (codes : List Code) (new : Code) : List Code :=
  if new.code ∈ codes.map Code.code then
    codes.map fun old => if old.code = new.code then new else old
  else codes ++ [new]

def step (limit ttl : Nat) (codes : List Code) : Op → List Code
  | .create code value made now =>
    let live := purge codes now
    -- the oldest make room
    assign (live.drop (live.length + 1 - limit)) ⟨code, value, made + ttl⟩
  | .consume code now => (purge codes now).filter fun c => c.code ≠ code

/-- The codes after the operations, the oldest first. -/
def after (limit ttl : Nat) (ops : List Op) : List Code := ops.foldl (step limit ttl) []

/-- What a code stands for. -/
def lookup (codes : List Code) (code : String) (now : Nat) : Option String :=
  ((purge codes now).find? fun c => c.code = code).map Code.value

variable {limit ttl : Nat} {codes : List Code} {c : Code} {o : Op} {ops : List Op}

theorem mem_step (h : c ∈ step limit ttl codes o) : (c ∈ codes ∧ o.code ≠ c.code) ∨
    ∃ made now, o = .create c.code c.value made now ∧ c.expiresAt = made + ttl := by
  cases o with
  | create code value made now => grind [step, assign, purge, Op.code, List.mem_of_mem_drop]
  | consume code now => grind [step, purge, Op.code]

/-- The last operation on a code that is there created it. -/
theorem mem_after (h : c ∈ after limit ttl ops) : ∃ made now,
    lastOn ops c.code = some (.create c.code c.value made now) ∧ c.expiresAt = made + ttl := by
  induction ops using List.reverseRecOn with
  | nil => cases h
  | append_singleton ops o ih =>
    rw [after, List.foldl_append] at h
    -- the last operation left the code, or created it
    rcases mem_step h with ⟨hold, hother⟩ | ⟨made, now, rfl, hexpires⟩
    · simpa [lastOn, hother] using ih hold
    · exact ⟨made, now, by simp [lastOn, Op.code], hexpires⟩

theorem lookup_after {code value : String} {now : Nat}
    (h : lookup (after limit ttl ops) code now = some value) : ∃ made purged,
      lastOn ops code = some (.create code value made purged) ∧ now < made + ttl := by
  obtain ⟨c, hfound, rfl⟩ := Option.map_eq_some_iff.mp h
  obtain ⟨hmem, hlive⟩ := List.mem_filter.mp (List.mem_of_find?_eq_some hfound)
  obtain ⟨made, purged, hlast, hexpires⟩ := mem_after hmem
  exact ⟨made, purged, by grind, by grind⟩

end OneTime

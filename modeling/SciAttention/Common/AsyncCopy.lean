import SciAttention.Common.Scatter

/-!
# Asynchronous copies in groups

A memory with copies in flight. Plain stores take effect at once. Asynchronous copies are collected
in groups, in program order; `waitGroup n` completes all but the `n` most recently committed groups.
A cell that no copy in flight names reads the same whenever those copies land.
-/

namespace AsyncCopy

variable {β : Type*}

/-- A memory and the committed groups that may still be in flight, oldest first. -/
structure State (β : Type*) where
  mem : ℕ → β
  pending : List (List (ℕ × β))

/-- Plain stores. -/
def State.store (s : State β) (ws : List (ℕ × β)) : State β :=
  { s with mem := Scatter.apply s.mem ws }

/-- `cp.async.commit_group` after issuing the given copies. -/
def State.commit (s : State β) (ws : List (ℕ × β)) : State β :=
  { s with pending := s.pending ++ [ws] }

/-- `cp.async.wait_group n`. -/
def State.waitGroup (s : State β) (n : ℕ) : State β :=
  let completed := s.pending.length - n
  { mem := Scatter.apply s.mem (s.pending.take completed).flatten
    pending := s.pending.drop completed }

@[simp] theorem store_pending (s : State β) (ws : List (ℕ × β)) :
    (s.store ws).pending = s.pending := rfl

@[simp] theorem commit_mem (s : State β) (ws : List (ℕ × β)) : (s.commit ws).mem = s.mem := rfl

/-- With one group more in flight than allowed, the oldest one completes. -/
theorem waitGroup_cons {s : State β} {ws : List (ℕ × β)} {groups : List (List (ℕ × β))}
    (h : s.pending = ws :: groups) :
    s.waitGroup groups.length = ⟨Scatter.apply s.mem ws, groups⟩ := by
  simp [State.waitGroup, h]

end AsyncCopy

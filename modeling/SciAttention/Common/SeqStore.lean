import Mathlib.Logic.Function.Basic
import Mathlib.Tactic.Common

/-!
# Append-only sequences of rows

What a key-value store for growing sequences is for: every sequence has a length, and in each of its
columns some of the positions below that length hold a row. Appending covers the next positions of
the columns it has data for; resetting a sequence forgets it and touches no other.
-/

/-- Sequences indexed by `ι`, each with columns `κ` of rows `ρ`. -/
structure SeqStore (ι κ ρ : Type*) where
  length : ι → ℕ
  row : ι → κ → ℕ → Option ρ

namespace SeqStore

variable {ι κ ρ : Type*}

/-- No tokens anywhere. -/
def empty : SeqStore ι κ ρ := ⟨fun _ => 0, fun _ _ _ => none⟩

/-- Rows are only below the length. -/
def Bounded (a : SeqStore ι κ ρ) : Prop := ∀ s k p, a.length s ≤ p → a.row s k p = none

theorem bounded_empty : (empty : SeqStore ι κ ρ).Bounded := fun _ _ _ _ => rfl

variable [DecidableEq ι]

/-- Append `n` rows to `s` in every column that has a source. -/
def append (a : SeqStore ι κ ρ) (s : ι) (n : ℕ) (source : κ → Option (ℕ → ρ)) :
    SeqStore ι κ ρ where
  length := Function.update a.length s (a.length s + n)
  row t k p :=
    if t = s ∧ a.length s ≤ p ∧ p < a.length s + n then
      (source k).map fun rows => rows (p - a.length s)
    else a.row t k p

/-- Forget a sequence. -/
def reset (a : SeqStore ι κ ρ) (s : ι) : SeqStore ι κ ρ where
  length := Function.update a.length s 0
  row t k p := if t = s then none else a.row t k p

theorem append_row_of_ne {a : SeqStore ι κ ρ} {s t : ι} (h : t ≠ s) (n : ℕ)
    (source : κ → Option (ℕ → ρ)) (k : κ) (p : ℕ) :
    (a.append s n source).row t k p = a.row t k p :=
  if_neg fun hc => h hc.1

theorem append_row_new {a : SeqStore ι κ ρ} {s : ι} {n p : ℕ} (source : κ → Option (ℕ → ρ))
    (k : κ)
    (hle : a.length s ≤ p) (hlt : p < a.length s + n) :
    (a.append s n source).row s k p = (source k).map fun rows => rows (p - a.length s) :=
  if_pos ⟨rfl, hle, hlt⟩

theorem append_row_old {a : SeqStore ι κ ρ} {s : ι} {n p : ℕ} (source : κ → Option (ℕ → ρ))
    (k : κ)
    (h : ¬ (a.length s ≤ p ∧ p < a.length s + n)) :
    (a.append s n source).row s k p = a.row s k p :=
  if_neg fun hc => h hc.2

theorem reset_row_self (a : SeqStore ι κ ρ) (s : ι) (k : κ) (p : ℕ) :
    (a.reset s).row s k p = none := if_pos rfl

theorem reset_row_of_ne {a : SeqStore ι κ ρ} {s t : ι} (h : t ≠ s) (k : κ) (p : ℕ) :
    (a.reset s).row t k p = a.row t k p := if_neg h

theorem Bounded.append {a : SeqStore ι κ ρ} (h : a.Bounded) (s : ι) (n : ℕ)
    (source : κ → Option (ℕ → ρ)) : (a.append s n source).Bounded := by
  intro t k p hp
  by_cases ht : t = s
  · subst ht
    simp only [SeqStore.append, Function.update_self] at hp
    rw [append_row_old source k (by omega)]
    exact h t k p (by omega)
  · simp only [SeqStore.append, Function.update_of_ne ht] at hp
    rw [append_row_of_ne ht]
    exact h t k p hp

theorem Bounded.reset {a : SeqStore ι κ ρ} (h : a.Bounded) (s : ι) : (a.reset s).Bounded := by
  intro t k p hp
  by_cases ht : t = s
  · rw [ht, reset_row_self]
  · simp only [SeqStore.reset, Function.update_of_ne ht] at hp
    rw [reset_row_of_ne ht]
    exact h t k p hp

end SeqStore

import Mathlib.Logic.Relation
import Mathlib.Tactic.Common

/-!
# Runs of a relation whose steps commute

Where two different steps from a state can always be completed to a common state by one step each, the
order of the steps is irrelevant: one run that ends in a state without steps bounds the length of every run,
and every run can be completed to that same state. The steps need to commute only under an invariant.
-/

namespace Diamond

variable {S : Type*} {r : S → S → Prop}

/-- A run of `n` steps. -/
inductive StepsIn (r : S → S → Prop) : ℕ → S → S → Prop where
  | zero (s : S) : StepsIn r 0 s s
  | succ {n : ℕ} {s t u : S} (hst : r s t) (htu : StepsIn r n t u) : StepsIn r (n + 1) s u

/-- A state without steps. -/
def Stuck (r : S → S → Prop) (s : S) : Prop := ∀ t, ¬ r s t

theorem exists_stepsIn {s t : S} (h : Relation.ReflTransGen r s t) : ∃ n, StepsIn r n s t := by
  induction h using Relation.ReflTransGen.head_induction_on with
  | refl => exact ⟨0, .zero t⟩
  | head hab _ ih =>
    obtain ⟨n, hn⟩ := ih
    exact ⟨n + 1, .succ hab hn⟩

theorem StepsIn.reflTransGen {n : ℕ} {s t : S} (h : StepsIn r n s t) : Relation.ReflTransGen r s t := by
  induction h with
  | zero s => exact .refl
  | succ hst _ ih => exact .head hst ih

/-- What the results below assume: the invariant is kept, and under it two steps commute. -/
structure Commutes (r : S → S → Prop) (I : S → Prop) : Prop where
  keeps : ∀ {s t}, I s → r s t → I t
  diamond : ∀ {s t t'}, I s → r s t → r s t' → t = t' ∨ ∃ u, r t u ∧ r t' u

namespace Commutes

variable {I : S → Prop} (hr : Commutes r I)

include hr

theorem keeps_run {s t : S} (hs : I s) (h : Relation.ReflTransGen r s t) : I t := by
  induction h with
  | refl => exact hs
  | tail _ hbc ih => exact hr.keeps ih hbc

/-- After any first step, the run that ends takes one step less. -/
theorem stepsIn_of_step {n : ℕ} {s t z : S} (hs : I s) (hz : Stuck r z) (hrun : StepsIn r n s z)
    (hst : r s t) : ∃ m, n = m + 1 ∧ StepsIn r m t z := by
  induction n generalizing s t with
  | zero =>
    cases hrun
    exact absurd hst (hz t)
  | succ n ih =>
    obtain _ | ⟨hsu, huz⟩ := hrun
    rename_i u
    rcases hr.diamond hs hst hsu with rfl | ⟨v, htv, huv⟩
    · exact ⟨n, rfl, huz⟩
    · obtain ⟨m, rfl, hvz⟩ := ih (hr.keeps hs hsu) huz huv
      exact ⟨m + 1, rfl, .succ htv hvz⟩

/-- Every run is a beginning of one that ends in the same state, after the same number of steps. -/
theorem stepsIn_of_stepsIn {n m : ℕ} {s t z : S} (hs : I s) (hz : Stuck r z) (hrun : StepsIn r n s z)
    (h : StepsIn r m s t) : ∃ k, n = m + k ∧ StepsIn r k t z := by
  induction h generalizing n with
  | zero s => exact ⟨n, (Nat.zero_add n).symm, hrun⟩
  | succ hst _ ih =>
    obtain ⟨l, rfl, hl⟩ := hr.stepsIn_of_step hs hz hrun hst
    obtain ⟨k, rfl, hk⟩ := ih (hr.keeps hs hst) hl
    exact ⟨k, by omega, hk⟩

/-- One run that ends decides where every run can be completed to. -/
theorem completes {s t z : S} (hs : I s) (hz : Stuck r z) (hrun : Relation.ReflTransGen r s z)
    (h : Relation.ReflTransGen r s t) : Relation.ReflTransGen r t z := by
  obtain ⟨n, hn⟩ := exists_stepsIn hrun
  obtain ⟨m, hm⟩ := exists_stepsIn h
  obtain ⟨k, -, hk⟩ := hr.stepsIn_of_stepsIn hs hz hn hm
  exact hk.reflTransGen

/-- A run that can go no further has reached the end of the run that ends. -/
theorem eq_of_stuck {s t z : S} (hs : I s) (hz : Stuck r z) (hrun : Relation.ReflTransGen r s z)
    (h : Relation.ReflTransGen r s t) (ht : Stuck r t) : t = z := by
  rcases (hr.completes hs hz hrun h).cases_head with rfl | ⟨u, htu, -⟩
  · rfl
  · exact absurd htu (ht u)

/-- No run is longer than the one that ends. -/
theorem exists_bound {s z : S} (hs : I s) (hz : Stuck r z) (hrun : Relation.ReflTransGen r s z) :
    ∃ n, ∀ m t, StepsIn r m s t → m ≤ n := by
  obtain ⟨n, hn⟩ := exists_stepsIn hrun
  refine ⟨n, fun m t h => ?_⟩
  obtain ⟨k, rfl, -⟩ := hr.stepsIn_of_stepsIn hs hz hn h
  exact Nat.le_add_right m k

end Commutes

end Diamond

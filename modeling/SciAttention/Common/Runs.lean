import Mathlib.Data.List.Infix
import Mathlib.Tactic.Common

/-!
# Properties along whole runs

A run folds a step function over a list of actions. `Runs.invariant` carries an invariant to the
end of a run; `Runs.forall_prefix_iff` says when a property that some steps may break holds in
every state a run passes through: exactly when no step of it is one that breaks the property.
`Runs.forall_step_iff` compares two judgements of the steps of a run.
-/

namespace Runs

variable {S A : Type*} (step : S → A → S)

/-- What every step keeps, a run keeps. -/
theorem invariant {I : S → Prop} (hstep : ∀ s a, I s → I (step s a)) {s : S} (hs : I s)
    (as : List A) : I (as.foldl step s) := by
  induction as generalizing s with
  | nil => exact hs
  | cons a as ih => exact ih (hstep s a hs)

/-- A property holds in every state of a run exactly when every step is one that keeps it, for steps
that are judged in the state before them. -/
theorem forall_prefix_iff {I P : S → Prop} (Safe : S → A → Prop)
    (hI : ∀ s a, I s → I (step s a)) (hP : ∀ s a, I s → P s → (P (step s a) ↔ Safe s a)) {s : S}
    (hs : I s) (hPs : P s) (as : List A) :
    (∀ pre, pre <+: as → P (pre.foldl step s)) ↔
      ∀ pre a, pre ++ [a] <+: as → Safe (pre.foldl step s) a := by
  constructor
  · intro hall pre a hpre
    have hbefore := hall pre ((List.prefix_append pre [a]).trans hpre)
    have hafter := hall (pre ++ [a]) hpre
    rw [List.foldl_append, List.foldl_cons, List.foldl_nil] at hafter
    exact (hP _ a (invariant step hI hs pre) hbefore).mp hafter
  · intro hsafe pre
    -- the states of a prefix are reached one action at a time from its end
    induction pre using List.reverseRecOn with
    | nil => exact fun _ => hPs
    | append_singleton pre a ih =>
      intro hpre
      have hbefore := ih ((List.prefix_append pre [a]).trans hpre)
      rw [List.foldl_append, List.foldl_cons, List.foldl_nil]
      exact (hP _ a (invariant step hI hs pre) hbefore).mpr (hsafe pre a hpre)

/-- Two judgements of a step that agree under an invariant agree along a run. -/
theorem forall_step_iff {I : S → Prop} {C : A → Prop} (P Q : S → A → Prop)
    (hI : ∀ s a, I s → I (step s a)) (hPQ : ∀ s a, I s → C a → (P s a ↔ Q s a)) {s : S} (hs : I s)
    {as : List A} (hC : ∀ a ∈ as, C a) :
    (∀ pre a, pre ++ [a] <+: as → P (pre.foldl step s) a) ↔
      ∀ pre a, pre ++ [a] <+: as → Q (pre.foldl step s) a := by
  refine forall_congr' fun pre => forall_congr' fun a => imp_congr_right fun hpre => ?_
  have hmem : a ∈ as := hpre.subset (List.mem_append_right _ (List.mem_singleton_self a))
  exact hPQ _ a (invariant step hI hs pre) (hC a hmem)

end Runs

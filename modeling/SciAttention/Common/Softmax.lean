import SciAttention.Common.Flt
import Mathlib.Algebra.BigOperators.Ring.Finset
import Mathlib.Algebra.Order.BigOperators.Group.Finset
import Mathlib.Tactic.Ring

/-!
# Softmax-weighted sums, in one pass or merged from parts

Scores are numbers extended with `-inf`; a score `-inf` has no weight. `mass E s w J m` is the
weighted sum over the positions `J` relative to a maximum `m`, the denominator being the case
`w = 1`. Every streaming or split evaluation rests on two facts: moving a sum to another maximum
multiplies it by one weight (`weight_mul_mass`), and the sum over disjoint positions adds up
(`mass_union`). The last section says what the floating-point expressions of such an evaluation
compute.
-/

/-- An exponential: multiplicative and positive. -/
structure ExactExp (𝕜 : Type*) [Field 𝕜] [LinearOrder 𝕜] where
  exp : 𝕜 → 𝕜
  exp_add : ∀ x y, exp (x + y) = exp x * exp y
  exp_pos : ∀ x, 0 < exp x

namespace Softmax

variable {𝕜 : Type*} [Field 𝕜] [LinearOrder 𝕜] (E : ExactExp 𝕜) {ι : Type*}

/-- The weight of a score relative to a maximum. -/
def weight : WithBot 𝕜 → WithBot 𝕜 → 𝕜
  | some x, some m => E.exp (x - m)
  | _, _ => 0

/-- The weighted sum over `J` relative to `m`. -/
def mass (s : ι → WithBot 𝕜) (w : ι → 𝕜) (J : Finset ι) (m : WithBot 𝕜) : 𝕜 :=
  ∑ j ∈ J, weight E (s j) m * w j

/-- The softmax-weighted average of `w` over `J`, zero when no score of `J` has weight. -/
def average (s : ι → WithBot 𝕜) (w : ι → 𝕜) (J : Finset ι) : 𝕜 :=
  mass E s w J (J.sup s) / mass E s 1 J (J.sup s)

/-- The log-sum-exp of the scores of `J`, with `L` for the logarithm. -/
def logSumExp (L : 𝕜 → 𝕜) (s : ι → WithBot 𝕜) (J : Finset ι) : WithBot 𝕜 :=
  (J.sup s).map fun m => m + L (mass E s 1 J (J.sup s))

/-- The average with every weight normalised before the sum. -/
theorem average_eq_sum (s : ι → WithBot 𝕜) (w : ι → 𝕜) (J : Finset ι) :
    average E s w J = ∑ j ∈ J, weight E (s j) (J.sup s) * (mass E s 1 J (J.sup s))⁻¹ * w j := by
  rw [average, mass.eq_1 E s w, div_eq_mul_inv, Finset.sum_mul]
  exact Finset.sum_congr rfl fun j _ => mul_right_comm _ _ _

@[simp] theorem weight_coe (x m : 𝕜) : weight E x m = E.exp (x - m) := rfl

@[simp] theorem weight_bot_left (m : WithBot 𝕜) : weight E ⊥ m = 0 := rfl

@[simp] theorem weight_bot_right (x : WithBot 𝕜) : weight E x ⊥ = 0 := by
  induction x <;> rfl

theorem weight_nonneg (x m : WithBot 𝕜) : 0 ≤ weight E x m := by
  induction x with
  | bot => exact le_rfl
  | coe x =>
    induction m with
    | bot => exact le_rfl
    | coe m => exact (E.exp_pos _).le

/-- Weights compose through an intermediate maximum that has weight itself. -/
theorem weight_mul_weight {x a m : WithBot 𝕜} (h : x ≤ a) :
    weight E a m * weight E x a = weight E x m := by
  induction x with
  | bot => simp
  | coe x =>
    induction a with
    | bot => simp at h
    | coe a =>
      induction m with
      | bot => simp
      | coe m =>
        rw [weight_coe, weight_coe, weight_coe, ← E.exp_add]
        congr 1
        ring

/-- Moving a sum to another maximum multiplies it by one weight. -/
theorem weight_mul_mass (s : ι → WithBot 𝕜) (w : ι → 𝕜) (J : Finset ι) (m : WithBot 𝕜) :
    weight E (J.sup s) m * mass E s w J (J.sup s) = mass E s w J m := by
  rw [mass, mass, Finset.mul_sum]
  refine Finset.sum_congr rfl fun j hj => ?_
  rw [← mul_assoc, weight_mul_weight E (Finset.le_sup hj)]

@[simp] theorem mass_empty (s : ι → WithBot 𝕜) (w : ι → 𝕜) (m : WithBot 𝕜) :
    mass E s w ∅ m = 0 := rfl

theorem mass_union [DecidableEq ι] (s : ι → WithBot 𝕜) (w : ι → 𝕜) {J T : Finset ι}
    (h : Disjoint J T) (m : WithBot 𝕜) : mass E s w (J ∪ T) m = mass E s w J m + mass E s w T m :=
  Finset.sum_union h

/-- Parts summed relative to their own maxima, rescaled to a common one, add up. -/
theorem sum_mass_mul_weight {κ : Type*} [DecidableEq ι] (s : ι → WithBot 𝕜) (w : ι → 𝕜)
    (S : Finset κ) {J : κ → Finset ι} (h : (S : Set κ).PairwiseDisjoint J) (m : WithBot 𝕜) :
    ∑ k ∈ S, mass E s w (J k) ((J k).sup s) * weight E ((J k).sup s) m =
      mass E s w (S.biUnion J) m := by
  rw [mass, Finset.sum_biUnion h]
  refine Finset.sum_congr rfl fun k _ => ?_
  rw [mul_comm, weight_mul_mass, mass]

theorem mass_bot (s : ι → WithBot 𝕜) (w : ι → 𝕜) (J : Finset ι) : mass E s w J ⊥ = 0 := by
  simp [mass]

/-- Positions without weight can be left out. -/
theorem mass_subset (s : ι → WithBot 𝕜) (w : ι → 𝕜) {J T : Finset ι} (h : T ⊆ J)
    (hmasked : ∀ j ∈ J, j ∉ T → s j = ⊥) (m : WithBot 𝕜) : mass E s w T m = mass E s w J m := by
  refine Finset.sum_subset h fun j hj hT => ?_
  rw [hmasked j hj hT, weight_bot_left, zero_mul]

omit [Field 𝕜] in
/-- Positions without weight do not count for the maximum. -/
theorem sup_subset (s : ι → WithBot 𝕜) {J T : Finset ι} (h : T ⊆ J)
    (hmasked : ∀ j ∈ J, j ∉ T → s j = ⊥) : T.sup s = J.sup s := by
  refine le_antisymm (Finset.sup_mono h) (Finset.sup_le fun j hj => ?_)
  by_cases hT : j ∈ T
  · exact Finset.le_sup hT
  · simp [hmasked j hj hT]

theorem average_subset (s : ι → WithBot 𝕜) (w : ι → 𝕜) {J T : Finset ι} (h : T ⊆ J)
    (hmasked : ∀ j ∈ J, j ∉ T → s j = ⊥) : average E s w T = average E s w J := by
  rw [average, average, sup_subset s h hmasked, mass_subset E s w h hmasked,
    mass_subset E s 1 h hmasked]

theorem mass_congr {s s' : ι → WithBot 𝕜} {w w' : ι → 𝕜} {J : Finset ι}
    (hs : ∀ j ∈ J, s j = s' j) (hw : ∀ j ∈ J, w j = w' j) (m : WithBot 𝕜) :
    mass E s w J m = mass E s' w' J m :=
  Finset.sum_congr rfl fun j hj => by rw [hs j hj, hw j hj]

/-- The average looks only at the scores and values of its positions. -/
theorem average_congr {s s' : ι → WithBot 𝕜} {w w' : ι → 𝕜} {J : Finset ι}
    (hs : ∀ j ∈ J, s j = s' j) (hw : ∀ j ∈ J, w j = w' j) :
    average E s w J = average E s' w' J := by
  rw [average, average, Finset.sup_congr rfl hs, mass_congr E hs hw,
    mass_congr E hs fun _ _ => rfl]

/-- Renaming the positions does not change the average. -/
theorem average_map {κ : Type*} (f : κ ↪ ι) (s : ι → WithBot 𝕜) (w : ι → 𝕜) (J : Finset κ) :
    average E s w (J.map f) = average E (fun j => s (f j)) (fun j => w (f j)) J := by
  simp only [average, mass, Finset.sum_map, Finset.sup_map, Function.comp_def, Pi.one_apply]

theorem exp_zero : E.exp 0 = 1 := by
  have hmul := E.exp_add 0 0
  rw [add_zero] at hmul
  exact mul_left_cancel₀ (E.exp_pos 0).ne' (by rw [← hmul, mul_one])

/-- Equal scores weigh all values alike. -/
theorem average_const (x : 𝕜) (w : ι → 𝕜) (J : Finset ι) :
    average E (fun _ => (x : WithBot 𝕜)) w J = (∑ j ∈ J, w j) / J.card := by
  rcases J.eq_empty_or_nonempty with rfl | hne
  · simp [average]
  · simp [average, mass, Finset.sup_const hne, exp_zero]

theorem logSumExp_subset (L : 𝕜 → 𝕜) (s : ι → WithBot 𝕜) {J T : Finset ι} (h : T ⊆ J)
    (hmasked : ∀ j ∈ J, j ∉ T → s j = ⊥) : logSumExp E L s T = logSumExp E L s J := by
  rw [logSumExp, logSumExp, sup_subset s h hmasked, mass_subset E s 1 h hmasked]

theorem logSumExp_congr (L : 𝕜 → 𝕜) {s s' : ι → WithBot 𝕜} {J : Finset ι}
    (hs : ∀ j ∈ J, s j = s' j) : logSumExp E L s J = logSumExp E L s' J := by
  rw [logSumExp, logSumExp, Finset.sup_congr rfl hs, mass_congr E hs fun _ _ => rfl]

section Order

variable [IsStrictOrderedRing 𝕜]

theorem mass_one_nonneg (s : ι → WithBot 𝕜) (J : Finset ι) (m : WithBot 𝕜) :
    0 ≤ mass E s 1 J m :=
  Finset.sum_nonneg fun j _ => mul_nonneg (weight_nonneg E (s j) m) zero_le_one

/-- The denominator is positive exactly when some score has weight. -/
theorem mass_one_pos_iff (s : ι → WithBot 𝕜) (J : Finset ι) :
    0 < mass E s 1 J (J.sup s) ↔ J.sup s ≠ ⊥ := by
  constructor
  · intro hpos hbot
    rw [hbot, mass_bot] at hpos
    exact lt_irrefl 0 hpos
  · intro hne
    obtain ⟨m, hm⟩ := WithBot.ne_bot_iff_exists.mp hne
    have hex : ∃ j ∈ J, s j ≠ ⊥ := by
      by_contra hall
      push Not at hall
      exact hne (Finset.sup_eq_bot_iff s J |>.mpr hall)
    obtain ⟨j, hj, hsj⟩ := hex
    obtain ⟨x, hx⟩ := WithBot.ne_bot_iff_exists.mp hsj
    refine Finset.sum_pos' (fun i _ => mul_nonneg (weight_nonneg E (s i) _) zero_le_one)
      ⟨j, hj, ?_⟩
    rw [← hx, ← hm, weight_coe, Pi.one_apply, mul_one]
    exact E.exp_pos _

end Order

/-! ## The floating-point expressions -/

open Flt

/-- `exp(x - m)` relative to a maximum that is a number. -/
theorem expf_sub_ofBot (x : WithBot 𝕜) {m : WithBot 𝕜} (hm : m ≠ ⊥) :
    expf E.exp (ofBot x - ofBot m) = fin (weight E x m) := by
  obtain ⟨m, rfl⟩ := WithBot.ne_bot_iff_exists.mp hm
  induction x with
  | bot => simp
  | coe x => simp

/-- A probability, with the guard for a row that has seen nothing. -/
theorem prob_ofBot (x m : WithBot 𝕜) :
    (if ofBot m = negInf then (0 : Flt 𝕜) else expf E.exp (ofBot x - ofBot m)) =
      fin (weight E x m) := by
  by_cases hm : m = ⊥
  · simp [hm, zero_def]
  · rw [if_neg (by simpa using hm), expf_sub_ofBot E x hm]

/-- The rescale factor, guarded against a row that has seen nothing before. -/
theorem rescale_ofBot {m m' : WithBot 𝕜} (h : m ≤ m') :
    (if ofBot m = negInf then (0 : Flt 𝕜) else expf E.exp (ofBot m - ofBot m')) =
      fin (weight E m m') := by
  by_cases hm : m = ⊥
  · simp [hm, zero_def]
  · have hm' : m' ≠ ⊥ := fun hbot => hm (le_bot_iff.mp (hbot ▸ h))
    rw [if_neg (by simpa using hm), expf_sub_ofBot E m hm']

/-- The rescale factor with both guards. -/
theorem rescale_ofBot' (m m' : WithBot 𝕜) :
    (if ofBot m = negInf ∨ ofBot m' = negInf then (0 : Flt 𝕜)
      else expf E.exp (ofBot m - ofBot m')) = fin (weight E m m') := by
  by_cases hm : m = ⊥
  · simp [hm, zero_def]
  · by_cases hm' : m' = ⊥
    · simp [hm', zero_def]
    · rw [if_neg (by simp [hm, hm']), expf_sub_ofBot E m hm']

/-- A running sum of rescaled parts that skips the parts that saw nothing. -/
theorem foldl_rescaled {κ : Type*} (a : κ → 𝕜) (m : κ → WithBot 𝕜) {M : WithBot 𝕜}
    (l : List κ)
    (h : ∀ k ∈ l, m k ≤ M) (x : 𝕜) :
    l.foldl (fun total k => if ofBot (m k) = negInf then total
      else total + fin (a k) * expf E.exp (ofBot (m k) - ofBot M)) (fin x) =
      fin (x + (l.map fun k => a k * weight E (m k) M).sum) := by
  induction l generalizing x with
  | nil => simp
  | cons k l ih =>
    have htail : ∀ k ∈ l, m k ≤ M := fun i hi => h i (by simp [hi])
    rw [List.foldl_cons]
    by_cases hk : m k = ⊥
    · rw [if_pos (by simp [hk]), ih htail]
      simp [hk]
    · have hM : M ≠ ⊥ := fun hbot => hk (le_bot_iff.mp (hbot ▸ h k (by simp)))
      rw [if_neg (by simpa using hk), expf_sub_ofBot E _ hM, fin_mul_fin, fin_add_fin, ih htail]
      simp [add_assoc]

/-- The accumulator after a tile: rescale what was there and add the tile's part. -/
theorem rescale_add_tile [DecidableEq ι] (s : ι → WithBot 𝕜) (w : ι → 𝕜) {J T : Finset ι}
    (h : Disjoint J T) :
    weight E (J.sup s) (J.sup s ⊔ T.sup s) * mass E s w J (J.sup s) +
        mass E s w T (J.sup s ⊔ T.sup s) = mass E s w (J ∪ T) ((J ∪ T).sup s) := by
  rw [weight_mul_mass, Finset.sup_union, mass_union E s w h]

/-- The accumulator after a single position. -/
theorem rescale_add_single [DecidableEq ι] (s : ι → WithBot 𝕜) (w : ι → 𝕜) {J : Finset ι}
    {j : ι}
    (h : j ∉ J) :
    weight E (J.sup s) (J.sup s ⊔ s j) * mass E s w J (J.sup s) +
        weight E (s j) (J.sup s ⊔ s j) * w j = mass E s w (insert j J) ((insert j J).sup s) := by
  have htile := rescale_add_tile E s w (Finset.disjoint_singleton_right.mpr h)
  rwa [Finset.sup_singleton, Finset.union_singleton, mass.eq_1 E s w {j},
    Finset.sum_singleton] at htile

variable [IsStrictOrderedRing 𝕜]

/-- The guarded reciprocal of the denominator. -/
theorem recip_mass (s : ι → WithBot 𝕜) (J : Finset ι) (m : WithBot 𝕜) :
    (if gtZero (fin (mass E s 1 J m)) then recip (fin (mass E s 1 J m)) else (0 : Flt 𝕜)) =
      fin (mass E s 1 J m)⁻¹ := by
  rcases (mass_one_nonneg E s J m).eq_or_lt with hzero | hpos
  · simp [← hzero, zero_def]
  · rw [gtZero_fin, decide_eq_true hpos, if_pos rfl, recip_fin hpos.ne']

/-- The guarded log-sum-exp. -/
theorem lse_mass (L : 𝕜 → 𝕜) (s : ι → WithBot 𝕜) (J : Finset ι) :
    (if gtZero (fin (mass E s 1 J (J.sup s))) then
        ofBot (J.sup s) + logf L (fin (mass E s 1 J (J.sup s)))
      else (negInf : Flt 𝕜)) = ofBot (logSumExp E L s J) := by
  by_cases hbot : J.sup s = ⊥
  · simp [hbot, mass_bot, logSumExp]
  · have hpos := (mass_one_pos_iff E s J).mpr hbot
    obtain ⟨m, hm⟩ := WithBot.ne_bot_iff_exists.mp hbot
    rw [gtZero_fin, decide_eq_true hpos, if_pos rfl, logSumExp, logf, if_pos hpos, ← hm]
    rfl

end Softmax

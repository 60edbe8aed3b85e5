import Mathlib.Data.Nat.Size
import Mathlib.Tactic.Linarith

/-!
# Rounding to a number of significant bits

Round to nearest, ties to even, of a natural number that is to have at most `bits` significant bits. The
error is at most half a unit of the last place, so a relative error of `2 ^ -bits`.
-/

namespace Rounding

/-- The nearest multiple of `unit`; of two that are equally near, the even one. -/
def nearestEven (unit n : ℕ) : ℕ :=
  if unit < 2 * (n % unit) ∨ 2 * (n % unit) = unit ∧ n / unit % 2 = 1 then (n / unit + 1) * unit
  else n / unit * unit

/-- The number of `bits` significant bits that is nearest to `n`. -/
def roundBits (bits n : ℕ) : ℕ := nearestEven (2 ^ (n.size - bits)) n

theorem nearestEven_one (n : ℕ) : nearestEven 1 n = n := by simp [nearestEven, Nat.mod_one]

theorem nearestEven_le (unit n : ℕ) : 2 * nearestEven unit n ≤ 2 * n + unit := by
  have hdiv := Nat.div_add_mod' n unit
  unfold nearestEven
  split_ifs with hup
  · rw [Nat.add_mul, Nat.one_mul]
    omega
  · omega

theorem le_nearestEven {unit : ℕ} (hunit : 0 < unit) (n : ℕ) :
    2 * n ≤ 2 * nearestEven unit n + unit := by
  have hdiv := Nat.div_add_mod' n unit
  have hmod := Nat.mod_lt n hunit
  unfold nearestEven
  split_ifs with hup
  · rw [Nat.add_mul, Nat.one_mul]
    omega
  · omega

/-- What has few enough bits is not rounded. -/
theorem roundBits_of_lt {bits n : ℕ} (h : n < 2 ^ bits) : roundBits bits n = n := by
  rw [roundBits, Nat.sub_eq_zero_of_le (Nat.size_le.2 h), Nat.pow_zero, nearestEven_one]

/-- A unit in the last place is small beside the number. -/
theorem pow_mul_unit_le {bits n : ℕ} (h : 2 ^ bits ≤ n) : 2 ^ bits * 2 ^ (n.size - bits) ≤ 2 * n := by
  have hsize : bits < n.size := Nat.lt_size.2 h
  have hlow : 2 ^ (n.size - 1) ≤ n := Nat.lt_size.1 (by omega)
  calc 2 ^ bits * 2 ^ (n.size - bits) = 2 * 2 ^ (n.size - 1) := by
        rw [← pow_add, ← pow_succ']
        congr 1
        omega
    _ ≤ 2 * n := Nat.mul_le_mul_left 2 hlow

/-- Rounding adds at most one part in `2 ^ bits`. -/
theorem roundBits_le (bits n : ℕ) : 2 ^ bits * roundBits bits n ≤ (2 ^ bits + 1) * n := by
  obtain hlt | hle := Nat.lt_or_ge n (2 ^ bits)
  · rw [roundBits_of_lt hlt]
    exact Nat.mul_le_mul_right n (Nat.le_succ _)
  · have hunit := pow_mul_unit_le hle
    have hround := Nat.mul_le_mul_left (2 ^ bits) (nearestEven_le (2 ^ (n.size - bits)) n)
    rw [roundBits]
    linarith

/-- Rounding takes at most one part in `2 ^ bits` away. -/
theorem le_roundBits (bits n : ℕ) : 2 ^ bits * n ≤ 2 ^ bits * roundBits bits n + n := by
  obtain hlt | hle := Nat.lt_or_ge n (2 ^ bits)
  · rw [roundBits_of_lt hlt]
    exact Nat.le_add_right _ _
  · have hunit := pow_mul_unit_le hle
    have hround := Nat.mul_le_mul_left (2 ^ bits)
      (le_nearestEven (Nat.two_pow_pos (n.size - bits)) n)
    rw [roundBits]
    linarith

end Rounding

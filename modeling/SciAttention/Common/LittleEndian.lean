import Mathlib.Data.Nat.Basic
import Mathlib.Tactic.Common
import Mathlib.Tactic.Ring

/-!
# Little-endian numbers

The bytes of a number, least significant first, and the number of a list of bytes. The two are
inverse on numbers that fit.
-/

namespace LittleEndian

/-- The `size` bytes of `n`. -/
def bytes : ℕ → ℕ → List UInt8
  | 0, _ => []
  | size + 1, n => UInt8.ofNat n :: bytes size (n / 256)

/-- The number of the bytes. -/
def value : List UInt8 → ℕ
  | [] => 0
  | b :: bs => b.toNat + 256 * value bs

@[simp] theorem length_bytes (size n : ℕ) : (bytes size n).length = size := by
  induction size generalizing n with
  | zero => rfl
  | succ size ih => rw [bytes, List.length_cons, ih]

theorem value_lt (raw : List UInt8) : value raw < 256 ^ raw.length := by
  induction raw with
  | nil => exact Nat.one_pos
  | cons b bs ih =>
    have hb := b.toNat_lt
    rw [value, List.length_cons, Nat.pow_succ]
    omega

theorem value_bytes {size n : ℕ} (h : n < 256 ^ size) : value (bytes size n) = n := by
  induction size generalizing n with
  | zero => exact (Nat.lt_one_iff.1 h).symm
  | succ size ih =>
    have hdiv : n / 256 < 256 ^ size := Nat.div_lt_of_lt_mul (by rwa [Nat.pow_succ'] at h)
    rw [bytes, value, ih hdiv, UInt8.toNat_ofNat']
    exact Nat.mod_add_div n 256

theorem bytes_value (raw : List UInt8) : bytes raw.length (value raw) = raw := by
  induction raw with
  | nil => rfl
  | cons b bs ih =>
    have hb := b.toNat_lt
    have hdiv : (b.toNat + 256 * value bs) / 256 = value bs := by omega
    have hmod : UInt8.ofNat (b.toNat + 256 * value bs) = b := by
      rw [← UInt8.toNat_inj, UInt8.toNat_ofNat']
      omega
    rw [List.length_cons, value, bytes, hdiv, hmod, ih]

end LittleEndian

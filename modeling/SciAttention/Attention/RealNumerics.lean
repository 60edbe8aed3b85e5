import SciAttention.Attention.Config
import Mathlib.Analysis.SpecialFunctions.Exp
import Mathlib.Analysis.SpecialFunctions.Log.Basic

/-!
# The kernels' numbers over the reals

`realNumerics` reads stored elements as the little-endian IEEE formats they are and computes with the
real exponential and logarithm. The bit patterns of infinities and `nan` have no exact value; they
read as the number their fields would spell.
-/

namespace SciAttention

/-- The number that little-endian bytes spell. -/
def littleEndian (bytes : List UInt8) : ℕ :=
  bytes.foldr (fun b acc => b.toNat + 256 * acc) 0

/-- The value of a binary floating-point format with the given field widths. -/
def ieeeValue (expBits fracBits bits : ℕ) : ℚ :=
  let frac := bits % 2 ^ fracBits
  let expo := bits / 2 ^ fracBits % 2 ^ expBits
  let bias : ℤ := 2 ^ (expBits - 1) - 1
  let magnitude : ℚ :=
    if expo = 0 then frac * 2 ^ (1 - bias - fracBits)
    else (2 ^ fracBits + frac) * 2 ^ (expo - bias - fracBits)
  if bits / 2 ^ (fracBits + expBits) % 2 = 1 then -magnitude else magnitude

/-- `ToFloat` on stored bytes; only the compute dtypes are ever read. -/
def storedValue : DType → List UInt8 → ℚ
  | .float32, bytes => ieeeValue 8 23 (littleEndian bytes)
  | .float16, bytes => ieeeValue 5 10 (littleEndian bytes)
  | .bfloat16, bytes => ieeeValue 8 7 (littleEndian bytes)
  | _, _ => 0

/-- The numbers of the device, exact. -/
noncomputable def realNumerics : Numerics ℝ where
  E := ⟨Real.exp, Real.exp_add, Real.exp_pos⟩
  log := Real.log
  invSqrt n := 1 / √n
  toFloat dtype bytes := storedValue dtype bytes
  showFloat _ := "0.000000"

/-- Zeroed half-precision memory reads as zero. -/
theorem load_zero (index : ℕ) : realNumerics.load .float16 (fun _ => 0) index = 0 := by
  have hzero : storedValue .float16 [0, 0] = 0 := by norm_num [storedValue, ieeeValue, littleEndian]
  change ((storedValue .float16 [0, 0] : ℚ) : ℝ) = 0
  rw [hzero, Rat.cast_zero]

/-- Half-precision memory full of ones. -/
def onesHalf : Bytes := fun n => if n % 2 = 0 then 0 else 0x3C

theorem load_onesHalf (index : ℕ) : realNumerics.load .float16 onesHalf index = 1 := by
  have hbits : littleEndian [0, 0x3C] = 15360 := by decide
  have hone : storedValue .float16 [0, 0x3C] = 1 := by
    norm_num [storedValue, ieeeValue, hbits]
  have hbytes : (List.range 2).map (fun b => onesHalf (index * 2 + b)) = [0, 0x3C] := by
    simp [onesHalf, List.range_succ]
  change ((storedValue .float16 ((List.range 2).map fun b => onesHalf (index * 2 + b)) : ℚ) : ℝ) = 1
  rw [hbytes, hone, Rat.cast_one]

/-- Half-precision memory with a one as its element `n` and zeros elsewhere. -/
def oneAt (n : ℕ) : Bytes := fun m => if m = 2 * n + 1 then 0x3C else 0

theorem load_oneAt (n index : ℕ) :
    realNumerics.load .float16 (oneAt n) index = if index = n then 1 else 0 := by
  have hlow : oneAt n (index * 2) = 0 := if_neg (by omega)
  split_ifs with h
  · have hhigh : oneAt n (index * 2 + 1) = onesHalf (index * 2 + 1) := by
      rw [oneAt, if_pos (by omega), onesHalf, if_neg (by omega)]
    have hlow' : oneAt n (index * 2) = onesHalf (index * 2) := by
      rw [hlow, onesHalf, if_pos (by omega)]
    rw [← load_onesHalf index]
    change ((storedValue .float16 [oneAt n (index * 2), oneAt n (index * 2 + 1)] : ℚ) : ℝ) =
      ((storedValue .float16 [onesHalf (index * 2), onesHalf (index * 2 + 1)] : ℚ) : ℝ)
    rw [hlow', hhigh]
  · have hhigh : oneAt n (index * 2 + 1) = 0 := if_neg (by omega)
    rw [← load_zero index]
    change ((storedValue .float16 [oneAt n (index * 2), oneAt n (index * 2 + 1)] : ℚ) : ℝ) =
      ((storedValue .float16 [0, 0] : ℚ) : ℝ)
    rw [hlow, hhigh]

/-- A device with a megabyte of pooled scratch memory on which every launch succeeds. -/
def readyEnv {𝕜 : Type*} [Field 𝕜] : AttentionEnv 𝕜 where
  scratch :=
    { pooled := 2 ^ 18
      alloc := fun _ => false
      contents := fun _ => 0
      pooled_lt := by decide
      alloc_lt := by simp }
  outAlloc := some fun _ => 0
  launch _ := .ok
  smCount := 8

theorem readyEnv_scratch {𝕜 : Type*} [Field 𝕜] {elements : ℕ} (hpos : 0 < elements)
    (hle : elements ≤ 2 ^ 18) :
    acquireScratchFp32 (readyEnv (𝕜 := 𝕜)).scratch elements = .ok fun _ => 0 := by
  rw [acquireScratchFp32, if_neg hpos.ne', if_neg (by simpa [readyEnv] using hle)]
  rfl

end SciAttention

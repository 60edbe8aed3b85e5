import Mathlib.Algebra.BigOperators.Group.Finset.Basic
import Mathlib.Tactic.Common

/-!
# Warp-level matrix fragments

The documented register layouts of `ldmatrix.x4`, `ldmatrix.x4.trans` and `mma.m16n8k16`, over any
element type. A warp's registers are functions of the lane; a packed 32-bit register is a pair.
`fragA` and `fragB` say which matrix entry each register half is, and the `_ldMatrix` lemmas which
memory cell it comes from when the lanes supply the usual row addresses of a 16 by 16 block.
-/

namespace TensorCore

variable {R : Type*}

/-! ## Loads -/

/-- `ldmatrix.x4`: lanes `8m … 8m+7` supply the row addresses of matrix `m`; register `m` of a lane
holds two neighbours of row `lane / 4`. -/
def ldMatrixX4 (mem : ℕ → R) (address : ℕ → ℕ) (lane m : ℕ) : R × R :=
  (mem (address (8 * m + lane / 4) + 2 * (lane % 4)),
    mem (address (8 * m + lane / 4) + (2 * (lane % 4) + 1)))

/-- `ldmatrix.x4.trans`: the same with every matrix transposed. -/
def ldMatrixX4Trans (mem : ℕ → R) (address : ℕ → ℕ) (lane m : ℕ) : R × R :=
  (mem (address (8 * m + 2 * (lane % 4)) + lane / 4),
    mem (address (8 * m + (2 * (lane % 4) + 1)) + lane / 4))

/-! ## Products -/

/-- Element `k` of a packed pair. -/
def half (r : R × R) (k : ℕ) : R := if k % 2 = 0 then r.1 else r.2

/-- Entry `(row, k)` of the 16 by 16 matrix that the A registers hold. -/
def fragA (a : ℕ → ℕ → R × R) (row k : ℕ) : R :=
  half (a (row % 8 * 4 + k % 8 / 2) (row / 8 + 2 * (k / 8))) k

/-- Entry `(k, col)` of the 16 by 8 matrix that the two B registers hold. -/
def fragB (b0 b1 : ℕ → R × R) (k col : ℕ) : R :=
  half ((if k < 8 then b0 else b1) (col * 4 + k % 8 / 2)) k

/-- The matrix row of accumulator register `i` of a lane. -/
def accRow (lane i : ℕ) : ℕ := lane / 4 + 8 * (i / 2)

/-- The matrix column of accumulator register `i` of a lane. -/
def accCol (lane i : ℕ) : ℕ := 2 * (lane % 4) + i % 2

/-- `mma.m16n8k16`: the accumulator registers after adding the product of the fragments. -/
def mma [AddCommMonoid R] [Mul R] (c : ℕ → ℕ → R) (a : ℕ → ℕ → R × R)
    (b0 b1 : ℕ → R × R) :
    ℕ → ℕ → R :=
  fun lane i =>
    c lane i + ∑ k ∈ Finset.range 16, fragA a (accRow lane i) k * fragB b0 b1 k (accCol lane i)

/-- A loop of products into one accumulator. -/
theorem foldl_mma [AddCommMonoid R] [Mul R] (c : ℕ → ℕ → R) (A : ℕ → ℕ → ℕ → R × R)
    (B0 B1 : ℕ → ℕ → R × R) (n lane i : ℕ) :
    (List.range n).foldl (fun acc t => mma acc (A t) (B0 t) (B1 t)) c lane i =
      c lane i + ∑ t ∈ Finset.range n, ∑ k ∈ Finset.range 16,
        fragA (A t) (accRow lane i) k * fragB (B0 t) (B1 t) k (accCol lane i) := by
  induction n with
  | zero => simp
  | succ n ih =>
    rw [List.range_succ, List.foldl_append, List.foldl_cons, List.foldl_nil, mma, ih,
      Finset.sum_range_succ _ n, add_assoc]

/-- A loop of pointwise stages, at one point. -/
theorem foldl_stages {β ι : Type*} (stage : (ℕ → β) → ι → ℕ → β) (f : β → ι → β)
    {t : ℕ}
    (h : ∀ s x, stage s x t = f (s t) x) (l : List ι) (s : ℕ → β) :
    l.foldl stage s t = l.foldl f (s t) := by
  induction l generalizing s with
  | nil => rfl
  | cons x l ih => rw [List.foldl_cons, List.foldl_cons, ih, h]

/-- A loop that updates the tiles of an array two by two, each from itself, updates all of them. -/
theorem foldl_pairs {β : Type*} (f : ℕ → β → β) (n : ℕ) (s : ℕ → β) (t : ℕ) :
    (List.range n).foldl (fun s np =>
      let s' := Function.update s (2 * np) (f (2 * np) (s (2 * np)))
      Function.update s' (2 * np + 1) (f (2 * np + 1) (s' (2 * np + 1)))) s t =
      if t < 2 * n then f t (s t) else s t := by
  induction n with
  | zero => rfl
  | succ n ih =>
    simp only [List.range_succ, List.foldl_append, List.foldl_cons, List.foldl_nil]
    rcases (show t = 2 * n + 1 ∨ t = 2 * n ∨ t ≠ 2 * n ∧ t ≠ 2 * n + 1 by omega) with
      rfl | rfl | ⟨hne, hne'⟩
    · rw [Function.update_self, Function.update_of_ne (by omega), ih, if_neg (by omega),
        if_pos (by omega)]
    · rw [Function.update_of_ne (by omega), Function.update_self, ih, if_neg (by omega),
        if_pos (by omega)]
    · rw [Function.update_of_ne hne', Function.update_of_ne hne, ih]
      by_cases hlt : t < 2 * n
      · rw [if_pos hlt, if_pos (by omega)]
      · rw [if_neg hlt, if_neg (by omega)]

theorem accRow_lt {lane i : ℕ} (hlane : lane < 32) (hi : i < 4) : accRow lane i < 16 := by
  unfold accRow
  omega

theorem accCol_lt (lane i : ℕ) : accCol lane i < 8 := by
  unfold accCol
  omega

@[simp] theorem accRow_even (lane e : ℕ) : accRow lane (2 * e) = lane / 4 + 8 * e := by
  unfold accRow
  omega

@[simp] theorem accRow_odd (lane e : ℕ) : accRow lane (2 * e + 1) = lane / 4 + 8 * e := by
  unfold accRow
  omega

@[simp] theorem accCol_even (lane e : ℕ) : accCol lane (2 * e) = 2 * (lane % 4) := by
  unfold accCol
  omega

@[simp] theorem accCol_odd (lane e : ℕ) : accCol lane (2 * e + 1) = 2 * (lane % 4) + 1 := by
  unfold accCol
  omega

/-! ## Row addresses of a 16 by 16 block

Lane `8m + r` points at row `8 (m % 2) + r` and column `8 (m / 2)` of the block, where `at row col` is
the address of an entry. -/

/-- The row that a lane addresses. -/
def ldRow (lane : ℕ) : ℕ := lane / 8 % 2 * 8 + lane % 8

/-- The column that a lane addresses. -/
def ldCol (lane : ℕ) : ℕ := lane / 8 / 2 * 8

section Block

variable (mem : ℕ → R) (entry : ℕ → ℕ → ℕ)

theorem half_pair (x : ℕ → R) (n k : ℕ) : half (x n, x (n + 1)) k = x (n + k % 2) := by
  unfold half
  split_ifs with h
  · simp [h]
  · rw [show k % 2 = 1 by omega]

/-- The A registers loaded from a block hold the block. -/
theorem fragA_ldMatrix (hrow : ∀ row col c, entry row (col + c) = entry row col + c) {row k : ℕ}
    (hr : row < 16) :
    fragA (ldMatrixX4 mem fun lane => entry (ldRow lane) (ldCol lane)) row k =
      mem (entry row k) := by
  have hlane : (row % 8 * 4 + k % 8 / 2) / 4 = row % 8 ∧
      (row % 8 * 4 + k % 8 / 2) % 4 = k % 8 / 2 := by omega
  have hld : ldRow (8 * (row / 8 + 2 * (k / 8)) + row % 8) = row ∧
      ldCol (8 * (row / 8 + 2 * (k / 8)) + row % 8) = k / 8 * 8 := by
    unfold ldRow ldCol
    omega
  simp only [fragA, ldMatrixX4, hlane, hld]
  rw [half_pair fun n => mem (entry row (k / 8 * 8) + n), ← hrow]
  congr 2
  omega

/-- Registers `s` and `s + 2` loaded from a block hold its rows `8 s … 8 s + 7` as columns. -/
theorem fragB_ldMatrix (hrow : ∀ row col c, entry row (col + c) = entry row col + c) {s k n : ℕ}
    (hs : s < 2) (hk : k < 16) (hn : n < 8) :
    fragB (fun lane => ldMatrixX4 mem (fun lane => entry (ldRow lane) (ldCol lane)) lane s)
        (fun lane => ldMatrixX4 mem (fun lane => entry (ldRow lane) (ldCol lane)) lane (s + 2)) k n =
      mem (entry (8 * s + n) k) := by
  have hlane : (n * 4 + k % 8 / 2) / 4 = n ∧ (n * 4 + k % 8 / 2) % 4 = k % 8 / 2 := by omega
  have hld : ∀ t < 2, ldRow (8 * (s + 2 * t) + n) = 8 * s + n ∧
      ldCol (8 * (s + 2 * t) + n) = 8 * t := by
    unfold ldRow ldCol
    omega
  by_cases hlow : k < 8
  · have h0 := hld 0 (by omega)
    simp only [Nat.mul_zero, Nat.add_zero] at h0
    simp only [fragB, hlow, if_true, ldMatrixX4, hlane, h0]
    rw [half_pair fun j => mem (entry (8 * s + n) 0 + j), ← hrow]
    congr 2
    omega
  · have h1 := hld 1 (by omega)
    simp only [Nat.mul_one] at h1
    simp only [fragB, hlow, if_false, ldMatrixX4, hlane, h1]
    rw [half_pair fun j => mem (entry (8 * s + n) 8 + j), ← hrow]
    congr 2
    omega

/-- A register half loaded transposed from a block. -/
theorem half_ldMatrixTrans (hrow : ∀ row col c, entry row (col + c) = entry row col + c)
    {s t k n : ℕ} (ht : t < 2) :
    half (ldMatrixX4Trans mem (fun lane => entry (ldRow lane) (ldCol lane)) (n * 4 + k % 8 / 2)
      (2 * s + t)) k = mem (entry (8 * t + k % 8) (8 * s + n)) := by
  have hlane : (n * 4 + k % 8 / 2) / 4 = n ∧ (n * 4 + k % 8 / 2) % 4 = k % 8 / 2 := by omega
  have hld : ∀ j < 8, ldRow (8 * (2 * s + t) + j) = 8 * t + j ∧
      ldCol (8 * (2 * s + t) + j) = 8 * s := by
    unfold ldRow ldCol
    omega
  have hfirst := hld (2 * (k % 8 / 2)) (by omega)
  have hsecond := hld (2 * (k % 8 / 2) + 1) (by omega)
  simp only [ldMatrixX4Trans, hlane, hfirst, hsecond]
  rw [half_pair fun j => mem (entry (8 * t + j) (8 * s) + n), ← hrow]
  congr 3
  omega

/-- Registers `2 s` and `2 s + 1` loaded transposed from a block hold its columns
`8 s … 8 s + 7`. -/
theorem fragB_ldMatrixTrans (hrow : ∀ row col c, entry row (col + c) = entry row col + c)
    {s k n : ℕ} (hk : k < 16) :
    fragB
        (fun lane => ldMatrixX4Trans mem (fun lane => entry (ldRow lane) (ldCol lane)) lane (2 * s))
        (fun lane => ldMatrixX4Trans mem (fun lane => entry (ldRow lane) (ldCol lane)) lane
          (2 * s + 1)) k n =
      mem (entry k (8 * s + n)) := by
  unfold fragB
  by_cases hlow : k < 8
  · have hreg := half_ldMatrixTrans mem entry hrow (s := s) (k := k) (n := n) (show 0 < 2 by omega)
    rw [Nat.add_zero, Nat.mul_zero, Nat.zero_add, Nat.mod_eq_of_lt hlow] at hreg
    rw [if_pos hlow, Nat.mod_eq_of_lt hlow]
    exact hreg
  · have hreg := half_ldMatrixTrans mem entry hrow (s := s) (k := k) (n := n) (show 1 < 2 by omega)
    rw [if_neg hlow]
    refine hreg.trans ?_
    congr 2
    omega

end Block

/-! ## Accumulators as A registers -/

/-- Two neighbouring accumulator tiles packed into A registers. -/
def packAcc (s0 s1 : ℕ → ℕ → R) (lane m : ℕ) : R × R :=
  let s := if m < 2 then s0 else s1
  (s lane (2 * (m % 2)), s lane (2 * (m % 2) + 1))

/-- Packed accumulators hold the 16 by 16 matrix whose column halves the two tiles are. -/
theorem fragA_packAcc {s0 s1 : ℕ → ℕ → R} {S : ℕ → ℕ → R}
    (h0 : ∀ lane < 32, ∀ i < 4, s0 lane i = S (accRow lane i) (accCol lane i))
    (h1 : ∀ lane < 32, ∀ i < 4, s1 lane i = S (accRow lane i) (8 + accCol lane i)) {row k : ℕ}
    (hr : row < 16) (hk : k < 16) : fragA (packAcc s0 s1) row k = S row k := by
  have hlane : row % 8 * 4 + k % 8 / 2 < 32 := by omega
  have hmod : (row / 8 + 2 * (k / 8)) % 2 = row / 8 := by omega
  have hpair : ∀ s : ℕ → ℕ → R, half (s (row % 8 * 4 + k % 8 / 2) (2 * (row / 8)),
      s (row % 8 * 4 + k % 8 / 2) (2 * (row / 8) + 1)) k =
      s (row % 8 * 4 + k % 8 / 2) (2 * (row / 8) + k % 2) :=
    fun s => half_pair (fun i => s (row % 8 * 4 + k % 8 / 2) i) _ k
  have hacc : accRow (row % 8 * 4 + k % 8 / 2) (2 * (row / 8) + k % 2) = row ∧
      accCol (row % 8 * 4 + k % 8 / 2) (2 * (row / 8) + k % 2) = k % 8 := by
    unfold accRow accCol
    omega
  by_cases hlow : k < 8
  · have hreg : row / 8 + 2 * (k / 8) < 2 := by omega
    simp only [fragA, packAcc, hreg, if_true, hmod, hpair]
    rw [h0 _ hlane _ (by omega), hacc.1, hacc.2, Nat.mod_eq_of_lt hlow]
  · have hreg : ¬ row / 8 + 2 * (k / 8) < 2 := by omega
    simp only [fragA, packAcc, hreg, if_false, hmod, hpair]
    rw [h1 _ hlane _ (by omega), hacc.1, hacc.2]
    congr 1
    omega

end TensorCore

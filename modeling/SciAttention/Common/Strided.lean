import Mathlib.Algebra.BigOperators.Group.Finset.Basic
import Mathlib.Data.List.Range
import Mathlib.Data.List.Nodup
import Mathlib.Algebra.Group.Nat.Range
import Mathlib.Data.Finset.Lattice.Fold
import Mathlib.Data.List.Perm.Lattice
import Mathlib.Order.Interval.Finset.Nat
import Mathlib.Tactic.Common

/-!
# Strided loops over a shared index space

`for (i = start; i < total; i += stride)`, run by every thread with its own `start`, splits
`[0, total)` among the threads: index `i` belongs to thread `i % stride`. `gridStride` lists the
iterations of a whole grid of blocks; it is a rearrangement of `[0, total)`.
-/

namespace Strided

/-- The indices of `for (i = start; i < total; i += stride)`. -/
def loop (start stride total : ℕ) : List ℕ :=
  List.range' start ((total - start + stride - 1) / stride) stride

/-- An index is visited exactly when it lies in range and in the thread's residue class. -/
theorem mem_loop {start stride total i : ℕ} (hs : 0 < stride) :
    i ∈ loop start stride total ↔ start ≤ i ∧ i < total ∧ (i - start) % stride = 0 := by
  rw [loop, List.mem_range']
  constructor
  · rintro ⟨k, hk, rfl⟩
    rw [Nat.lt_div_iff_mul_lt hs] at hk
    have hcomm : stride * k = k * stride := Nat.mul_comm _ _
    refine ⟨by omega, by omega, ?_⟩
    rw [Nat.add_sub_cancel_left, Nat.mul_mod_right]
  · rintro ⟨hle, hlt, hmod⟩
    have hdiv : stride * ((i - start) / stride) = i - start :=
      Nat.mul_div_cancel' (Nat.dvd_of_mod_eq_zero hmod)
    refine ⟨(i - start) / stride, ?_, by omega⟩
    rw [Nat.lt_div_iff_mul_lt hs]
    have hcomm : (i - start) / stride * stride = stride * ((i - start) / stride) :=
      Nat.mul_comm _ _
    omega

theorem nodup_loop {start stride total : ℕ} (hs : 0 < stride) :
    (loop start stride total).Nodup := List.nodup_range' stride hs

/-- For a thread of the stride, membership is just the residue. -/
theorem mem_loop_of_lt {start stride total i : ℕ} (h : start < stride) :
    i ∈ loop start stride total ↔ i < total ∧ i % stride = start := by
  rw [mem_loop (by omega)]
  constructor
  · rintro ⟨hle, hlt, hmod⟩
    refine ⟨hlt, ?_⟩
    have hi : i = start + (i - start) := by omega
    rw [hi, Nat.add_mod, hmod, Nat.add_zero, Nat.mod_mod, Nat.mod_eq_of_lt h]
  · rintro ⟨hlt, rfl⟩
    refine ⟨Nat.mod_le i stride, hlt, ?_⟩
    have hi : i - i % stride = stride * (i / stride) := by
      have := Nat.div_add_mod i stride
      omega
    rw [hi, Nat.mul_mod_right]

/-- Lists that are told apart by a key, one after the other. -/
theorem nodup_flatMap_of_key {α κ : Type*} {l : List κ} {f : κ → List α} (key : α → κ)
    (hl : l.Nodup)
    (hkey : ∀ i ∈ l, ∀ x ∈ f i, key x = i) (hf : ∀ i ∈ l, (f i).Nodup) : (l.flatMap f).Nodup := by
  rw [List.nodup_flatMap]
  refine ⟨hf, hl.imp_of_mem fun {i j} hi hj hij => ?_⟩
  simp only [Function.onFun, List.disjoint_left]
  intro x hx hx'
  exact hij ((hkey i hi x hx).symm.trans (hkey j hj x hx'))

theorem flatMap_congr {α κ : Type*} {l : List κ} {f g : κ → List α} (h : ∀ i ∈ l, f i = g i) :
    l.flatMap f = l.flatMap g := by
  rw [List.flatMap, List.flatMap, List.map_congr_left h]

/-- All threads of one stride together, thread by thread. -/
def threads (n total : ℕ) : List ℕ := (List.range n).flatMap fun t => loop t n total

/-- The threads of a stride visit every index below `total` exactly once. -/
theorem threads_perm {n : ℕ} (hn : 0 < n) (total : ℕ) :
    (threads n total).Perm (List.range total) := by
  have hnodup : (threads n total).Nodup :=
    nodup_flatMap_of_key (· % n) List.nodup_range
      (fun t ht i hi => ((mem_loop_of_lt (List.mem_range.mp ht)).mp hi).2) fun t _ => nodup_loop hn
  rw [List.perm_ext_iff_of_nodup hnodup List.nodup_range]
  intro i
  simp only [threads, List.mem_flatMap, List.mem_range]
  constructor
  · rintro ⟨t, ht, hi⟩
    exact ((mem_loop_of_lt ht).mp hi).1
  · intro hi
    exact ⟨i % n, Nat.mod_lt i hn, (mem_loop_of_lt (Nat.mod_lt i hn)).mpr ⟨hi, rfl⟩⟩

/-- A grid-stride loop: block by block, thread by thread, each with stride `grid * block`. -/
def gridStride (grid block total : ℕ) : List ℕ :=
  (List.range grid).flatMap fun b =>
    (List.range block).flatMap fun t => loop (b * block + t) (grid * block) total

/-- Nested block and thread indices are one flat thread index. -/
theorem range_mul_flatMap {α : Type*} (grid block : ℕ) (f : ℕ → List α) :
    ((List.range grid).flatMap fun b => (List.range block).flatMap fun t => f (b * block + t)) =
      (List.range (grid * block)).flatMap f := by
  induction grid with
  | zero => simp
  | succ grid ih =>
    rw [List.range_succ, List.flatMap_append, ih, Nat.succ_mul, List.range_add,
      List.flatMap_append]
    simp [List.flatMap_map]

theorem gridStride_eq_threads (grid block total : ℕ) :
    gridStride grid block total = threads (grid * block) total :=
  range_mul_flatMap grid block fun t => loop t (grid * block) total

/-- A grid-stride loop visits every index below `total` exactly once. -/
theorem gridStride_perm {grid block : ℕ} (h : 0 < grid * block) (total : ℕ) :
    (gridStride grid block total).Perm (List.range total) :=
  gridStride_eq_threads grid block total ▸ threads_perm h total

theorem mem_gridStride {grid block : ℕ} (h : 0 < grid * block) {total i : ℕ} :
    i ∈ gridStride grid block total ↔ i < total := by
  rw [(gridStride_perm h total).mem_iff, List.mem_range]

/-- The row of a cell in rows of equal length. -/
theorem flat_div {len x : ℕ} (r : ℕ) (hx : x < len) : (r * len + x) / len = r := by
  rw [Nat.mul_comm, Nat.mul_add_div (by omega), Nat.div_eq_of_lt hx, Nat.add_zero]

/-- The offset of a cell in rows of equal length. -/
theorem flat_mod {len x : ℕ} (r : ℕ) (hx : x < len) : (r * len + x) % len = x := by
  rw [Nat.mul_comm, Nat.mul_add_mod, Nat.mod_eq_of_lt hx]

/-- A cell of one of the first `n` rows. -/
theorem flat_lt {len r n x : ℕ} (hr : r < n) (hx : x < len) : r * len + x < n * len :=
  calc r * len + x < (r + 1) * len := by rw [Nat.succ_mul]; omega
    _ ≤ n * len := Nat.mul_le_mul_right _ hr

/-- The last cell of a row ends where the next row begins. -/
theorem flat_last {len : ℕ} (r : ℕ) (hlen : 0 < len) : r * len + (len - 1) + 1 = (r + 1) * len := by
  rw [Nat.succ_mul]
  omega

/-- Cells of rows of equal length coincide only in the same row at the same offset. -/
theorem mul_add_inj {len r r' x x' : ℕ} (hx : x < len) (hx' : x' < len)
    (h : r * len + x = r' * len + x') : r = r' ∧ x = x' := by
  have hr : r = r' := by rw [← flat_div r hx, h, flat_div r' hx']
  subst hr
  exact ⟨rfl, by omega⟩

/-- The threads' maxima have the maximum over all indices. -/
theorem sup_threads {M : Type*} [SemilatticeSup M] [OrderBot M] {n : ℕ} (hn : 0 < n) (total : ℕ)
    (f : ℕ → M) :
    ((Finset.range n).sup fun t => (loop t n total).toFinset.sup f) = (Finset.range total).sup f := by
  refine le_antisymm (Finset.sup_le fun t ht => Finset.sup_le fun i hi => ?_)
    (Finset.sup_le fun i hi => ?_)
  · rw [List.mem_toFinset, mem_loop_of_lt (Finset.mem_range.mp ht)] at hi
    exact Finset.le_sup (Finset.mem_range.mpr hi.1)
  · have hmem : i ∈ (loop (i % n) n total).toFinset := by
      rw [List.mem_toFinset, mem_loop_of_lt (Nat.mod_lt i hn)]
      exact ⟨Finset.mem_range.mp hi, rfl⟩
    exact (Finset.le_sup hmem).trans (Finset.le_sup
      (f := fun t => (loop t n total).toFinset.sup f) (Finset.mem_range.mpr (Nat.mod_lt i hn)))

/-- The threads' sums add up to the sum over all indices. -/
theorem sum_threads {M : Type*} [AddCommMonoid M] {n : ℕ} (hn : 0 < n) (total : ℕ) (f : ℕ → M) :
    ∑ t ∈ Finset.range n, ((loop t n total).map f).sum = ∑ i ∈ Finset.range total, f i := by
  have hsum := ((threads_perm hn total).map f).sum_eq
  rw [threads, List.map_flatMap, List.flatMap, List.sum_flatten, List.map_map] at hsum
  exact hsum

/-! ## Windows -/

/-- Window `j` of width `n`. -/
def window (n j : ℕ) : Finset ℕ := (Finset.range n).map (addLeftEmbedding (j * n))

theorem sup_window {M : Type*} [SemilatticeSup M] [OrderBot M] (f : ℕ → M) (n j : ℕ) :
    ((Finset.range n).sup fun x => f (j * n + x)) = (window n j).sup f := by
  rw [window, Finset.sup_map]
  rfl

theorem sum_window {M : Type*} [AddCommMonoid M] (f : ℕ → M) (n j : ℕ) :
    ∑ x ∈ Finset.range n, f (j * n + x) = ∑ i ∈ window n j, f i := by
  rw [window, Finset.sum_map]
  rfl

/-- The next window continues the first ones. -/
theorem range_union_window (n j : ℕ) :
    Finset.range (j * n) ∪ window n j = Finset.range ((j + 1) * n) := by
  rw [Nat.succ_mul, Finset.range_add_eq_union, window]

theorem disjoint_window (n j : ℕ) : Disjoint (Finset.range (j * n)) (window n j) :=
  Finset.disjoint_range_addLeftEmbedding _ _

/-- The first windows that meet a condition: a prefix, which ends at a window that does not. -/
theorem takeWhile_range (p : ℕ → Bool) (n : ℕ) :
    ∃ m ≤ n, (List.range n).takeWhile p = List.range m ∧ (m = n ∨ p m = false) := by
  refine ⟨min ((List.range n).findIdx fun i => !p i) n, Nat.min_le_right _ _, ?_, ?_⟩
  · rw [List.takeWhile_eq_take_findIdx_not, List.take_range]
  · rcases Nat.lt_or_ge ((List.range n).findIdx fun i => !p i) n with hlt | hge
    · right
      have hfound := @List.findIdx_getElem _ (fun i => !p i) (List.range n)
        (by rwa [List.length_range])
      rw [List.getElem_range, Bool.not_eq_true'] at hfound
      rwa [Nat.min_eq_left hlt.le]
    · left
      exact Nat.min_eq_right hge

/-- A sum over `c` windows of width `n`. -/
theorem sum_windows {M : Type*} [AddCommMonoid M] (f : ℕ → M) (c n : ℕ) :
    ∑ x ∈ Finset.range c, ∑ i ∈ Finset.range n, f (x * n + i) = ∑ d ∈ Finset.range (c * n),
    f d := by
  induction c with
  | zero => simp
  | succ c ih => rw [Finset.sum_range_succ, ih, Nat.succ_mul, Finset.sum_range_add]

end Strided

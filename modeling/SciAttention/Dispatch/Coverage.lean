import SciAttention.Dispatch.Agreement
import SciAttention.Dispatch.Success

/-!
# What the grids of the naive pipeline cover

The QK and PV kernels walk their index space with a grid-stride loop, so the clamp of their grids costs
nothing. The softmax kernel has one block a row and no loop: its grid is clamped to `2 ^ 24` blocks, and a
row behind them is never normalised.
-/

namespace SciAttention

section Coverage

variable {𝕜 : Type*} [Field 𝕜] [LinearOrder 𝕜]

/-- The cell of row `(b, h, i)` and column `x` of a matrix with `width` columns. -/
def NaiveFwdParams.cell (p : NaiveFwdParams 𝕜) (width b h i x : ℕ) : ℕ :=
  ((b * p.numHeads + h) * p.seqQ + i) * width + x

/-- The coordinates that the iteration for `idx` works on. -/
def NaiveFwdParams.coordsOf (p : NaiveFwdParams 𝕜) (width idx : ℕ) : ℕ × ℕ × ℕ × ℕ :=
  (p.bOf width idx, p.hOf width idx, p.iOf width idx, idx % width)

/-- The indices that `naive_qk_scale_mask_kernel` and `naive_pv_kernel` iterate over. -/
def NaiveFwdParams.iterations (p : NaiveFwdParams 𝕜) (width : ℕ) : List ℕ :=
  Strided.gridStride (naiveBlocks (p.batch * p.numHeads * p.seqQ * width)) naiveThreads
    (p.batch * p.numHeads * p.seqQ * width)

/-- The three kernels cover their index spaces. -/
structure NaiveCovers (num : Numerics 𝕜) (p : NaiveFwdParams 𝕜) (buf : NaiveBuffers 𝕜) : Prop where
  score : ∀ b < p.batch, ∀ h < p.numHeads, ∀ i < p.seqQ, ∀ j < p.seqKv,
    ((p.iterations p.seqKv).map (p.coordsOf p.seqKv)).count (b, h, i, j) = 1 ∧
    ((naiveQkScaleMaskKernel num p buf
      (naiveBlocks (p.batch * p.numHeads * p.seqQ * p.seqKv))).map Prod.fst).count
        (p.cell p.seqKv b h i j) = 1
  row : ∀ b < p.batch, ∀ h < p.numHeads, ∀ i < p.seqQ, ∀ j < p.seqKv,
    ((naiveSoftmax num p buf (softmaxBlocks p)).1.map Prod.fst).count (p.cell p.seqKv b h i j) = 1
  lse : p.returnLse = true → ∀ b < p.batch, ∀ h < p.numHeads, ∀ i < p.seqQ,
    ((naiveSoftmax num p buf (softmaxBlocks p)).2.map Prod.fst).count
      ((b * p.numHeads + h) * p.seqQ + i) = 1
  out : ∀ b < p.batch, ∀ h < p.numHeads, ∀ i < p.seqQ, ∀ d < p.headDim,
    ((p.iterations p.headDim).map (p.coordsOf p.headDim)).count (b, h, i, d) = 1 ∧
    ((naivePvKernel num p buf
      (Scatter.apply (naiveScores num p buf) (naiveSoftmax num p buf (softmaxBlocks p)).1)
      (naiveBlocks (p.batch * p.numHeads * p.seqQ * p.headDim))).map Prod.fst).count
        (p.outOffset b h i d) = 1

variable {num : Numerics 𝕜} {p : NaiveFwdParams 𝕜} {buf : NaiveBuffers 𝕜} {b h i : ℕ}

/-! ## Grid-stride loops -/

omit [Field 𝕜] [LinearOrder 𝕜] in
/-- A grid-stride loop takes every index once. -/
theorem count_iterations {width idx : ℕ} (h : idx < p.batch * p.numHeads * p.seqQ * width) :
    (p.iterations width).count idx = 1 := by
  rw [NaiveFwdParams.iterations, (Strided.gridStride_perm (naiveBlocks_pos _) _).count_eq]
  exact List.count_eq_one_of_mem List.nodup_range (List.mem_range.mpr h)

omit [Field 𝕜] [LinearOrder 𝕜] in
/-- A cell of the index space. -/
theorem cell_lt {width x : ℕ} (hb : b < p.batch) (hh : h < p.numHeads) (hi : i < p.seqQ) (hx : x < width) :
    p.cell width b h i x < p.batch * p.numHeads * p.seqQ * width :=
  Strided.flat_lt (p.row_lt hb hh hi) hx

omit [Field 𝕜] [LinearOrder 𝕜] in
/-- One iteration decodes to the coordinates of a cell. -/
theorem count_coordsOf {width x : ℕ} (hb : b < p.batch) (hh : h < p.numHeads) (hi : i < p.seqQ)
    (hx : x < width) : ((p.iterations width).map (p.coordsOf width)).count (b, h, i, x) = 1 := by
  -- the coordinates determine the index
  have hinj : Function.Injective (p.coordsOf width) := by
    intro idx idx' heq
    simp only [NaiveFwdParams.coordsOf, Prod.mk.injEq] at heq
    rw [← p.flat_coords width idx, ← p.flat_coords width idx', heq.1, heq.2.1, heq.2.2.1, heq.2.2.2]
  have hcell : p.coordsOf width (p.cell width b h i x) = (b, h, i, x) := by
    obtain ⟨hiOf, hhOf, hbOf⟩ := p.coords_flat (b := b) hh hi hx
    simp only [NaiveFwdParams.coordsOf, NaiveFwdParams.cell, hiOf, hhOf, hbOf, Strided.flat_mod _ hx]
  rw [← hcell, List.count_map_of_injective _ _ hinj]
  exact count_iterations (cell_lt hb hh hi hx)

/-! ## The softmax grid -/

/-- The blocks that have a row. -/
theorem filter_range_lt (blocks rows : ℕ) :
    (List.range blocks).filter (fun row => decide (row < rows)) = List.range (min blocks rows) := by
  induction blocks with
  | zero => simp
  | succ blocks ih =>
    rw [List.range_succ, List.filter_append, ih]
    rcases Nat.lt_or_ge blocks rows with hlt | hge
    · rw [Nat.min_eq_left hlt.le, Nat.min_eq_left hlt, List.range_succ]
      simp [hlt]
    · rw [Nat.min_eq_right hge, Nat.min_eq_right (hge.trans (Nat.le_succ _))]
      simp [hge]

/-- The cells that the softmax kernel rewrites: the rows of its blocks, each cell once. -/
theorem softmax_cells_perm (blocks : ℕ) :
    ((naiveSoftmax num p buf blocks).1.map Prod.fst).Perm
      (List.range (min blocks p.rows * p.seqKv)) := by
  have hcells : (naiveSoftmax num p buf blocks).1.map Prod.fst =
      (List.range (min blocks p.rows)).flatMap fun row =>
        (Strided.threads naiveThreads p.seqKv).map fun c => row * p.seqKv + c := by
    simp only [naiveSoftmax, naiveRowSoftmaxKernel, filter_range_lt, List.map_flatMap, List.map_map,
      Function.comp_def]
  have hrange : List.range (min blocks p.rows * p.seqKv) =
      (List.range (min blocks p.rows)).flatMap fun row =>
        (List.range p.seqKv).map fun c => row * p.seqKv + c := by
    have hflat := Strided.range_mul_flatMap (min blocks p.rows) p.seqKv fun x => [x]
    simpa only [← List.map_eq_flatMap, List.map_id'] using hflat.symm
  rw [hcells, hrange]
  exact List.Perm.flatMap_left _ fun row _ => (Strided.threads_perm (by decide) _).map _

/-- The rows whose LSE it writes, each once. -/
theorem softmax_rows (blocks : ℕ) (hret : p.returnLse = true) :
    (naiveSoftmax num p buf blocks).2.map Prod.fst = List.range (min blocks p.rows) := by
  simp only [naiveSoftmax, naiveRowSoftmaxKernel, hret, if_true, filter_range_lt, List.map_map,
    Function.comp_def, List.map_id']

omit [Field 𝕜] [LinearOrder 𝕜] in
/-- Up to `2 ^ 24` rows have a block each. -/
theorem min_softmaxBlocks : min (softmaxBlocks p) p.rows = min p.rows (2 ^ 24) := by
  rw [softmaxBlocks]
  omega

/-! ## Coverage -/

/-- Every row that is normalised has a block: the first row behind the grid is row `2 ^ 24`. -/
theorem NaiveCovers.rows_le (hcov : NaiveCovers num p buf) (hkv : 0 < p.seqKv) :
    p.batch * p.numHeads * p.seqQ ≤ 2 ^ 24 := by
  by_contra hgt
  have hrow : 2 ^ 24 < p.rows := not_le.mp hgt
  obtain ⟨b, hb, h, hh, i, hi, heq⟩ :=
    AttentionShape.exists_rowIndex (show 2 ^ 24 < p.shape.rows from hrow)
  have hcell : p.cell p.seqKv b h i 0 = 2 ^ 24 * p.seqKv := by
    rw [← heq]
    rfl
  have hcount := hcov.row b hb h hh i hi 0 hkv
  rw [hcell, (softmax_cells_perm _).count_eq, min_softmaxBlocks, Nat.min_eq_right hrow.le] at hcount
  have hmem := List.count_pos_iff.mp (hcount ▸ one_pos)
  exact lt_irrefl _ (List.mem_range.mp hmem)

/-- The pipeline covers its index space exactly when the score matrix has at most `2 ^ 24` rows. -/
theorem naiveCovers_iff (num : Numerics 𝕜) (p : NaiveFwdParams 𝕜) (buf : NaiveBuffers 𝕜)
    (hkv : 0 < p.seqKv) (ho : p.oStride = stridesFor .bhsd p.seqQ p.numHeads p.headDim) :
    NaiveCovers num p buf ↔ p.batch * p.numHeads * p.seqQ ≤ 2 ^ 24 := by
  constructor
  · intro hcov
    exact hcov.rows_le hkv
  · intro hle
    have hblocks : min (softmaxBlocks p) p.rows = p.rows := min_softmaxBlocks.trans (Nat.min_eq_left hle)
    -- the two outer kernels store where they iterate
    have hqk : (naiveQkScaleMaskKernel num p buf
        (naiveBlocks (p.batch * p.numHeads * p.seqQ * p.seqKv))).map Prod.fst = p.iterations p.seqKv := by
      simp only [naiveQkScaleMaskKernel, List.map_map, Function.comp_def, List.map_id']
      rfl
    have hpv : ∀ probs, (naivePvKernel num p buf probs
        (naiveBlocks (p.batch * p.numHeads * p.seqQ * p.headDim))).map Prod.fst =
          p.iterations p.headDim := by
      intro probs
      simp only [naivePvKernel, List.map_map, Function.comp_def, outOffset_eq ho, p.flat_coords,
        List.map_id']
      rfl
    refine ⟨fun b hb h hh i hi j hj => ⟨count_coordsOf hb hh hi hj, ?_⟩, fun b hb h hh i hi j hj => ?_,
      fun hret b hb h hh i hi => ?_, fun b hb h hh i hi d hd => ⟨count_coordsOf hb hh hi hd, ?_⟩⟩
    · rw [hqk]
      exact count_iterations (cell_lt hb hh hi hj)
    · rw [(softmax_cells_perm _).count_eq, hblocks]
      exact List.count_eq_one_of_mem List.nodup_range (List.mem_range.mpr (cell_lt hb hh hi hj))
    · rw [softmax_rows _ hret, hblocks]
      exact List.count_eq_one_of_mem List.nodup_range (List.mem_range.mpr (p.row_lt hb hh hi))
    · rw [hpv, outOffset_eq ho]
      exact count_iterations (cell_lt hb hh hi hd)

end Coverage

/-! ## A long request -/

/-- A device with the pooled memory of `2 ^ 25` scores. -/
noncomputable def roomyEnv : ForwardEnv ℝ sampleDevice :=
  { sampleEnv with
    scratch :=
      { pooled := 2 ^ 25
        alloc := fun _ => false
        contents := fun _ => 0
        pooled_lt := by decide
        alloc_lt := sampleEnv.scratch.alloc_lt } }

/-- A zeroed half-precision tensor with rows of one head. -/
def rowsTensor (rows : ℕ) : Tensor :=
  { dims := [1, 1, rows, 32], dtype := .float16, data := some fun _ => 0 }

/-- The parameters of the request with the given number of queries on one key. -/
noncomputable def rowsParams (rows : ℕ) : NaiveFwdParams ℝ :=
  naiveParams realNumerics (rowsTensor rows) (rowsTensor 1) (rowsTensor 1) (sampleConfig .naive false)
    (sampleShape rows 1 32) .fp16 (fun _ => 0) (fun _ => 0) none

theorem naiveCovers_rows : NaiveCovers realNumerics (rowsParams 64)
    ⟨fun _ => 0, fun _ => 0, fun _ => 0, fun _ => 0, fun _ => 0⟩ :=
  (naiveCovers_iff _ (rowsParams 64) _ (show 0 < 1 by decide) rfl).mpr (show 1 * 1 * 64 ≤ 2 ^ 24 by decide)

/-- The naive backend answers a request of `2 ^ 24 + 1` rows with a last row that no block normalised. -/
theorem not_naiveCovers_rows :
    (∃ r, naiveForward realNumerics roomyEnv (rowsTensor (2 ^ 24 + 1)) (rowsTensor 1) (rowsTensor 1)
      (sampleConfig .naive false) = .ok r) ∧
    ∀ buf, ¬ NaiveCovers realNumerics (rowsParams (2 ^ 24 + 1)) buf := by
  constructor
  · have hshape : inferShape (rowsTensor (2 ^ 24 + 1)) (rowsTensor 1) (rowsTensor 1)
        (sampleConfig .naive false).layout = .ok (sampleShape (2 ^ 24 + 1) 1 32) := rfl
    have hscratch : ScratchFits roomyEnv (scoreBytes (sampleShape (2 ^ 24 + 1) 1 32) / 4) := by
      refine ⟨fun _ => 0, ?_⟩
      rw [acquireScratchFp32, if_neg (by decide), if_neg (by decide)]
      rfl
    exact (naiveForward_isOk_iff hshape (validate_sample (by decide) (by decide) (by decide))).mpr
      ⟨.inr (by decide), hscratch, ⟨rfl, fun h => absurd h Bool.false_ne_true⟩, ⟨rfl, rfl, rfl⟩,
        rfl, rfl, rfl, rfl⟩
  · intro buf hcov
    have hle : 1 * 1 * (2 ^ 24 + 1) ≤ 2 ^ 24 := hcov.rows_le (show 0 < 1 by decide)
    omega

end SciAttention

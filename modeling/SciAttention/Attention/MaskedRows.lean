import SciAttention.Attention.FlashForward
import SciAttention.Attention.SplitK
import SciAttention.Attention.TiledForward

/-!
# Fully masked rows

`docs/attention_math.md` defines the output of a row without a visible key as zero. The tiled and flash
kernels guard the rescale factor, the probabilities and the reciprocal of the denominator; the decode
kernels skip unmapped tokens and splits that saw nothing, and guard the reciprocal. The naive softmax
kernel sets the factor of such a row to zero and still multiplies with it, which leaves `-inf * 0`.

A masked row is a structure here: a launch of one of the kernels, a row of it, and the proof that every
score of the row is `-inf`.
-/

namespace SciAttention

open Flt Softmax

variable {𝕜 : Type*} [Field 𝕜] [LinearOrder 𝕜]

/-! ## Naive -/

section Row

variable {num : Numerics 𝕜} {data : ℕ → Flt 𝕜} {cols : ℕ} (h : ∀ c < cols, data c = negInf)

include h

omit [Field 𝕜] in
theorem isFinite_rowMax_masked : isFinite (rowMax data cols) = false := by
  have hmax : rowMax data cols = ofBot ((Finset.range cols).sup fun _ => ⊥) :=
    rowMax_eq (s := fun _ => ⊥) h
  rw [hmax, Finset.sup_bot]
  rfl

/-- The second loop leaves the scores, and the last one multiplies them by zero. -/
theorem rowProb_masked {c : ℕ} (hc : c < cols) : rowProb num data cols c = nan := by
  simp only [rowProb, rowExp, isFinite_rowMax_masked h, Bool.false_eq_true, if_false, h c hc,
    negInf_mul_zero]

theorem rowLse_masked : rowLse num data cols = negInf := by
  simp only [rowLse, isFinite_rowMax_masked h, Bool.false_eq_true, if_false]

end Row

/-- A row of the naive kernels: all of its scores are `-inf` when the softmax kernel starts, which has a
block for it. -/
structure NaiveMaskedRow (𝕜 : Type*) where
  p : NaiveFwdParams 𝕜
  buf : NaiveBuffers 𝕜
  softmaxBlocks : ℕ
  pvBlocks : ℕ
  b : ℕ
  h : ℕ
  i : ℕ
  b_lt : b < p.batch
  h_lt : h < p.numHeads
  i_lt : i < p.seqQ
  row_lt : (b * p.numHeads + h) * p.seqQ + i < softmaxBlocks
  pvBlocks_pos : 0 < pvBlocks
  oStride_eq : p.oStride = stridesFor .bhsd p.seqQ p.numHeads p.headDim
  masked : ∀ j < p.seqKv, buf.scores (((b * p.numHeads + h) * p.seqQ + i) * p.seqKv + j) = negInf

namespace NaiveMaskedRow

variable (num : Numerics 𝕜) (r : NaiveMaskedRow 𝕜)

/-- The row of the score matrix. -/
def row {𝕜 : Type*} (r : NaiveMaskedRow 𝕜) : ℕ := (r.b * r.p.numHeads + r.h) * r.p.seqQ + r.i

/-- The writes of the softmax kernel. -/
def softmax : List (ℕ × Flt 𝕜) × List (ℕ × Flt 𝕜) :=
  naiveRowSoftmaxKernel num r.buf.scores r.p.rows r.p.seqKv r.p.returnLse r.softmaxBlocks

/-- The score matrix after the softmax kernel. -/
def probs : ℕ → Flt 𝕜 := Scatter.apply r.buf.scores (r.softmax num).1

/-- The output after the PV kernel. -/
def out : ℕ → Flt 𝕜 := Scatter.apply r.buf.out (naivePvKernel num r.p r.buf (r.probs num) r.pvBlocks)

/-- The probabilities and the output are zero and the log-sum-exp is `-inf`. -/
structure Zero : Prop where
  probs_eq : ∀ j < r.p.seqKv, r.probs num (r.row * r.p.seqKv + j) = 0
  out_eq : ∀ d < r.p.headDim, r.out num (r.p.outOffset r.b r.h r.i d) = 0
  lse_eq : r.p.returnLse = true → ∀ lse, Scatter.apply lse (r.softmax num).2 r.row = negInf

omit [Field 𝕜] [LinearOrder 𝕜] in
theorem row_lt_rows : r.row < r.p.rows := r.p.row_lt r.b_lt r.h_lt r.i_lt

/-- Every probability of the row is `nan`. -/
theorem probs_eq_nan {j : ℕ} (hj : j < r.p.seqKv) :
    r.probs num (r.row * r.p.seqKv + j) = nan := by
  exact (naiveRowSoftmax_probs r.row_lt r.row_lt_rows hj).trans (rowProb_masked r.masked hj)

/-- The value that the PV kernel stores for the row. -/
theorem out_eq_foldl {d : ℕ} (hd : d < r.p.headDim) :
    r.out num (r.p.outOffset r.b r.h r.i d) = (List.range r.p.seqKv).foldl (fun acc j =>
      acc + r.probs num (r.row * r.p.seqKv + j) *
        fin ((r.p.problem num r.buf).v r.b (r.h / r.p.group) j d)) 0 := by
  have hblocks : 0 < r.pvBlocks * naiveThreads := Nat.mul_pos r.pvBlocks_pos (by decide)
  rw [out, naivePv_out num r.p r.buf r.oStride_eq hblocks _ _ r.b_lt r.h_lt r.i_lt hd,
    naiveValue_flat r.h_lt r.i_lt hd]
  rfl

/-- So is every output element of the row. -/
theorem out_eq_nan (hkv : 0 < r.p.seqKv) {d : ℕ} (hd : d < r.p.headDim) :
    r.out num (r.p.outOffset r.b r.h r.i d) = nan := by
  have hne : List.range r.p.seqKv ≠ [] := List.range_eq_nil.not.mpr hkv.ne'
  rw [out_eq_foldl num r hd]
  refine foldl_add_nan hne (fun j hj => ?_) 0
  rw [probs_eq_nan num r (List.mem_range.mp hj), nan_mul]

/-- Only the log-sum-exp is right. -/
theorem lse_eq_negInf (hret : r.p.returnLse = true) (lse : ℕ → Flt 𝕜) :
    Scatter.apply lse (r.softmax num).2 r.row = negInf := by
  exact (naiveRowSoftmax_lse _ r.row_lt r.row_lt_rows hret lse).trans (rowLse_masked r.masked)

/-- The naive kernels keep the convention on a row without a column and on no other. -/
theorem zero_iff : r.Zero num ↔ r.p.seqKv = 0 := by
  constructor
  · intro h
    by_contra hne
    have hpos : 0 < r.p.seqKv := Nat.pos_of_ne_zero hne
    have hzero := h.probs_eq 0 hpos
    rw [probs_eq_nan num r hpos] at hzero
    cases hzero
  · intro hzero
    refine ⟨fun j hj => absurd hj (by omega), fun d hd => ?_, lse_eq_negInf num r⟩
    rw [out_eq_foldl num r hd, hzero, List.range_zero, List.foldl_nil]

end NaiveMaskedRow

/-- What the launch leaves in a row that sees no key. -/
theorem naivePipeline_masked (num : Numerics 𝕜) {p : NaiveFwdParams 𝕜} {buf : NaiveBuffers 𝕜}
    {blocks b h i d : ℕ} (ho : p.oStride = stridesFor .bhsd p.seqQ p.numHeads p.headDim)
    (hb : b < p.batch) (hh : h < p.numHeads) (hi : i < p.seqQ) (hd : d < p.headDim)
    (hblocks : (b * p.numHeads + h) * p.seqQ + i < blocks) (hkv : 0 < p.seqKv)
    (hnone : (p.problem num buf).visible i = ∅) :
    (naivePipeline num p buf blocks).1 (p.outOffset b h i d) = nan := by
  have hmasked : ∀ j < p.seqKv,
      naiveScores num p buf (((b * p.numHeads + h) * p.seqQ + i) * p.seqKv + j) = negInf := by
    intro j hj
    have hnot : j ∉ (p.problem num buf).visible i := by rw [hnone]; exact Finset.notMem_empty j
    rw [naiveScores_eq hb hh hi hj, AttnProblem.score_of_not_visible hnot, ofBot_bot]
  have hpv : 0 < naiveBlocks (p.batch * p.numHeads * p.seqQ * p.headDim) :=
    Nat.pos_of_mul_pos_right (naiveBlocks_pos _)
  exact NaiveMaskedRow.out_eq_nan num
    ⟨p, { buf with scores := naiveScores num p buf }, blocks, _, b, h, i, hb, hh, hi, hblocks, hpv, ho,
      hmasked⟩ hkv hd

/-! ## Tiled -/

/-- A row of the tiled kernel: all of its scores are `-inf`. -/
structure TiledMaskedRow (num : Numerics 𝕜) where
  p : TiledFwdParams 𝕜
  buf : TiledBuffers 𝕜
  elem : DType
  headDim : ℕ
  tile : TileCandidate
  b : ℕ
  h : ℕ
  i : ℕ
  blockM_pos : 0 < tile.blockM
  blockN_pos : 0 < tile.blockN
  warps_pos : 0 < tile.warps
  headDim_dvd : 4 ∣ headDim
  oStride_eq : p.oStride = stridesFor .bhsd p.seqQ p.numHeads headDim
  b_lt : b < p.batch
  h_lt : h < p.numHeads
  i_lt : i < p.seqQ
  masked : ∀ j < p.seqKv, (p.problem num buf elem headDim).score b h i j = ⊥

namespace TiledMaskedRow

variable {num : Numerics 𝕜} (r : TiledMaskedRow num)

/-- The stores of the grid. -/
def stores : List (ℕ × Flt 𝕜) × List (ℕ × Flt 𝕜) :=
  tiledGridStores num r.p r.buf r.elem r.headDim r.tile (tiledGridX r.p r.tile) r.p.numHeads r.p.batch

/-- The output is zero and the log-sum-exp is `-inf`. -/
structure Zero : Prop where
  out_eq : ∀ d < r.headDim, Scatter.apply r.buf.out r.stores.1 (r.p.outOffset r.b r.h r.i d) = 0
  lse_eq : r.p.returnLse = true → r.p.lse.isSome →
    ∀ lse, Scatter.apply lse r.stores.2 (r.p.lseOffset r.b r.h r.i) = negInf

/-- The tiled kernel keeps the convention, also where other rows of the tile are live. -/
theorem zero [IsStrictOrderedRing 𝕜] : r.Zero := by
  have hnone : (r.p.problem num r.buf r.elem r.headDim).visible r.i = ∅ :=
    AttnProblem.visible_eq_empty r.masked
  refine ⟨fun d hd => ?_, fun hret hsome lse => ?_⟩
  · rw [stores, (tiledGrid_out r.buf r.elem num r.blockM_pos r.blockN_pos r.warps_pos r.headDim_dvd
      r.oStride_eq r.b_lt r.h_lt r.i_lt hd).2, AttnProblem.attention_of_visible_eq_empty hnone, zero_def]
  · rw [stores, tiledGrid_lse r.blockM_pos r.blockN_pos r.warps_pos ⟨hret, hsome⟩ lse r.b_lt r.h_lt
      r.i_lt, AttnProblem.lse_of_visible_eq_empty hnone, ofBot_bot]

end TiledMaskedRow

/-! ## Flash -/

/-- A row of the flash kernel: all of its scores are `-inf`. -/
structure FlashMaskedRow (num : Numerics 𝕜) where
  p : FlashFwdParams 𝕜
  buf : FlashBuffers 𝕜
  elem : DType
  headDim : ℕ
  tile : FlashTile
  smem : ℕ → ℕ → ℕ → ℕ → Flt 𝕜
  b : ℕ
  h : ℕ
  i : ℕ
  compiles : tile.Compiles elem headDim
  stages_eq : tile.stages = 2
  blockM_pos : 0 < tile.blockM
  blockM_dvd : 16 ∣ tile.blockM
  oStride_eq : p.oStride = stridesFor .bhsd p.seqQ p.numHeads headDim
  b_lt : b < p.batch
  h_lt : h < p.numHeads
  i_lt : i < p.seqQ
  masked : ∀ j < p.seqKv, (p.problem num buf elem headDim).score b h i j = ⊥

namespace FlashMaskedRow

variable {num : Numerics 𝕜} (r : FlashMaskedRow num)

/-- The stores of the grid. -/
def stores : List (ℕ × Flt 𝕜) × List (ℕ × Flt 𝕜) :=
  flashGridStores num r.p r.buf r.elem r.headDim r.tile r.smem (flashGridX r.p r.tile) r.p.numHeads
    r.p.batch

/-- The output is zero and the log-sum-exp is `-inf`. -/
structure Zero : Prop where
  out_eq : ∀ d < r.headDim, Scatter.apply r.buf.out r.stores.1 (r.p.outOffset r.b r.h r.i d) = 0
  lse_eq : r.p.returnLse = true → r.p.lse.isSome →
    ∀ lse, Scatter.apply lse r.stores.2 (r.p.lseOffset r.b r.h r.i) = negInf

/-- The flash kernel keeps the convention, also without a single key tile. -/
theorem zero [IsStrictOrderedRing 𝕜] : r.Zero := by
  have hnone : (r.p.problem num r.buf r.elem r.headDim).visible r.i = ∅ :=
    AttnProblem.visible_eq_empty r.masked
  refine ⟨fun d hd => ?_, fun hret hsome lse => ?_⟩
  · rw [stores, FlashFwdParams.outOffset_eq r.oStride_eq, flashGrid_out r.compiles r.stages_eq
      r.blockM_pos r.blockM_dvd r.oStride_eq r.buf.out r.b_lt r.h_lt r.i_lt hd,
      AttnProblem.attention_of_visible_eq_empty hnone, zero_def]
  · rw [stores, flashGrid_lse r.compiles r.stages_eq r.blockM_pos r.blockM_dvd ⟨hret, hsome⟩ lse r.b_lt
      r.h_lt r.i_lt, AttnProblem.lse_of_visible_eq_empty hnone, ofBot_bot]

end FlashMaskedRow

/-! ## Decode -/

/-- A row of the decode kernels: no token below the length is mapped. -/
structure DecodeMaskedRow (𝕜 : Type*) where
  p : DecodeFwdParams 𝕜
  buf : DecodeBuffers 𝕜
  partialBlocks : ℕ
  reduceBlocks : ℕ
  b : ℕ
  h : ℕ
  layout : PartialLayout p
  outInjective : OutInjective p
  headDim_dvd : 32 ∣ p.headDim
  numSplits_pos : 0 < p.numSplits
  requests_le : p.requests ≤ partialBlocks * 4
  rows_le : p.batch * p.numHeads ≤ reduceBlocks * 4
  b_lt : b < p.batch
  h_lt : h < p.numHeads
  masked : ∀ j, 0 ≤ j → j < p.seqLen b → ¬ p.Mapped b j

namespace DecodeMaskedRow

variable (num : Numerics 𝕜) (r : DecodeMaskedRow 𝕜)

/-- The partials after the first kernel. -/
def partials : ℕ → Flt 𝕜 :=
  Scatter.apply r.buf.partials (onWarps r.partialBlocks (decodePartialKernel num r.p r.buf))

/-- The output is zero; the kernels store no log-sum-exp. -/
def Zero : Prop := ∀ d < r.p.headDim, Scatter.apply r.buf.out
  (onWarps r.reduceBlocks (decodeReduceKernel num r.p (r.partials num))) (outIndex r.p r.b r.h d) = 0

omit [Field 𝕜] [LinearOrder 𝕜] in
theorem visible_eq_empty : r.p.visible r.b = ∅ := by
  refine Finset.eq_empty_of_forall_notMem fun j hj => ?_
  rw [DecodeFwdParams.visible, Finset.mem_filter, Finset.mem_Ico] at hj
  exact r.masked j hj.1.1 hj.1.2 hj.2

/-- The decode kernels keep the convention. -/
theorem zero [IsStrictOrderedRing 𝕜] : r.Zero num := by
  intro d hd
  have hheld : SplitsHeld num r.p r.buf (r.partials num) r.b r.h :=
    SplitsHeld.of_partialKernel r.layout r.requests_le r.headDim_dvd r.b_lt r.h_lt
  rw [reduce_cell num _ _ r.outInjective r.headDim_dvd r.rows_le r.b_lt r.h_lt hd,
    hheld.reducedAt_eq r.numSplits_pos hd, r.visible_eq_empty, average, mass_empty, zero_div, zero_def]

end DecodeMaskedRow

/-! ## Every kernel -/

/-- A fully masked row of one of the kernels. -/
inductive MaskedRow (num : Numerics 𝕜) where
  | naive (r : NaiveMaskedRow 𝕜)
  | tiled (r : TiledMaskedRow num)
  | flash (r : FlashMaskedRow num)
  | decode (r : DecodeMaskedRow 𝕜)

namespace MaskedRow

variable {num : Numerics 𝕜}

/-- The kernel leaves zeros, and `-inf` where it stores a log-sum-exp. -/
def Zero : MaskedRow num → Prop
  | .naive r => r.Zero num
  | .tiled r => r.Zero
  | .flash r => r.Zero
  | .decode r => r.Zero num

/-- The scores that the naive softmax kernel multiplies by zero. -/
def naiveCols : MaskedRow num → ℕ
  | .naive r => r.p.seqKv
  | _ => 0

variable [IsStrictOrderedRing 𝕜]

/-- The kernels share the convention for a fully masked row, except for the naive one on a row that has a
column. -/
theorem zero_iff_naiveCols (r : MaskedRow num) : r.Zero ↔ r.naiveCols = 0 := by
  cases r with
  | naive r => exact r.zero_iff num
  | tiled r => exact iff_of_true r.zero rfl
  | flash r => exact iff_of_true r.zero rfl
  | decode r => exact iff_of_true (r.zero num) rfl

end MaskedRow

/-- The first query of the shifted mask, in the flash kernel. -/
noncomputable def shiftedFlashRow : FlashMaskedRow realNumerics where
  p := shiftedParams
  buf := onesBuffers
  elem := .float16
  headDim := 16
  tile := ⟨16, 16, 1, 2, 1⟩
  smem _ _ _ _ := nan
  b := 0
  h := 0
  i := 0
  compiles := ⟨rfl, by decide, by decide, by decide, by decide, by decide⟩
  stages_eq := rfl
  blockM_pos := by decide
  blockM_dvd := by decide
  oStride_eq := rfl
  b_lt := by decide
  h_lt := by decide
  i_lt := by decide
  masked j _ := AttnProblem.score_of_not_visible fun hvis => by
    have hle : (j : ℤ) ≤ 0 + -1 := (AttnProblem.mem_visible.mp hvis).2 rfl
    omega

theorem MaskedRow.zero_shifted : (MaskedRow.flash shiftedFlashRow).Zero :=
  (MaskedRow.zero_iff_naiveCols _).mpr rfl

/-- The same request for the naive kernels. -/
noncomputable def shiftedNaiveParams : NaiveFwdParams ℝ where
  q := none
  k := none
  v := none
  out := none
  scores := none
  batch := 1
  numHeads := 1
  numKvHeads := 1
  seqQ := 2
  seqKv := 3
  headDim := 16
  qStride := stridesFor .bhsd 2 1 16
  kStride := stridesFor .bhsd 3 1 16
  vStride := stridesFor .bhsd 3 1 16
  oStride := stridesFor .bhsd 2 1 16
  scale := 1
  causal := true
  returnLse := true
  diagonal := -1
  lse := some fun _ => 0
  dtype := .fp16

/-- Zero queries and keys, values all one. -/
noncomputable def shiftedNaiveBuffers : NaiveBuffers ℝ :=
  ⟨fun _ => 0, fun _ => 0, onesHalf, fun _ => 0, fun _ => 0⟩

/-- The first query of the shifted mask, with the scores that the first naive kernel leaves. -/
noncomputable def shiftedNaiveRow : NaiveMaskedRow ℝ where
  p := shiftedNaiveParams
  buf :=
    { shiftedNaiveBuffers with
      scores := naiveScores realNumerics shiftedNaiveParams shiftedNaiveBuffers }
  softmaxBlocks := 2
  pvBlocks := 1
  b := 0
  h := 0
  i := 0
  b_lt := by decide
  h_lt := by decide
  i_lt := by decide
  row_lt := by decide
  pvBlocks_pos := by decide
  oStride_eq := rfl
  masked j hj := by
    have hnot : j ∉ (shiftedNaiveParams.problem realNumerics shiftedNaiveBuffers).visible 0 := by
      intro hvis
      have hle : (j : ℤ) ≤ 0 + -1 := (AttnProblem.mem_visible.mp hvis).2 rfl
      omega
    dsimp only
    rw [naiveScores_eq (by decide) (by decide) (by decide) hj, AttnProblem.score_of_not_visible hnot,
      ofBot_bot]

/-- Its probabilities are `nan`. -/
theorem MaskedRow.not_zero_shifted :
    ¬ MaskedRow.Zero (.naive shiftedNaiveRow : MaskedRow realNumerics) :=
  fun h => absurd ((shiftedNaiveRow.zero_iff realNumerics).mp h) (by decide)

end SciAttention

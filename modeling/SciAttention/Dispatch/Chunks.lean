import SciAttention.Dispatch.Rows

/-!
# Prefill in chunks

A causal request over a prompt can be made chunk by chunk: each chunk's queries over the keys up to its last
one, which the bottom-right alignment of the mask places right. However the prompt is cut, and whichever
backend and layout each chunk uses, the rows of the chunks are the rows of the one pass.
-/

namespace SciAttention

open Flt Softmax

section Chunks

variable {𝕜 : Type} [Field 𝕜] [LinearOrder 𝕜] {num : Numerics 𝕜}

namespace DenseAnswer

/-- `B` asks the rows of `A` from row `start` on, over the keys up to its last row. -/
structure Chunk (A B : DenseAnswer num) (start : ℕ) : Prop where
  causal : A.cfg.causal = true
  causal' : B.cfg.causal = true
  scale_eq : B.cfg.scale = A.cfg.scale
  batch_eq : B.shape.batch = A.shape.batch
  numHeads_eq : B.shape.numHeads = A.shape.numHeads
  numKvHeads_eq : B.shape.numKvHeads = A.shape.numKvHeads
  headDim_eq : B.shape.headDim = A.shape.headDim
  rows : start + B.shape.seqQ ≤ A.shape.seqQ
  keys : B.shape.seqKv + A.shape.seqQ = A.shape.seqKv + (start + B.shape.seqQ)
  q_eq : ∀ b < A.shape.batch, ∀ h < A.shape.numHeads, ∀ i < B.shape.seqQ, ∀ d < A.shape.headDim,
    B.problem.q b h i d = A.problem.q b h (start + i) d
  k_eq : ∀ b < A.shape.batch, ∀ g < A.shape.numKvHeads, ∀ j < B.shape.seqKv, ∀ d < A.shape.headDim,
    B.problem.k b g j d = A.problem.k b g j d
  v_eq : ∀ b < A.shape.batch, ∀ g < A.shape.numKvHeads, ∀ j < B.shape.seqKv, ∀ d < A.shape.headDim,
    B.problem.v b g j d = A.problem.v b g j d

namespace Chunk

variable {A B : DenseAnswer num} {start : ℕ}

/-- A row of a chunk sees the keys that it sees in the one pass. -/
theorem visible_eq (h : Chunk A B start) {i : ℕ} (hi : i < B.shape.seqQ) :
    B.problem.visible i = A.problem.visible (start + i) := by
  ext j
  have hkeys := h.keys
  have hrows := h.rows
  rw [B.mem_visible, A.mem_visible]
  simp only [h.causal, h.causal', forall_const]
  omega

theorem sameRow (h : Chunk A B start) {b head i : ℕ} (hB : B.HasRow b head i) :
    AttnProblem.SameRow A.problem B.problem b head (start + i) b head i := by
  have hb : b < A.shape.batch := h.batch_eq ▸ hB.batch
  have hh : head < A.shape.numHeads := h.numHeads_eq ▸ hB.head
  have hgroup : B.problem.group = A.problem.group := by
    change B.shape.numHeads / B.shape.numKvHeads = A.shape.numHeads / A.shape.numKvHeads
    rw [h.numHeads_eq, h.numKvHeads_eq]
  have hg : head / A.problem.group < A.shape.numKvHeads := A.validShape.kvHead_lt hh
  have hsees : ∀ j ∈ A.problem.visible (start + i), j < B.shape.seqKv := fun j hj =>
    (B.mem_visible.mp (h.visible_eq hB.seq ▸ hj)).1
  exact
    { visible_eq := h.visible_eq hB.seq
      headDim_eq := h.headDim_eq
      scale_eq := effectiveScale_congr h.scale_eq h.headDim_eq
      q_eq := fun d hd => h.q_eq b hb head hh i hB.seq d hd
      k_eq := fun j hj d hd => by rw [hgroup]; exact h.k_eq b hb _ hg j (hsees j hj) d hd
      v_eq := fun j hj d hd => by rw [hgroup]; exact h.v_eq b hb _ hg j (hsees j hj) d hd }

/-- The rows of a chunk come no later than those of the one pass. -/
theorem rowIndex_le (h : Chunk A B start) (b head i : ℕ) :
    B.shape.rowIndex b head i ≤ A.shape.rowIndex b head (start + i) := by
  have hle : B.shape.seqQ ≤ A.shape.seqQ := (Nat.le_add_left _ _).trans h.rows
  rw [AttentionShape.rowIndex, AttentionShape.rowIndex, h.numHeads_eq]
  exact Nat.add_le_add (Nat.mul_le_mul_left _ hle) (Nat.le_add_left _ _)

end Chunk

/-- From row `start` on, `A` is cut into these chunks. -/
inductive Chunks (A : DenseAnswer num) : ℕ → List (DenseAnswer num) → Prop where
  | nil : Chunks A A.shape.seqQ []
  | cons {B : DenseAnswer num} {start : ℕ} {Bs : List (DenseAnswer num)} (hB : Chunk A B start)
      (hBs : Chunks A (start + B.shape.seqQ) Bs) : Chunks A start (B :: Bs)

/-- One element of every row of a head, in order. -/
def column (A : DenseAnswer num) (b h d : ℕ) : List (Flt 𝕜) :=
  (List.range A.shape.seqQ).map fun i => A.out b h i d

/-- The naive backend has a softmax block for every row. -/
def FitsNaive (rows : ℕ) (A : DenseAnswer num) : Prop := A.backend = .naive → rows ≤ 2 ^ 24

variable [IsStrictOrderedRing 𝕜] {A : DenseAnswer num}

theorem Chunk.column_eq {B : DenseAnswer num} {start : ℕ} (h : Chunk A B start)
    (hA : FitsNaive A.shape.rows A) (hB : FitsNaive A.shape.rows B) {b head d : ℕ}
    (hb : b < A.shape.batch) (hh : head < A.shape.numHeads) (hd : d < A.shape.headDim) :
    B.column b head d = (List.range B.shape.seqQ).map fun i => A.out b head (start + i) d := by
  refine List.map_congr_left fun i hi => ?_
  have hi := List.mem_range.mp hi
  have hrows := h.rows
  have hrow : A.shape.rowIndex b head (start + i) < A.shape.rows :=
    AttentionShape.rowIndex_lt hb hh (by omega)
  have hrowA : A.HasRow b head (start + i) := ⟨hb, hh, by omega, fun hn => hrow.trans_le (hA hn)⟩
  have hrowB : B.HasRow b head i :=
    ⟨h.batch_eq ▸ hb, h.numHeads_eq ▸ hh, hi,
      fun hn => ((h.rowIndex_le b head i).trans_lt hrow).trans_le (hB hn)⟩
  exact out_eq_of_sameRow hrowA hrowB (h.sameRow hrowB) hd

end DenseAnswer

end Chunks

/-! ## Two tokens -/

/-- The dimensions of `n` tokens of one head. -/
def oneHeadDims (n : ℕ) : AttnLayout → List ℕ
  | .bhsd => [1, 1, n, 32]
  | .bshd => [1, n, 1, 32]

/-- A tensor for `n` tokens of one head. -/
def oneHeadTensor (layout : AttnLayout) (n : ℕ) (data : Bytes) : Tensor :=
  { dims := oneHeadDims n layout, dtype := .float16, data := some data }

/-- A causal request to the flash backend. -/
noncomputable def causalConfig (layout : AttnLayout) : AttentionConfig ℝ :=
  { backend := .flash, causal := true, layout, scale := 0, softcap := 0 }

/-- A causal request over keys and values of ones, answered by the flash backend. -/
theorem DenseAnswer.exists_ones (layout : AttnLayout) {seqQ seqKv : ℕ} (hpos : 0 < seqQ)
    (hle : seqQ ≤ seqKv) (hsmall : seqQ < 2 ^ 20) (qData : Bytes) :
    ∃ A : DenseAnswer realNumerics, A.q = oneHeadTensor layout seqQ qData ∧
      A.k = oneHeadTensor layout seqKv onesHalf ∧ A.v = oneHeadTensor layout seqKv onesHalf ∧
      A.cfg = causalConfig layout ∧ A.shape = sampleShape seqQ seqKv 32 ∧ A.backend = .flash := by
  have hshape : inferShape (oneHeadTensor layout seqQ qData) (oneHeadTensor layout seqKv onesHalf)
      (oneHeadTensor layout seqKv onesHalf) (causalConfig layout).layout =
        .ok (sampleShape seqQ seqKv 32) := by
    refine inferShape_eq_ok_iff.mpr ?_
    cases layout <;> exact ⟨⟨rfl, rfl, rfl, rfl⟩, ⟨rfl, rfl, rfl, rfl⟩, ⟨rfl, rfl, rfl, rfl⟩,
      rfl, rfl, rfl,
      rfl, rfl, rfl, rfl, rfl⟩
  have hvalid : (validate realNumerics (causalConfig layout) (sampleShape seqQ seqKv 32)).isOk :=
    validate_isOk_iff.mpr
      { validShape := ⟨one_pos, hpos, hpos.trans_le hle, one_pos, one_pos,
          show (32 : ℤ) ∈ supportedHeadDims by decide, one_dvd 1⟩
        causal_le := fun _ => hle
        slidingWindow_le := le_rfl
        softcap_nonneg := le_rfl
        softcap_backend := fun h => absurd h (lt_irrefl _)
        scale_nonneg := le_rfl
        numSplits_nonneg := le_rfl
        cuSeqlens := fun h => Bool.noConfusion h }
  have hout : (sampleEnv.outAlloc (outDims (sampleShape seqQ seqKv 32)).prod).isSome := by
    have hprod : (outDims (sampleShape seqQ seqKv 32)).prod = seqQ * 32 := by
      simp [outDims, sampleShape]
    rw [hprod]
    simp only [sampleEnv]
    rw [if_pos (by omega)]
    rfl
  obtain ⟨r, hr⟩ := (flashForward_isOk_iff hshape hvalid
    rfl).mpr ⟨⟨rfl, show flashDtypeIdFor .float16 ≠ 0 by decide,
      show flashTileSmemBytes ⟨64, 64, 4, 2, 1⟩ 32 2 ≤ sampleDevice.smemLimitPerBlock by decide⟩,
      ⟨hout, fun h => Bool.noConfusion h⟩, ⟨rfl, rfl, rfl⟩, rfl⟩
  exact ⟨⟨sampleDevice, sampleEnv, _, _, _, _, _, .flash, r, by decide, hshape, hvalid, hr⟩,
    rfl, rfl, rfl, rfl, rfl, rfl⟩

end SciAttention

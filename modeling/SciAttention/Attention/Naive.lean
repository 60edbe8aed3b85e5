import SciAttention.Attention.Decode

/-!
# The naive kernels

Model of `src/backends/naive/attention_naive.cu` and the block reductions of `cuda_common/numerics.cuh`:
three kernels over a materialised FP32 score matrix. A kernel is the list of writes of its grid. The
softmax kernel rewrites the scores in place; a block owns its row, and after the two reductions a
thread reads only the columns it writes, so its writes are those of the scores before the kernel.
-/

namespace SciAttention

/-! ## Parameters -/

/-- `cuda::NaiveDtype`: the same enumeration as the decode kernels'. -/
abbrev NaiveDtype := DecodeDtype

/-- `cuda::NaiveFwdParams`; null pointers are `none`. -/
structure NaiveFwdParams (𝕜 : Type*) where
  q : Option Bytes
  k : Option Bytes
  v : Option Bytes
  out : Option (ℕ → Flt 𝕜)
  scores : Option (ℕ → Flt 𝕜)
  batch : ℕ
  numHeads : ℕ
  numKvHeads : ℕ
  seqQ : ℕ
  seqKv : ℕ
  headDim : ℕ
  qStride : Strides
  kStride : Strides
  vStride : Strides
  oStride : Strides
  scale : 𝕜
  causal : Bool
  returnLse : Bool
  diagonal : ℤ
  lse : Option (ℕ → Flt 𝕜)
  dtype : NaiveDtype

/-- The memory behind the pointers, once none of them is null. -/
structure NaiveBuffers (𝕜 : Type*) where
  q : Bytes
  k : Bytes
  v : Bytes
  out : ℕ → Flt 𝕜
  scores : ℕ → Flt 𝕜

/-- `kThreads`. -/
def naiveThreads : ℕ := 256

namespace NaiveFwdParams

variable {𝕜 : Type*} (p : NaiveFwdParams 𝕜)

/-- `group`: query heads per kv head. -/
def group : ℕ := p.numHeads / p.numKvHeads

/-- `rows` of the score matrix. -/
def rows : ℕ := p.batch * p.numHeads * p.seqQ

/-- The query of a flat index over rows of the given width. -/
def iOf (width idx : ℕ) : ℕ := idx / width % p.seqQ

/-- The head of a flat index over rows of the given width. -/
def hOf (width idx : ℕ) : ℕ := idx / (width * p.seqQ) % p.numHeads

/-- The batch index of a flat index over rows of the given width. -/
def bOf (width idx : ℕ) : ℕ := idx / (width * p.seqQ * p.numHeads)

/-- `q_row`. -/
def qRow (b h i : ℕ) : ℕ := b * p.qStride.sB + h * p.qStride.sH + i * p.qStride.sS

/-- `k_row`. -/
def kRow (b h j : ℕ) : ℕ := b * p.kStride.sB + h / p.group * p.kStride.sH + j * p.kStride.sS

/-- `v_col`. -/
def vCol (b h d : ℕ) : ℕ := b * p.vStride.sB + h / p.group * p.vStride.sH + d

/-- The address of an output element. -/
def outOffset (b h i d : ℕ) : ℕ :=
  b * p.oStride.sB + h * p.oStride.sH + i * p.oStride.sS + d

end NaiveFwdParams

section Kernels

variable {𝕜 : Type*} [Field 𝕜] [LinearOrder 𝕜]

open Flt

variable (num : Numerics 𝕜) (p : NaiveFwdParams 𝕜) (buf : NaiveBuffers 𝕜)

/-! ## QK^T with scale and causal mask -/

/-- The score that `naive_qk_scale_mask_kernel` stores at `idx`. -/
def naiveScore (idx : ℕ) : Flt 𝕜 :=
  let j := idx % p.seqKv
  let i := p.iOf p.seqKv idx
  let h := p.hOf p.seqKv idx
  let b := p.bOf p.seqKv idx
  let acc := (List.range p.headDim).foldl (fun acc d =>
    acc + fin (num.load p.dtype.elem buf.q (p.qRow b h i + d)) *
      fin (num.load p.dtype.elem buf.k (p.kRow b h j + d))) 0
  if p.causal ∧ (j : ℤ) > i + p.diagonal then negInf else acc * fin p.scale

/-- `naive_qk_scale_mask_kernel`. -/
def naiveQkScaleMaskKernel (blocks : ℕ) : List (ℕ × Flt 𝕜) :=
  (Strided.gridStride blocks naiveThreads (p.batch * p.numHeads * p.seqQ * p.seqKv)).map fun idx =>
    (idx, naiveScore num p buf idx)

/-! ## Row softmax -/

/-- `IsFinite`. -/
def isFinite : Flt 𝕜 → Bool
  | .fin _ => true
  | _ => false

/-- The row maximum `m`. -/
def rowMax (data : ℕ → Flt 𝕜) (cols : ℕ) : Flt 𝕜 :=
  Butterfly.block fmaxf negInf naiveThreads fun tid =>
    (Strided.loop tid naiveThreads cols).foldl (fun m c => fmaxf m (data c)) negInf

/-- The row after the second loop, which a fully masked row skips. -/
def rowExp (data : ℕ → Flt 𝕜) (cols c : ℕ) : Flt 𝕜 :=
  if isFinite (rowMax data cols) then expf num.E.exp (data c - rowMax data cols) else data c

/-- The row sum. -/
def rowSum (data : ℕ → Flt 𝕜) (cols : ℕ) : Flt 𝕜 :=
  if isFinite (rowMax data cols) then
    Butterfly.block (· + ·) 0 naiveThreads fun tid =>
      (Strided.loop tid naiveThreads cols).foldl (fun s c => s + rowExp num data cols c) 0
  else fin 1

/-- The row after the last loop. -/
def rowProb (data : ℕ → Flt 𝕜) (cols c : ℕ) : Flt 𝕜 :=
  rowExp num data cols c *
    if isFinite (rowMax data cols) then recip (rowSum num data cols) else 0

/-- The log-sum-exp that thread 0 stores. -/
def rowLse (data : ℕ → Flt 𝕜) (cols : ℕ) : Flt 𝕜 :=
  if isFinite (rowMax data cols) then rowMax data cols + logf num.log (rowSum num data cols)
  else negInf

/-- `naive_row_softmax_kernel`: the writes to the scores and to the LSE buffer. -/
def naiveRowSoftmaxKernel (scores : ℕ → Flt 𝕜) (rows cols : ℕ) (writeLse : Bool) (blocks : ℕ) :
    List (ℕ × Flt 𝕜) × List (ℕ × Flt 𝕜) :=
  -- one block a row; blocks behind the last row return
  let mine := (List.range blocks).filter fun row => decide (row < rows)
  let data : ℕ → ℕ → Flt 𝕜 := fun row c => scores (row * cols + c)
  (mine.flatMap fun row => (Strided.threads naiveThreads cols).map fun c =>
      (row * cols + c, rowProb num (data row) cols c),
    if writeLse then mine.map fun row => (row, rowLse num (data row) cols) else [])

/-! ## PV -/

/-- The value that `naive_pv_kernel` stores for output index `idx`. -/
def naiveValue (probs : ℕ → Flt 𝕜) (idx : ℕ) : Flt 𝕜 :=
  let d := idx % p.headDim
  let i := p.iOf p.headDim idx
  let h := p.hOf p.headDim idx
  let b := p.bOf p.headDim idx
  let pRow := ((b * p.numHeads + h) * p.seqQ + i) * p.seqKv
  (List.range p.seqKv).foldl (fun acc j =>
    acc + probs (pRow + j) *
      fin (num.load p.dtype.elem buf.v (p.vCol b h d + j * p.vStride.sS))) 0

/-- `naive_pv_kernel`. -/
def naivePvKernel (probs : ℕ → Flt 𝕜) (blocks : ℕ) : List (ℕ × Flt 𝕜) :=
  (Strided.gridStride blocks naiveThreads (p.batch * p.numHeads * p.seqQ * p.headDim)).map fun idx =>
    (p.outOffset (p.bOf p.headDim idx) (p.hOf p.headDim idx) (p.iOf p.headDim idx) (idx % p.headDim),
      naiveValue num p buf probs idx)

/-! ## Launches -/

/-- `qk_blocks` and `pv_blocks`. -/
def naiveBlocks (total : ℕ) : ℕ := min (max 1 ((total + naiveThreads - 1) / naiveThreads)) (2 ^ 20)

/-- `softmax_blocks`. -/
def softmaxBlocks : ℕ := min (max 1 p.rows) (2 ^ 24)

/-- The score matrix after the first kernel. -/
def naiveScores : ℕ → Flt 𝕜 :=
  Scatter.apply buf.scores
    (naiveQkScaleMaskKernel num p buf (naiveBlocks (p.batch * p.numHeads * p.seqQ * p.seqKv)))

/-- The writes of the second kernel with the given grid. -/
def naiveSoftmax (blocks : ℕ) : List (ℕ × Flt 𝕜) × List (ℕ × Flt 𝕜) :=
  naiveRowSoftmaxKernel num (naiveScores num p buf) p.rows p.seqKv p.returnLse blocks

/-- The output and, where there is one, the LSE buffer after the three kernels, the second with the
given grid. -/
def naivePipeline (blocks : ℕ) : (ℕ → Flt 𝕜) × Option (ℕ → Flt 𝕜) :=
  let softmax := naiveSoftmax num p buf blocks
  let probs := Scatter.apply (naiveScores num p buf) softmax.1
  (Scatter.apply buf.out
      (naivePvKernel num p buf probs (naiveBlocks (p.batch * p.numHeads * p.seqQ * p.headDim))),
    p.lse.map fun lse => Scatter.apply lse softmax.2)

/-- `LaunchTyped` of the naive backend: three launches and the check of the last error. -/
def launchNaiveTyped (launch : ℕ → LaunchOutcome) :
    Except Status ((ℕ → Flt 𝕜) × Option (ℕ → Flt 𝕜)) :=
  let qkStatus :=
    launchRaw (naiveBlocks (p.batch * p.numHeads * p.seqQ * p.seqKv)) 1 1 (launch 0)
  if ¬ qkStatus.isOk then .error qkStatus
  else
    let softmaxStatus := launchRaw (softmaxBlocks p) 1 1 (launch 1)
    if ¬ softmaxStatus.isOk then .error softmaxStatus
    else
      let pvStatus :=
        launchRaw (naiveBlocks (p.batch * p.numHeads * p.seqQ * p.headDim)) 1 1 (launch 2)
      if ¬ pvStatus.isOk then .error pvStatus
      else
        let lastError := (launch 3).status
        if ¬ lastError.isOk then .error lastError
        else .ok (naivePipeline num p buf (softmaxBlocks p))

/-- `LaunchNaiveForward`. -/
def launchNaiveForward (launch : ℕ → LaunchOutcome) :
    Except Status ((ℕ → Flt 𝕜) × Option (ℕ → Flt 𝕜)) :=
  match p.q, p.k, p.v, p.out, p.scores with
  | some q, some k, some v, some out, some scores =>
    launchNaiveTyped num p ⟨q, k, v, out, scores⟩ launch
  | _, _, _, _, _ => .error (Status.invalidArgument "naive attention: null tensor pointer")

end Kernels

end SciAttention

import SciAttention.Attention.Config
import SciAttention.Common.Butterfly
import SciAttention.Common.Scatter
import SciAttention.Common.Strided

/-!
# Split-K decode attention

Model of `src/backends/decode/decode_splitk.cu` with the page-table addressing of
`src/backends/paged/page_table.cuh`. A warp is a function of its lanes; the lanes of a warp run the
token loop together and meet in the shuffles of `WarpReduceDot`. Both kernels are lists of writes,
so that the partials pass through one flat scratch buffer as they do on the device.
-/

namespace SciAttention

/-! ## Parameters -/

/-- `cuda::DecodeStrides`. -/
structure DecodeStrides where
  sB : ℕ
  sH : ℕ
  sS : ℕ
deriving DecidableEq, Repr

/-- `cuda::DecodeDtype`. -/
inductive DecodeDtype where
  | fp32 | fp16 | bf16
deriving DecidableEq, Repr

/-- The element type `T` a kernel is instantiated with. -/
def DecodeDtype.elem : DecodeDtype → DType
  | fp32 => .float32
  | fp16 => .float16
  | bf16 => .bfloat16

/-- `DtypeIdFor`. -/
def dtypeIdFor : DType → Option DecodeDtype
  | .float32 => some .fp32
  | .float16 => some .fp16
  | .bfloat16 => some .bf16
  | _ => none

/-- `cuda::DecodeFwdParams`. The three partial pointers are offsets into one scratch buffer; null
pointers are `none`. -/
structure DecodeFwdParams (𝕜 : Type*) where
  q : Option Bytes
  k : Option Bytes
  v : Option Bytes
  out : Option (ℕ → Flt 𝕜)
  partials : Option (ℕ → Flt 𝕜)
  partialM : ℕ
  partialL : ℕ
  partialO : ℕ
  batch : ℕ
  numHeads : ℕ
  numKvHeads : ℕ
  seqKv : ℕ
  headDim : ℕ
  numSplits : ℕ
  qStride : DecodeStrides
  kStride : DecodeStrides
  vStride : DecodeStrides
  oStride : DecodeStrides
  scale : 𝕜
  dtype : DecodeDtype
  pageTable : Option (ℤ → ℤ) := none
  blockSize : ℕ := 0
  maxBlocksPerSeq : ℕ := 0
  numKvBlocks : ℕ := 0
  seqLens : Option (ℕ → ℤ) := none

/-- The memory behind the pointers, once none of them is null. -/
structure DecodeBuffers (𝕜 : Type*) where
  q : Bytes
  k : Bytes
  v : Bytes
  out : ℕ → Flt 𝕜
  partials : ℕ → Flt 𝕜

/-! ## Addresses -/

/-- `PageTableLookup`. -/
def pageTableLookup (pageTable : ℤ → ℤ) (seqId : ℕ) (tokenIndex : ℤ)
    (blockSize maxBlocksPerSeq : ℕ) : ℤ :=
  let logicalBlock := tokenIndex.tdiv blockSize
  if logicalBlock ≥ maxBlocksPerSeq then -1
  else pageTable (seqId * maxBlocksPerSeq + logicalBlock)

/-- `PageTableRow`. -/
def pageTableRow (pageTable : ℤ → ℤ) (seqId : ℕ) (tokenIndex : ℤ)
    (blockSize maxBlocksPerSeq numKvBlocks : ℕ) : ℤ :=
  let physical := pageTableLookup pageTable seqId tokenIndex blockSize maxBlocksPerSeq
  if physical < 0 ∨ physical ≥ numKvBlocks then -1
  else physical * blockSize + tokenIndex.tmod blockSize

namespace DecodeFwdParams

variable {𝕜 : Type*} (p : DecodeFwdParams 𝕜)

/-- `KvRowPtr`: the element offset of token `j`, or `none` for an unmapped token. -/
def kvRowPtr (base : ℕ) (j : ℤ) (tokenStride : ℕ) (seqId : ℕ) : Option ℤ :=
  match p.pageTable with
  | none => some (base + j * tokenStride)
  | some table =>
    let row := pageTableRow table seqId j p.blockSize p.maxBlocksPerSeq p.numKvBlocks
    if row < 0 then none else some (base + row * tokenStride)

/-- `kLaneElems`: elements of the head dimension owned by one lane. -/
def laneElems : ℕ := p.headDim / 32

/-- `requests` of the partial kernel: one warp per batch, head and split. -/
def requests : ℕ := p.batch * p.numHeads * p.numSplits

/-- `group`: query heads per kv head. -/
def group : ℕ := p.numHeads / p.numKvHeads

/-- The split of a warp. -/
def splitOf (flat : ℕ) : ℕ := flat % p.numSplits

/-- The head of a warp. -/
def headOf (flat : ℕ) : ℕ := flat / p.numSplits % p.numHeads

/-- The batch index of a warp. -/
def batchOf (flat : ℕ) : ℕ := flat / (p.numSplits * p.numHeads)

/-- `q_row`. -/
def qRow (batch head : ℕ) : ℕ := batch * p.qStride.sB + head * p.qStride.sH

/-- `k_base`. -/
def kBase (batch head : ℕ) : ℕ := batch * p.kStride.sB + head / p.group * p.kStride.sH

/-- `v_base`. -/
def vBase (batch head : ℕ) : ℕ := batch * p.vStride.sB + head / p.group * p.vStride.sH

/-- `seq_len`. -/
def seqLen (batch : ℕ) : ℤ :=
  match p.seqLens with
  | some lens => lens batch
  | none => p.seqKv

/-- `chunk`: tokens per split. -/
def chunk (batch : ℕ) : ℤ := (p.seqLen batch + p.numSplits - 1).tdiv p.numSplits

/-- `j_begin`. -/
def jBegin (batch split : ℕ) : ℤ := split * p.chunk batch

/-- `j_end`. -/
def jEnd (batch split : ℕ) : ℤ :=
  if p.jBegin batch split + p.chunk batch < p.seqLen batch then
    p.jBegin batch split + p.chunk batch
  else p.seqLen batch

/-- The iterations of the token loop. -/
def tokens (batch split : ℕ) : List ℤ :=
  (List.range (p.jEnd batch split - p.jBegin batch split).toNat).map fun n : ℕ =>
    p.jBegin batch split + n

end DecodeFwdParams

/-! ## The partial kernel -/

section Kernels

variable {𝕜 : Type*} [Field 𝕜] [LinearOrder 𝕜]

open Flt DecodeFwdParams

/-- `WarpReduceDot`. -/
def warpReduceDot (dot : ℕ → Flt 𝕜) : ℕ → Flt 𝕜 :=
  Butterfly.reduce (· + ·) Butterfly.warp dot

/-- The registers of one lane: the running maximum, the running sum and its slice of the output. -/
structure LaneState (𝕜 : Type*) where
  m : Flt 𝕜
  l : Flt 𝕜
  acc : ℕ → Flt 𝕜

/-- A lane before the token loop. -/
def LaneState.init : LaneState 𝕜 := ⟨negInf, 0, fun _ => 0⟩

/-- The register update of one lane for a token with score `dot` and values `v`. -/
def LaneState.absorb (E : ExactExp 𝕜) (st : LaneState 𝕜) (dot : Flt 𝕜) (v : ℕ → 𝕜) :
    LaneState 𝕜 :=
  let mNew := fmaxf st.m dot
  let alpha := if st.m = negInf then 0 else expf E.exp (st.m - mNew)
  let pj := expf E.exp (dot - mNew)
  { m := mNew
    l := alpha * st.l + pj
    acc := fun i => alpha * st.acc i + pj * fin (v i) }

variable (num : Numerics 𝕜) (p : DecodeFwdParams 𝕜) (buf : DecodeBuffers 𝕜)

/-- One iteration of the token loop, in all lanes of the warp of `(batch, head)`. -/
def tokenStep (batch head : ℕ) (st : ℕ → LaneState 𝕜) (j : ℤ) : ℕ → LaneState 𝕜 :=
  match p.kvRowPtr (p.kBase batch head) j p.kStride.sS batch with
  | none => st
  | some kRow =>
    match p.kvRowPtr (p.vBase batch head) j p.vStride.sS batch with
    | none => st
    | some vRow =>
      let dots := warpReduceDot fun lane =>
        (List.range p.laneElems).foldl (fun dot i =>
          dot + fin (num.load p.dtype.elem buf.q (p.qRow batch head + (lane * p.laneElems + i))) *
            fin (num.load p.dtype.elem buf.k (kRow + (lane * p.laneElems + i : ℕ)).toNat)) 0
      fun lane => (st lane).absorb num.E (dots lane * fin p.scale) fun i =>
        num.load p.dtype.elem buf.v (vRow + (lane * p.laneElems + i : ℕ)).toNat

/-- The registers of a warp after its token loop. -/
def partialState (batch head split : ℕ) : ℕ → LaneState 𝕜 :=
  (p.tokens batch split).foldl (tokenStep num p buf batch head) fun _ => .init

/-- `decode_partial_kernel`: the writes of one warp. -/
def decodePartialKernel (flat : ℕ) : List (ℕ × Flt 𝕜) :=
  if flat ≥ p.requests then []
  else
    let st := partialState num p buf (p.batchOf flat) (p.headOf flat) (p.splitOf flat)
    [(p.partialM + flat, (st 0).m), (p.partialL + flat, (st 0).l)] ++
      (List.range 32).flatMap fun lane => (List.range p.laneElems).map fun i =>
        (p.partialO + (flat * p.headDim + (lane * p.laneElems + i)), (st lane).acc i)

/-! ## The reduce kernel -/

/-- `m_all`: the maximum over the splits. -/
def maxOfSplits (partials : ℕ → Flt 𝕜) (base : ℕ) : Flt 𝕜 :=
  (List.range p.numSplits).foldl (fun m s => fmaxf m (partials (p.partialM + (base + s)))) negInf

/-- A sum over the splits, each rescaled to the common maximum; splits that saw nothing are
skipped. -/
def sumOfSplits (partials : ℕ → Flt 𝕜) (base : ℕ) (term : ℕ → Flt 𝕜) : Flt 𝕜 :=
  (List.range p.numSplits).foldl (fun total s =>
    let mS := partials (p.partialM + (base + s))
    if mS = negInf then total
    else total + term s * expf num.E.exp (mS - maxOfSplits p partials base)) 0

/-- `decode_reduce_kernel`: the writes of one warp. -/
def decodeReduceKernel (partials : ℕ → Flt 𝕜) (flat : ℕ) : List (ℕ × Flt 𝕜) :=
  if flat ≥ p.batch * p.numHeads then []
  else
    let head := flat % p.numHeads
    let batch := flat / p.numHeads
    let base := flat * p.numSplits
    let lAll := sumOfSplits num p partials base fun s => partials (p.partialL + (base + s))
    let invL := if gtZero lAll then recip lAll else 0
    (List.range 32).flatMap fun lane => (List.range p.laneElems).map fun i =>
      let d := lane * p.laneElems + i
      let total := sumOfSplits num p partials base fun s =>
        partials (p.partialO + ((base + s) * p.headDim + d))
      (batch * p.oStride.sB + head * p.oStride.sH + d, total * invL)

/-! ## Launches -/

/-- The warps of a grid of 128-thread blocks, four to a block. -/
def onWarps {α : Type*} (blocks : ℕ) (kernel : ℕ → List α) : List α :=
  (List.range blocks).flatMap fun block =>
    (List.range 4).flatMap fun warp => kernel (block * 4 + warp)

/-- `LaunchForDim`: the output after both kernels. -/
def launchForDim (launch : ℕ → LaunchOutcome) : Except Status (ℕ → Flt 𝕜) :=
  let partialBlocks := int32Cast ((p.requests + 3) / 4 : ℕ)
  let reduceBlocks := int32Cast ((p.batch * p.numHeads + 3) / 4 : ℕ)
  let partialStatus := launchRaw partialBlocks 1 1 (launch 0)
  if ¬ partialStatus.isOk then .error partialStatus
  else
    let partials :=
      Scatter.apply buf.partials (onWarps partialBlocks.toNat (decodePartialKernel num p buf))
    let reduceStatus := launchRaw reduceBlocks 1 1 (launch 1)
    if ¬ reduceStatus.isOk then .error reduceStatus
    else
      let lastError := (launch 2).status
      if ¬ lastError.isOk then .error lastError
      else
        .ok (Scatter.apply buf.out
          (onWarps reduceBlocks.toNat (decodeReduceKernel num p partials)))

/-- `LaunchTyped`: the head dimensions that are instantiated. -/
def launchDecodeTyped (launch : ℕ → LaunchOutcome) : Except Status (ℕ → Flt 𝕜) :=
  if (p.headDim : ℤ) ∈ supportedHeadDims then launchForDim num p buf launch
  else
    .error (Status.invalidArgument
      ("decode: head_dim=" ++ toString p.headDim ++ " is not instantiated"))

/-- `LaunchDecodeSplitK`. -/
def launchDecodeSplitK (launch : ℕ → LaunchOutcome) : Except Status (ℕ → Flt 𝕜) :=
  match p.q, p.k, p.v, p.out, p.partials with
  | some q, some k, some v, some out, some partials =>
    if p.numSplits < 1 then .error (Status.invalidArgument "decode: num_splits must be >= 1")
    else launchDecodeTyped num p ⟨q, k, v, out, partials⟩ launch
  | _, _, _, _, _ => .error (Status.invalidArgument "decode: null pointer")

/-- `LaunchDecodeSplitKPaged`. -/
def launchDecodeSplitKPaged (launch : ℕ → LaunchOutcome) : Except Status (ℕ → Flt 𝕜) :=
  if p.pageTable.isNone then
    .error (Status.invalidArgument
      "paged attention: page_table is null (use the contiguous entry point instead)")
  else if p.blockSize ≤ 0 ∨ p.maxBlocksPerSeq ≤ 0 ∨ p.numKvBlocks ≤ 0 then
    .error (Status.invalidArgument
      "paged attention: block_size/max_blocks_per_seq/num_kv_blocks must be positive")
  else launchDecodeSplitK num p launch

end Kernels

end SciAttention

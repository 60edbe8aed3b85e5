import SciAttention.Attention.SplitK
import SciAttention.KvCache.Mirror

/-!
# Paged attention

Model of `src/backends/paged/paged_backend.cpp`, `paged_attention.cu` and `sca::paged`. `pagedRequest`
is `RunPaged` up to the launch: the checks, the fallbacks for unset parameters and the kernel
parameters built from the query, the parameters and the cache.
-/

namespace SciAttention

/-! ## Split counts -/

/-- `kTokensPerSplit`. -/
def tokensPerSplit : ℕ := 512

/-- `kMaxSplits`. -/
def maxSplits : ℕ := 16

/-- `kNativeSeqQ`. -/
def nativeSeqQ : ℕ := 1

/-- `SplitsFor`. -/
def splitsFor (seqKv smCount : ℕ) : ℕ :=
  if seqKv ≤ 0 then 1
  else
    let splits := (seqKv + tokensPerSplit - 1) / tokensPerSplit
    let concurrencyCap := if smCount > 0 then smCount * 2 else maxSplits
    let splits := if splits > concurrencyCap then concurrencyCap else splits
    let splits := if splits > maxSplits then maxSplits else splits
    if splits < 1 then 1 else splits

/-- `PartialElements`. -/
def partialElements (batch headsQ numSplits headDim : ℕ) : ℕ :=
  batch * headsQ * numSplits * (2 + headDim)

section Paged

variable {𝕜 : Type*}

/-- The split count of a request. -/
def resolveSplits (cfg : AttentionConfig 𝕜) (seqKv smCount : ℕ) : ℕ :=
  if cfg.numSplits > 0 then min cfg.numSplits.toNat maxSplits else splitsFor seqKv smCount

theorem resolveSplits_pos (cfg : AttentionConfig 𝕜) (seqKv smCount : ℕ) :
    0 < resolveSplits cfg seqKv smCount := by
  have hsplits : 0 < splitsFor seqKv smCount := by
    simp only [splitsFor]
    split_ifs <;> omega
  unfold resolveSplits
  split_ifs with h
  · exact lt_min (by omega) (by decide)
  · exact hsplits

theorem resolveSplits_le (cfg : AttentionConfig 𝕜) (seqKv smCount : ℕ) :
    resolveSplits cfg seqKv smCount ≤ maxSplits := by
  have hsplits : splitsFor seqKv smCount ≤ maxSplits := by
    simp only [splitsFor, maxSplits]
    split_ifs <;> omega
  unfold resolveSplits
  split_ifs with h
  · exact min_le_right _ _
  · exact hsplits

/-! ## Parameters -/

/-- `sca::PagedAttentionParams`; null pointers are `none`. -/
structure PagedAttentionParams where
  pageTable : Option (ℤ → ℤ) := none
  seqLens : Option (ℕ → ℤ) := none
  numSeqs : ℤ := 0
  blockSize : ℤ := 16
  maxBlocksPerSeq : ℤ := 0
  layer : ℤ := 0

/-- `PagedKVCache::PageTableDevicePtr`: the mirror as flat memory. -/
def PagedKVCache.pageTableDevicePtr (kv : PagedKVCache) : Option (ℤ → ℤ) :=
  kv.pageTableDevice.map fun table i =>
    table (i.toNat / kv.maxBlocksPerSeq) (i.toNat % kv.maxBlocksPerSeq)

/-- The block size of a request: the caller's, or the cache's when it is unset. -/
def PagedAttentionParams.blockSizeFor (params : PagedAttentionParams) (kv : PagedKVCache) : ℕ :=
  if params.blockSize > 0 then params.blockSize.toNat else kv.cfg.blockSize

/-- The row length of a request's page table: the caller's, or the cache's when it is unset. -/
def PagedAttentionParams.maxBlocksFor (params : PagedAttentionParams) (kv : PagedKVCache) : ℕ :=
  if params.maxBlocksPerSeq > 0 then params.maxBlocksPerSeq.toNat else kv.maxBlocksPerSeq

variable [Field 𝕜] [LinearOrder 𝕜] (num : Numerics 𝕜) (env : AttentionEnv 𝕜)

/-- The split count of a paged request; the sequence length is an upper bound. -/
def pagedSplits (kv : PagedKVCache) (params : PagedAttentionParams) (cfg : AttentionConfig 𝕜) : ℕ :=
  resolveSplits cfg (kv.storage.cfg.numBlocks * params.blockSizeFor kv) env.smCount

/-- The kernel parameters of an accepted request. -/
def pagedParams (q : Tensor) (kv : PagedKVCache) (params : PagedAttentionParams)
    (cfg : AttentionConfig 𝕜) (dtypeId : DecodeDtype) (pageTable : ℤ → ℤ)
    (scratch : ℕ → Flt 𝕜)
    (out : ℕ → Flt 𝕜) : DecodeFwdParams 𝕜 :=
  let numSeqs := q.dim 0
  let numHeads := q.dim 1
  let seqQ := q.dim 2
  let headDim := q.dim 3
  let blockSize := params.blockSizeFor kv
  let kvCfg := kv.storage.cfg
  let shape : AttentionShape :=
    { batch := numSeqs, seqQ := seqQ, seqKv := kvCfg.numBlocks * blockSize, numHeads := numHeads
      numKvHeads := kvCfg.numKvHeads, headDim := headDim }
  let splits := pagedSplits env kv params cfg
  let base := numSeqs * numHeads * splits
  let qStride : DecodeStrides :=
    { sB := numHeads * seqQ * headDim, sH := seqQ * headDim, sS := headDim }
  -- the page table supplies the row, so the batch stride is unused
  let kvStride : DecodeStrides := { sB := 0, sH := headDim, sS := kvCfg.numKvHeads * headDim }
  { q := q.data
    k := some (kv.storage.kLayers params.layer.toNat)
    v := some (kv.storage.vLayers params.layer.toNat)
    out := some out
    partials := some scratch
    partialM := 0
    partialL := base
    partialO := 2 * base
    batch := numSeqs
    numHeads := numHeads
    numKvHeads := kvCfg.numKvHeads
    seqKv := shape.seqKv
    headDim := headDim
    numSplits := splits
    qStride := qStride
    kStride := kvStride
    vStride := kvStride
    oStride := qStride
    scale := effectiveScale num cfg shape
    dtype := dtypeId
    pageTable := some pageTable
    blockSize := blockSize
    maxBlocksPerSeq := params.maxBlocksFor kv
    numKvBlocks := kvCfg.numBlocks
    seqLens := params.seqLens }

/-- `RunPaged` up to the launch. -/
def pagedRequest (q : Tensor) (kv : PagedKVCache) (params : PagedAttentionParams)
    (cfg : AttentionConfig 𝕜) : Except Status (DecodeFwdParams 𝕜) :=
  if q.ndims ≠ 4 then
    .error (makeStatus .shapeMismatch
      ("paged_attention expects q=[num_seqs, H_q, seq_q, D]; got ndims=" ++ toString q.ndims))
  else if q.dim 2 ≠ nativeSeqQ then
    .error (makeStatus .unsupportedFeature
      ("paged attention implements the decode form only (seq_q=1); got seq_q=" ++
        toString (q.dim 2)))
  else if q.dim 0 ≤ 0 ∨ q.dim 0 > kv.cfg.maxNumSeqs then
    .error (makeStatus .shapeMismatch
      ("paged_attention num_seqs=" ++ toString (q.dim 0) ++ " exceeds the cache's max_num_seqs=" ++
        toString kv.cfg.maxNumSeqs))
  else if params.layer < 0 ∨ params.layer ≥ kv.storage.cfg.numLayers then
    .error (makeStatus .shapeMismatch
      ("paged_attention layer=" ++ toString params.layer ++ " out of range [0," ++
        toString kv.storage.cfg.numLayers ++ ")"))
  else
    -- the dtype, the head dimension and the heads of the cache are not compared with those of `q`
    match dtypeIdFor q.dtype with
    | none =>
      .error (makeStatus .unsupportedDtype
        ("dtype=" ++ dtypeName q.dtype ++ " is not a compute dtype"))
    | some dtypeId =>
      if q.dim 3 % 32 ≠ 0 ∨ supportedHeadDimIndex (q.dim 3) < 0 then
        .error (makeStatus .unsupportedHeadDim
          ("paged attention requires head_dim % 32 == 0 within \x7b32..256\x7d; got " ++
            toString (q.dim 3)))
      else
        match params.pageTable.or kv.pageTableDevicePtr with
        | none =>
          .error (makeStatus .shapeMismatch
            "paged_attention has no page table (call PagedKVCache::SyncPageTable first)")
        | some pageTable =>
          match acquireScratchFp32 env.scratch
              (partialElements (q.dim 0) (q.dim 1) (pagedSplits env kv params cfg) (q.dim 3)) with
          | .error e => .error e
          | .ok scratch =>
            match env.outAlloc with
            | none =>
              .error (makeStatus .workspaceExceeded "allocation of the paged output failed")
            | some out => .ok (pagedParams num env q kv params cfg dtypeId pageTable scratch out)

/-- `LaunchPagedAttention`. -/
def launchPagedAttention (p : DecodeFwdParams 𝕜) (launch : ℕ → LaunchOutcome) :
    Except Status (ℕ → Flt 𝕜) :=
  if p.pageTable.isNone then
    .error (Status.invalidArgument "paged attention: null page table")
  else launchDecodeSplitKPaged num p launch

/-- `RunPaged`. -/
def runPaged (q : Tensor) (kv : PagedKVCache) (params : PagedAttentionParams)
    (cfg : AttentionConfig 𝕜) : Except Status (AttentionResult 𝕜) :=
  match pagedRequest num env q kv params cfg with
  | .error e => .error e
  | .ok p =>
    match launchPagedAttention num p env.launch with
    | .error e => .error e
    | .ok out =>
      .ok
        { outDims := [q.dim 0, q.dim 1, q.dim 2, q.dim 3]
          outDtype := q.dtype
          out := out
          stats :=
            { usedBackend := .paged
              workspaceBytes := partialElements (q.dim 0) (q.dim 1) p.numSplits (q.dim 3) * 4
              numSplits := p.numSplits
              kvBytes := kv.storage.stats.bytes
              note := "paged decode: " ++ toString p.numSplits ++ " splits, block_size=" ++
                toString p.blockSize ++ ", layer=" ++ toString params.layer } }

/-- `paged_attention(q, kv, params, cfg)`. -/
def pagedAttention (q : Tensor) (kv : PagedKVCache) (params : PagedAttentionParams)
    (cfg : AttentionConfig 𝕜) : Except Status (AttentionResult 𝕜) :=
  runPaged num env q kv params cfg

/-- The parameters that `paged_attention(q, kv, cfg)` fills in from the cache. -/
def paramsOf (kv : PagedKVCache) : PagedAttentionParams :=
  { pageTable := kv.pageTableDevicePtr
    numSeqs := kv.cfg.maxNumSeqs
    blockSize := kv.cfg.blockSize
    maxBlocksPerSeq := kv.maxBlocksPerSeq
    layer := 0 }

/-- `paged_attention(q, kv, cfg)`. -/
def pagedAttentionAll (q : Tensor) (kv : PagedKVCache) (cfg : AttentionConfig 𝕜) :
    Except Status (AttentionResult 𝕜) :=
  runPaged num env q kv (paramsOf kv) cfg

/-- `sca::paged`. -/
def paged (q : Tensor) (kv : PagedKVCache) (cfg : AttentionConfig 𝕜) :
    Except Status (AttentionResult 𝕜) :=
  pagedAttention num env q kv {} { cfg with backend := .paged }

end Paged

end SciAttention

import SciAttention.Attention.Naive
import SciAttention.Dispatch.Supports

/-!
# The dense backends

Model of `Forward` in the naive, tiled, flash, decode and paged backends: shape inference, validation,
the backend's own checks, memory, kernel parameters, the launch and the statistics, in the source's order.
-/

namespace SciAttention

/-! ## Errors -/

/-- Continue when a status is ok, else return it. -/
def Status.require (s : Status) : Except Status Unit := if s.isOk then .ok () else .error s

/-- Return an attention error when the condition holds. -/
def failIf (c : Prop) [Decidable c] (code : AttnStatusCode) (detail : String) : Except Status Unit :=
  if c then .error (makeStatus code detail) else .ok ()

/-! ## Memory -/

/-- What the device answers during one `Forward`: the scratch pool, the tensors it allocates by number
of elements, the outcome of every launch, and what shared memory starts with. An output has fewer than
`2 ^ 36` elements, and nothing launches without a device. -/
structure ForwardEnv (𝕜 : Type) (dev : Device) where
  scratch : ScratchEnv 𝕜
  outAlloc : ℕ → Option (ℕ → Flt 𝕜)
  lseAlloc : ℕ → Option (ℕ → Flt 𝕜)
  launch : ℕ → LaunchOutcome
  smem : ℕ → ℕ → ℕ → ℕ → Flt 𝕜
  outAlloc_lt : ∀ n, (outAlloc n).isSome → n < 2 ^ 36
  launch_unavailable : dev.cudaAvailable = false → ∀ n, launch n ≠ .ok

section Backends

variable {𝕜 : Type} [Field 𝕜] [LinearOrder 𝕜] {dev : Device}

variable (num : Numerics 𝕜) (env : ForwardEnv 𝕜 dev) (q k v : Tensor) (cfg : AttentionConfig 𝕜)

/-- The dimensions of the output: always `[B, H_q, S_q, D]`. -/
def outDims (shape : AttentionShape) : List ℕ :=
  [shape.batch, shape.numHeads, shape.seqQ, shape.headDim]

/-- The dimensions of the LSE tensor. -/
def lseDims (shape : AttentionShape) : List ℕ := [shape.batch, shape.numHeads, shape.seqQ]

/-- Allocate the output. -/
def allocOut (shape : AttentionShape) (message : String) : Except Status (ℕ → Flt 𝕜) :=
  match env.outAlloc (outDims shape).prod with
  | none => .error (makeStatus .workspaceExceeded message)
  | some out => .ok out

/-- Allocate the LSE tensor when it is asked for. -/
def allocLse (shape : AttentionShape) : Except Status (Option (ℕ → Flt 𝕜)) :=
  if cfg.returnLse then
    match env.lseAlloc (lseDims shape).prod with
    | none => .error (makeStatus .workspaceExceeded "allocation of the LSE buffer failed")
    | some lse => .ok (some lse)
  else .ok none

/-- `DtypeIdFor` with the error of the naive, tiled and decode backends. -/
def requireDtype (dtype : DType) : Except Status DecodeDtype :=
  match dtypeIdFor dtype with
  | none =>
    .error (makeStatus .unsupportedDtype ("dtype=" ++ dtypeName dtype ++ " is not a compute dtype"))
  | some id => .ok id

/-- The LSE tensor of a result. -/
def lseTensor (shape : AttentionShape) (lse : Option (ℕ → Flt 𝕜)) : Option (FloatTensor 𝕜) :=
  lse.map fun data => ⟨lseDims shape, data⟩

/-- The strides of the queries. -/
def qStrides (shape : AttentionShape) : Strides :=
  stridesFor cfg.layout shape.seqQ shape.numHeads shape.headDim

/-- The strides of the keys and values. -/
def kvStrides (shape : AttentionShape) : Strides :=
  stridesFor cfg.layout shape.seqKv shape.numKvHeads shape.headDim

/-- The strides of the output. -/
def outStrides (shape : AttentionShape) : Strides :=
  stridesFor .bhsd shape.seqQ shape.numHeads shape.headDim

/-- The causal diagonal of a request. -/
def diagonalOf (shape : AttentionShape) : ℤ :=
  if cfg.causal then (shape.seqKv : ℤ) - shape.seqQ else 0

/-- The shape of a valid request. -/
def inferValid : Except Status AttentionShape := do
  let shape ← inferShape q k v cfg.layout
  (validate num cfg shape).require
  return shape

/-! ## Naive -/

/-- The kernel parameters of the naive backend. -/
def naiveParams (shape : AttentionShape) (dtypeId : NaiveDtype) (scores out : ℕ → Flt 𝕜)
    (lse : Option (ℕ → Flt 𝕜)) : NaiveFwdParams 𝕜 :=
  { q := q.data, k := k.data, v := v.data, out := some out, scores := some scores
    batch := shape.batch, numHeads := shape.numHeads, numKvHeads := shape.numKvHeads
    seqQ := shape.seqQ, seqKv := shape.seqKv, headDim := shape.headDim
    qStride := qStrides cfg shape, kStride := kvStrides cfg shape, vStride := kvStrides cfg shape
    oStride := outStrides shape, scale := effectiveScale num cfg shape, causal := cfg.causal
    returnLse := cfg.returnLse, diagonal := diagonalOf cfg shape, lse := lse, dtype := dtypeId }

/-- The checks of the naive backend on a valid request. -/
def naiveChecks (dev : Device) (shape : AttentionShape) : Except Status NaiveDtype := do
  let need := scoreBytes shape
  let limit := effectiveWorkspaceLimit dev cfg
  failIf (limit ≠ 0 ∧ need > limit) .workspaceExceeded
    ("naive score matrix requires " ++ toString need ++ " B but the workspace limit is " ++
      toString limit ++ " B; switch to tiled/flash or raise workspace_limit_bytes")
  failIf (cfg.causal ∧ shape.seqKv < shape.seqQ) .shapeMismatch "causal requires seq_kv >= seq_q"
  requireDtype q.dtype

/-- `NaiveBackend::Forward` and `naive_attention`. -/
def naiveForward : Except Status (AttentionResult 𝕜) := do
  let shape ← inferValid num q k v cfg
  let dtypeId ← naiveChecks q cfg dev shape
  let scores ← acquireScratchFp32 env.scratch (scoreBytes shape / 4)
  let out ← allocOut env shape "allocation of the attention output failed"
  let lse ← allocLse env cfg shape
  let (out, lse) ←
    launchNaiveForward num (naiveParams num q k v cfg shape dtypeId scores out lse) env.launch
  return {
    outDims := outDims shape
    outDtype := q.dtype
    out := out
    lse := lseTensor shape lse
    stats := {
      usedBackend := .naive
      workspaceBytes := scoreBytes shape
      materializedScoreBytes := scoreBytes shape
      note := "reference path: FP32 score matrix materialized in HBM (" ++
        toString (scoreBytes shape) ++ " B); layout=" ++ layoutName cfg.layout ++
        (if cfg.causal then ", causal(alignment=bottom-right)" else "") } }

/-! ## Tiled -/

/-- The kernel parameters of the tiled backend. -/
def tiledParams (shape : AttentionShape) (dtypeId : TiledDtype) (out : ℕ → Flt 𝕜)
    (lse : Option (ℕ → Flt 𝕜)) : TiledFwdParams 𝕜 :=
  { q := q.data, k := k.data, v := v.data, out := some out, lse := lse
    batch := shape.batch, numHeads := shape.numHeads, numKvHeads := shape.numKvHeads
    seqQ := shape.seqQ, seqKv := shape.seqKv, headDim := shape.headDim
    qStride := qStrides cfg shape, kStride := kvStrides cfg shape, vStride := kvStrides cfg shape
    oStride := outStrides shape, scale := effectiveScale num cfg shape, causal := cfg.causal
    returnLse := cfg.returnLse, diagonal := diagonalOf cfg shape, dtype := dtypeId }

/-- The checks of the tiled backend on a valid request: the tile for the actual dtype. -/
def tiledChecks (dev : Device) (shape : AttentionShape) : Except Status (TileCandidate × TiledDtype) := do
  failIf (shape.headDim > maxTiledHeadDim) .deviceCapability
    ("tiled supports head_dim <= " ++ toString maxTiledHeadDim ++ "; head_dim=" ++
      toString shape.headDim ++ " needs the flash backend")
  let tile ←
    match selectTile q.dtype shape.headDim dev.smemLimitPerBlock with
    | .error reason => .error (makeStatus .deviceCapability reason)
    | .ok tile => .ok tile
  let dtypeId ← requireDtype q.dtype
  return (tile, dtypeId)

/-- `TiledBackend::Forward` and `tiled_attention`. -/
def tiledForward : Except Status (AttentionResult 𝕜) := do
  let shape ← inferValid num q k v cfg
  let (tile, dtypeId) ← tiledChecks q dev shape
  let out ← allocOut env shape "allocation of the attention output failed"
  let lse ← allocLse env cfg shape
  let (out, lse) ←
    launchTiledForward num (tiledParams num q k v cfg shape dtypeId out lse) tile (env.launch 0)
  return {
    outDims := outDims shape
    outDtype := q.dtype
    out := out
    lse := lseTensor shape lse
    stats := {
      usedBackend := .tiled
      tile := tile.toConfig
      note := "online softmax with S staged in smem; workspace 0 B; layout=" ++
        layoutName cfg.layout } }

/-! ## Flash -/

/-- `DtypeIdFor` of the flash backend; 0 stands for a dtype it does not compute in. -/
def flashDtypeIdFor : DType → ℕ
  | .float16 => 1
  | .bfloat16 => 2
  | _ => 0

/-- `ValidateFlashRequest`. -/
def validateFlashRequest (dev : Device) (dtype : DType) (headDim : ℕ) : Except Status FlashTile := do
  failIf (dev.cudaAvailable = false) .unsupportedFeature "flash backend: no CUDA device available"
  failIf (flashDtypeIdFor dtype = 0) .unsupportedDtype
    ("flash backend computes in fp16/bf16; dtype=" ++ dtypeName dtype ++
      " is served by the naive (reference) or tiled backend")
  let tile ←
    match findFlashTile headDim with
    | none =>
      .error (makeStatus .unsupportedHeadDim
        ("flash tile table has no entry for head_dim=" ++ toString headDim))
    | some tile => .ok tile
  let limit := dev.smemLimitPerBlock
  let smem := flashTileSmemBytes tile headDim (dtypeSize dtype)
  failIf (smem > limit) .deviceCapability
    ("flash tile " ++ tile.toText ++ " needs " ++ toString smem ++ " B > smem limit " ++
      toString limit ++ " B for head_dim=" ++ toString headDim)
  failIf (cfg.slidingWindow > 0) .unsupportedFeature
    ("flash backend: sliding_window=" ++ toString cfg.slidingWindow ++ " is not implemented in v1")
  return tile

/-- `MakeParams`. -/
def flashParams (shape : AttentionShape) (out : ℕ → Flt 𝕜) (lse : Option (ℕ → Flt 𝕜)) :
    FlashFwdParams 𝕜 :=
  { q := q.data, k := k.data, v := v.data, out := some out, lse := lse
    batch := shape.batch, numHeads := shape.numHeads, numKvHeads := shape.numKvHeads
    seqQ := shape.seqQ, seqKv := shape.seqKv, headDim := shape.headDim
    qStride := qStrides cfg shape, kStride := kvStrides cfg shape, vStride := kvStrides cfg shape
    oStride := outStrides shape, scale := effectiveScale num cfg shape, causal := cfg.causal
    returnLse := cfg.returnLse, diagonal := diagonalOf cfg shape
    dtypeId := flashDtypeIdFor q.dtype }

/-- `FlashBackend::Forward` and `flash_attention`. -/
def flashForward : Except Status (AttentionResult 𝕜) := do
  let shape ← inferValid num q k v cfg
  let tile ← validateFlashRequest cfg dev q.dtype shape.headDim
  let out ← allocOut env shape "allocation of the attention output failed"
  let lse ← allocLse env cfg shape
  let (out, lse) ←
    launchFlashFwd num (flashParams num q k v cfg shape out lse) env.smem (env.launch 0)
  return {
    outDims := outDims shape
    outDtype := q.dtype
    out := out
    lse := lseTensor shape lse
    stats := {
      usedBackend := .flash
      tile := tile.toConfig
      note := "flash: mma.sync m16n8k16 + cp.async pipeline, tile " ++ tile.toText ++
        ", S/P in registers; layout=" ++ layoutName cfg.layout } }

/-! ## Decode -/

/-- The strides as the decode kernels take them. -/
def Strides.toDecode (s : Strides) : DecodeStrides := ⟨s.sB, s.sH, s.sS⟩

/-- The kernel parameters of the decode backend. -/
def decodeParams (shape : AttentionShape) (dtypeId : DecodeDtype) (splits : ℕ)
    (partials out : ℕ → Flt 𝕜) : DecodeFwdParams 𝕜 :=
  let base := shape.batch * shape.numHeads * splits
  { q := q.data, k := k.data, v := v.data, out := some out, partials := some partials
    partialM := 0, partialL := base, partialO := 2 * base
    batch := shape.batch, numHeads := shape.numHeads, numKvHeads := shape.numKvHeads
    seqKv := shape.seqKv, headDim := shape.headDim, numSplits := splits
    qStride := (qStrides cfg shape).toDecode, kStride := (kvStrides cfg shape).toDecode
    vStride := (kvStrides cfg shape).toDecode, oStride := (outStrides shape).toDecode
    scale := effectiveScale num cfg shape, dtype := dtypeId }

/-- The checks of the decode backend on a valid request. -/
def decodeChecks (shape : AttentionShape) : Except Status DecodeDtype := do
  failIf (shape.seqQ ≠ nativeSeqQ) .unsupportedFeature
    ("decode backend requires seq_q=" ++ toString nativeSeqQ ++ "; seq_q=" ++ toString shape.seqQ ++
      " belongs to the flash backend")
  failIf (shape.headDim % 32 ≠ 0) .unsupportedHeadDim
    ("decode requires head_dim % 32 == 0; head_dim=" ++ toString shape.headDim)
  requireDtype q.dtype

/-- `DecodeBackend::Forward` and `decode_attention`. There is no LSE tensor. -/
def decodeForward : Except Status (AttentionResult 𝕜) := do
  let shape ← inferValid num q k v cfg
  let dtypeId ← decodeChecks q shape
  let splits := decodeSplits dev cfg shape
  let partials ← acquireScratchFp32 env.scratch (partialBytes shape splits / 4)
  let out ← allocOut env shape "allocation of the decode output failed"
  let out ← launchDecodeSplitK num (decodeParams num q k v cfg shape dtypeId splits partials out)
    env.launch
  return {
    outDims := outDims shape
    outDtype := q.dtype
    out := out
    stats := {
      usedBackend := .decode
      workspaceBytes := partialBytes shape splits
      numSplits := splits
      note := "split-K decode: " ++ toString splits ++ " splits, FP32 partials in workspace; layout=" ++
        layoutName cfg.layout } }

/-! ## Paged -/

/-- `PagedBackend::Forward`: the dense interface has no cache to read. -/
def pagedForward : Except Status (AttentionResult 𝕜) :=
  .error (makeStatus .unsupportedFeature
    "paged attention needs the KV cache: call sca::paged_attention(q, kv, params, cfg)")

/-- `GetBackend(kind)->Forward`; `kAuto` resolves to the naive backend. -/
def forward : BackendKind → Except Status (AttentionResult 𝕜)
  | .auto => naiveForward num env q k v cfg
  | .naive => naiveForward num env q k v cfg
  | .tiled => tiledForward num env q k v cfg
  | .flash => flashForward num env q k v cfg
  | .decode => decodeForward num env q k v cfg
  | .paged => pagedForward

end Backends

end SciAttention

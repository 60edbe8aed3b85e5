import SciAttention.Attention.Flash
import SciAttention.Attention.Paged
import SciAttention.Attention.Tiled

/-!
# What the backends say they support

Model of `DeviceCapability`, `RecommendTile` and the `Supports` methods of the five backends. A reason is
`none` where the source leaves its string empty. The workspace sizes are `size_t` values, so the products
modulo `2 ^ 64`.
-/

namespace SciAttention

/-! ## The device -/

/-- `sca::DeviceCapability`: the fields the backends read. -/
structure DeviceCapability where
  smCount : ℕ
  smemPerSm : ℕ
  smemPerBlockDefault : ℕ
  smemPerBlockOptin : ℕ
  freeMemBytes : ℕ
deriving DecidableEq, Repr

/-- The device as the host sees it: `CudaAvailable()`, the cached `ForDevice(0)`, and what `strtoll`
reads in `SCI_ATTENTION_MAX_SMEM_BYTES`. -/
structure Device where
  cudaAvailable : Bool
  cap : DeviceCapability
  maxSmemBytes : Option ℤ := none
deriving DecidableEq, Repr

/-- `DeviceCapability::SmemLimitPerBlock`. -/
def Device.smemLimitPerBlock (dev : Device) : ℕ :=
  let limit :=
    if dev.cap.smemPerBlockOptin ≠ 0 then dev.cap.smemPerBlockOptin else dev.cap.smemPerBlockDefault
  let limit :=
    match dev.maxSmemBytes with
    | some parsed => if parsed > 0 ∧ parsed.toNat < limit then parsed.toNat else limit
    | none => limit
  if dev.cap.smemPerSm ≠ 0 ∧ limit > dev.cap.smemPerSm then dev.cap.smemPerSm else limit

/-! ## Tiles -/

/-- `TileConfig::Empty`. -/
def TileConfig.isEmpty (t : TileConfig) : Bool := t.blockM == 0 || t.blockN == 0 || t.warps == 0

/-- `TileConfig::ToString`. -/
def TileConfig.toText (t : TileConfig) : String :=
  "bm=" ++ toString t.blockM ++ ",bn=" ++ toString t.blockN ++ ",warps=" ++ toString t.warps ++
    ",stages=" ++ toString t.stages ++ (if t.useTma then ",tma=on" else ",tma=off")

/-- The fields of a flash tile that reports and statistics carry. -/
def FlashTile.toConfig (t : FlashTile) : TileConfig :=
  { blockM := t.blockM, blockN := t.blockN, warps := t.warps, stages := t.stages }

/-- The fields of a tiled geometry that reports and statistics carry; there is no pipeline. -/
def TileCandidate.toConfig (t : TileCandidate) : TileConfig :=
  { blockM := t.blockM, blockN := t.blockN, warps := t.warps, stages := 1 }

/-- `RecommendTile`. -/
def recommendTile (shape : AttentionShape) : TileConfig :=
  match findFlashTile shape.headDim with
  | none => {}
  | some entry => entry.toConfig

/-- `FlashTileSmemBytes`. -/
def flashTileSmemBytes (tile : FlashTile) (headDim elemBytes : ℕ) : ℕ :=
  let rowStride := headDim + rowPadElems
  let q := tile.blockM * rowStride * elemBytes
  let kv := tile.blockN * rowStride * elemBytes * tile.stages
  q + 2 * kv

/-- `kFp16Candidates`. -/
def fp16Candidates : List TileCandidate := [⟨64, 64, 4⟩, ⟨64, 32, 4⟩, ⟨128, 32, 8⟩]

/-- `kFp32Candidates`. -/
def fp32Candidates : List TileCandidate := [⟨64, 32, 4⟩, ⟨64, 64, 4⟩, ⟨128, 32, 8⟩]

/-- The preference list of a dtype. -/
def tileCandidates (dtype : DType) : List TileCandidate :=
  if dtype = .float32 then fp32Candidates else fp16Candidates

/-- The shared memory of a geometry, at the element size of `dtype`. -/
def candidateBytes (dtype : DType) (headDim : ℕ) (t : TileCandidate) : ℤ :=
  tiledSmemBytes headDim (dtypeSize dtype) t.blockM t.blockN

/-- The geometry fits the limit. -/
def candidateFits (dtype : DType) (headDim smemLimit : ℕ) (t : TileCandidate) : Bool :=
  decide (candidateBytes dtype headDim t > 0) &&
    decide ((candidateBytes dtype headDim t).toNat ≤ smemLimit)

/-- `SelectTile`: the first geometry that fits, or the reason why none does. -/
def selectTile (dtype : DType) (headDim smemLimit : ℕ) : Except String TileCandidate :=
  match (tileCandidates dtype).find? (candidateFits dtype headDim smemLimit) with
  | some t => .ok t
  | none =>
    .error ("no tiled configuration fits smem limit " ++ toString smemLimit ++ " B for head_dim=" ++
      toString headDim ++ " " ++ dtypeName dtype ++ "; tried " ++
      ", ".intercalate ((tileCandidates dtype).map fun t =>
        "(" ++ toString t.blockM ++ "x" ++ toString t.blockN ++ " -> " ++
          toString (candidateBytes dtype headDim t) ++ " B)") ++ "; use the flash backend")

/-- `MaxTiledHeadDim`. -/
def maxTiledHeadDim : ℕ := 128

/-! ## Workspaces -/

/-- `ScoreBytes`. -/
def scoreBytes (shape : AttentionShape) : ℕ :=
  sizeWrap (sizeWrap (sizeWrap (sizeWrap (sizeWrap shape.batch * sizeWrap shape.numHeads) *
    sizeWrap shape.seqQ) * sizeWrap shape.seqKv) * 4)

/-- `PartialBytes`. The cast to `size_t` and the `int64_t` arithmetic before it both keep the count modulo
`2 ^ 64`. -/
def partialBytes (shape : AttentionShape) (splits : ℕ) : ℕ :=
  sizeWrap (sizeWrap (partialElements shape.batch shape.numHeads splits shape.headDim) * 4)

/-- The bytes that the score matrix has. -/
def trueScoreBytes (shape : AttentionShape) : ℕ :=
  shape.batch * shape.numHeads * shape.seqQ * shape.seqKv * 4

/-- The bytes that the partials of a request have. -/
def truePartialBytes (shape : AttentionShape) (splits : ℕ) : ℕ :=
  partialElements shape.batch shape.numHeads splits shape.headDim * 4

theorem scoreBytes_eq (shape : AttentionShape) : scoreBytes shape = trueScoreBytes shape % 2 ^ 64 := by
  simp only [scoreBytes, sizeWrap_mul_left, sizeWrap_mul_right]
  rfl

theorem partialBytes_eq (shape : AttentionShape) (splits : ℕ) :
    partialBytes shape splits = truePartialBytes shape splits % 2 ^ 64 := by
  simp only [partialBytes, sizeWrap_mul_left]
  rfl

section Reports

variable {𝕜 : Type*} (dev : Device) (cfg : AttentionConfig 𝕜) (shape : AttentionShape)

/-- `EffectiveWorkspaceLimit`. -/
def effectiveWorkspaceLimit : ℕ :=
  if cfg.workspaceLimitBytes ≠ 0 then cfg.workspaceLimitBytes else dev.cap.freeMemBytes / 2

/-- `ResolveSplits` of a dense request. -/
def decodeSplits : ℕ := resolveSplits cfg shape.seqKv dev.cap.smCount

/-! ## Reports -/

/-- `sca::CapabilityReport`. -/
structure CapabilityReport where
  supported : Bool
  reason : String
  recommendedBackend : BackendKind
  tile : TileConfig := {}
  workspaceBytes : ℕ
deriving DecidableEq, Repr

/-- A report with a reason against the request, or with the text for a supported one. -/
def makeReport (backend : BackendKind) (tile : TileConfig) (workspaceBytes : ℕ)
    (reason : Option String) (text : String) : CapabilityReport :=
  { supported := reason.isNone, reason := reason.getD text, recommendedBackend := backend, tile
    workspaceBytes }

/-- `NaiveBackend::Supports`. -/
def naiveSupports : CapabilityReport :=
  let need := scoreBytes shape
  let limit := effectiveWorkspaceLimit dev cfg
  let reason :=
    if dev.cudaAvailable = false then
      some "no CUDA device available (DeviceCapability reports cuda-unavailable)"
    else if supportedHeadDimIndex shape.headDim < 0 then
      some ("head_dim=" ++ toString shape.headDim ++
        " is outside \x7b32,64,96,128,160,192,256\x7d")
    else if cfg.slidingWindow > 0 then
      some ("sliding_window=" ++ toString cfg.slidingWindow ++
        " is not implemented by the naive backend")
    else if limit ≠ 0 ∧ need > limit then
      some ("score matrix needs " ++ toString need ++ " B > workspace limit " ++ toString limit ++
        " B; use the tiled or flash backend")
    else none
  makeReport .naive {} need reason
    ("B*H_q*S_q*S_kv*4 = " ++ toString need ++ " B of FP32 score storage fits the workspace limit")

/-- `TiledBackend::Supports`; the tile is chosen for half precision. -/
def tiledSupports : CapabilityReport :=
  let probed := selectTile .float16 shape.headDim dev.smemLimitPerBlock
  let reason :=
    if dev.cudaAvailable = false then some "no CUDA device available"
    else if supportedHeadDimIndex shape.headDim < 0 then
      some ("head_dim=" ++ toString shape.headDim ++
        " is outside \x7b32,64,96,128,160,192,256\x7d")
    else if shape.headDim > maxTiledHeadDim then
      some ("head_dim=" ++ toString shape.headDim ++ " > " ++ toString maxTiledHeadDim ++
        " is served by the flash backend (smem budget for tiled)")
    else if cfg.slidingWindow > 0 then
      some "sliding_window is not implemented by the tiled backend"
    else
      match probed with
      | .error tileReason => some tileReason
      | .ok _ => none
  let tile : TileConfig :=
    match reason, probed with
    | none, .ok t => t.toConfig
    | _, _ => {}
  makeReport .tiled tile 0 reason ("tiled tile=" ++ tile.toText ++ " keeps S in smem (workspace 0 B)")

/-- `FlashBackend::Supports`; the shared memory is that of two-byte elements. -/
def flashSupports : CapabilityReport :=
  let unsupported (reason : String) := makeReport .flash {} 0 (some reason) ""
  if dev.cudaAvailable = false then unsupported "no CUDA device available"
  else
    match findFlashTile shape.headDim with
    | none =>
      unsupported ("head_dim=" ++ toString shape.headDim ++
        " has no flash tile (supported: 32,64,96,128,160,192,256)")
    | some tile =>
      if cfg.slidingWindow > 0 then
        unsupported ("sliding_window=" ++ toString cfg.slidingWindow ++ " not implemented")
      else
        let limit := dev.smemLimitPerBlock
        let smem := flashTileSmemBytes tile shape.headDim 2
        if smem > limit then
          unsupported ("tile " ++ tile.toText ++ " needs " ++ toString smem ++ " B > smem limit " ++
            toString limit ++ " B")
        else
          makeReport .flash tile.toConfig 0 none
            ("online softmax in registers (workspace 0 B), tile " ++ tile.toText)

/-- `DecodeBackend::Supports`. -/
def decodeSupports : CapabilityReport :=
  let splits := decodeSplits dev cfg shape
  let reason :=
    if dev.cudaAvailable = false then some "no CUDA device available"
    else if shape.seqQ ≠ nativeSeqQ then
      some ("decode kernel handles seq_q=" ++ toString nativeSeqQ ++ "; seq_q=" ++
        toString shape.seqQ ++
        " is routed to the flash backend (grouped decode is a Roadmap item)")
    else if supportedHeadDimIndex shape.headDim < 0 then
      some ("head_dim=" ++ toString shape.headDim ++ " is unsupported")
    else if shape.headDim % 32 ≠ 0 then
      some ("decode requires head_dim % 32 == 0; head_dim=" ++ toString shape.headDim)
    else if cfg.slidingWindow > 0 then
      some "sliding_window is not implemented by the decode backend"
    else none
  makeReport .decode {} (partialBytes shape splits) reason
    ("split-K decode with " ++ toString splits ++ " splits, workspace " ++
      toString (partialBytes shape splits) ++ " B (FP32 partials)")

/-- `PagedBackend::Supports`. -/
def pagedSupports : CapabilityReport :=
  let reason :=
    if dev.cudaAvailable = false then some "no CUDA device available"
    else if shape.seqQ ≠ nativeSeqQ then
      some "paged attention implements the decode form only (seq_q=1)"
    else if shape.headDim % 32 ≠ 0 then some "paged attention requires head_dim % 32 == 0"
    else none
  makeReport .decode {} 0 reason
    "paged decode over non-contiguous pages (page-table addressing)"

/-- `GetBackend(kind)->Supports`; `kAuto` resolves to the naive backend. -/
def supports : BackendKind → CapabilityReport
  | .auto => naiveSupports dev cfg shape
  | .naive => naiveSupports dev cfg shape
  | .tiled => tiledSupports dev cfg shape
  | .flash => flashSupports dev cfg shape
  | .decode => decodeSupports dev cfg shape
  | .paged => pagedSupports dev shape

end Reports

end SciAttention

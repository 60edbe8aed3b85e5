import SciAttention.Common.Softmax
import SciAttention.Core.ScratchPool
import SciAttention.KvCache.Storage

/-!
# Requests: validation, strides, scratch memory and launches

Model of `src/api/api_validate.cpp`, `InferShape` in `src/runtime/dispatcher.cpp`,
`detail/layout_traits.hpp`, `src/runtime/scratch_pool.cpp` and `runtime::LaunchRaw`. Kernels compute
in `Flt 𝕜`, exact numbers with infinities and `nan`; the value of a stored element and the elementary
functions are a `Numerics`.
-/

namespace SciAttention

/-- The numbers the kernels compute with: the exponential, the logarithm, `1 / sqrt(n)`, the value
of a stored element (`ToFloat`) and `std::to_string`. -/
structure Numerics (𝕜 : Type*) [Field 𝕜] [LinearOrder 𝕜] where
  E : ExactExp 𝕜
  log : 𝕜 → 𝕜
  invSqrt : ℕ → 𝕜
  toFloat : DType → List UInt8 → 𝕜
  showFloat : 𝕜 → String

/-- The element at `index` of memory read as an array of `dtype`. -/
def Numerics.load {𝕜 : Type*} [Field 𝕜] [LinearOrder 𝕜] (num : Numerics 𝕜) (dtype : DType)
    (mem : Bytes) (index : ℕ) : 𝕜 :=
  num.toFloat dtype ((List.range (dtypeSize dtype)).map fun b => mem (index * dtypeSize dtype + b))

/-! ## Strides -/

/-- `detail::Strides`. -/
structure Strides where
  sB : ℕ
  sH : ℕ
  sS : ℕ
  sD : ℕ := 1
deriving DecidableEq, Repr

/-- `StridesFor`. -/
def stridesFor (layout : AttnLayout) (seq heads headDim : ℕ) : Strides :=
  match layout with
  | .bhsd => { sB := heads * (seq * headDim), sH := seq * headDim, sS := headDim }
  | .bshd => { sB := seq * (heads * headDim), sH := headDim, sS := heads * headDim }

/-- `Offset`. -/
def offset (s : Strides) (b h t d : ℕ) : ℕ := b * s.sB + h * s.sH + t * s.sS + d * s.sD

/-! ## Shapes and validation -/

/-- `SummarizeShape`. -/
def summarizeShape (shape : AttentionShape) : String :=
  "B=" ++ toString shape.batch ++ ",Hq=" ++ toString shape.numHeads ++
    ",Hkv=" ++ toString shape.numKvHeads ++ ",Sq=" ++ toString shape.seqQ ++
    ",Skv=" ++ toString shape.seqKv ++ ",D=" ++ toString shape.headDim

/-- The checks that `InferShape` makes on each tensor alone. -/
def checkTensor (t : Tensor) : Status :=
  if t.ndims ≠ 4 then
    makeStatus .shapeMismatch ("tensor ndims=" ++ toString t.ndims ++ " (expected 4)")
  else if ¬ t.isContiguous then
    makeStatus .layoutMismatch
      "non-contiguous input rejected; call .clone() or pass a contiguous tensor"
  else if ¬ isSupportedComputeDtype t.dtype then
    makeStatus .unsupportedDtype
      ("dtype=" ++ dtypeName t.dtype ++ " (supported: float32, float16, bfloat16)")
  else if t.deviceType ≠ .cuda then
    makeStatus .unsupportedFeature
      ("device=" ++ deviceTypeName t.deviceType ++
        " (v1 executes attention kernels on CUDA devices only)")
  else .ok

/-- `[d0,d1,d2,d3]` as the messages print it. -/
def showDims (t : Tensor) : String :=
  toString (t.dim 0) ++ "," ++ toString (t.dim 1) ++ "," ++ toString (t.dim 2) ++ "," ++
    toString (t.dim 3)

/-- `InferShape`. The layout test is left out: the enumeration has no other value. -/
def inferShape (q k v : Tensor) (layout : AttnLayout) : Except Status AttentionShape :=
  if ¬ (checkTensor q).isOk then .error (checkTensor q)
  else if ¬ (checkTensor k).isOk then .error (checkTensor k)
  else if ¬ (checkTensor v).isOk then .error (checkTensor v)
  else if q.dtype ≠ k.dtype ∨ q.dtype ≠ v.dtype then
    .error (makeStatus .unsupportedDtype
      ("dtype mismatch: q=" ++ dtypeName q.dtype ++ ", k=" ++ dtypeName k.dtype ++ ", v=" ++
        dtypeName v.dtype))
  else
    let shape : AttentionShape :=
      match layout with
      | .bhsd =>
        { batch := q.dim 0, numHeads := q.dim 1, seqQ := q.dim 2, headDim := q.dim 3
          seqKv := k.dim 2, numKvHeads := k.dim 1 }
      | .bshd =>
        { batch := q.dim 0, seqQ := q.dim 1, numHeads := q.dim 2, headDim := q.dim 3
          seqKv := k.dim 1, numKvHeads := k.dim 2 }
    -- the last dimension of `k` is not looked at
    let mismatch : Option String :=
      match layout with
      | .bhsd =>
        if v.dim 1 ≠ shape.numKvHeads ∨ v.dim 2 ≠ shape.seqKv ∨ v.dim 3 ≠ shape.headDim then
          some ("k/v shape mismatch: k=[B,Hkv,Skv,D]=" ++ summarizeShape shape ++ ", v=[" ++
            showDims v ++ "]")
        else none
      | .bshd =>
        if v.dim 1 ≠ shape.seqKv ∨ v.dim 2 ≠ shape.numKvHeads ∨ v.dim 3 ≠ shape.headDim then
          some ("k/v shape mismatch for bshd: v=[" ++ showDims v ++ "]")
        else none
    match mismatch with
    | some message => .error (makeStatus .shapeMismatch message)
    | none =>
      if k.dim 0 ≠ shape.batch ∨ v.dim 0 ≠ shape.batch then
        .error (makeStatus .shapeMismatch
          ("batch mismatch: q=" ++ toString shape.batch ++ ", k=" ++ toString (k.dim 0) ++
            ", v=" ++ toString (v.dim 0)))
      else .ok shape

/-- `IsReferenceOnlyBackend`. -/
def isReferenceOnlyBackend (kind : BackendKind) : Bool :=
  kind == .naive || kind == .tiled || kind == .decode || kind == .paged

section Config

variable {𝕜 : Type*} [Field 𝕜] [LinearOrder 𝕜]

/-- `EffectiveScale`. -/
def effectiveScale (num : Numerics 𝕜) (cfg : AttentionConfig 𝕜) (shape : AttentionShape) : 𝕜 :=
  if cfg.scale > 0 then cfg.scale
  else if shape.headDim ≤ 0 then 0
  else num.invSqrt shape.headDim

/-- `Validate`. The layout test is left out: the enumeration has no other value. -/
def validate (num : Numerics 𝕜) (cfg : AttentionConfig 𝕜) (shape : AttentionShape) : Status :=
  if shape.batch < 1 then
    makeStatus .shapeMismatch
      ("AttentionShape invalid: batch=" ++ toString shape.batch ++ " (must be >= 1)")
  else if shape.seqQ < 1 then
    makeStatus .shapeMismatch
      ("AttentionShape invalid: seq_q=" ++ toString shape.seqQ ++ " (must be >= 1)")
  else if shape.seqKv < 1 then
    makeStatus .shapeMismatch
      ("AttentionShape invalid: seq_kv=" ++ toString shape.seqKv ++ " (must be >= 1)")
  else if shape.numHeads < 1 then
    makeStatus .shapeMismatch
      ("AttentionShape invalid: num_heads=" ++ toString shape.numHeads ++ " (must be >= 1)")
  else if shape.numKvHeads < 1 then
    makeStatus .shapeMismatch
      ("AttentionShape invalid: num_kv_heads=" ++ toString shape.numKvHeads ++ " (must be >= 1)")
  else if supportedHeadDimIndex shape.headDim < 0 then
    makeStatus .unsupportedHeadDim
      ("AttentionConfig invalid: head_dim=" ++ toString shape.headDim ++ " (supported: " ++
        ",".intercalate (supportedHeadDims.map toString) ++ ")")
  else if shape.numHeads % shape.numKvHeads ≠ 0 then
    makeStatus .shapeMismatch
      ("AttentionShape invalid: num_heads=" ++ toString shape.numHeads ++ " % num_kv_heads=" ++
        toString shape.numKvHeads ++ " != 0 (GQA requires an integer group size)")
  else if cfg.causal ∧ shape.seqKv < shape.seqQ then
    makeStatus .shapeMismatch
      ("AttentionConfig invalid: causal=true but seq_kv(" ++ toString shape.seqKv ++ ") < seq_q(" ++
        toString shape.seqQ ++ ")")
  else if shape.numKvHeads > shape.numHeads then
    makeStatus .shapeMismatch
      ("AttentionShape invalid: num_kv_heads=" ++ toString shape.numKvHeads ++ " > num_heads=" ++
        toString shape.numHeads ++ " (MQA/GQA require H_kv <= H_q)")
  else if cfg.slidingWindow > 0 then
    makeStatus .unsupportedFeature
      ("AttentionConfig invalid: sliding_window=" ++ toString cfg.slidingWindow ++
        " is not implemented in v1 (see README Roadmap)")
  else if cfg.softcap < 0 then
    makeStatus .shapeMismatch
      ("AttentionConfig invalid: softcap=" ++ num.showFloat cfg.softcap ++ " (must be 0 or > 0)")
  else if cfg.softcap > 0 ∧ isReferenceOnlyBackend cfg.backend then
    makeStatus .unsupportedFeature
      ("AttentionConfig invalid: softcap=" ++ num.showFloat cfg.softcap ++
        " is implemented in the flash backend only, backend=" ++ backendName cfg.backend)
  else if cfg.scale < 0 then
    makeStatus .shapeMismatch
      ("AttentionConfig invalid: scale=" ++ num.showFloat cfg.scale ++
        " (must be 0 for the 1/sqrt(head_dim) default or > 0)")
  else if cfg.numSplits < 0 then
    makeStatus .shapeMismatch
      ("AttentionConfig invalid: num_splits=" ++ toString cfg.numSplits ++ " (must be >= 0)")
  else if cfg.hasCuSeqlensQ ∧ ¬ cfg.hasCuSeqlensKv then
    makeStatus .shapeMismatch
      "AttentionConfig invalid: cu_seqlens_q is set but cu_seqlens_kv is null"
  else .ok

/-- What every kernel may assume of a shape that `Validate` accepted. -/
structure ValidShape (shape : AttentionShape) : Prop where
  batch_pos : 0 < shape.batch
  seqQ_pos : 0 < shape.seqQ
  seqKv_pos : 0 < shape.seqKv
  numHeads_pos : 0 < shape.numHeads
  numKvHeads_pos : 0 < shape.numKvHeads
  headDim_supported : (shape.headDim : ℤ) ∈ supportedHeadDims
  group_dvd : shape.numKvHeads ∣ shape.numHeads

theorem validate_isOk {num : Numerics 𝕜} {cfg : AttentionConfig 𝕜} {shape : AttentionShape}
    (h : (validate num cfg shape).isOk) :
    ValidShape shape ∧ (cfg.causal = true → shape.seqQ ≤ shape.seqKv) := by
  simp only [validate, isOk_check] at h
  obtain ⟨h1, h2, h3, h4, h5, h6, h7, h8, -⟩ := h
  refine ⟨⟨by omega, by omega, by omega, by omega, by omega,
    (supportedHeadDimIndex_nonneg_iff _).mp h6, Nat.dvd_of_mod_eq_zero (by omega)⟩, fun hc => ?_⟩
  by_contra hlt
  exact h8 ⟨hc, by omega⟩

end Config

/-! ## Device resources -/

/-- The FP32 scratch pool at one call: the floats its buffer holds (0 without one), the counts for which
an allocation succeeds, and what the buffer reads as. A device holds less than `2 ^ 40` bytes; a count
whose bytes wrap is one that it refuses here. -/
structure ScratchEnv (𝕜 : Type*) where
  pooled : ℕ
  alloc : ℕ → Bool
  contents : ℕ → Flt 𝕜
  pooled_lt : pooled < 2 ^ 38
  alloc_lt : ∀ n, alloc n = true → n < 2 ^ 38

/-- `AcquireScratchFp32`. -/
def acquireScratchFp32 {𝕜 : Type*} (env : ScratchEnv 𝕜) (elements : ℕ) :
    Except Status (ℕ → Flt 𝕜) :=
  if elements = 0 then
    .error (makeStatus .workspaceExceeded "scratch request with 0 elements")
  else if env.pooled < elements then
    let grown := ScratchPool.grownElements elements
    if env.alloc grown then .ok env.contents
    else
      .error (makeStatus .workspaceExceeded
        ("scratch allocation of " ++ toString (ScratchPool.tensorBytes grown) ++ " B failed"))
  else .ok env.contents

/-- A request that was served is not empty and fits the device. -/
theorem acquireScratchFp32_eq_ok {𝕜 : Type*} {env : ScratchEnv 𝕜} {elements : ℕ}
    {mem : ℕ → Flt 𝕜} (h : acquireScratchFp32 env elements = .ok mem) :
    0 < elements ∧ elements < 2 ^ 38 ∧ mem = env.contents := by
  simp only [acquireScratchFp32] at h
  split_ifs at h with hzero hpool halloc
  · have hlt := (ScratchPool.le_grownElements elements).trans_lt (env.alloc_lt _ halloc)
    cases h
    exact ⟨by omega, hlt, rfl⟩
  · have hlt := env.pooled_lt
    cases h
    exact ⟨by omega, by omega, rfl⟩

/-- `runtime::LaunchRaw`: a grid of positive dimensions is handed to the device. -/
def launchRaw (gridX gridY gridZ : ℤ) (outcome : LaunchOutcome) : Status :=
  if gridX ≤ 0 ∨ gridY ≤ 0 ∨ gridZ ≤ 0 then
    Status.invalidArgument "LaunchRaw: non-positive grid dimension"
  else outcome.status

theorem launchRaw_isOk {gridX gridY gridZ : ℤ} {outcome : LaunchOutcome} :
    (launchRaw gridX gridY gridZ outcome).isOk ↔
      (0 < gridX ∧ 0 < gridY ∧ 0 < gridZ) ∧ outcome = .ok := by
  unfold launchRaw
  split_ifs with h
  · simp only [Status.not_isOk_invalidArgument, false_iff]
    rintro ⟨hpos, -⟩
    omega
  · rw [LaunchOutcome.isOk_status_iff]
    exact ⟨fun ho => ⟨by omega, ho⟩, fun ho => ho.2⟩

/-- What the device answers during one attention call: the scratch pool, the output's memory
(`none` for a failed allocation), the outcome of every launch, and the number of multiprocessors. -/
structure AttentionEnv (𝕜 : Type*) where
  scratch : ScratchEnv 𝕜
  outAlloc : Option (ℕ → Flt 𝕜)
  launch : ℕ → LaunchOutcome
  smCount : ℕ

/-! ## Results -/

/-- `sca::TileConfig`. -/
structure TileConfig where
  blockM : ℕ := 0
  blockN : ℕ := 0
  warps : ℕ := 0
  stages : ℕ := 0
  useTma : Bool := false
deriving DecidableEq, Repr

/-- `sca::AttentionRuntimeStats`. -/
structure AttentionRuntimeStats where
  usedBackend : BackendKind := .auto
  tile : TileConfig := {}
  workspaceBytes : ℕ := 0
  kvBytes : ℕ := 0
  note : String := ""
  numSplits : ℕ := 0
  materializedScoreBytes : ℕ := 0
deriving DecidableEq, Repr

/-- A tensor of exact FP32 values. -/
structure FloatTensor (𝕜 : Type*) where
  dims : List ℕ
  data : ℕ → Flt 𝕜

/-- `sca::AttentionResult`: the output tensor, the LSE tensor (`none` for an empty one) and the
statistics. The output's elements are exact, narrowing casts being the identity. -/
structure AttentionResult (𝕜 : Type*) where
  outDims : List ℕ
  outDtype : DType
  out : ℕ → Flt 𝕜
  lse : Option (FloatTensor 𝕜) := none
  stats : AttentionRuntimeStats

end SciAttention

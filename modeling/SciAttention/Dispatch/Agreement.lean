import SciAttention.Dispatch.Refusal

/-!
# Support, execution, explanation

Three comparisons of one rule set with another. `Supports` against `Forward`: support is decided before
the dtype is known, so FP32 requests are sent to backends that refuse them, and the paged backend supports
what it never executes. The dispatcher against the direct entry points: it reports an unsupported request
under its own code. `Select` against the statistics of a run: the tile it names is a flash tile wherever
the backend has none.
-/

namespace SciAttention

open Results

section Dispatch

variable {𝕜 : Type} [Field 𝕜] [LinearOrder 𝕜] {dev : Device} {num : Numerics 𝕜}
  {env : ForwardEnv 𝕜 dev} {q k v : Tensor} {cfg : AttentionConfig 𝕜} {shape : AttentionShape}

/-! ## The dispatcher on an inferred shape -/

omit [Field 𝕜] [LinearOrder 𝕜] in
/-- Requests are never routed to `kAuto`. -/
theorem route_ne_auto : route dev cfg shape ≠ .auto := by
  have hmem : route dev cfg shape ∈ routeCandidates cfg shape := route_mem_candidates
  have hchain : ∀ b, BackendKind.auto ∉ fallbackChain b := by
    intro b
    cases b <;> decide
  intro hauto
  rw [hauto, routeCandidates, List.mem_cons] at hmem
  rcases hmem with hpref | hfall
  · exact preference_backend_ne_auto cfg shape hpref.symm
  · split_ifs at hfall
    · exact hchain _ hfall
    · exact absurd hfall List.not_mem_nil

/-- An invalid request is reported as a shape mismatch, whatever `Validate` found. -/
theorem dispatcherForward_invalid (hshape : inferShape q k v cfg.layout = .ok shape)
    (hinvalid : ¬ (validate num cfg shape).isOk) :
    dispatcherForward num env q k v cfg =
      .error (makeStatus .shapeMismatch ("invalid: " ++ statusDetail (validate num cfg shape))) := by
  have hselect : select num dev cfg shape =
      { reason := "invalid: " ++ statusDetail (validate num cfg shape) } := by
    simp only [select, hinvalid, not_false_eq_true, if_true]
  simp [dispatcherForward, hshape, hselect, failIf]

/-- A valid request runs on its route, or is turned down with the reason of its report. -/
theorem dispatcherForward_valid (hshape : inferShape q k v cfg.layout = .ok shape)
    (hvalid : (validate num cfg shape).isOk) :
    dispatcherForward num env q k v cfg =
      if (supports dev cfg shape (route dev cfg shape)).supported = true then
        forward num env q k v cfg (route dev cfg shape)
      else
        .error (makeStatus .deviceCapability
          (supports dev cfg shape (route dev cfg shape)).reason) := by
  have hbackend : (select num dev cfg shape).backend = route dev cfg shape :=
    (select_of_valid dev hvalid).1
  simp only [dispatcherForward, hshape, ok_bind, hbackend, failIf, route_ne_auto, if_false]
  by_cases hsup : (supports dev cfg shape (route dev cfg shape)).supported = true <;> simp [hsup]

omit [Field 𝕜] [LinearOrder 𝕜] in
/-- Without fallback a request with an explicit backend is routed to it. -/
theorem route_explicit {b : BackendKind} (hb : cfg.backend = b) (hne : b ≠ .auto)
    (hfb : cfg.allowFallback = false) : route dev cfg shape = b := by
  have hpref : (preference cfg shape).backend = b := by
    rw [preference, if_pos (hb ▸ hne), hb]
  simp only [route, routeCandidates, hpref, hfb, Bool.false_eq_true, if_false, List.find?_cons,
    List.find?_nil]
  split <;> rfl

/-! ## Sample requests -/

/-- The sample device with all of its resources free. -/
noncomputable def sampleEnv : ForwardEnv ℝ sampleDevice where
  scratch := readyEnv.scratch
  outAlloc n := if n < 2 ^ 36 then some fun _ => 0 else none
  lseAlloc _ := some fun _ => 0
  launch _ := .ok
  smem _ _ _ _ := 0
  outAlloc_lt n h := by
    by_contra hge
    rw [if_neg hge] at h
    cases h
  launch_unavailable h := by cases h

/-- A zeroed tensor of 64 tokens and one head of dimension 64. -/
def sampleTensor (dtype : DType) : Tensor :=
  { dims := [1, 1, 64, 64], dtype, data := some fun _ => 0 }

theorem inferShape_sample (dtype : DType) (h : isSupportedComputeDtype dtype = true) :
    inferShape (sampleTensor dtype) (sampleTensor dtype) (sampleTensor dtype) .bhsd =
      .ok (sampleShape 64 64 64) := by
  cases dtype <;> first | rfl | exact absurd h (by decide)

theorem validate_sampleShape (backend : BackendKind) :
    (validate realNumerics (sampleConfig backend false) (sampleShape 64 64 64)).isOk :=
  validate_sample (by decide) (by decide) (by decide)

/-- A supported sample request runs on the backend it names. -/
theorem dispatcherForward_sample (dtype : DType) (backend : BackendKind)
    (h : isSupportedComputeDtype dtype = true) (hne : backend ≠ .auto)
    (hsup : (supports sampleDevice (sampleConfig backend false) (sampleShape 64 64 64)
      backend).supported = true) :
    dispatcherForward realNumerics sampleEnv (sampleTensor dtype) (sampleTensor dtype)
        (sampleTensor dtype) (sampleConfig backend false) =
      forward realNumerics sampleEnv (sampleTensor dtype) (sampleTensor dtype) (sampleTensor dtype)
        (sampleConfig backend false) backend := by
  have hback : (sampleConfig backend false).backend = backend := rfl
  rw [dispatcherForward_valid (inferShape_sample _ h) (validate_sampleShape backend),
    route_explicit hback hne rfl, if_pos hsup]

/-! ## Supports and Forward -/

/-- The backends behind `GetBackend`. -/
def executingBackends : List BackendKind := [.naive, .tiled, .flash, .decode, .paged]

/-- A backend that supports the shape does not refuse the request. -/
def SupportsSound (num : Numerics 𝕜) (env : ForwardEnv 𝕜 dev) (q k v : Tensor)
    (cfg : AttentionConfig 𝕜) (shape : AttentionShape) (b : BackendKind) : Prop :=
  (supports dev cfg shape b).supported = true → ¬ Refused (forward num env q k v cfg b)

/-- With fallback the dispatcher refuses only what no backend of the preferred one's chain executes. -/
def FallbackSound (num : Numerics 𝕜) (env : ForwardEnv 𝕜 dev) (q k v : Tensor)
    (cfg : AttentionConfig 𝕜) (shape : AttentionShape) : Prop :=
  cfg.allowFallback = true → Refused (dispatcherForward num env q k v cfg) →
    ∀ b ∈ (preference cfg shape).backend :: fallbackChain (preference cfg shape).backend,
      ∀ r, forward num env q k v cfg b ≠ .ok r

/-- The requests that a backend supports and then refuses: FP32 on the flash backend and, where only the
half-precision tile fits, on the tiled one; every single-token query on the paged one. -/
def SupportedThenRefused (dev : Device) (dtype : DType) (shape : AttentionShape) : BackendKind → Prop
  | .tiled => dtype = .float32 ∧ dev.cudaAvailable = true ∧ shape.headDim ≤ 128 ∧
      narrowTileBytes .float16 shape.headDim ≤ dev.smemLimitPerBlock ∧
      dev.smemLimitPerBlock < narrowTileBytes .float32 shape.headDim
  | .flash => dtype = .float32 ∧ dev.cudaAvailable = true ∧
      ∀ tile ∈ findFlashTile shape.headDim,
        flashTileSmemBytes tile shape.headDim 2 ≤ dev.smemLimitPerBlock
  | .paged => dev.cudaAvailable = true ∧ shape.seqQ = 1
  | _ => False

/-- `Supports` of one backend is sound exactly on the other requests. -/
theorem supportsSound_backend_iff (hshape : inferShape q k v cfg.layout = .ok shape)
    (hvalid : (validate num cfg shape).isOk) {b : BackendKind} (hb : b ∈ executingBackends) :
    SupportsSound num env q k v cfg shape b ↔ ¬ SupportedThenRefused dev q.dtype shape b := by
  have hreq := validate_isOk_iff.mp hvalid
  have hcompute := computeDtype_of_inferShape hshape
  cases b with
  | auto => exact absurd hb (by decide)
  | naive =>
    exact ⟨fun _ h => h, fun _ _ => naiveForward_not_refused hshape hvalid⟩
  | tiled =>
    -- `Supports` probes the tile for half precision, `Forward` takes that of the dtype
    have hhalf : q.dtype ≠ .float32 →
        narrowTileBytes q.dtype shape.headDim = narrowTileBytes .float16 shape.headDim := by
      revert hcompute
      cases q.dtype <;> simp [isSupportedComputeDtype, narrowTileBytes, dtypeSize]
    rw [SupportsSound]
    change ((tiledSupports dev cfg shape).supported = true →
      ¬ Refused (tiledForward num env q k v cfg)) ↔ _
    rw [tiledSupports_iff hreq, tiledForward_refused_iff hshape hvalid, SupportedThenRefused]
    by_cases hdt : q.dtype = .float32
    · rw [hdt]
      constructor
      · rintro h ⟨-, hcuda, hdim, hfits, hlt⟩
        exact h ⟨hcuda, hdim, hfits⟩ (.inr hlt)
      · rintro h ⟨hcuda, hdim, hfits⟩ (hbig | hlt)
        · exact not_lt.mpr hdim hbig
        · exact h ⟨rfl, hcuda, hdim, hfits, hlt⟩
    · rw [hhalf hdt]
      simp only [hdt, false_and, not_false_eq_true, iff_true]
      omega
  | flash =>
    obtain ⟨tile, htile, -⟩ := exists_flashTile hreq.validShape
    change ((flashSupports dev cfg shape).supported = true →
      ¬ Refused (flashForward num env q k v cfg)) ↔ _
    rw [flashSupports_iff hreq htile, flashForward_refused_iff hshape hvalid htile,
      SupportedThenRefused]
    simp only [htile, Option.mem_def, Option.some.injEq, forall_eq']
    by_cases hcuda : dev.cudaAvailable = true
    · simp only [hcuda, true_and, Bool.true_eq_false, false_or]
      by_cases hdt : q.dtype = .float32
      · simp [hdt]
      · simp [hdt]
    · simp [hcuda]
  | decode =>
    refine ⟨fun _ h => h, fun _ hsup href => ?_⟩
    exact (decodeForward_refused_iff hshape hvalid).mp href ((decodeSupports_iff hreq).mp hsup).2
  | paged =>
    change ((pagedSupports dev shape).supported = true → ¬ Refused pagedForward) ↔ _
    rw [pagedSupports_iff hreq, SupportedThenRefused]
    simp only [pagedForward_refused, not_true_eq_false, imp_false]

/-- Support is sound backend by backend on the requests that are not supported and then refused; where
it is sound for the whole chain, so is the fallback. -/
theorem supportsSound_iff (hshape : inferShape q k v cfg.layout = .ok shape)
    (hvalid : (validate num cfg shape).isOk) :
    (∀ b ∈ executingBackends,
        (SupportsSound num env q k v cfg shape b ↔ ¬ SupportedThenRefused dev q.dtype shape b)) ∧
      ((∀ b ∈ (preference cfg shape).backend :: fallbackChain (preference cfg shape).backend,
          ¬ SupportedThenRefused dev q.dtype shape b) →
        FallbackSound num env q k v cfg shape) ∧
      ((∀ b ∈ executingBackends, SupportsSound num env q k v cfg shape b) ∧
          FallbackSound num env q k v cfg shape ↔
        ∀ b ∈ executingBackends, ¬ SupportedThenRefused dev q.dtype shape b) := by
  have hsound : ∀ b ∈ executingBackends,
      (SupportsSound num env q k v cfg shape b ↔ ¬ SupportedThenRefused dev q.dtype shape b) :=
    fun b hb => supportsSound_backend_iff hshape hvalid hb
  have hmem : ∀ b ∈ (preference cfg shape).backend :: fallbackChain (preference cfg shape).backend,
      b ∈ executingBackends := by
    have hne := preference_backend_ne_auto cfg shape
    intro b hb
    revert hb hne
    cases (preference cfg shape).backend <;> cases b <;> decide
  have hfallback : (∀ b ∈ (preference cfg shape).backend ::
        fallbackChain (preference cfg shape).backend, ¬ SupportedThenRefused dev q.dtype shape b) →
      FallbackSound num env q k v cfg shape := by
    intro hchain hfb href b hb r hr
    have hcandidates : routeCandidates cfg shape =
        (preference cfg shape).backend :: fallbackChain (preference cfg shape).backend := by
      rw [routeCandidates, if_pos hfb]
    -- what executes is supported, so the route is, and then its own `Forward` refused
    have hroute : (supports dev cfg shape (route dev cfg shape)).supported = true :=
      route_supported_iff.mpr ⟨b, hcandidates ▸ hb, supported_of_forward_eq_ok hshape hvalid hr⟩
    rw [dispatcherForward_valid hshape hvalid, if_pos hroute] at href
    have hin : route dev cfg shape ∈ (preference cfg shape).backend ::
        fallbackChain (preference cfg shape).backend := hcandidates ▸ route_mem_candidates
    exact (hsound _ (hmem _ hin)).mpr (hchain _ hin) hroute href
  refine ⟨hsound, hfallback, fun h b hb => (hsound b hb).mp (h.1 b hb), fun h => ⟨?_, ?_⟩⟩
  · exact fun b hb => (hsound b hb).mpr (h b hb)
  · exact hfallback fun b hb => h b (hmem b hb)

/-- Half precision on the flash backend. -/
theorem supportsSound_half :
    SupportsSound realNumerics sampleEnv (sampleTensor .float16) (sampleTensor .float16)
      (sampleTensor .float16) (sampleConfig .flash false) (sampleShape 64 64 64) .flash := by
  refine ((supportsSound_iff (inferShape_sample _ rfl) (validate_sampleShape .flash)).1 .flash
    (by decide)).mpr ?_
  rintro ⟨hdt, -⟩
  cases hdt

/-- FP32 on the flash backend: supported, then refused for its dtype. -/
theorem not_supportsSound_float32 :
    ¬ SupportsSound realNumerics sampleEnv (sampleTensor .float32) (sampleTensor .float32)
      (sampleTensor .float32) (sampleConfig .flash false) (sampleShape 64 64 64) .flash := by
  rw [supportsSound_backend_iff (inferShape_sample _ rfl) (validate_sampleShape .flash) (by decide),
    not_not]
  refine ⟨rfl, rfl, fun tile htile => ?_⟩
  cases htile
  decide

/-! ## The dispatcher and the direct entry points -/

/-- Both calls succeed with the same result, or both fail with the same code. -/
def SameOutcome : Except Status (AttentionResult 𝕜) → Except Status (AttentionResult 𝕜) → Prop
  | .ok r, .ok r' => r = r'
  | .error s, .error s' => extractCode s = extractCode s'
  | _, _ => False

/-- `Validate` turns the request down, and the first check that fails is not the one of the head
dimension, of the sliding window or of the soft cap's backend. -/
def RejectedAsShape (cfg : AttentionConfig 𝕜) (shape : AttentionShape) : Prop :=
  (shape.batch < 1 ∨ shape.seqQ < 1 ∨ shape.seqKv < 1 ∨ shape.numHeads < 1 ∨ shape.numKvHeads < 1) ∨
    (shape.headDim : ℤ) ∈ supportedHeadDims ∧
      ((shape.numHeads % shape.numKvHeads ≠ 0 ∨ (cfg.causal = true ∧ shape.seqKv < shape.seqQ) ∨
          shape.numHeads < shape.numKvHeads) ∨
        cfg.slidingWindow ≤ 0 ∧
          (cfg.softcap < 0 ∨
            ¬ (0 < cfg.softcap ∧ isReferenceOnlyBackend cfg.backend = true) ∧
              (cfg.scale < 0 ∨ cfg.numSplits < 0 ∨
                (cfg.hasCuSeqlensQ = true ∧ cfg.hasCuSeqlensKv = false))))

theorem not_rejectedAsShape (h : ValidRequest cfg shape) : ¬ RejectedAsShape cfg shape := by
  obtain ⟨hshape, hcausal, -, hcap, -, hscale, hsplits, hcu⟩ := h
  have hmod := Nat.mod_eq_zero_of_dvd hshape.group_dvd
  have hle := Nat.le_of_dvd hshape.numHeads_pos hshape.group_dvd
  rintro (hdims | ⟨-, (hmod' | hcausal' | hheads) | ⟨-, hcap' | ⟨-, hscale' | hsplits' | hcu'⟩⟩⟩)
  · have := hshape.batch_pos
    have := hshape.seqQ_pos
    have := hshape.seqKv_pos
    have := hshape.numHeads_pos
    have := hshape.numKvHeads_pos
    omega
  · exact hmod' hmod
  · exact not_lt.mpr (hcausal hcausal'.1) hcausal'.2
  · exact not_lt.mpr hle hheads
  · exact not_lt.mpr hcap hcap'
  · exact not_lt.mpr hscale hscale'
  · exact not_lt.mpr hsplits hsplits'
  · exact absurd (hcu hcu'.1) (by simp [hcu'.2])

/-- The code of a chain of checks is that of the first check that fails. -/
theorem extractCode_check {c : Prop} [Decidable c] {code : AttnStatusCode} {detail : String}
    {s : Status} {n : ℕ} :
    extractCode (if c then makeStatus code detail else s) = n ↔
      c ∧ code.toInt32 = n ∨ ¬ c ∧ extractCode s = n := by
  by_cases hc : c <;> simp [hc, extractCode_makeStatus]

/-- `Validate` answers a shape mismatch exactly on these requests. -/
theorem extractCode_validate_iff :
    extractCode (validate num cfg shape) = AttnStatusCode.shapeMismatch.toInt32 ↔
      RejectedAsShape cfg shape := by
  have hok : extractCode Status.ok = 0 := rfl
  have hdim : supportedHeadDimIndex (shape.headDim : ℤ) < 0 ↔
      (shape.headDim : ℤ) ∉ supportedHeadDims := by
    rw [← supportedHeadDimIndex_nonneg_iff, not_not]
  have hwindow : ¬ cfg.slidingWindow > 0 ↔ cfg.slidingWindow ≤ 0 := by omega
  simp only [validate, extractCode_check, hok, AttnStatusCode.toInt32, hdim]
  unfold RejectedAsShape
  rw [← hwindow]
  norm_num only
  grind

/-- The valid requests on which the dispatcher and the direct call of a backend agree: those it
supports, and those it turns down with the dispatcher's code. -/
def AgreesWhenValid (dev : Device) (cfg : AttentionConfig 𝕜) (dtype : DType) (shape : AttentionShape) :
    BackendKind → Prop
  | .naive => ScoresFit dev cfg shape
  | .flash => dtype = .float32 → ∀ tile ∈ findFlashTile shape.headDim,
      flashTileSmemBytes tile shape.headDim 2 ≤ dev.smemLimitPerBlock
  | .decode => shape.seqQ = 1
  | _ => True

omit [Field 𝕜] [LinearOrder 𝕜] in
theorem SameOutcome.refl (r : Except Status (AttentionResult 𝕜)) : SameOutcome r r := by
  cases r <;> rfl

omit [Field 𝕜] [LinearOrder 𝕜] in
/-- Two errors are the same outcome when their codes are. -/
theorem sameOutcome_makeStatus {code code' : AttnStatusCode} {detail detail' : String} :
    SameOutcome (.error (makeStatus code detail) : Except Status (AttentionResult 𝕜))
      (.error (makeStatus code' detail')) ↔ code = code' := by
  simp only [SameOutcome, extractCode_makeStatus]
  exact toInt32_injective.eq_iff

section Unsupported

variable (hshape : inferShape q k v cfg.layout = .ok shape) (hvalid : (validate num cfg shape).isOk)

include hshape hvalid

/-- A score matrix that does not fit is another error for the naive backend than for the dispatcher. -/
theorem naiveForward_unsupported (hfit : ¬ ScoresFit dev cfg shape) :
    ∃ detail, naiveForward num env q k v cfg = .error (makeStatus .workspaceExceeded detail) := by
  have hlimit : effectiveWorkspaceLimit dev cfg ≠ 0 ∧
      scoreBytes shape > effectiveWorkspaceLimit dev cfg := by
    unfold ScoresFit at hfit
    omega
  simp [naiveForward, inferValid_of_valid hshape hvalid, naiveChecks, failIf, hlimit]

/-- The tiled backend refuses what it does not support as the dispatcher does. -/
theorem tiledForward_unsupported (hcuda : dev.cudaAvailable = true)
    (hsup : (supports dev cfg shape .tiled).supported ≠ true) :
    ∃ detail, tiledForward num env q k v cfg = .error (makeStatus .deviceCapability detail) := by
  have hreq := validate_isOk_iff.mp hvalid
  have hinfer := inferValid_of_valid hshape hvalid
  have hpos : 0 < shape.headDim := hreq.validShape.headDim_pos
  by_cases hbig : 128 < shape.headDim
  · simp [tiledForward, hinfer, tiledChecks, failIf, maxTiledHeadDim, hbig]
  · have hlt : dev.smemLimitPerBlock < narrowTileBytes .float16 shape.headDim := by
      by_contra hge
      exact hsup ((tiledSupports_iff hreq).mpr ⟨hcuda, not_lt.mp hbig, not_lt.mp hge⟩)
    obtain ⟨reason, hreason⟩ :=
      selectTile_of_lt hpos (hlt.trans_le (narrowTileBytes_half_le (computeDtype_of_inferShape hshape) _))
    simp [tiledForward, hinfer, tiledChecks, failIf, maxTiledHeadDim, hbig, hreason]

/-- The flash backend looks at the dtype before it looks at the tile. -/
theorem flashForward_unsupported (hcuda : dev.cudaAvailable = true) {tile : FlashTile}
    (htile : findFlashTile shape.headDim = some tile)
    (hlt : dev.smemLimitPerBlock < flashTileSmemBytes tile shape.headDim 2) :
    ∃ detail, flashForward num env q k v cfg =
      .error (makeStatus (if q.dtype = .float32 then .unsupportedDtype else .deviceCapability) detail) := by
  have hinfer := inferValid_of_valid hshape hvalid
  by_cases hdt : q.dtype = .float32
  · simp [flashForward, hinfer, validateFlashRequest, failIf, hcuda, hdt, flashDtypeIdFor]
  · have hhalf := flashDtypeIdFor_ne_zero (computeDtype_of_inferShape hshape) hdt
    have hsize := (flashDtype_cases hhalf).2
    simp [flashForward, hinfer, validateFlashRequest, failIf, hcuda, hdt, hhalf, hsize, htile, hlt]

/-- Several queries are another error for the decode backend than for the dispatcher. -/
theorem decodeForward_unsupported (hseq : shape.seqQ ≠ 1) :
    ∃ detail, decodeForward num env q k v cfg = .error (makeStatus .unsupportedFeature detail) := by
  simp [decodeForward, inferValid_of_valid hshape hvalid, decodeChecks, failIf, nativeSeqQ, hseq]

/-- How a backend that does not support a valid request answers a direct call. -/
theorem forward_unsupported (hcuda : dev.cudaAvailable = true) {b : BackendKind} (hb : b ∈ denseBackends)
    (hsup : (supports dev cfg shape b).supported ≠ true) (detail : String) :
    SameOutcome (.error (makeStatus .deviceCapability detail)) (forward num env q k v cfg b) ↔
      AgreesWhenValid dev cfg q.dtype shape b := by
  have hreq := validate_isOk_iff.mp hvalid
  cases b with
  | auto => exact absurd hb (by decide)
  | naive =>
    have hfit : ¬ ScoresFit dev cfg shape := fun hfit =>
      hsup ((naiveSupports_iff hreq).mpr ⟨hcuda, hfit⟩)
    obtain ⟨detail', herr⟩ := naiveForward_unsupported hshape hvalid hfit
    change SameOutcome _ (naiveForward num env q k v cfg) ↔ ScoresFit dev cfg shape
    rw [herr, sameOutcome_makeStatus]
    simp [hfit]
  | tiled =>
    obtain ⟨detail', herr⟩ := tiledForward_unsupported hshape hvalid hcuda hsup
    change SameOutcome _ (tiledForward num env q k v cfg) ↔ True
    rw [herr, sameOutcome_makeStatus]
    simp
  | flash =>
    obtain ⟨tile, htile, -⟩ := exists_flashTile hreq.validShape
    have hlt : dev.smemLimitPerBlock < flashTileSmemBytes tile shape.headDim 2 := by
      by_contra hge
      exact hsup ((flashSupports_iff hreq htile).mpr ⟨hcuda, not_lt.mp hge⟩)
    have hagree : AgreesWhenValid dev cfg q.dtype shape .flash ↔ q.dtype ≠ .float32 := by
      simp [AgreesWhenValid, htile, not_le.mpr hlt]
    obtain ⟨detail', herr⟩ := flashForward_unsupported hshape hvalid hcuda htile hlt
    change SameOutcome _ (flashForward num env q k v cfg) ↔ _
    rw [hagree, herr, sameOutcome_makeStatus]
    by_cases hdt : q.dtype = .float32 <;> simp [hdt]
  | decode =>
    have hseq : shape.seqQ ≠ 1 := fun h => hsup ((decodeSupports_iff hreq).mpr ⟨hcuda, h⟩)
    obtain ⟨detail', herr⟩ := decodeForward_unsupported hshape hvalid hseq
    change SameOutcome _ (decodeForward num env q k v cfg) ↔ shape.seqQ = 1
    rw [herr, sameOutcome_makeStatus]
    simp [hseq]
  | paged => exact absurd hb (by decide)

end Unsupported

/-- Where the backend supports the request, dispatcher and direct call are one and the same. -/
theorem agreesWhenValid_of_supported (hreq : ValidRequest cfg shape) {b : BackendKind}
    (hsup : (supports dev cfg shape b).supported = true) :
    AgreesWhenValid dev cfg q.dtype shape b := by
  cases b with
  | auto => trivial
  | naive => exact ((naiveSupports_iff hreq).mp hsup).2
  | tiled => trivial
  | flash =>
    rintro - tile htile
    exact ((flashSupports_iff hreq htile).mp hsup).2
  | decode => exact ((decodeSupports_iff hreq).mp hsup).2
  | paged => trivial

/-- A request that fails `InferShape` or `Validate` fails the direct call in the same way. -/
theorem forward_of_inferValid_error {e : Status} (h : inferValid num q k v cfg = .error e)
    {b : BackendKind} (hb : b ∈ denseBackends) : forward num env q k v cfg b = .error e := by
  cases b with
  | auto => exact absurd hb (by decide)
  | naive => simp [forward, naiveForward, h]
  | tiled => simp [forward, tiledForward, h]
  | flash => simp [forward, flashForward, h]
  | decode => simp [forward, decodeForward, h]
  | paged => exact absurd hb (by decide)

/-- The dispatcher and the direct entry point agree exactly on the requests that are turned down by
`InferShape`, or by `Validate` for their shape, or that are valid and not turned down under another
code. -/
theorem sameOutcome_iff {b : BackendKind} (hb : b ∈ denseBackends) (hback : cfg.backend = b)
    (hfb : cfg.allowFallback = false) (hcuda : dev.cudaAvailable = true) :
    SameOutcome (attention num env q k v cfg) (forward num env q k v cfg b) ↔
      ∀ shape, inferShape q k v cfg.layout = .ok shape →
        RejectedAsShape cfg shape ∨
          ValidRequest cfg shape ∧ AgreesWhenValid dev cfg q.dtype shape b := by
  have hne : b ≠ .auto := by
    rintro rfl
    exact absurd hb (by decide)
  rw [attention]
  cases hshape : inferShape q k v cfg.layout with
  | error e =>
    have hdirect : forward num env q k v cfg b = .error e :=
      forward_of_inferValid_error (by simp [inferValid, hshape]) hb
    have hdispatch : dispatcherForward num env q k v cfg = .error e := by
      simp [dispatcherForward, hshape]
    rw [hdirect, hdispatch]
    exact ⟨fun _ _ h => (by cases h), fun _ => SameOutcome.refl _⟩
  | ok shape =>
    simp only [Except.ok.injEq, forall_eq']
    -- the dispatcher reports an invalid request as a shape, the backend with the code of `Validate`
    by_cases hvalid : (validate num cfg shape).isOk
    · have hreq := validate_isOk_iff.mp hvalid
      simp only [not_rejectedAsShape hreq, hreq, true_and, false_or]
      rw [dispatcherForward_valid hshape hvalid, route_explicit hback hne hfb]
      by_cases hsup : (supports dev cfg shape b).supported = true
      · rw [if_pos hsup]
        exact ⟨fun _ => agreesWhenValid_of_supported hreq hsup, fun _ => SameOutcome.refl _⟩
      · rw [if_neg hsup]
        exact forward_unsupported hshape hvalid hcuda hb hsup _
    · have hnot : ¬ ValidRequest cfg shape := fun h => hvalid (validate_isOk_iff.mpr h)
      have hdirect : forward num env q k v cfg b = .error (validate num cfg shape) :=
        forward_of_inferValid_error (by simp [inferValid, hshape, Status.require, hvalid]) hb
      rw [dispatcherForward_invalid hshape hvalid, hdirect]
      simp only [SameOutcome, extractCode_makeStatus, hnot, false_and, or_false]
      exact eq_comm.trans extractCode_validate_iff

/-- A tiled request through both entry points. -/
theorem sameOutcome_tiled :
    SameOutcome
      (attention realNumerics sampleEnv (sampleTensor .float32) (sampleTensor .float32)
        (sampleTensor .float32) (sampleConfig .tiled false))
      (forward realNumerics sampleEnv (sampleTensor .float32) (sampleTensor .float32)
        (sampleTensor .float32) (sampleConfig .tiled false) .tiled) := by
  refine (sameOutcome_iff (by decide) rfl rfl rfl).mpr fun shape hshape => .inr ⟨?_, trivial⟩
  cases (inferShape_sample _ rfl).symm.trans hshape
  exact validate_isOk_iff.mp (validate_sampleShape .tiled)

/-- 64 queries on the decode backend: the dispatcher reports the device, the direct call the feature. -/
theorem not_sameOutcome_decode :
    ¬ SameOutcome
      (attention realNumerics sampleEnv (sampleTensor .float16) (sampleTensor .float16)
        (sampleTensor .float16) (sampleConfig .decode false))
      (forward realNumerics sampleEnv (sampleTensor .float16) (sampleTensor .float16)
        (sampleTensor .float16) (sampleConfig .decode false) .decode) := by
  have hvalid := validate_sampleShape .decode
  have hback : (sampleConfig .decode false).backend = .decode := rfl
  have hsup : (supports sampleDevice (sampleConfig .decode false) (sampleShape 64 64 64)
      .decode).supported ≠ true := by
    intro h
    have hseq := ((decodeSupports_iff (validate_isOk_iff.mp hvalid)).mp h).2
    exact absurd hseq (by decide)
  rw [attention, dispatcherForward_valid (inferShape_sample _ rfl) hvalid,
    route_explicit hback (by decide) rfl, if_neg hsup,
    forward_unsupported (inferShape_sample _ rfl) hvalid rfl (by decide) hsup]
  exact fun (h : 64 = 1) => absurd h (by decide)

/-! ## Explanation and execution -/

/-- What `Explain` prints is what was executed. -/
structure Explains (d : DispatchDecision) (cfg : AttentionConfig 𝕜) (stats : AttentionRuntimeStats) :
    Prop where
  backend : d.backend = stats.usedBackend
  workspaceBytes : d.workspaceBytes = stats.workspaceBytes
  blockM : d.tile.blockM = stats.tile.blockM
  blockN : d.tile.blockN = stats.tile.blockN
  warps : d.tile.warps = stats.tile.warps
  stages : d.tile.stages = stats.tile.stages
  explicit : cfg.allowFallback = false → cfg.backend ≠ .auto → d.backend = cfg.backend

/-- Where a report has no tile, the decision takes the flash tile of the head dimension. -/
theorem recommendTile_blockM_pos (h : ValidShape shape) : 0 < (recommendTile shape).blockM := by
  unfold recommendTile
  rcases h.headDim_cases with h | h | h | h | h | h | h <;> rw [h] <;> decide

/-- The tile that a supported request gets from the tiled backend's report. -/
theorem tiledSupports_tile (hreq : ValidRequest cfg shape)
    (hsup : (tiledSupports dev cfg shape).supported = true) {t : TileCandidate}
    (ht : selectTile .float16 shape.headDim dev.smemLimitPerBlock = .ok t) :
    (tiledSupports dev cfg shape).tile = t.toConfig := by
  have hdim := (supportedHeadDimIndex_nonneg_iff _).mpr hreq.validShape.headDim_supported
  have hwindow := hreq.slidingWindow_le
  obtain ⟨hcuda, hle, -⟩ := (tiledSupports_iff hreq).mp hsup
  simp [tiledSupports, makeReport, hcuda, hdim, not_lt.mpr hwindow, maxTiledHeadDim, not_lt.mpr hle, ht]

/-- The tile and workspace of the flash backend's report on a supported request. -/
theorem flashSupports_tile (hreq : ValidRequest cfg shape)
    (hsup : (flashSupports dev cfg shape).supported = true) {tile : FlashTile}
    (htile : findFlashTile shape.headDim = some tile) :
    (flashSupports dev cfg shape).tile = tile.toConfig ∧
      (flashSupports dev cfg shape).workspaceBytes = 0 := by
  have hwindow := hreq.slidingWindow_le
  obtain ⟨hcuda, hle⟩ := (flashSupports_iff hreq htile).mp hsup
  simp [flashSupports, makeReport, hcuda, htile, not_lt.mpr hwindow, not_lt.mpr hle]

/-- A call that the dispatcher answered ran on its route. -/
theorem dispatcherForward_eq_ok (hshape : inferShape q k v cfg.layout = .ok shape)
    {r : AttentionResult 𝕜} (h : dispatcherForward num env q k v cfg = .ok r) :
    (validate num cfg shape).isOk ∧
      (supports dev cfg shape (route dev cfg shape)).supported = true ∧
      forward num env q k v cfg (route dev cfg shape) = .ok r := by
  have hvalid : (validate num cfg shape).isOk := by
    by_contra hinvalid
    rw [dispatcherForward_invalid hshape hinvalid] at h
    cases h
  rw [dispatcherForward_valid hshape hvalid] at h
  split_ifs at h with hsup
  exact ⟨hvalid, hsup, h⟩

/-- The tile that is used is the tile that was probed, except for FP32 where the square one fits. -/
theorem probed_blockN_eq_iff {dtype : DType} {headDim limit : ℕ} {probed used : TileCandidate}
    (hdim : 0 < headDim) (hcompute : isSupportedComputeDtype dtype = true)
    (hprobed : selectTile .float16 headDim limit = .ok probed)
    (hused : selectTile dtype headDim limit = .ok used) :
    probed.blockM = used.blockM ∧ probed.warps = used.warps ∧
      (probed.blockN = used.blockN ↔
        dtype ≠ .float32 ∨ limit < squareTileBytes .float16 headDim) := by
  have hfits : ∀ {d t}, selectTile d headDim limit = .ok t → narrowTileBytes d headDim ≤ limit := by
    intro d t ht
    by_contra hlt
    obtain ⟨reason, hreason⟩ := selectTile_of_lt hdim (not_le.mp hlt)
    rw [hreason] at ht
    cases ht
  have hsquare : dtype ≠ .float32 →
      squareTileBytes dtype headDim = squareTileBytes .float16 headDim := by
    revert hcompute
    cases dtype <;> simp [isSupportedComputeDtype, squareTileBytes, dtypeSize]
  rw [selectTile_of_le hdim (hfits hprobed), Except.ok.injEq] at hprobed
  rw [selectTile_of_le hdim (hfits hused), Except.ok.injEq] at hused
  subst hprobed hused
  by_cases hdt : dtype = .float32
  · by_cases hle : squareTileBytes .float16 headDim ≤ limit
    · simp [hdt, hle]
    · simp [hdt, hle, not_le.mp hle]
  · rw [hsquare hdt]
    simp [hdt]

/-- Explanation and execution agree on the backend, the workspace and an explicit choice; on the tile
they agree exactly when the flash backend ran, or the tiled one with the tile it was probed for. -/
theorem explains_iff (hshape : inferShape q k v cfg.layout = .ok shape) {r : AttentionResult 𝕜}
    (h : dispatcherForward num env q k v cfg = .ok r) :
    Explains (select num dev cfg shape) cfg r.stats ↔
      route dev cfg shape = .flash ∨
        route dev cfg shape = .tiled ∧
          (q.dtype ≠ .float32 ∨ dev.smemLimitPerBlock < squareTileBytes .float16 shape.headDim) := by
  obtain ⟨hvalid, hsup, hforward⟩ := dispatcherForward_eq_ok hshape h
  have hreq := validate_isOk_iff.mp hvalid
  obtain ⟨hbackend, hrest⟩ := select_of_valid dev hvalid
  obtain ⟨htile, hbytes⟩ := hrest hsup
  have hexplicit : cfg.allowFallback = false → cfg.backend ≠ .auto →
      (select num dev cfg shape).backend = cfg.backend := by
    intro hfb hne
    rw [hbackend, route_explicit rfl hne hfb]
  -- backends without a tile of their own are explained with a flash tile
  have hempty : (supports dev cfg shape (route dev cfg shape)).tile = {} → r.stats.tile = {} →
      ¬ Explains (select num dev cfg shape) cfg r.stats := by
    intro hreport hstats hex
    have hpos := recommendTile_blockM_pos hreq.validShape
    have hm := hex.blockM
    rw [htile, decisionTile, hreport, hstats] at hm
    exact hpos.ne' hm
  have hpos : 0 < shape.headDim := hreq.validShape.headDim_pos
  cases hroute : route dev cfg shape with
  | auto => exact absurd hroute route_ne_auto
  | naive =>
    rw [hroute] at hforward hempty
    obtain ⟨_, _, _, _, _, -, -, -, -, -, -, -, -, -, hstats, -⟩ :=
      naiveForward_eq_ok hshape hvalid hforward
    simp [hempty rfl hstats]
  | tiled =>
    rw [hroute] at hforward hsup htile hbytes hbackend
    obtain ⟨used, _, _, _, _, -, -, hused, -, -, -, -, -, hkind, hstats, hwork⟩ :=
      tiledForward_eq_ok hshape hvalid hforward
    have hnarrow := ((tiledSupports_iff hreq).mp hsup).2.2
    have hprobed := selectTile_of_le hpos hnarrow
    have hreport := tiledSupports_tile hreq hsup hprobed
    obtain ⟨hm, hw, hn⟩ :=
      probed_blockN_eq_iff hpos (computeDtype_of_inferShape hshape) hprobed hused
    rw [decisionTile, supports, hreport, if_neg (by split_ifs <;> decide)] at htile
    constructor
    · intro hex
      have hblockN := hex.blockN
      rw [htile, hstats] at hblockN
      exact .inr ⟨rfl, hn.mp hblockN⟩
    · rintro (hflash | ⟨-, hcond⟩)
      · cases hflash
      · refine ⟨by rw [hbackend, hkind], by rw [hbytes, hwork]; rfl, ?_, ?_, ?_, ?_, hexplicit⟩
        all_goals rw [htile, hstats]
        · exact hm
        · exact hn.mpr hcond
        · exact hw
        · rfl
  | flash =>
    rw [hroute] at hforward hsup htile hbytes hbackend
    obtain ⟨tile, _, _, _, -, -, hfind, -, -, -, -, -, -, hkind, hstats, hwork⟩ :=
      flashForward_eq_ok hshape hvalid hforward
    obtain ⟨tile', hfind', hne, -⟩ := exists_flashTile hreq.validShape
    obtain rfl : tile' = tile := Option.some.inj (hfind'.symm.trans hfind)
    obtain ⟨hreport, hzero⟩ := flashSupports_tile hreq hsup hfind
    rw [decisionTile, supports, hreport, if_neg (by simp [hne]), ← hstats] at htile
    rw [supports, hzero, ← hwork] at hbytes
    simp only [true_or, iff_true]
    exact ⟨by rw [hbackend, hkind], hbytes, by rw [htile], by rw [htile], by rw [htile], by rw [htile],
      hexplicit⟩
  | decode =>
    rw [hroute] at hforward hempty
    obtain ⟨_, _, _, _, -, -, -, -, -, -, -, -, hstats, -⟩ := decodeForward_eq_ok hshape hvalid hforward
    simp [hempty rfl hstats]
  | paged =>
    rw [hroute] at hforward
    cases hforward

/-- A half-precision request on the flash backend. -/
theorem explains_flash :
    ∃ r, dispatcherForward realNumerics sampleEnv (sampleTensor .float16) (sampleTensor .float16)
        (sampleTensor .float16) (sampleConfig .flash false) = .ok r ∧
      Explains (select realNumerics sampleDevice (sampleConfig .flash false) (sampleShape 64 64 64))
        (sampleConfig .flash false) r.stats := by
  have hvalid := validate_sampleShape .flash
  have hinfer := inferValid_of_valid (inferShape_sample .float16 rfl) hvalid
  have hrun : ∃ r, flashForward realNumerics sampleEnv (sampleTensor .float16) (sampleTensor .float16)
      (sampleTensor .float16) (sampleConfig .flash false) = .ok r := by
    simp only [flashForward, hinfer, ok_bind]
    exact ⟨_, rfl⟩
  obtain ⟨r, hr⟩ := hrun
  have hdispatch := (dispatcherForward_sample .float16 .flash rfl (by decide)
    (flash_supported (validate_isOk_iff.mp hvalid) rfl (by decide))).trans hr
  exact ⟨r, hdispatch, (explains_iff (inferShape_sample _ rfl) hdispatch).mpr
    (.inl (route_explicit rfl (by decide) rfl))⟩

/-- FP32 on the tiled backend: `Explain` names the 64 by 64 tile, the 64 by 32 one runs. -/
theorem not_explains_float32 :
    ∃ r, dispatcherForward realNumerics sampleEnv (sampleTensor .float32) (sampleTensor .float32)
        (sampleTensor .float32) (sampleConfig .tiled false) = .ok r ∧
      inferShape (sampleTensor .float32) (sampleTensor .float32) (sampleTensor .float32) .bhsd =
        .ok (sampleShape 64 64 64) ∧
      ¬ Explains (select realNumerics sampleDevice (sampleConfig .tiled false) (sampleShape 64 64 64))
        (sampleConfig .tiled false) r.stats := by
  have hvalid := validate_sampleShape .tiled
  have hreq := validate_isOk_iff.mp hvalid
  have hinfer := inferValid_of_valid (inferShape_sample .float32 rfl) hvalid
  have hsup : (supports sampleDevice (sampleConfig .tiled false) (sampleShape 64 64 64)
      .tiled).supported = true := (tiled_supported_iff hreq rfl (by decide)).mpr (by decide)
  have hrun : ∃ r, tiledForward realNumerics sampleEnv (sampleTensor .float32) (sampleTensor .float32)
      (sampleTensor .float32) (sampleConfig .tiled false) = .ok r ∧ r.stats.tile.blockN = 32 := by
    simp only [tiledForward, hinfer, ok_bind]
    exact ⟨_, rfl, rfl⟩
  obtain ⟨r, hr, hblockN⟩ := hrun
  have hdispatch := (dispatcherForward_sample .float32 .tiled rfl (by decide) hsup).trans hr
  refine ⟨r, hdispatch, inferShape_sample _ rfl, fun hex => ?_⟩
  have hroute : route sampleDevice (sampleConfig .tiled false) (sampleShape 64 64 64) = .tiled :=
    route_explicit rfl (by decide) rfl
  have hselect := ((select_of_valid sampleDevice hvalid).2 (hroute.symm ▸ hsup)).1
  have hprobed : selectTile .float16 64 sampleDevice.smemLimitPerBlock = .ok ⟨64, 64, 4⟩ :=
    selectTile_of_le (by decide) (by decide)
  have hblock := hex.blockN
  rw [hselect, hroute, hblockN, decisionTile, supports, tiledSupports_tile hreq hsup hprobed] at hblock
  exact absurd hblock (by decide)

end Dispatch

end SciAttention

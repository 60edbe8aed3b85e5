import SciAttention.Attention.RealNumerics
import SciAttention.Common.Results
import SciAttention.Dispatch.Dispatcher

/-!
# Which backend a request is routed to

On valid requests every `Supports` method reduces to a few facts about the device, the workspace limit and
the shape, and the selection is the first backend of the preference list that supports the request. The
threshold cascade looks at sequence lengths only, so it prefers the tiled backend for short sequences of
any head dimension, and the tiled backend's fallback chain has no flash backend in it.
-/

namespace SciAttention

open Results

/-! ## Valid requests -/

section Valid

variable {𝕜 : Type} [Field 𝕜] [LinearOrder 𝕜] {num : Numerics 𝕜} {cfg : AttentionConfig 𝕜}
  {shape : AttentionShape}

/-- What `Validate` checks. -/
structure ValidRequest (cfg : AttentionConfig 𝕜) (shape : AttentionShape) : Prop where
  validShape : ValidShape shape
  causal_le : cfg.causal = true → shape.seqQ ≤ shape.seqKv
  slidingWindow_le : cfg.slidingWindow ≤ 0
  softcap_nonneg : 0 ≤ cfg.softcap
  softcap_backend : 0 < cfg.softcap → isReferenceOnlyBackend cfg.backend = false
  scale_nonneg : 0 ≤ cfg.scale
  numSplits_nonneg : 0 ≤ cfg.numSplits
  cuSeqlens : cfg.hasCuSeqlensQ = true → cfg.hasCuSeqlensKv = true

/-- `Validate` accepts exactly the valid requests. -/
theorem validate_isOk_iff : (validate num cfg shape).isOk ↔ ValidRequest cfg shape := by
  constructor
  · intro h
    obtain ⟨hshape, hcausal⟩ := validate_isOk h
    simp only [validate, isOk_check] at h
    obtain ⟨-, -, -, -, -, -, -, -, -, hwindow, hcap, hback, hscale, hsplits, hcu, -⟩ := h
    refine ⟨hshape, hcausal, by omega, not_lt.mp hcap, fun hpos => ?_, not_lt.mp hscale,
      by omega, fun hq => ?_⟩
    · simpa [hpos] using hback
    · simpa [hq] using hcu
  · rintro ⟨hshape, hcausal, hwindow, hcap, hback, hscale, hsplits, hcu⟩
    have hdim := (supportedHeadDimIndex_nonneg_iff _).mpr hshape.headDim_supported
    have hle := Nat.le_of_dvd hshape.numHeads_pos hshape.group_dvd
    have hmod := Nat.mod_eq_zero_of_dvd hshape.group_dvd
    simp only [validate, isOk_check]
    refine ⟨?_, ?_, ?_, ?_, ?_, hdim, by omega, ?_, by omega, by omega, not_lt.mpr hcap, ?_,
      not_lt.mpr hscale, by omega, ?_, rfl⟩
    · exact not_lt.mpr hshape.batch_pos
    · exact not_lt.mpr hshape.seqQ_pos
    · exact not_lt.mpr hshape.seqKv_pos
    · exact not_lt.mpr hshape.numHeads_pos
    · exact not_lt.mpr hshape.numKvHeads_pos
    · exact fun h => not_lt.mpr (hcausal h.1) h.2
    · rintro ⟨hpos, href⟩
      simp [hback hpos] at href
    · exact fun h => h.2 (hcu h.1)

/-- The head dimensions of valid requests. -/
theorem ValidShape.headDim_cases (h : ValidShape shape) :
    shape.headDim = 32 ∨ shape.headDim = 64 ∨ shape.headDim = 96 ∨ shape.headDim = 128 ∨
      shape.headDim = 160 ∨ shape.headDim = 192 ∨ shape.headDim = 256 := by
  have hmem := h.headDim_supported
  simp only [supportedHeadDims, List.mem_cons, List.not_mem_nil, or_false] at hmem
  omega

theorem ValidShape.le_headDim (h : ValidShape shape) : 32 ≤ shape.headDim := by
  rcases h.headDim_cases with h | h | h | h | h | h | h <;> omega

theorem ValidShape.headDim_le (h : ValidShape shape) : shape.headDim ≤ 256 := by
  rcases h.headDim_cases with h | h | h | h | h | h | h <;> omega

theorem ValidShape.headDim_pos (h : ValidShape shape) : 0 < shape.headDim :=
  Nat.lt_of_lt_of_le (by decide) h.le_headDim

theorem ValidShape.dvd_headDim (h : ValidShape shape) : 32 ∣ shape.headDim := by
  rcases h.headDim_cases with h | h | h | h | h | h | h <;> rw [h] <;> decide

end Valid

/-! ## Tiles -/

/-- The bytes of the smaller geometry, 64 by 32. -/
def narrowTileBytes (dtype : DType) (headDim : ℕ) : ℕ := 128 * (headDim + 8) * dtypeSize dtype + 9984

/-- The bytes of the square geometry, 64 by 64. -/
def squareTileBytes (dtype : DType) (headDim : ℕ) : ℕ := 192 * (headDim + 8) * dtypeSize dtype + 18176

/-- The narrow geometry's budget test. -/
theorem candidateFits_narrow {dtype : DType} {headDim limit : ℕ} (hdim : 0 < headDim) :
    candidateFits dtype headDim limit ⟨64, 32, 4⟩ = true ↔ narrowTileBytes dtype headDim ≤ limit := by
  have hbytes : candidateBytes dtype headDim ⟨64, 32, 4⟩ = (narrowTileBytes dtype headDim : ℕ) := by
    have hne : ¬ (headDim ≤ 0 ∨ 64 ≤ 0 ∨ 32 ≤ 0) := by omega
    simp only [candidateBytes, tiledSmemBytes, if_neg hne, narrowTileBytes, tiledRowPad, scorePad,
      numRowVectors]
    congr 1
    ring
  have hpos : 0 < narrowTileBytes dtype headDim := by unfold narrowTileBytes; omega
  simp [candidateFits, hbytes, hpos]

/-- The square geometry's budget test. -/
theorem candidateFits_square {dtype : DType} {headDim limit : ℕ} (hdim : 0 < headDim) :
    candidateFits dtype headDim limit ⟨64, 64, 4⟩ = true ↔ squareTileBytes dtype headDim ≤ limit := by
  have hbytes : candidateBytes dtype headDim ⟨64, 64, 4⟩ = (squareTileBytes dtype headDim : ℕ) := by
    have hne : ¬ (headDim ≤ 0 ∨ 64 ≤ 0 ∨ 64 ≤ 0) := by omega
    simp only [candidateBytes, tiledSmemBytes, if_neg hne, squareTileBytes, tiledRowPad, scorePad,
      numRowVectors]
    congr 1
    ring
  have hpos : 0 < squareTileBytes dtype headDim := by unfold squareTileBytes; omega
  simp [candidateFits, hbytes, hpos]

/-- The third geometry never fits where the narrow one does not. -/
theorem not_candidateFits_wide {dtype : DType} {headDim limit : ℕ} (hdim : 0 < headDim)
    (h : limit < narrowTileBytes dtype headDim) :
    candidateFits dtype headDim limit ⟨128, 32, 8⟩ = false := by
  have hbytes : candidateBytes dtype headDim ⟨128, 32, 8⟩ =
      (192 * (headDim + 8) * dtypeSize dtype + 19968 : ℕ) := by
    have hne : ¬ (headDim ≤ 0 ∨ 128 ≤ 0 ∨ 32 ≤ 0) := by omega
    simp only [candidateBytes, tiledSmemBytes, if_neg hne, tiledRowPad, scorePad, numRowVectors]
    congr 1
    ring
  have hmono : 128 * (headDim + 8) * dtypeSize dtype ≤ 192 * (headDim + 8) * dtypeSize dtype :=
    Nat.mul_le_mul_right _ (Nat.mul_le_mul_right _ (by decide))
  unfold narrowTileBytes at h
  simp only [candidateFits, hbytes, Int.toNat_natCast, Bool.and_eq_false_iff, decide_eq_false_iff_not]
  right
  omega

theorem narrowTileBytes_le_square (dtype : DType) (headDim : ℕ) :
    narrowTileBytes dtype headDim ≤ squareTileBytes dtype headDim := by
  have hmono : 128 * (headDim + 8) * dtypeSize dtype ≤ 192 * (headDim + 8) * dtypeSize dtype :=
    Nat.mul_le_mul_right _ (Nat.mul_le_mul_right _ (by decide))
  unfold narrowTileBytes squareTileBytes
  omega

/-- `SelectTile` finds a geometry when the narrow one fits: the square one, where that fits too and the
elements are half precision. -/
theorem selectTile_of_le {dtype : DType} {headDim limit : ℕ} (hdim : 0 < headDim)
    (h : narrowTileBytes dtype headDim ≤ limit) :
    selectTile dtype headDim limit =
      .ok (if dtype ≠ .float32 ∧ squareTileBytes dtype headDim ≤ limit then ⟨64, 64, 4⟩
        else ⟨64, 32, 4⟩) := by
  have hnarrow := (candidateFits_narrow hdim).mpr h
  by_cases hdt : dtype = .float32
  · subst hdt
    simp [selectTile, tileCandidates, fp32Candidates, hnarrow]
  · by_cases hsq : squareTileBytes dtype headDim ≤ limit
    · have hsquare := (candidateFits_square hdim).mpr hsq
      simp [selectTile, tileCandidates, hdt, fp16Candidates, hsquare, hsq]
    · have hsquare := mt (candidateFits_square hdim).mp hsq
      simp [selectTile, tileCandidates, hdt, fp16Candidates, hsquare, hsq, hnarrow]

/-- `SelectTile` gives up when the narrow geometry does not fit. -/
theorem selectTile_of_lt {dtype : DType} {headDim limit : ℕ} (hdim : 0 < headDim)
    (h : limit < narrowTileBytes dtype headDim) :
    ∃ reason, selectTile dtype headDim limit = .error reason := by
  have hnarrow := mt (candidateFits_narrow hdim).mp (not_le.mpr h)
  have hsquare := mt (candidateFits_square hdim).mp
    (not_le.mpr (h.trans_le (narrowTileBytes_le_square dtype headDim)))
  have hwide := not_candidateFits_wide hdim h
  have hnone : (tileCandidates dtype).find? (candidateFits dtype headDim limit) = none := by
    unfold tileCandidates
    split_ifs <;> simp [fp32Candidates, fp16Candidates, hnarrow, hsquare, hwide]
  simp [selectTile, hnone]

/-- Every supported head dimension has a flash tile. -/
theorem exists_flashTile {shape : AttentionShape} (h : ValidShape shape) :
    ∃ tile, findFlashTile shape.headDim = some tile ∧ tile.toConfig.isEmpty = false ∧
      flashTileSmemBytes tile shape.headDim 2 ≤ 87040 := by
  rcases h.headDim_cases with h | h | h | h | h | h | h <;> rw [h]
  all_goals exact ⟨_, rfl, rfl, by decide⟩

/-! ## Support -/

section Support

variable {𝕜 : Type} [Field 𝕜] [LinearOrder 𝕜] {num : Numerics 𝕜} {dev : Device}
  {cfg : AttentionConfig 𝕜} {shape : AttentionShape}

/-- The score matrix is within the workspace limit, or there is no limit. -/
def ScoresFit (dev : Device) (cfg : AttentionConfig 𝕜) (shape : AttentionShape) : Prop :=
  effectiveWorkspaceLimit dev cfg = 0 ∨ scoreBytes shape ≤ effectiveWorkspaceLimit dev cfg

instance : Decidable (ScoresFit dev cfg shape) :=
  inferInstanceAs (Decidable (_ ∨ _))

/-- The naive backend supports what its score matrix fits. -/
theorem naiveSupports_iff (h : ValidRequest cfg shape) :
    (naiveSupports dev cfg shape).supported = true ↔
      dev.cudaAvailable = true ∧ ScoresFit dev cfg shape := by
  have hdim := (supportedHeadDimIndex_nonneg_iff _).mpr h.validShape.headDim_supported
  have hwindow := h.slidingWindow_le
  simp only [naiveSupports, makeReport, ScoresFit]
  by_cases hcuda : dev.cudaAvailable = true
  · simp only [hcuda, Bool.true_eq_false, if_false, if_neg hdim, if_neg (not_lt.mpr hwindow)]
    split_ifs with hlimit
    · simp only [Option.isNone_some, Bool.false_eq_true, true_and, false_iff]
      omega
    · simp only [Option.isNone_none, true_and, true_iff]
      omega
  · simp [hcuda]

/-- The tiled backend supports the head dimensions up to 128 for which a half-precision tile fits. -/
theorem tiledSupports_iff (h : ValidRequest cfg shape) :
    (tiledSupports dev cfg shape).supported = true ↔
      dev.cudaAvailable = true ∧ shape.headDim ≤ 128 ∧
        narrowTileBytes .float16 shape.headDim ≤ dev.smemLimitPerBlock := by
  have hdim := (supportedHeadDimIndex_nonneg_iff _).mpr h.validShape.headDim_supported
  have hpos : 0 < shape.headDim := h.validShape.headDim_pos
  have hwindow := h.slidingWindow_le
  simp only [tiledSupports, makeReport]
  by_cases hcuda : dev.cudaAvailable = true
  · simp only [hcuda, Bool.true_eq_false, if_false, if_neg hdim, if_neg (not_lt.mpr hwindow),
      maxTiledHeadDim, true_and]
    by_cases hbig : shape.headDim > 128
    · simp [hbig]
    · by_cases hfits : narrowTileBytes .float16 shape.headDim ≤ dev.smemLimitPerBlock
      · simp [hbig, selectTile_of_le hpos hfits, hfits, not_lt.mp hbig]
      · obtain ⟨reason, hreason⟩ := selectTile_of_lt hpos (not_le.mp hfits)
        simp [hbig, hreason, hfits]
  · simp [hcuda]

/-- The flash backend supports what its tile of two-byte elements fits. -/
theorem flashSupports_iff (h : ValidRequest cfg shape) {tile : FlashTile}
    (htile : findFlashTile shape.headDim = some tile) :
    (flashSupports dev cfg shape).supported = true ↔
      dev.cudaAvailable = true ∧
        flashTileSmemBytes tile shape.headDim 2 ≤ dev.smemLimitPerBlock := by
  have hwindow := h.slidingWindow_le
  simp only [flashSupports, htile]
  by_cases hcuda : dev.cudaAvailable = true
  · simp only [hcuda, Bool.true_eq_false, if_false, if_neg (not_lt.mpr hwindow), true_and]
    split_ifs with hlimit
    · simpa [makeReport] using hlimit
    · simpa [makeReport] using hlimit
  · simp [hcuda, makeReport]

/-- The decode backend supports single-token queries. -/
theorem decodeSupports_iff (h : ValidRequest cfg shape) :
    (decodeSupports dev cfg shape).supported = true ↔
      dev.cudaAvailable = true ∧ shape.seqQ = 1 := by
  have hdim := (supportedHeadDimIndex_nonneg_iff _).mpr h.validShape.headDim_supported
  have hmod : shape.headDim % 32 = 0 := Nat.mod_eq_zero_of_dvd h.validShape.dvd_headDim
  have hwindow := h.slidingWindow_le
  simp only [decodeSupports, makeReport, nativeSeqQ]
  by_cases hcuda : dev.cudaAvailable = true
  · by_cases hseq : shape.seqQ = 1
    · simp [hcuda, hseq, hdim, hmod, not_lt.mpr hwindow]
    · simp [hcuda, hseq]
  · simp [hcuda]

/-- The paged backend supports single-token queries. -/
theorem pagedSupports_iff (h : ValidRequest cfg shape) :
    (pagedSupports dev shape).supported = true ↔
      dev.cudaAvailable = true ∧ shape.seqQ = 1 := by
  have hmod : shape.headDim % 32 = 0 := Nat.mod_eq_zero_of_dvd h.validShape.dvd_headDim
  simp only [pagedSupports, makeReport, nativeSeqQ]
  by_cases hcuda : dev.cudaAvailable = true
  · by_cases hseq : shape.seqQ = 1
    · simp [hcuda, hseq, hmod]
    · simp [hcuda, hseq]
  · simp [hcuda]

/-! ## The route -/

/-- The backends a request may run on, in the order in which the dispatcher tries them. -/
def routeCandidates (cfg : AttentionConfig 𝕜) (shape : AttentionShape) : List BackendKind :=
  (preference cfg shape).backend ::
    if cfg.allowFallback then fallbackChain (preference cfg shape).backend else []

/-- What the selection is for: the first candidate that supports the request, else the preferred one. -/
def route (dev : Device) (cfg : AttentionConfig 𝕜) (shape : AttentionShape) : BackendKind :=
  ((routeCandidates cfg shape).find? fun b => (supports dev cfg shape b).supported).getD
    (preference cfg shape).backend

omit [Field 𝕜] [LinearOrder 𝕜] in
/-- The preferred backend is never `kAuto`. -/
theorem preference_backend_ne_auto (cfg : AttentionConfig 𝕜) (shape : AttentionShape) :
    (preference cfg shape).backend ≠ .auto := by
  unfold preference
  split_ifs with h <;> simp [h]

variable (dev) in
/-- The decision of a valid request: the route, its workspace, and the tile of its report, or the
recommended one where there is none. -/
theorem select_of_valid (h : (validate num cfg shape).isOk) :
    (select num dev cfg shape).backend = route dev cfg shape ∧
      ((supports dev cfg shape (route dev cfg shape)).supported = true →
        (select num dev cfg shape).tile =
            decisionTile shape (supports dev cfg shape (route dev cfg shape)) ∧
          (select num dev cfg shape).workspaceBytes =
            (supports dev cfg shape (route dev cfg shape)).workspaceBytes) := by
  simp only [select, route, routeCandidates, h, not_true_eq_false, if_false, List.find?_cons]
  by_cases hpref : (supports dev cfg shape (preference cfg shape).backend).supported = true
  · simp [hpref]
  · by_cases hfb : cfg.allowFallback = true
    · simp only [hpref, hfb, not_true_eq_false, if_false, if_true]
      cases hfind : (fallbackChain (preference cfg shape).backend).find? fun b =>
          (supports dev cfg shape b).supported with
      | some candidate => simp
      | none => simp [hpref]
    · simp [hpref, hfb]

omit [Field 𝕜] [LinearOrder 𝕜] in
/-- The route supports the request when one of its candidates does. -/
theorem route_supported_iff :
    (supports dev cfg shape (route dev cfg shape)).supported = true ↔
      ∃ b ∈ routeCandidates cfg shape, (supports dev cfg shape b).supported = true := by
  unfold route
  cases hfind : (routeCandidates cfg shape).find? fun b => (supports dev cfg shape b).supported with
  | some b =>
    refine ⟨fun h => ⟨b, List.mem_of_find?_eq_some hfind, h⟩, fun _ => ?_⟩
    exact List.find?_some (p := fun b => (supports dev cfg shape b).supported) hfind
  | none =>
    rw [List.find?_eq_none] at hfind
    constructor
    · intro h
      exact ⟨_, List.mem_cons_self, h⟩
    · rintro ⟨b, hb, h⟩
      exact absurd h (hfind b hb)

omit [Field 𝕜] [LinearOrder 𝕜] in
/-- The route is one of its candidates. -/
theorem route_mem_candidates : route dev cfg shape ∈ routeCandidates cfg shape := by
  unfold route
  cases hfind : (routeCandidates cfg shape).find? fun b => (supports dev cfg shape b).supported with
  | some b => exact List.mem_of_find?_eq_some hfind
  | none => exact List.mem_cons_self

/-! ## Completeness of automatic dispatch -/

/-- The dense backends. -/
def denseBackends : List BackendKind := [.naive, .tiled, .flash, .decode]

/-- The selected backend supports the request if some dense backend does. -/
def SelectionComplete (num : Numerics 𝕜) (dev : Device) (cfg : AttentionConfig 𝕜)
    (shape : AttentionShape) : Prop :=
  (∃ b ∈ denseBackends, (supports dev cfg shape b).supported = true) →
    (supports dev cfg shape (select num dev cfg shape).backend).supported = true

/-- With the shared memory of current devices the flash backend supports every valid request. -/
theorem flash_supported (h : ValidRequest cfg shape) (hcuda : dev.cudaAvailable = true)
    (hsmem : 101376 ≤ dev.smemLimitPerBlock) :
    (supports dev cfg shape .flash).supported = true := by
  obtain ⟨tile, htile, -, hbytes⟩ := exists_flashTile h.validShape
  exact (flashSupports_iff h htile).mpr ⟨hcuda, by omega⟩

/-- With the shared memory of current devices the tiled backend supports the head dimensions up to 128. -/
theorem tiled_supported_iff (h : ValidRequest cfg shape) (hcuda : dev.cudaAvailable = true)
    (hsmem : 101376 ≤ dev.smemLimitPerBlock) :
    (supports dev cfg shape .tiled).supported = true ↔ shape.headDim ≤ 128 := by
  refine (tiledSupports_iff h).trans ⟨fun hs => hs.2.1, fun hle => ⟨hcuda, hle, ?_⟩⟩
  have hbytes : narrowTileBytes .float16 shape.headDim = 256 * (shape.headDim + 8) + 9984 := by
    simp only [narrowTileBytes, dtypeSize]
    ring
  omega

omit [Field 𝕜] [LinearOrder 𝕜] in
/-- The cascade of `Select`: short sequences prefer the tiled backend, the others flash, or decode when
the query is a single token. -/
theorem preference_auto (hauto : cfg.backend = .auto) (h : ValidShape shape) :
    (shape.seqKv ≤ 128 → (preference cfg shape).backend = .tiled) ∧
      (128 < shape.seqKv → (preference cfg shape).backend = .flash ∨
        ((preference cfg shape).backend = .decode ∧ shape.seqQ = 1)) := by
  have hq := h.seqQ_pos
  have hmax : decodeMaxSeqQ = 1 := rfl
  have hmin : decodeMinSeqKv = 256 := rfl
  have htiled : tiledMaxSeqKv = 128 := rfl
  simp only [preference, hauto, ne_eq, not_true_eq_false, if_false, apply_ite Preference.backend]
  constructor
  · intro hkv
    rw [if_neg (by omega), if_neg (by omega), if_pos (by omega)]
  · intro hkv
    by_cases hone : shape.seqQ ≤ decodeMaxSeqQ ∧ shape.seqKv ≥ decodeMinSeqKv
    · exact .inr ⟨if_pos hone, by omega⟩
    · rw [if_neg hone, if_neg (by omega : ¬ shape.seqKv ≤ tiledMaxSeqKv), ite_self]
      exact .inl rfl

/-- Automatic dispatch is complete exactly where the tiled backend is not preferred beyond its head
dimensions, or the naive backend takes over. -/
theorem selectionComplete_iff (hauto : cfg.backend = .auto) (hvalid : (validate num cfg shape).isOk)
    (hcuda : dev.cudaAvailable = true) (hsmem : 101376 ≤ dev.smemLimitPerBlock) :
    SelectionComplete num dev cfg shape ↔
      shape.headDim ≤ 128 ∨ 128 < shape.seqKv ∨
        (cfg.allowFallback = true ∧ ScoresFit dev cfg shape) := by
  have hreq := validate_isOk_iff.mp hvalid
  have hflash := flash_supported hreq hcuda hsmem
  -- some dense backend always supports the request, so the route has to
  have hsome : ∃ b ∈ denseBackends, (supports dev cfg shape b).supported = true :=
    ⟨.flash, by decide, hflash⟩
  rw [SelectionComplete, (select_of_valid dev hvalid).1, route_supported_iff]
  simp only [hsome, forall_const]
  obtain ⟨hshort, hlong⟩ := preference_auto hauto hreq.validShape
  by_cases hkv : shape.seqKv ≤ 128
  · have hnaive : (supports dev cfg shape .naive).supported = true ↔ ScoresFit dev cfg shape := by
      exact (naiveSupports_iff hreq).trans (by simp [hcuda])
    have htiled := tiled_supported_iff hreq hcuda hsmem
    simp only [routeCandidates, hshort hkv, List.mem_cons, exists_eq_or_imp, htiled, not_lt.mpr hkv,
      false_or]
    by_cases hfb : cfg.allowFallback = true
    · simp [hfb, fallbackChain, hnaive]
    · simp [hfb]
  · have hprefer : (supports dev cfg shape (preference cfg shape).backend).supported = true := by
      rcases hlong (not_le.mp hkv) with hp | ⟨hp, hq⟩
      · rwa [hp]
      · rw [hp]
        exact (decodeSupports_iff hreq).mpr ⟨hcuda, hq⟩
    simp only [not_le.mp hkv, true_or, or_true, iff_true]
    exact ⟨_, List.mem_cons_self, hprefer⟩

end Support

/-- A device with 99 KiB of shared memory for a block and 8 GiB of free memory. -/
def sampleDevice : Device where
  cudaAvailable := true
  cap :=
    { smCount := 80, smemPerSm := 102400, smemPerBlockDefault := 49152, smemPerBlockOptin := 101376
      freeMemBytes := 2 ^ 33 }

/-- The default configuration with the given backend and fallback. -/
noncomputable def sampleConfig (backend : BackendKind) (allowFallback : Bool) : AttentionConfig ℝ :=
  { backend, allowFallback, scale := 0, softcap := 0 }

/-- One head of one sequence. -/
def sampleShape (seqQ seqKv headDim : ℕ) : AttentionShape :=
  { batch := 1, seqQ, seqKv, numHeads := 1, numKvHeads := 1, headDim }

theorem validRequest_sample {backend : BackendKind} {allowFallback : Bool} {seqQ seqKv headDim : ℕ}
    (hq : 0 < seqQ) (hkv : 0 < seqKv) (hdim : (headDim : ℤ) ∈ supportedHeadDims) :
    ValidRequest (sampleConfig backend allowFallback) (sampleShape seqQ seqKv headDim) where
  validShape := ⟨one_pos, hq, hkv, one_pos, one_pos, hdim, one_dvd 1⟩
  causal_le h := by cases h
  slidingWindow_le := le_rfl
  softcap_nonneg := le_rfl
  softcap_backend h := absurd h (lt_irrefl 0)
  scale_nonneg := le_rfl
  numSplits_nonneg := le_rfl
  cuSeqlens h := by cases h

theorem validate_sample {backend : BackendKind} {allowFallback : Bool} {seqQ seqKv headDim : ℕ}
    (hq : 0 < seqQ) (hkv : 0 < seqKv) (hdim : (headDim : ℤ) ∈ supportedHeadDims) :
    (validate realNumerics (sampleConfig backend allowFallback) (sampleShape seqQ seqKv headDim)).isOk :=
  validate_isOk_iff.mpr (validRequest_sample hq hkv hdim)

/-- A short sequence with fallback to the score matrix. -/
theorem selectionComplete_fallback :
    SelectionComplete realNumerics sampleDevice (sampleConfig .auto true) (sampleShape 64 64 256) := by
  refine (selectionComplete_iff rfl (validate_sample ?_ ?_ ?_) rfl ?_).mpr (.inr (.inr ⟨rfl, ?_⟩))
  all_goals decide

/-- Without fallback a short sequence of head dimension 256 is left to the tiled backend, which refuses
it, although the flash backend supports it. -/
theorem not_selectionComplete_short :
    ¬ SelectionComplete realNumerics sampleDevice (sampleConfig .auto false) (sampleShape 64 64 256) := by
  have hreq : ValidRequest (sampleConfig .auto false) (sampleShape 64 64 256) :=
    validRequest_sample (by decide) (by decide) (by decide)
  have hflash : (supports sampleDevice _ _ .flash).supported = true :=
    flash_supported hreq rfl (by decide)
  intro h
  have hroute := h ⟨.flash, by decide, hflash⟩
  rw [(select_of_valid sampleDevice (validate_isOk_iff.mpr hreq)).1, route_supported_iff] at hroute
  obtain ⟨b, hb, hsup⟩ := hroute
  have htiled : b = .tiled := by
    rw [routeCandidates, (preference_auto rfl hreq.validShape).1 (by decide)] at hb
    simpa [sampleConfig] using hb
  subst htiled
  have hle := (tiled_supported_iff hreq rfl (by decide)).mp hsup
  exact absurd hle (by decide)

end SciAttention

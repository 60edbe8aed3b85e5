import SciAttention.Dispatch.Routing

/-!
# What the backends refuse

A request is refused when `Forward` answers that the feature, the dtype, the head dimension or the device is
not supported. The launches never answer so: their errors carry no attention code. For each backend this
module says which valid requests `Forward` refuses, to be compared with those that `Supports` turns down.
-/

namespace SciAttention

open Results

/-! ## Codes -/

theorem makeStatus_code_injective {code code' : AttnStatusCode} {detail detail' : String}
    (h : makeStatus code detail = makeStatus code' detail') : code = code' := by
  have hcode := congrArg extractCode h
  rw [extractCode_makeStatus, extractCode_makeStatus] at hcode
  exact toInt32_injective hcode

/-- A status that carries no attention code. -/
def Status.Plain (s : Status) : Prop := ∀ code detail, s ≠ makeStatus code detail

/-- A message that does not open with a bracket carries no code. -/
theorem plain_of_head {s : Status} {c : Char} (h : s.message.toList.head? = some c) (hc : c ≠ '[') :
    s.Plain := by
  rintro code detail rfl
  rw [makeStatus_message_toList] at h
  exact hc (Option.some.inj h).symm

theorem head?_append {s : String} {c : Char} (t : String) (h : s.toList.head? = some c) :
    (s ++ t).toList.head? = some c := by
  rw [String.toList_append, List.head?_append, h]
  rfl

/-- The errors of the runtime carry no code, whatever their text. -/
theorem plain_outcome {o : LaunchOutcome} (h : ¬ o.status.isOk) : o.status.Plain := by
  rintro code detail hs
  have hcode := congrArg Status.code hs
  rcases o with _ | ⟨_ | _, m, n⟩
  · exact h rfl
  · cases code <;> simp [LaunchOutcome.status, Status.cudaError, makeStatus, toSciCode] at hcode
  · cases code <;> simp [LaunchOutcome.status, makeStatus, toSciCode] at hcode

theorem plain_launchRaw {x y z : ℤ} {o : LaunchOutcome} (h : ¬ (launchRaw x y z o).isOk) :
    (launchRaw x y z o).Plain := by
  unfold launchRaw at h ⊢
  split_ifs at h ⊢ with hpos
  · exact plain_of_head rfl (by decide)
  · exact plain_outcome h

/-! ## Refusals -/

/-- The codes that say a backend cannot execute a request. -/
def refusalCodes : List AttnStatusCode :=
  [.unsupportedFeature, .unsupportedDtype, .unsupportedHeadDim, .deviceCapability]

/-- The call returned one of these codes. -/
def Refused {α : Type} (r : Except Status α) : Prop :=
  ∃ code ∈ refusalCodes, ∃ detail, r = .error (makeStatus code detail)

section Refused

variable {α β : Type}

@[simp] theorem not_refused_ok (a : α) : ¬ Refused (.ok a : Except Status α) := by
  rintro ⟨_, -, _, h⟩
  cases h

@[simp] theorem refused_error_iff (code : AttnStatusCode) (detail : String) :
    Refused (.error (makeStatus code detail) : Except Status α) ↔ code ∈ refusalCodes := by
  constructor
  · rintro ⟨code', hmem, detail', h⟩
    rwa [makeStatus_code_injective (Except.error.inj h)]
  · exact fun h => ⟨code, h, detail, rfl⟩

/-- A chain is refused by its first step or by the rest. -/
theorem refused_bind (x : Except Status α) (f : α → Except Status β) :
    Refused (x >>= f) ↔ Refused x ∨ ∃ a, x = .ok a ∧ Refused (f a) := by
  cases x <;> simp [Refused, bind, Except.bind]

theorem not_refused_of_plain {r : Except Status α} (h : ∀ s, r = .error s → s.Plain) :
    ¬ Refused r := by
  rintro ⟨code, -, detail, hr⟩
  exact h _ hr code detail rfl

@[simp] theorem failIf_eq_ok {c : Prop} [Decidable c] {code : AttnStatusCode} {detail : String}
    {u : Unit} : failIf c code detail = .ok u ↔ ¬ c := by
  unfold failIf
  split_ifs with h <;> simp [h]

@[simp] theorem refused_failIf {c : Prop} [Decidable c] {code : AttnStatusCode} {detail : String} :
    Refused (failIf c code detail) ↔ c ∧ code ∈ refusalCodes := by
  unfold failIf
  split_ifs with h <;> simp [h]

end Refused

section Resources

variable {𝕜 : Type} {dev : Device} (env : ForwardEnv 𝕜 dev)

@[simp] theorem not_refused_scratch (scratch : ScratchEnv 𝕜) (elements : ℕ) :
    ¬ Refused (acquireScratchFp32 scratch elements) := by
  simp only [acquireScratchFp32]
  split_ifs <;> simp [refusalCodes]

@[simp] theorem not_refused_allocOut (shape : AttentionShape) (message : String) :
    ¬ Refused (allocOut env shape message) := by
  unfold allocOut
  cases env.outAlloc (outDims shape).prod <;> simp [refusalCodes]

@[simp] theorem not_refused_allocLse (cfg : AttentionConfig 𝕜) (shape : AttentionShape) :
    ¬ Refused (allocLse env cfg shape) := by
  unfold allocLse
  cases env.lseAlloc (lseDims shape).prod <;> split_ifs <;> simp [refusalCodes]

variable [Field 𝕜] [LinearOrder 𝕜] (num : Numerics 𝕜)

@[simp] theorem not_refused_launchNaive (p : NaiveFwdParams 𝕜) (launch : ℕ → LaunchOutcome) :
    ¬ Refused (launchNaiveForward num p launch) := by
  refine not_refused_of_plain fun s hs => ?_
  unfold launchNaiveForward at hs
  split at hs
  · simp only [launchNaiveTyped] at hs
    split_ifs at hs <;> cases hs
    all_goals first | exact plain_launchRaw ‹_› | exact plain_outcome ‹_›
  · cases hs
    exact plain_of_head rfl (by decide)

@[simp] theorem not_refused_launchTiled (p : TiledFwdParams 𝕜) (tile : TileCandidate)
    (outcome : LaunchOutcome) : ¬ Refused (launchTiledForward num p tile outcome) := by
  refine not_refused_of_plain fun s hs => ?_
  unfold launchTiledForward at hs
  split at hs
  · simp only [launchTiledTyped, launchWithDim, launchTile] at hs
    split_ifs at hs with hdim htile hraw
    all_goals simp only [Except.error.injEq] at hs
    all_goals subst hs
    · exact plain_launchRaw hraw
    · exact plain_of_head (head?_append _ (head?_append _ (head?_append _ (head?_append _
        (head?_append _ rfl))))) (by decide)
    · exact plain_of_head (head?_append _ (head?_append _ rfl)) (by decide)
  · cases hs
    exact plain_of_head rfl (by decide)

@[simp] theorem not_refused_launchFlash (p : FlashFwdParams 𝕜)
    (smem : ℕ → ℕ → ℕ → ℕ → Flt 𝕜)
    (outcome : LaunchOutcome) : ¬ Refused (launchFlashFwd num p smem outcome) := by
  refine not_refused_of_plain fun s hs => ?_
  unfold launchFlashFwd at hs
  split at hs
  · simp only at hs
    split at hs
    · cases hs
      exact plain_of_head (head?_append _ (head?_append _ rfl)) (by decide)
    · split_ifs at hs with hdim
      · simp only [launchForHeadDim, launchFlashChecked, launchFlashTyped] at hs
        split at hs
        · cases hs
          exact plain_of_head (head?_append _ rfl) (by decide)
        · split_ifs at hs
          all_goals simp only [Except.error.injEq] at hs
          all_goals subst hs
          all_goals first
            | exact plain_launchRaw ‹_›
            | exact plain_of_head (head?_append _ (head?_append _ (head?_append _ (head?_append _
                rfl)))) (by decide)
      · cases hs
        exact plain_of_head (head?_append _ (head?_append _ rfl)) (by decide)
  · cases hs
    exact plain_of_head rfl (by decide)

@[simp] theorem not_refused_launchDecode (p : DecodeFwdParams 𝕜) (launch : ℕ → LaunchOutcome) :
    ¬ Refused (launchDecodeSplitK num p launch) := by
  refine not_refused_of_plain fun s hs => ?_
  unfold launchDecodeSplitK at hs
  split at hs
  · simp only [launchDecodeTyped, launchForDim] at hs
    split_ifs at hs
    all_goals simp only [Except.error.injEq] at hs
    all_goals subst hs
    all_goals first
      | exact plain_launchRaw ‹_›
      | exact plain_outcome ‹_›
      | exact plain_of_head rfl (by decide)
      | exact plain_of_head (head?_append _ (head?_append _ rfl)) (by decide)
  · cases hs
    exact plain_of_head rfl (by decide)

end Resources

/-! ## What `Forward` refuses -/

section Forward

variable {𝕜 : Type} [Field 𝕜] [LinearOrder 𝕜] {dev : Device} {num : Numerics 𝕜}
  {env : ForwardEnv 𝕜 dev} {q k v : Tensor} {cfg : AttentionConfig 𝕜} {shape : AttentionShape}

/-- Shapes are inferred for the compute dtypes only. -/
theorem computeDtype_of_inferShape {layout : AttnLayout} (h : inferShape q k v layout = .ok shape) :
    isSupportedComputeDtype q.dtype = true := by
  by_contra hdt
  have hcheck : ¬ (checkTensor q).isOk := by
    simp only [checkTensor, isOk_check, hdt]
    simp
  simp [inferShape, hcheck] at h

theorem requireDtype_of_compute {dtype : DType} (h : isSupportedComputeDtype dtype = true) :
    ∃ id, requireDtype dtype = .ok id ∧ dtypeIdFor dtype = some id := by
  cases dtype <;> first | exact ⟨_, rfl, rfl⟩ | exact absurd h (by decide)

/-- The probed half-precision tile is no larger than that of any compute dtype. -/
theorem narrowTileBytes_half_le {dtype : DType} (h : isSupportedComputeDtype dtype = true)
    (headDim : ℕ) : narrowTileBytes .float16 headDim ≤ narrowTileBytes dtype headDim := by
  unfold narrowTileBytes
  revert h
  cases dtype <;> simp [isSupportedComputeDtype, dtypeSize]

/-- The elements of the flash kernels have two bytes. -/
theorem flashDtype_cases {dtype : DType} (h : flashDtypeIdFor dtype ≠ 0) :
    (flashDtypeIdFor dtype = 1 ∨ flashDtypeIdFor dtype = 2) ∧ dtypeSize dtype = 2 := by
  revert h
  cases dtype <;> simp [flashDtypeIdFor, dtypeSize]

/-- The flash kernels are compiled for every compute dtype but FP32. -/
theorem flashDtypeIdFor_ne_zero {dtype : DType} (h : isSupportedComputeDtype dtype = true)
    (hne : dtype ≠ .float32) : flashDtypeIdFor dtype ≠ 0 := by
  revert h hne
  cases dtype <;> decide

/-- A tile of the table serves the request. -/
def FlashTileFits (dev : Device) (dtype : DType) (headDim : ℕ) (tile : FlashTile) : Prop :=
  findFlashTile headDim = some tile ∧
    flashTileSmemBytes tile headDim (dtypeSize dtype) ≤ dev.smemLimitPerBlock

omit [Field 𝕜] [LinearOrder 𝕜] in
theorem validateFlashRequest_eq_ok {dtype : DType} {headDim : ℕ} {tile : FlashTile} :
    validateFlashRequest cfg dev dtype headDim = .ok tile ↔
      dev.cudaAvailable = true ∧ flashDtypeIdFor dtype ≠ 0 ∧ FlashTileFits dev dtype headDim tile ∧
        cfg.slidingWindow ≤ 0 := by
  simp only [validateFlashRequest, bind_eq_ok, failIf_eq_ok, exists_const, Bool.not_eq_false,
    FlashTileFits]
  refine and_congr_right fun _ => and_congr_right fun _ => ?_
  cases hfind : findFlashTile headDim with
  | none => simp
  | some t =>
    simp only [ok_bind, bind_eq_ok, failIf_eq_ok, exists_const, gt_iff_lt, not_lt, pure_eq_ok,
      Except.ok.injEq, Option.some.injEq]
    constructor
    · rintro ⟨hsmem, hwindow, rfl⟩
      exact ⟨⟨rfl, hsmem⟩, hwindow⟩
    · rintro ⟨⟨rfl, hsmem⟩, hwindow⟩
      exact ⟨hsmem, hwindow, rfl⟩

/-- The shared start of every `Forward`. -/
theorem inferValid_of_valid (hshape : inferShape q k v cfg.layout = .ok shape)
    (hvalid : (validate num cfg shape).isOk) : inferValid num q k v cfg = .ok shape := by
  simp [inferValid, hshape, Status.require, hvalid]

theorem valid_of_inferValid (h : inferValid num q k v cfg = .ok shape) :
    inferShape q k v cfg.layout = .ok shape ∧ (validate num cfg shape).isOk := by
  simp only [inferValid, bind_eq_ok, Status.require, pure_eq_ok] at h
  obtain ⟨shape', hshape, _, hvalid, hret⟩ := h
  cases hret
  split at hvalid
  · exact ⟨hshape, ‹_›⟩
  · cases hvalid

variable (hshape : inferShape q k v cfg.layout = .ok shape)
  (hvalid : (validate num cfg shape).isOk)

include hshape hvalid

/-- The naive backend refuses nothing. -/
theorem naiveForward_not_refused : ¬ Refused (naiveForward num env q k v cfg) := by
  have hcausal := (validate_isOk hvalid).2
  obtain ⟨id, hid, -⟩ := requireDtype_of_compute (computeDtype_of_inferShape hshape)
  simp [naiveForward, inferValid_of_valid hshape hvalid, naiveChecks, refused_bind, hid, refusalCodes]

/-- The tiled backend refuses head dimensions above 128 and tiles that do not fit. -/
theorem tiledForward_refused_iff :
    Refused (tiledForward num env q k v cfg) ↔
      128 < shape.headDim ∨ dev.smemLimitPerBlock < narrowTileBytes q.dtype shape.headDim := by
  have hpos : 0 < shape.headDim := (validate_isOk hvalid).1.headDim_pos
  obtain ⟨id, hid, -⟩ := requireDtype_of_compute (computeDtype_of_inferShape hshape)
  by_cases hbig : 128 < shape.headDim
  · simp [tiledForward, inferValid_of_valid hshape hvalid, tiledChecks, refused_bind, hbig,
      refusalCodes, maxTiledHeadDim]
  · by_cases hfits : narrowTileBytes q.dtype shape.headDim ≤ dev.smemLimitPerBlock
    · simp [tiledForward, inferValid_of_valid hshape hvalid, tiledChecks, refused_bind, hbig,
        maxTiledHeadDim, selectTile_of_le hpos hfits, hid, hfits]
    · obtain ⟨reason, hreason⟩ := selectTile_of_lt hpos (not_le.mp hfits)
      simp [tiledForward, inferValid_of_valid hshape hvalid, tiledChecks, refused_bind, hbig,
        maxTiledHeadDim, hreason, refusalCodes, not_le.mp hfits]

/-- The flash backend refuses FP32, a tile that does not fit, and everything without a device. -/
theorem flashForward_refused_iff {tile : FlashTile} (htile : findFlashTile shape.headDim = some tile) :
    Refused (flashForward num env q k v cfg) ↔
      dev.cudaAvailable = false ∨ q.dtype = .float32 ∨
        dev.smemLimitPerBlock < flashTileSmemBytes tile shape.headDim 2 := by
  have hwindow := (validate_isOk_iff.mp hvalid).slidingWindow_le
  have hcompute := computeDtype_of_inferShape hshape
  by_cases hcuda : dev.cudaAvailable = false
  · simp [flashForward, inferValid_of_valid hshape hvalid, validateFlashRequest, refused_bind, hcuda,
      refusalCodes]
  · by_cases hdt : q.dtype = .float32
    · simp [flashForward, inferValid_of_valid hshape hvalid, validateFlashRequest, refused_bind,
        hcuda, hdt, flashDtypeIdFor, refusalCodes]
    · -- the remaining compute dtypes have two bytes, as `Supports` assumes
      have hhalf := flashDtypeIdFor_ne_zero hcompute hdt
      have hsize := (flashDtype_cases hhalf).2
      simp [flashForward, inferValid_of_valid hshape hvalid, validateFlashRequest, refused_bind,
        hcuda, hdt, hhalf, hsize, htile, not_lt.mpr hwindow, refusalCodes]

/-- The decode backend refuses longer queries. -/
theorem decodeForward_refused_iff :
    Refused (decodeForward num env q k v cfg) ↔ shape.seqQ ≠ 1 := by
  have hmod : shape.headDim % 32 = 0 := Nat.mod_eq_zero_of_dvd (validate_isOk hvalid).1.dvd_headDim
  obtain ⟨id, hid, -⟩ := requireDtype_of_compute (computeDtype_of_inferShape hshape)
  simp [decodeForward, inferValid_of_valid hshape hvalid, decodeChecks, refused_bind, hid, hmod,
    nativeSeqQ, refusalCodes]

omit [Field 𝕜] [LinearOrder 𝕜] hshape hvalid in
/-- The paged backend refuses every dense request. -/
theorem pagedForward_refused : Refused (pagedForward : Except Status (AttentionResult 𝕜)) := by
  simp [pagedForward, refusalCodes]

/-! ## What executes -/

omit hshape hvalid in
/-- A naive launch that succeeded ran its kernels on the memory it was given. -/
theorem launchNaiveForward_eq_ok {p : NaiveFwdParams 𝕜} {launch : ℕ → LaunchOutcome}
    {res : (ℕ → Flt 𝕜) × Option (ℕ → Flt 𝕜)} (h : launchNaiveForward num p launch = .ok res) :
    ∃ buf : NaiveBuffers 𝕜, (p.q = some buf.q ∧ p.k = some buf.k ∧ p.v = some buf.v ∧
        p.out = some buf.out ∧ p.scores = some buf.scores) ∧
      launch 0 = .ok ∧ res = naivePipeline num p buf (softmaxBlocks p) := by
  unfold launchNaiveForward at h
  split at h
  · next q k v out scores hq hk hv ho hs =>
    simp only [launchNaiveTyped] at h
    split_ifs at h with h0 h1 h2 h3
    refine ⟨⟨q, k, v, out, scores⟩, ⟨hq, hk, hv, ho, hs⟩, ?_, (Except.ok.inj h).symm⟩
    exact (launchRaw_isOk.mp h0).2
  · cases h

/-- What a naive call that succeeded did. -/
theorem naiveForward_eq_ok {r : AttentionResult 𝕜} (h : naiveForward num env q k v cfg = .ok r) :
    ∃ id scores out lse res, dtypeIdFor q.dtype = some id ∧ ScoresFit dev cfg shape ∧
      acquireScratchFp32 env.scratch (scoreBytes shape / 4) = .ok scores ∧
      allocOut env shape "allocation of the attention output failed" = .ok out ∧
      allocLse env cfg shape = .ok lse ∧
      launchNaiveForward num (naiveParams num q k v cfg shape id scores out lse) env.launch = .ok res ∧
      r.out = res.1 ∧ r.lse = lseTensor shape res.2 ∧ r.stats.usedBackend = .naive ∧
      r.stats.tile = {} ∧ r.stats.workspaceBytes = scoreBytes shape := by
  obtain ⟨id, hid, hdt⟩ := requireDtype_of_compute (computeDtype_of_inferShape hshape)
  simp only [naiveForward, inferValid_of_valid hshape hvalid, ok_bind, bind_eq_ok, naiveChecks,
    failIf_eq_ok, hid, pure_eq_ok] at h
  obtain ⟨id', ⟨-, hfit, -, -, hid'⟩, scores, hscores, out, hout, lse, hlse, res, hres, hr⟩ := h
  cases hid'
  cases hr
  refine ⟨id, scores, out, lse, res, hdt, ?_, hscores, hout, hlse, hres, rfl, rfl, rfl, rfl, rfl⟩
  unfold ScoresFit
  omega

omit hshape hvalid in
/-- A tiled launch that succeeded ran its grid on the memory it was given. -/
theorem launchTiledForward_eq_ok {p : TiledFwdParams 𝕜} {tile : TileCandidate} {outcome : LaunchOutcome}
    {res : (ℕ → Flt 𝕜) × Option (ℕ → Flt 𝕜)}
    (h : launchTiledForward num p tile outcome = .ok res) :
    ∃ buf : TiledBuffers 𝕜, (p.q = some buf.q ∧ p.k = some buf.k ∧ p.v = some buf.v ∧
        p.out = some buf.out) ∧ outcome = .ok ∧
      launchTile num p buf p.dtype.elem p.headDim tile outcome = .ok res := by
  unfold launchTiledForward at h
  split at h
  · next q k v out hq hk hv ho =>
    simp only [launchTiledTyped, launchWithDim] at h
    split_ifs at h with hdim htile
    refine ⟨⟨q, k, v, out⟩, ⟨hq, hk, hv, ho⟩, ?_, h⟩
    simp only [launchTile] at h
    split_ifs at h with hraw
    exact (launchRaw_isOk.mp hraw).2
  · cases h

/-- What a tiled call that succeeded did. -/
theorem tiledForward_eq_ok {r : AttentionResult 𝕜} (h : tiledForward num env q k v cfg = .ok r) :
    ∃ tile id out lse res, dtypeIdFor q.dtype = some id ∧ shape.headDim ≤ 128 ∧
      selectTile q.dtype shape.headDim dev.smemLimitPerBlock = .ok tile ∧
      allocOut env shape "allocation of the attention output failed" = .ok out ∧
      allocLse env cfg shape = .ok lse ∧
      launchTiledForward num (tiledParams num q k v cfg shape id out lse) tile (env.launch 0) =
        .ok res ∧
      r.out = res.1 ∧ r.lse = lseTensor shape res.2 ∧ r.stats.usedBackend = .tiled ∧
      r.stats.tile = tile.toConfig ∧ r.stats.workspaceBytes = 0 := by
  obtain ⟨id, hid, hdt⟩ := requireDtype_of_compute (computeDtype_of_inferShape hshape)
  simp only [tiledForward, inferValid_of_valid hshape hvalid, ok_bind, bind_eq_ok, tiledChecks,
    failIf_eq_ok, hid, pure_eq_ok] at h
  obtain ⟨⟨tile, id'⟩, ⟨-, hdim, htile⟩, out, hout, lse, hlse, res, hres, hr⟩ := h
  cases hselect : selectTile q.dtype shape.headDim dev.smemLimitPerBlock with
  | error reason => simp [hselect] at htile
  | ok tile' =>
    simp only [hselect, Except.ok.injEq, Prod.mk.injEq] at htile
    obtain ⟨rfl, rfl⟩ := htile
    cases hr
    exact ⟨_, id, out, lse, res, hdt, not_lt.mp hdim, rfl, hout, hlse, hres, rfl, rfl, rfl, rfl, rfl⟩

omit hshape hvalid in
/-- A flash launch that succeeded was executed. -/
theorem launchFlashFwd_eq_ok {p : FlashFwdParams 𝕜} {smem : ℕ → ℕ → ℕ → ℕ → Flt 𝕜}
    {outcome : LaunchOutcome} {res : (ℕ → Flt 𝕜) × Option (ℕ → Flt 𝕜)}
    (h : launchFlashFwd num p smem outcome = .ok res) :
    ∃ (buf : FlashBuffers 𝕜) (elem : DType), (p.q = some buf.q ∧ p.k = some buf.k ∧
        p.v = some buf.v ∧ p.out = some buf.out) ∧
      (p.dtypeId = 1 ∧ elem = .float16 ∨ p.dtypeId = 2 ∧ elem = .bfloat16) ∧
      launchForHeadDim num p buf elem p.headDim smem outcome = .ok res := by
  unfold launchFlashFwd at h
  split at h
  · next q k v out hq hk hv ho =>
    simp only at h
    split at h
    · cases h
    · next elem helem =>
      split_ifs at h with hdim
      refine ⟨⟨q, k, v, out⟩, elem, ⟨hq, hk, hv, ho⟩, ?_, h⟩
      split at helem
      · exact .inl ⟨‹_›, (Option.some.inj helem).symm⟩
      · exact .inr ⟨‹_›, (Option.some.inj helem).symm⟩
      · cases helem
  · cases h

/-- What a flash call that succeeded did. -/
theorem flashForward_eq_ok {r : AttentionResult 𝕜} (h : flashForward num env q k v cfg = .ok r) :
    ∃ tile out lse res, dev.cudaAvailable = true ∧ flashDtypeIdFor q.dtype ≠ 0 ∧
      findFlashTile shape.headDim = some tile ∧
      flashTileSmemBytes tile shape.headDim (dtypeSize q.dtype) ≤ dev.smemLimitPerBlock ∧
      allocOut env shape "allocation of the attention output failed" = .ok out ∧
      allocLse env cfg shape = .ok lse ∧
      launchFlashFwd num (flashParams num q k v cfg shape out lse) env.smem (env.launch 0) = .ok res ∧
      r.out = res.1 ∧ r.lse = lseTensor shape res.2 ∧ r.stats.usedBackend = .flash ∧
      r.stats.tile = tile.toConfig ∧ r.stats.workspaceBytes = 0 := by
  simp only [flashForward, inferValid_of_valid hshape hvalid, ok_bind, bind_eq_ok,
    validateFlashRequest_eq_ok, pure_eq_ok] at h
  obtain ⟨tile, ⟨hcuda, hdt, ⟨htile, hsmem⟩, -⟩, out, hout, lse, hlse, res, hres, hr⟩ := h
  cases hr
  exact ⟨tile, out, lse, res, hcuda, hdt, htile, hsmem, hout, hlse, hres, rfl, rfl, rfl, rfl, rfl⟩

omit hshape hvalid in
/-- A decode launch that succeeded was executed. -/
theorem launchDecodeSplitK_eq_ok {p : DecodeFwdParams 𝕜} {launch : ℕ → LaunchOutcome}
    {res : ℕ → Flt 𝕜} (h : launchDecodeSplitK num p launch = .ok res) :
    ∃ buf : DecodeBuffers 𝕜, (p.q = some buf.q ∧ p.k = some buf.k ∧ p.v = some buf.v ∧
        p.out = some buf.out ∧ p.partials = some buf.partials) ∧
      launch 0 = .ok ∧ launchForDim num p buf launch = .ok res := by
  unfold launchDecodeSplitK at h
  split at h
  · next q k v out partials hq hk hv ho hs =>
    simp only [launchDecodeTyped] at h
    split_ifs at h with hsplits hdim
    refine ⟨⟨q, k, v, out, partials⟩, ⟨hq, hk, hv, ho, hs⟩, ?_, h⟩
    simp only [launchForDim] at h
    split_ifs at h with hraw
    exact (launchRaw_isOk.mp hraw).2
  · cases h

/-- What a decode call that succeeded did. -/
theorem decodeForward_eq_ok {r : AttentionResult 𝕜} (h : decodeForward num env q k v cfg = .ok r) :
    ∃ id partials out res, dtypeIdFor q.dtype = some id ∧ shape.seqQ = 1 ∧
      acquireScratchFp32 env.scratch (partialBytes shape (decodeSplits dev cfg shape) / 4) =
        .ok partials ∧
      allocOut env shape "allocation of the decode output failed" = .ok out ∧
      launchDecodeSplitK num
        (decodeParams num q k v cfg shape id (decodeSplits dev cfg shape) partials out) env.launch =
          .ok res ∧
      r.out = res ∧ r.lse = none ∧ r.stats.usedBackend = .decode ∧ r.stats.tile = {} ∧
      r.stats.workspaceBytes = partialBytes shape (decodeSplits dev cfg shape) := by
  obtain ⟨id, hid, hdt⟩ := requireDtype_of_compute (computeDtype_of_inferShape hshape)
  simp only [decodeForward, inferValid_of_valid hshape hvalid, ok_bind, bind_eq_ok, decodeChecks,
    failIf_eq_ok, hid, pure_eq_ok] at h
  obtain ⟨id', ⟨-, hseq, -, -, hid'⟩, partials, hpartials, out, hout, res, hres, hr⟩ := h
  cases hid'
  cases hr
  exact ⟨id, partials, out, res, hdt, not_not.mp hseq, hpartials, hout, hres, rfl, rfl, rfl, rfl, rfl⟩

/-- `GetBackend(kind)->Forward` succeeds only where `Supports` says so. -/
theorem supported_of_forward_eq_ok {b : BackendKind} {r : AttentionResult 𝕜}
    (h : forward num env q k v cfg b = .ok r) : (supports dev cfg shape b).supported = true := by
  have hreq := validate_isOk_iff.mp hvalid
  -- nothing is launched without a device
  have hcuda : env.launch 0 = .ok → dev.cudaAvailable = true := by
    intro hlaunch
    by_contra hno
    exact env.launch_unavailable (Bool.eq_false_iff.mpr hno) 0 hlaunch
  have hnaive : naiveForward num env q k v cfg = .ok r → (naiveSupports dev cfg shape).supported := by
    intro hr
    obtain ⟨_, _, _, _, _, -, hfit, -, -, -, hlaunch, -⟩ := naiveForward_eq_ok hshape hvalid hr
    obtain ⟨-, -, hok, -⟩ := launchNaiveForward_eq_ok hlaunch
    exact (naiveSupports_iff hreq).mpr ⟨hcuda hok, hfit⟩
  cases b with
  | auto => exact hnaive h
  | naive => exact hnaive h
  | tiled =>
    have hnot : ¬ Refused (tiledForward num env q k v cfg) := by
      rw [show tiledForward num env q k v cfg = .ok r from h]
      exact not_refused_ok r
    rw [tiledForward_refused_iff hshape hvalid, not_or, not_lt, not_lt] at hnot
    obtain ⟨_, _, _, _, _, -, -, -, -, -, hlaunch, -⟩ := tiledForward_eq_ok hshape hvalid h
    obtain ⟨-, -, hok, -⟩ := launchTiledForward_eq_ok hlaunch
    have hhalf := narrowTileBytes_half_le (computeDtype_of_inferShape hshape) shape.headDim
    exact (tiledSupports_iff hreq).mpr ⟨hcuda hok, hnot.1, hhalf.trans hnot.2⟩
  | flash =>
    obtain ⟨tile, htile, -⟩ := exists_flashTile hreq.validShape
    have hnot : ¬ Refused (flashForward num env q k v cfg) := by
      rw [show flashForward num env q k v cfg = .ok r from h]
      exact not_refused_ok r
    rw [flashForward_refused_iff hshape hvalid htile] at hnot
    simp only [not_or, Bool.not_eq_false, not_lt] at hnot
    exact (flashSupports_iff hreq htile).mpr ⟨hnot.1, hnot.2.2⟩
  | decode =>
    obtain ⟨_, _, _, _, -, hseq, -, -, hlaunch, -⟩ := decodeForward_eq_ok hshape hvalid h
    obtain ⟨-, -, hok, -⟩ := launchDecodeSplitK_eq_ok hlaunch
    exact (decodeSupports_iff hreq).mpr ⟨hcuda hok, hseq⟩
  | paged => cases h

end Forward

end SciAttention

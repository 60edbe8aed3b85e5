import SciAttention.Dispatch.Answers

/-!
# When a valid request succeeds

For each dense backend: a call on a valid request succeeds exactly when the backend's checks pass, the memory
it asks for is there, no tensor is null, and the device runs every kernel. Nothing else of the tensors, of
the layout or of the configuration matters.
-/

namespace SciAttention

open Results

section Success

variable {𝕜 : Type} [Field 𝕜] [LinearOrder 𝕜] {dev : Device} {num : Numerics 𝕜}
  {env : ForwardEnv 𝕜 dev} {q k v : Tensor} {cfg : AttentionConfig 𝕜} {shape : AttentionShape}

/-- None of the three tensors is null. -/
def HasData (q k v : Tensor) : Prop := q.data.isSome ∧ k.data.isSome ∧ v.data.isSome

/-- The output and, where it is asked for, the LSE tensor can be allocated. -/
def OutFits (env : ForwardEnv 𝕜 dev) (returnLse : Bool) (shape : AttentionShape) : Prop :=
  (env.outAlloc (outDims shape).prod).isSome ∧
    (returnLse = true → (env.lseAlloc (lseDims shape).prod).isSome)

omit [Field 𝕜] [LinearOrder 𝕜] in
theorem allocOut_eq_ok_iff {message : String} {out : ℕ → Flt 𝕜} :
    allocOut env shape message = .ok out ↔ env.outAlloc (outDims shape).prod = some out := by
  unfold allocOut
  cases env.outAlloc (outDims shape).prod <;> simp

omit [Field 𝕜] [LinearOrder 𝕜] in
theorem allocLse_isOk_iff :
    (∃ lse, allocLse env cfg shape = .ok lse) ↔
      (cfg.returnLse = true → (env.lseAlloc (lseDims shape).prod).isSome) := by
  unfold allocLse
  cases env.lseAlloc (lseDims shape).prod <;> cases cfg.returnLse <;> simp

/-! ## Launches -/

/-- A row of blocks is launched when the device runs it. -/
theorem launchRaw_row_isOk {n : ℕ} {outcome : LaunchOutcome} (hn : 0 < n) (h : outcome = .ok) :
    (launchRaw n 1 1 outcome).isOk :=
  launchRaw_isOk.mpr ⟨⟨Int.natCast_pos.mpr hn, one_pos, one_pos⟩, h⟩

/-- A naive launch succeeds when no pointer is null and the device runs the three kernels. -/
theorem launchNaiveForward_isOk_iff {p : NaiveFwdParams 𝕜} {launch : ℕ → LaunchOutcome} :
    (∃ res, launchNaiveForward num p launch = .ok res) ↔
      (p.q.isSome ∧ p.k.isSome ∧ p.v.isSome ∧ p.out.isSome ∧ p.scores.isSome) ∧
        launch 0 = .ok ∧ launch 1 = .ok ∧ launch 2 = .ok ∧ launch 3 = .ok := by
  have hblocks : ∀ total, 0 < naiveBlocks total := fun total =>
    Nat.pos_of_mul_pos_right (naiveBlocks_pos total)
  have hsoftmax : 0 < softmaxBlocks p := lt_min (lt_max_of_lt_left one_pos) (by decide)
  constructor
  · rintro ⟨res, h⟩
    unfold launchNaiveForward at h
    split at h
    · next q k v out scores hq hk hv ho hs =>
      simp only [launchNaiveTyped] at h
      split_ifs at h with h0 h1 h2 h3
      exact ⟨by simp [hq, hk, hv, ho, hs], (launchRaw_isOk.mp h0).2, (launchRaw_isOk.mp h1).2,
        (launchRaw_isOk.mp h2).2, (LaunchOutcome.isOk_status_iff _).mp h3⟩
    · cases h
  · simp only [Option.isSome_iff_exists]
    rintro ⟨⟨⟨q, hq⟩, ⟨k, hk⟩, ⟨v, hv⟩, ⟨out, ho⟩, ⟨scores, hs⟩⟩, h0, h1, h2, h3⟩
    simp only [launchNaiveForward, hq, hk, hv, ho, hs, launchNaiveTyped]
    rw [if_neg (not_not.mpr (launchRaw_row_isOk (hblocks _) h0)),
      if_neg (not_not.mpr (launchRaw_row_isOk hsoftmax h1)),
      if_neg (not_not.mpr (launchRaw_row_isOk (hblocks _) h2)),
      if_neg (not_not.mpr ((LaunchOutcome.isOk_status_iff _).mpr h3))]
    exact ⟨_, rfl⟩

/-- A grid of positive dimensions that fit an `int` is launched when the device runs it. -/
theorem launchRaw_cast_isOk_iff {x y z : ℕ} {outcome : LaunchOutcome} (hx : 0 < x ∧ x < 2 ^ 31)
    (hy : 0 < y ∧ y < 2 ^ 31) (hz : 0 < z ∧ z < 2 ^ 31) :
    (launchRaw (int32Cast x) (int32Cast y) (int32Cast z) outcome).isOk ↔ outcome = .ok := by
  rw [int32Cast_of_lt (by omega) (by omega), int32Cast_of_lt (by omega) (by omega),
    int32Cast_of_lt (by omega) (by omega), launchRaw_isOk]
  simp only [Int.natCast_pos, hx, hy, hz, true_and]

/-- There is a block for the rows of a request. -/
theorem rowBlocks_pos {n m : ℕ} (hn : 0 < n) (hm : 0 < m) : 0 < (n + m - 1) / m :=
  Nat.div_pos (by omega) hm

variable (num) in
/-- A tiled launch of a chosen tile succeeds when no pointer is null and the device runs the kernel. -/
theorem launchTiledForward_isOk_iff (p : TiledFwdParams 𝕜) (tile : TileCandidate)
    (outcome : LaunchOutcome) (hdim : p.headDim ∈ [32, 64, 96, 128]) (htile : tile ∈ tiledInstances)
    (hseq : 0 < p.seqQ ∧ p.seqQ < 2 ^ 31) (hheads : 0 < p.numHeads ∧ p.numHeads < 2 ^ 31)
    (hbatch : 0 < p.batch ∧ p.batch < 2 ^ 31) :
    (∃ res, launchTiledForward num p tile outcome = .ok res) ↔
      (p.q.isSome ∧ p.k.isSome ∧ p.v.isSome ∧ p.out.isSome) ∧ outcome = .ok := by
  have hM : 0 < tile.blockM := by
    revert htile
    simp only [tiledInstances, List.mem_cons, List.not_mem_nil, or_false]
    rintro (rfl | rfl | rfl) <;> decide
  have hgrid : 0 < tiledGridX p tile ∧ tiledGridX p tile < 2 ^ 31 :=
    ⟨rowBlocks_pos hseq.1 hM, (rowBlocks_le hM).trans_lt hseq.2⟩
  constructor
  · rintro ⟨res, h⟩
    obtain ⟨buf, ⟨hq, hk, hv, ho⟩, hok, -⟩ := launchTiledForward_eq_ok h
    exact ⟨by simp [hq, hk, hv, ho], hok⟩
  · simp only [Option.isSome_iff_exists]
    rintro ⟨⟨⟨q, hq⟩, ⟨k, hk⟩, ⟨v, hv⟩, ⟨out, ho⟩⟩, hok⟩
    have hraw := (launchRaw_cast_isOk_iff hgrid hheads hbatch).mpr hok
    simp only [launchTiledForward, hq, hk, hv, ho, launchTiledTyped, if_pos hdim, launchWithDim,
      if_pos htile, launchTile, hraw, not_true_eq_false, if_false]
    exact ⟨_, rfl⟩

variable (num) in
/-- A flash launch of a head dimension with a tile succeeds when no pointer is null, the elements are half
precision and the grid is launched. -/
theorem launchFlashFwd_isOk_iff_launchRaw (p : FlashFwdParams 𝕜)
    (smem : ℕ → ℕ → ℕ → ℕ → Flt 𝕜)
    (outcome : LaunchOutcome) (hvalid : ValidShape shape) (hdim : p.headDim = shape.headDim)
    {tile : FlashTile} (htile : findFlashTile shape.headDim = some tile) :
    (∃ res, launchFlashFwd num p smem outcome = .ok res) ↔
      (p.q.isSome ∧ p.k.isSome ∧ p.v.isSome ∧ p.out.isSome) ∧ (p.dtypeId = 1 ∨ p.dtypeId = 2) ∧
        (launchRaw (int32Cast (flashGridX p tile)) (int32Cast p.numHeads) (int32Cast p.batch)
          outcome).isOk := by
  constructor
  · rintro ⟨res, h⟩
    obtain ⟨buf, elem, ⟨hq, hk, hv, ho⟩, hid, hrun⟩ := launchFlashFwd_eq_ok h
    rw [hdim, launchForHeadDim_eq hvalid htile, launchFlashTyped] at hrun
    refine ⟨by simp [hq, hk, hv, ho], hid.imp And.left And.left, ?_⟩
    by_contra hno
    simp [hno] at hrun
  · simp only [Option.isSome_iff_exists]
    rintro ⟨⟨⟨q, hq⟩, ⟨k, hk⟩, ⟨v, hv⟩, ⟨out, ho⟩⟩, hid, hrun⟩
    have hmem : (p.headDim : ℤ) ∈ supportedHeadDims := hdim ▸ hvalid.headDim_supported
    rcases hid with hid | hid <;>
      simp only [launchFlashFwd, hq, hk, hv, ho, hid, if_pos hmem] <;>
      rw [hdim, launchForHeadDim_eq hvalid htile, launchFlashTyped] <;>
      simp only [hrun, not_true_eq_false, if_false] <;>
      exact ⟨_, rfl⟩

variable (num) in
/-- A flash launch of a valid head dimension succeeds when no pointer is null, the elements are half
precision and the device runs the kernel. -/
theorem launchFlashFwd_isOk_iff (p : FlashFwdParams 𝕜) (smem : ℕ → ℕ → ℕ → ℕ → Flt 𝕜)
    (outcome : LaunchOutcome) (hvalid : ValidShape shape) (hdim : p.headDim = shape.headDim)
    (hseq : 0 < p.seqQ ∧ p.seqQ < 2 ^ 31) (hheads : 0 < p.numHeads ∧ p.numHeads < 2 ^ 31)
    (hbatch : 0 < p.batch ∧ p.batch < 2 ^ 31) :
    (∃ res, launchFlashFwd num p smem outcome = .ok res) ↔
      (p.q.isSome ∧ p.k.isSome ∧ p.v.isSome ∧ p.out.isSome) ∧ (p.dtypeId = 1 ∨ p.dtypeId = 2) ∧
        outcome = .ok := by
  obtain ⟨tile, htile, -⟩ := exists_flashTile hvalid
  obtain ⟨-, -, hM, -⟩ := flashTile_compiles hvalid htile (show dtypeSize .float16 = 2 from rfl)
  have hgrid : 0 < flashGridX p tile ∧ flashGridX p tile < 2 ^ 31 :=
    ⟨rowBlocks_pos hseq.1 hM, (rowBlocks_le hM).trans_lt hseq.2⟩
  rw [launchFlashFwd_isOk_iff_launchRaw num p smem outcome hvalid hdim htile,
    launchRaw_cast_isOk_iff hgrid hheads hbatch]

variable (num) in
/-- A decode launch succeeds when no pointer is null and the device runs both kernels. -/
theorem launchDecodeSplitK_isOk_iff (p : DecodeFwdParams 𝕜) (launch : ℕ → LaunchOutcome)
    (hdim : (p.headDim : ℤ) ∈ supportedHeadDims) (hrows : 0 < p.batch * p.numHeads)
    (hs : 0 < p.numSplits) (hgrid : p.requests + 3 < 2 ^ 33) :
    (∃ res, launchDecodeSplitK num p launch = .ok res) ↔
      (p.q.isSome ∧ p.k.isSome ∧ p.v.isSome ∧ p.out.isSome ∧ p.partials.isSome) ∧
        launch 0 = .ok ∧ launch 1 = .ok ∧ launch 2 = .ok := by
  have hle : p.batch * p.numHeads ≤ p.requests := Nat.le_mul_of_pos_right _ hs
  have hpartial : int32Cast ((p.requests + 3) / 4 : ℕ) = ((p.requests + 3) / 4 : ℕ) :=
    int32Cast_grid hgrid
  have hreduce : int32Cast ((p.batch * p.numHeads + 3) / 4 : ℕ) =
      ((p.batch * p.numHeads + 3) / 4 : ℕ) := int32Cast_grid (by omega)
  constructor
  · rintro ⟨res, h⟩
    obtain ⟨buf, ⟨hq, hk, hv, ho, hp⟩, h0, hrun⟩ := launchDecodeSplitK_eq_ok h
    simp only [launchForDim] at hrun
    split_ifs at hrun with hraw0 hraw1 hlast
    exact ⟨by simp [hq, hk, hv, ho, hp], h0, (launchRaw_isOk.mp hraw1).2,
      (LaunchOutcome.isOk_status_iff _).mp hlast⟩
  · simp only [Option.isSome_iff_exists]
    rintro ⟨⟨⟨q, hq⟩, ⟨k, hk⟩, ⟨v, hv⟩, ⟨out, ho⟩, ⟨partials, hp⟩⟩, h0, h1, h2⟩
    simp only [launchDecodeSplitK, hq, hk, hv, ho, hp, launchDecodeTyped, if_pos hdim, launchForDim]
    rw [if_neg (by omega), hpartial, hreduce,
      if_neg (not_not.mpr (launchRaw_row_isOk (by omega) h0)),
      if_neg (not_not.mpr (launchRaw_row_isOk (by omega) h1)),
      if_neg (not_not.mpr ((LaunchOutcome.isOk_status_iff _).mpr h2))]
    exact ⟨_, rfl⟩

/-! ## Calls -/

/-- The scratch pool has room for so many floats. -/
def ScratchFits (env : ForwardEnv 𝕜 dev) (elements : ℕ) : Prop :=
  ∃ mem, acquireScratchFp32 env.scratch elements = .ok mem

/-- The checks of the naive backend pass where the score matrix fits. -/
theorem naiveChecks_eq_ok (hvalid : ValidRequest cfg shape) {id : NaiveDtype}
    (hid : dtypeIdFor q.dtype = some id) (hfit : ScoresFit dev cfg shape) :
    naiveChecks q cfg dev shape = .ok id := by
  have hlimit : ¬ (effectiveWorkspaceLimit dev cfg ≠ 0 ∧
      scoreBytes shape > effectiveWorkspaceLimit dev cfg) := by
    unfold ScoresFit at hfit
    omega
  have hcausal : ¬ (cfg.causal = true ∧ shape.seqKv < shape.seqQ) :=
    fun h => not_lt.mpr (hvalid.causal_le h.1) h.2
  simp only [naiveChecks, failIf, if_neg hlimit, if_neg hcausal, ok_bind, requireDtype, hid]

omit [Field 𝕜] [LinearOrder 𝕜] in
/-- Memory that was allocated fits. -/
theorem outFits_of_alloc {message : String} {out : ℕ → Flt 𝕜} {lse : Option (ℕ → Flt 𝕜)}
    (hout : allocOut env shape message = .ok out) (hlse : allocLse env cfg shape = .ok lse) :
    OutFits env cfg.returnLse shape :=
  ⟨by rw [allocOut_eq_ok_iff.mp hout]; rfl, allocLse_isOk_iff.mp ⟨lse, hlse⟩⟩

omit [Field 𝕜] [LinearOrder 𝕜] in
/-- Memory that fits is allocated. -/
theorem OutFits.alloc (h : OutFits env cfg.returnLse shape) (message : String) :
    (∃ out, allocOut env shape message = .ok out) ∧ ∃ lse, allocLse env cfg shape = .ok lse := by
  obtain ⟨out, hout⟩ := Option.isSome_iff_exists.mp h.1
  exact ⟨⟨out, allocOut_eq_ok_iff.mpr hout⟩, allocLse_isOk_iff.mpr h.2⟩

/-- A request passes its backend's checks, has the memory it asks for and no null tensor: the first kernel is
handed to the device. -/
def Starts (env : ForwardEnv 𝕜 dev) (q k v : Tensor) (cfg : AttentionConfig 𝕜)
    (shape : AttentionShape) :
    BackendKind → Prop
  | .naive => ScoresFit dev cfg shape ∧ ScratchFits env (scoreBytes shape / 4) ∧
      OutFits env cfg.returnLse shape ∧ HasData q k v
  | .tiled => (shape.headDim ≤ 128 ∧ narrowTileBytes q.dtype shape.headDim ≤ dev.smemLimitPerBlock) ∧
      OutFits env cfg.returnLse shape ∧ HasData q k v
  | .flash => (dev.cudaAvailable = true ∧ flashDtypeIdFor q.dtype ≠ 0 ∧
        ∃ tile, findFlashTile shape.headDim = some tile ∧
          flashTileSmemBytes tile shape.headDim (dtypeSize q.dtype) ≤ dev.smemLimitPerBlock) ∧
      OutFits env cfg.returnLse shape ∧ HasData q k v
  | .decode => shape.seqQ = 1 ∧ ScratchFits env (partialBytes shape (decodeSplits dev cfg shape) / 4) ∧
      (env.outAlloc (outDims shape).prod).isSome ∧ HasData q k v
  | _ => False

/-- The device calls of a backend whose outcome is looked at. -/
def launchCount : BackendKind → ℕ
  | .naive => 4
  | .tiled => 1
  | .flash => 1
  | .decode => 3
  | _ => 0

variable (hshape : inferShape q k v cfg.layout = .ok shape)
  (hvalid : (validate num cfg shape).isOk)

include hshape hvalid

/-- `NaiveBackend::Forward` succeeds. -/
theorem naiveForward_isOk_iff :
    (∃ r, naiveForward num env q k v cfg = .ok r) ↔
      ScoresFit dev cfg shape ∧ ScratchFits env (scoreBytes shape / 4) ∧
        OutFits env cfg.returnLse shape ∧ HasData q k v ∧
          env.launch 0 = .ok ∧ env.launch 1 = .ok ∧ env.launch 2 = .ok ∧ env.launch 3 = .ok := by
  constructor
  · rintro ⟨r, hr⟩
    obtain ⟨id, scores, out, lse, res, -, hfit, hscores, hout, hlse, hlaunch, -⟩ :=
      naiveForward_eq_ok hshape hvalid hr
    obtain ⟨⟨hq, hk, hv, -⟩, hok⟩ := launchNaiveForward_isOk_iff.mp ⟨res, hlaunch⟩
    exact ⟨hfit, ⟨scores, hscores⟩, outFits_of_alloc hout hlse, ⟨hq, hk, hv⟩, hok⟩
  · rintro ⟨hfit, ⟨scores, hscores⟩, hmem, ⟨hq, hk, hv⟩, hok⟩
    obtain ⟨⟨out, hout⟩, lse, hlse⟩ := hmem.alloc "allocation of the attention output failed"
    obtain ⟨id, -, hid⟩ := requireDtype_of_compute (computeDtype_of_inferShape hshape)
    obtain ⟨res, hres⟩ : ∃ res, launchNaiveForward num
        (naiveParams num q k v cfg shape id scores out lse) env.launch = .ok res :=
      launchNaiveForward_isOk_iff.mpr ⟨⟨hq, hk, hv, rfl, rfl⟩, hok⟩
    simp only [naiveForward, inferValid_of_valid hshape hvalid, ok_bind,
      naiveChecks_eq_ok (validate_isOk_iff.mp hvalid) hid hfit, hscores, hout, hlse, hres]
    exact ⟨_, rfl⟩

/-- `TiledBackend::Forward` succeeds. -/
theorem tiledForward_isOk_iff :
    (∃ r, tiledForward num env q k v cfg = .ok r) ↔
      (shape.headDim ≤ 128 ∧ narrowTileBytes q.dtype shape.headDim ≤ dev.smemLimitPerBlock) ∧
        OutFits env cfg.returnLse shape ∧ HasData q k v ∧ env.launch 0 = .ok := by
  have hreq := validate_isOk_iff.mp hvalid
  obtain ⟨hbatch, hheads, hseq⟩ := le_rows hreq.validShape
  have hpos : 0 < shape.headDim := hreq.validShape.headDim_pos
  constructor
  · rintro ⟨r, hr⟩
    obtain ⟨tile, id, out, lse, res, -, hdim, htile, hout, hlse, hlaunch, -⟩ :=
      tiledForward_eq_ok hshape hvalid hr
    obtain ⟨buf, ⟨hq, hk, hv, -⟩, hok, -⟩ := launchTiledForward_eq_ok hlaunch
    refine ⟨⟨hdim, ?_⟩, outFits_of_alloc hout hlse, ?_, hok⟩
    · by_contra hlt
      obtain ⟨reason, hreason⟩ := selectTile_of_lt hpos (not_le.mp hlt)
      rw [hreason] at htile
      cases htile
    · exact ⟨Option.isSome_of_eq_some hq, Option.isSome_of_eq_some hk, Option.isSome_of_eq_some hv⟩
  · rintro ⟨⟨hdim, hfits⟩, hmem, ⟨hq, hk, hv⟩, hok⟩
    obtain ⟨⟨out, hout⟩, lse, hlse⟩ := hmem.alloc "allocation of the attention output failed"
    obtain ⟨id, hid, -⟩ := requireDtype_of_compute (computeDtype_of_inferShape hshape)
    have hrows := rows_lt_of_allocOut hreq.validShape hout
    have htile := selectTile_of_le hpos hfits
    have hmem' : shape.headDim ∈ [32, 64, 96, 128] := by
      simp only [List.mem_cons, List.not_mem_nil, or_false]
      rcases hreq.validShape.headDim_cases with h | h | h | h | h | h | h <;> omega
    obtain ⟨res, hres⟩ := (launchTiledForward_isOk_iff num
      (tiledParams num q k v cfg shape id out lse)
      (if q.dtype ≠ .float32 ∧ squareTileBytes q.dtype shape.headDim ≤ dev.smemLimitPerBlock
        then ⟨64, 64, 4⟩ else ⟨64, 32, 4⟩) (env.launch 0) hmem' (by split_ifs <;> decide)
      ⟨hreq.validShape.seqQ_pos, hseq.trans_lt hrows⟩
      ⟨hreq.validShape.numHeads_pos, hheads.trans_lt hrows⟩
      ⟨hreq.validShape.batch_pos, hbatch.trans_lt hrows⟩).mpr ⟨⟨hq, hk, hv, rfl⟩, hok⟩
    simp only [tiledForward, inferValid_of_valid hshape hvalid, ok_bind, tiledChecks, failIf,
      if_neg (not_lt.mpr hdim : ¬ shape.headDim > maxTiledHeadDim), htile, hid, pure_eq_ok, hout, hlse, hres]
    exact ⟨_, rfl⟩

/-- `FlashBackend::Forward` succeeds. -/
theorem flashForward_isOk_iff {tile : FlashTile} (htile : findFlashTile shape.headDim = some tile) :
    (∃ r, flashForward num env q k v cfg = .ok r) ↔
      (dev.cudaAvailable = true ∧ flashDtypeIdFor q.dtype ≠ 0 ∧
          flashTileSmemBytes tile shape.headDim (dtypeSize q.dtype) ≤ dev.smemLimitPerBlock) ∧
        OutFits env cfg.returnLse shape ∧ HasData q k v ∧ env.launch 0 = .ok := by
  have hreq := validate_isOk_iff.mp hvalid
  obtain ⟨hbatch, hheads, hseq⟩ := le_rows hreq.validShape
  have hlaunch : ∀ {message out} (lse : Option (ℕ → Flt 𝕜)), allocOut env shape message = .ok out →
      ((∃ res, launchFlashFwd num (flashParams num q k v cfg shape out lse) env.smem (env.launch 0) =
        .ok res) ↔ (q.data.isSome ∧ k.data.isSome ∧ v.data.isSome ∧ (some out).isSome) ∧
          (flashDtypeIdFor q.dtype = 1 ∨ flashDtypeIdFor q.dtype = 2) ∧ env.launch 0 = .ok) := by
    intro message out lse hout
    have hrows := rows_lt_of_allocOut hreq.validShape hout
    exact launchFlashFwd_isOk_iff num (flashParams num q k v cfg shape out lse) env.smem (env.launch 0)
      hreq.validShape rfl ⟨hreq.validShape.seqQ_pos, hseq.trans_lt hrows⟩
      ⟨hreq.validShape.numHeads_pos, hheads.trans_lt hrows⟩
      ⟨hreq.validShape.batch_pos, hbatch.trans_lt hrows⟩
  constructor
  · rintro ⟨r, hr⟩
    obtain ⟨tile', out, lse, res, hcuda, hdt, htile', hsmem, hout, hlse, hres, -⟩ :=
      flashForward_eq_ok hshape hvalid hr
    obtain rfl : tile' = tile := Option.some.inj (htile'.symm.trans htile)
    obtain ⟨⟨hq, hk, hv, -⟩, -, hok⟩ := (hlaunch lse hout).mp ⟨res, hres⟩
    exact ⟨⟨hcuda, hdt, hsmem⟩, outFits_of_alloc hout hlse, ⟨hq, hk, hv⟩, hok⟩
  · rintro ⟨⟨hcuda, hdt, hsmem⟩, hmem, ⟨hq, hk, hv⟩, hok⟩
    obtain ⟨⟨out, hout⟩, lse, hlse⟩ := hmem.alloc "allocation of the attention output failed"
    obtain ⟨res, hres⟩ :=
      (hlaunch lse hout).mpr ⟨⟨hq, hk, hv, rfl⟩, (flashDtype_cases hdt).1, hok⟩
    have hchecks : validateFlashRequest cfg dev q.dtype shape.headDim = .ok tile :=
      validateFlashRequest_eq_ok.mpr ⟨hcuda, hdt, ⟨htile, hsmem⟩, hreq.slidingWindow_le⟩
    simp only [flashForward, inferValid_of_valid hshape hvalid, ok_bind, hchecks, hout, hlse, hres]
    exact ⟨_, rfl⟩

/-- `DecodeBackend::Forward` succeeds. -/
theorem decodeForward_isOk_iff :
    (∃ r, decodeForward num env q k v cfg = .ok r) ↔
      shape.seqQ = 1 ∧ ScratchFits env (partialBytes shape (decodeSplits dev cfg shape) / 4) ∧
        (env.outAlloc (outDims shape).prod).isSome ∧ HasData q k v ∧
          env.launch 0 = .ok ∧ env.launch 1 = .ok ∧ env.launch 2 = .ok := by
  have hreq := validate_isOk_iff.mp hvalid
  obtain ⟨id, hid, hdt⟩ := requireDtype_of_compute (computeDtype_of_inferShape hshape)
  have hlaunch : ∀ {partials out : ℕ → Flt 𝕜}, acquireScratchFp32 env.scratch
      (partialBytes shape (decodeSplits dev cfg shape) / 4) = .ok partials →
      allocOut env shape "allocation of the decode output failed" = .ok out →
      ((∃ res, launchDecodeSplitK num (decodeParams num q k v cfg shape id
          (decodeSplits dev cfg shape) partials out) env.launch = .ok res) ↔
        (q.data.isSome ∧ k.data.isSome ∧ v.data.isSome ∧ (some out).isSome ∧
          (some partials).isSome) ∧
          env.launch 0 = .ok ∧ env.launch 1 = .ok ∧ env.launch 2 = .ok) := by
    intro partials out hscratch hout
    exact launchDecodeSplitK_isOk_iff num (decodeParams num q k v cfg shape id
      (decodeSplits dev cfg shape) partials out) env.launch hreq.validShape.headDim_supported
      (Nat.mul_pos hreq.validShape.batch_pos hreq.validShape.numHeads_pos) (resolveSplits_pos cfg _ _)
      (decodeParams_requests_lt hreq.validShape hout hscratch)
  have hdvd : shape.headDim % 32 = 0 := Nat.mod_eq_zero_of_dvd hreq.validShape.dvd_headDim
  constructor
  · rintro ⟨r, hr⟩
    obtain ⟨id', partials, out, res, hid', hseq, hscratch, hout, hres, -⟩ :=
      decodeForward_eq_ok hshape hvalid hr
    obtain rfl : id' = id := Option.some.inj (hid'.symm.trans hdt)
    obtain ⟨⟨hq, hk, hv, -⟩, hok⟩ := (hlaunch hscratch hout).mp ⟨res, hres⟩
    exact ⟨hseq, ⟨partials, hscratch⟩, Option.isSome_of_eq_some (allocOut_eq_ok_iff.mp hout),
      ⟨hq, hk, hv⟩, hok⟩
  · rintro ⟨hseq, ⟨partials, hscratch⟩, halloc, ⟨hq, hk, hv⟩, hok⟩
    obtain ⟨out, hout⟩ := Option.isSome_iff_exists.mp halloc
    have hout' : allocOut env shape "allocation of the decode output failed" = .ok out :=
      allocOut_eq_ok_iff.mpr hout
    obtain ⟨res, hres⟩ := (hlaunch hscratch hout').mpr ⟨⟨hq, hk, hv, rfl, rfl⟩, hok⟩
    have hchecks : decodeChecks q shape = .ok id := by
      simp [decodeChecks, failIf, hseq, nativeSeqQ, hdvd, hid]
    simp only [decodeForward, inferValid_of_valid hshape hvalid, ok_bind, hchecks, hscratch, hout', hres]
    exact ⟨_, rfl⟩

/-- A call succeeds exactly when it starts and the device runs it to the end. -/
theorem forward_isOk_iff {b : BackendKind} (hb : b ∈ denseBackends) :
    (∃ r, forward num env q k v cfg b = .ok r) ↔
      Starts env q k v cfg shape b ∧ ∀ n < launchCount b, env.launch n = .ok := by
  obtain ⟨tile, htile, -⟩ := exists_flashTile (validate_isOk hvalid).1
  cases b with
  | auto => exact absurd hb (by decide)
  | naive =>
    rw [forward, naiveForward_isOk_iff hshape hvalid]
    simp only [Starts, launchCount, Nat.forall_lt_succ_right, Nat.not_lt_zero, false_implies,
      implies_true, true_and, and_assoc]
  | tiled =>
    rw [forward, tiledForward_isOk_iff hshape hvalid]
    simp only [Starts, launchCount, Nat.forall_lt_succ_right, Nat.not_lt_zero, false_implies,
      implies_true, true_and, and_assoc]
  | flash =>
    rw [forward, flashForward_isOk_iff hshape hvalid htile]
    simp only [Starts, launchCount, Nat.forall_lt_succ_right, Nat.not_lt_zero, false_implies,
      implies_true, true_and, and_assoc, htile, Option.some.injEq, exists_eq_left']
  | decode =>
    rw [forward, decodeForward_isOk_iff hshape hvalid]
    simp only [Starts, launchCount, Nat.forall_lt_succ_right, Nat.not_lt_zero, false_implies,
      implies_true, true_and, and_assoc]
  | paged => exact absurd hb (by decide)

end Success

end SciAttention

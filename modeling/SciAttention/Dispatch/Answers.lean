import SciAttention.Attention.FlashForward
import SciAttention.Attention.PagedDecode
import SciAttention.Attention.TiledForward
import SciAttention.Dispatch.Refusal

/-!
# What a call that succeeds returns

The attention problem of a request, and for each dense backend the rows of it that `Forward` answers: all
of them for the tiled, flash and decode backends, those with a softmax block for the naive one. The grids
fit the `int` they are cast to, since the output was allocated.
-/

namespace SciAttention

open Flt Softmax Results

/-- The memory of a tensor. -/
def Tensor.bytes (t : Tensor) : Bytes := t.data.getD fun _ => 0

theorem Tensor.bytes_eq {t : Tensor} {mem : Bytes} (h : t.data = some mem) : t.bytes = mem := by
  rw [bytes, h]
  rfl

/-- The flat index of a query row. -/
def AttentionShape.rowIndex (shape : AttentionShape) (b h i : ℕ) : ℕ :=
  (b * shape.numHeads + h) * shape.seqQ + i

/-- The number of query rows. -/
def AttentionShape.rows (shape : AttentionShape) : ℕ := shape.batch * shape.numHeads * shape.seqQ

theorem AttentionShape.rowIndex_lt {shape : AttentionShape} {b h i : ℕ} (hb : b < shape.batch)
    (hh : h < shape.numHeads) (hi : i < shape.seqQ) : shape.rowIndex b h i < shape.rows :=
  Strided.flat_lt (Strided.flat_lt hb hh) hi

theorem AttentionShape.exists_rowIndex {shape : AttentionShape} {row : ℕ} (h : row < shape.rows) :
    ∃ b < shape.batch, ∃ head < shape.numHeads, ∃ i < shape.seqQ, shape.rowIndex b head i = row := by
  unfold rows at h
  have hseq : 0 < shape.seqQ := Nat.pos_of_mul_pos_left (Nat.zero_lt_of_lt h)
  have hdiv : row / shape.seqQ < shape.batch * shape.numHeads := (Nat.div_lt_iff_lt_mul hseq).mpr h
  have hheads : 0 < shape.numHeads := Nat.pos_of_mul_pos_left (Nat.zero_lt_of_lt hdiv)
  refine ⟨row / shape.seqQ / shape.numHeads, (Nat.div_lt_iff_lt_mul hheads).mpr hdiv,
    row / shape.seqQ % shape.numHeads, Nat.mod_lt _ hheads, row % shape.seqQ, Nat.mod_lt _ hseq, ?_⟩
  rw [rowIndex, Nat.div_add_mod', Nat.div_add_mod']

section Answers

variable {𝕜 : Type} [Field 𝕜] [LinearOrder 𝕜] {dev : Device}

/-- The attention problem of a request: its tensors read through the strides of its shape. -/
def requestProblem (num : Numerics 𝕜) (q k v : Tensor) (cfg : AttentionConfig 𝕜)
    (shape : AttentionShape) : AttnProblem 𝕜 :=
  .ofMemory num q.dtype q.bytes k.bytes v.bytes (qStrides cfg shape) (kvStrides cfg shape)
    (kvStrides cfg shape) shape (effectiveScale num cfg shape) cfg.causal (diagonalOf cfg shape)

/-- The output holds the attention of a row. -/
def OutAnswers (num : Numerics 𝕜) (P : AttnProblem 𝕜) (shape : AttentionShape) (out : ℕ → Flt 𝕜)
    (b h i : ℕ) : Prop :=
  ∀ d < shape.headDim,
    out (shape.rowIndex b h i * shape.headDim + d) = fin (P.attention num.E b h i d)

/-- The LSE tensor holds the log-sum-exp of a row. -/
def LseAnswers (num : Numerics 𝕜) (P : AttnProblem 𝕜) (shape : AttentionShape)
    (lse : Option (FloatTensor 𝕜)) (b h i : ℕ) : Prop :=
  ∃ mem, lse = some ⟨lseDims shape, mem⟩ ∧
    mem (shape.rowIndex b h i) = ofBot (P.lse num.E num.log b h i)

variable {num : Numerics 𝕜} {env : ForwardEnv 𝕜 dev} {q k v : Tensor} {cfg : AttentionConfig 𝕜}
  {shape : AttentionShape}

/-- Validated requests see the first key in every row. -/
theorem requestProblem_visible (hvalid : ValidRequest cfg shape) (i : ℕ) :
    ((requestProblem num q k v cfg shape).visible i).Nonempty := by
  refine AttnProblem.visible_nonempty hvalid.validShape.seqKv_pos (fun hc => ?_) i
  have hcausal : cfg.causal = true := hc
  have hle := hvalid.causal_le hcausal
  change 0 ≤ diagonalOf cfg shape
  rw [diagonalOf, if_pos hcausal]
  omega

omit [Field 𝕜] [LinearOrder 𝕜] in
/-- The rows of an output that was allocated. -/
theorem rows_lt_of_allocOut (hvalid : ValidShape shape) {message : String} {out : ℕ → Flt 𝕜}
    (h : allocOut env shape message = .ok out) : shape.rows < 2 ^ 31 := by
  have hlt : (outDims shape).prod < 2 ^ 36 := by
    refine env.outAlloc_lt _ ?_
    unfold allocOut at h
    cases halloc : env.outAlloc (outDims shape).prod with
    | none => simp [halloc] at h
    | some _ => rfl
  have hdim : 32 ≤ shape.headDim := hvalid.le_headDim
  have hprod : (outDims shape).prod = shape.rows * shape.headDim := by
    simp only [outDims, List.prod_cons, List.prod_nil, AttentionShape.rows]
    ring
  have hle := Nat.mul_le_mul_left shape.rows hdim
  omega

/-- Every factor of the row count of a valid shape is at most the row count. -/
theorem le_rows (hvalid : ValidShape shape) :
    shape.batch ≤ shape.rows ∧ shape.numHeads ≤ shape.rows ∧ shape.seqQ ≤ shape.rows := by
  have hb := hvalid.batch_pos
  have hh := hvalid.numHeads_pos
  have hs := hvalid.seqQ_pos
  unfold AttentionShape.rows
  refine ⟨?_, ?_, ?_⟩
  · rw [Nat.mul_assoc]
    exact Nat.le_mul_of_pos_right _ (Nat.mul_pos hh hs)
  · rw [Nat.mul_comm shape.batch, Nat.mul_assoc]
    exact Nat.le_mul_of_pos_right _ (Nat.mul_pos hb hs)
  · exact Nat.le_mul_of_pos_left _ (Nat.mul_pos hb hh)

omit [Field 𝕜] [LinearOrder 𝕜] in
/-- The LSE buffer exists when it is asked for. -/
theorem exists_lse {lse : Option (ℕ → Flt 𝕜)} (h : allocLse env cfg shape = .ok lse)
    (hret : cfg.returnLse = true) : ∃ mem, lse = some mem := by
  unfold allocLse at h
  rw [if_pos hret] at h
  cases halloc : env.lseAlloc (lseDims shape).prod with
  | none => simp [halloc] at h
  | some mem =>
    rw [halloc] at h
    exact ⟨mem, (Except.ok.inj h).symm⟩

/-- A grid dimension of fewer than `2 ^ 31` blocks survives the cast. -/
theorem int32Cast_toNat {n : ℕ} (h : n < 2 ^ 31) : (int32Cast n).toNat = n := by
  rw [int32Cast_of_lt (by omega) (by omega), Int.toNat_natCast]

/-- There are at most as many row blocks as rows. -/
theorem rowBlocks_le {n m : ℕ} (hm : 0 < m) : (n + m - 1) / m ≤ n := by
  rw [Nat.div_le_iff_le_mul_add_pred hm]
  have := Nat.le_mul_of_pos_left n hm
  omega

/-- The tiles that `SelectTile` chooses from. -/
theorem selectTile_pos {dtype : DType} {headDim limit : ℕ} {tile : TileCandidate}
    (h : selectTile dtype headDim limit = .ok tile) :
    0 < tile.blockM ∧ 2 ≤ tile.blockN ∧ 0 < tile.warps := by
  have hmem : tile ∈ tileCandidates dtype := by
    unfold selectTile at h
    split at h
    · next hfind =>
      cases h
      exact List.mem_of_find?_eq_some hfind
    · cases h
  revert hmem
  unfold tileCandidates fp32Candidates fp16Candidates
  split_ifs <;> simp only [List.mem_cons, List.not_mem_nil, or_false] <;>
    rintro (rfl | rfl | rfl) <;> decide

/-- The tiles of the table compile, with whole warps in a block. -/
theorem flashTile_compiles (hvalid : ValidShape shape) {tile : FlashTile}
    (htile : findFlashTile shape.headDim = some tile) {elem : DType} (helem : dtypeSize elem = 2) :
    tile.Compiles elem shape.headDim ∧ tile.stages = 2 ∧ 0 < tile.blockM ∧ 16 ∣ tile.blockM := by
  rcases hvalid.headDim_cases with h | h | h | h | h | h | h <;> rw [h] at htile <;> cases htile <;> rw [h]
  all_goals
    exact ⟨⟨helem, by decide, by decide, by decide, by decide, by decide⟩, by decide,
      by decide, by decide⟩

/-- The flash launch of a valid head dimension runs the grid of its tile. -/
theorem launchForHeadDim_eq (hvalid : ValidShape shape) {tile : FlashTile}
    (htile : findFlashTile shape.headDim = some tile) (p : FlashFwdParams 𝕜) (buf : FlashBuffers 𝕜)
    (elem : DType) (smem : ℕ → ℕ → ℕ → ℕ → Flt 𝕜) (outcome : LaunchOutcome) :
    launchForHeadDim num p buf elem shape.headDim smem outcome =
      launchFlashTyped num p buf elem shape.headDim tile smem outcome := by
  rcases hvalid.headDim_cases with h | h | h | h | h | h | h <;> rw [h] at htile <;> cases htile <;> rw [h]
  all_goals simp [launchForHeadDim, findFlashTile, flashTiles, launchFlashChecked]

/-- The memory after a tiled launch that succeeded. -/
theorem launchTile_eq_ok {p : TiledFwdParams 𝕜} {buf : TiledBuffers 𝕜} {elem : DType} {headDim : ℕ}
    {tile : TileCandidate} {outcome : LaunchOutcome} {res : (ℕ → Flt 𝕜) × Option (ℕ → Flt 𝕜)}
    (h : launchTile num p buf elem headDim tile outcome = .ok res) :
    let stores := tiledGridStores num p buf elem headDim tile (int32Cast (tiledGridX p tile)).toNat
      (int32Cast p.numHeads).toNat (int32Cast p.batch).toNat
    res = (Scatter.apply buf.out stores.1, p.lse.map fun lse => Scatter.apply lse stores.2) := by
  simp only [launchTile] at h
  split_ifs at h
  exact (Except.ok.inj h).symm

/-- The memory after a flash launch that succeeded. -/
theorem launchFlashTyped_eq_ok {p : FlashFwdParams 𝕜} {buf : FlashBuffers 𝕜} {elem : DType}
    {headDim : ℕ} {tile : FlashTile} {smem : ℕ → ℕ → ℕ → ℕ → Flt 𝕜}
    {outcome : LaunchOutcome}
    {res : (ℕ → Flt 𝕜) × Option (ℕ → Flt 𝕜)}
    (h : launchFlashTyped num p buf elem headDim tile smem outcome = .ok res) :
    let stores := flashGridStores num p buf elem headDim tile smem (int32Cast (flashGridX p tile)).toNat
      (int32Cast p.numHeads).toNat (int32Cast p.batch).toNat
    res = (Scatter.apply buf.out stores.1, p.lse.map fun lse => Scatter.apply lse stores.2) := by
  simp only [launchFlashTyped] at h
  split_ifs at h
  exact (Except.ok.inj h).symm

/-- The memory after a flash launch of a valid head dimension that succeeded, whose grid fits an `int`: that
after the whole grid of the tile. -/
theorem launchFlashFwd_grid {p : FlashFwdParams 𝕜} {smem : ℕ → ℕ → ℕ → ℕ → Flt 𝕜}
    {outcome : LaunchOutcome}
    {res : (ℕ → Flt 𝕜) × Option (ℕ → Flt 𝕜)} (h : launchFlashFwd num p smem outcome = .ok res)
    (hvalid : ValidShape shape) (hdim : p.headDim = shape.headDim) {dtype : DType}
    (hid : p.dtypeId = flashDtypeIdFor dtype) (hseq : p.seqQ < 2 ^ 31) (hheads : p.numHeads < 2 ^ 31)
    (hbatch : p.batch < 2 ^ 31) :
    ∃ (buf : FlashBuffers 𝕜) (tile : FlashTile),
      (p.q = some buf.q ∧ p.k = some buf.k ∧ p.v = some buf.v ∧ p.out = some buf.out) ∧
      (tile.Compiles dtype p.headDim ∧ tile.stages = 2 ∧ 0 < tile.blockM ∧ 16 ∣ tile.blockM) ∧
      let stores := flashGridStores num p buf dtype p.headDim tile smem (flashGridX p tile) p.numHeads p.batch
      res = (Scatter.apply buf.out stores.1, p.lse.map fun lse => Scatter.apply lse stores.2) := by
  obtain ⟨buf, elem, hptr, hdtype, hrun⟩ := launchFlashFwd_eq_ok h
  obtain ⟨tile, htile, -⟩ := exists_flashTile hvalid
  obtain rfl : elem = dtype := by
    rw [hid] at hdtype
    revert hdtype
    cases dtype <;> simp [flashDtypeIdFor]
  have hsize : dtypeSize elem = 2 := by
    rcases hdtype with ⟨-, rfl⟩ | ⟨-, rfl⟩ <;> rfl
  obtain ⟨hc, hstages, hM, hdvd⟩ := flashTile_compiles hvalid htile hsize
  have hgrid : flashGridX p tile < 2 ^ 31 := (rowBlocks_le hM).trans_lt hseq
  rw [hdim, launchForHeadDim_eq hvalid htile] at hrun
  have hmem := launchFlashTyped_eq_ok hrun
  rw [int32Cast_toNat hgrid, int32Cast_toNat hheads, int32Cast_toNat hbatch] at hmem
  exact ⟨buf, tile, hptr, ⟨hdim ▸ hc, hstages, hM, hdvd⟩, hdim ▸ hmem⟩

omit [Field 𝕜] [LinearOrder 𝕜] in
/-- The output is laid out as `[B, H_q, S_q, D]`. -/
theorem tiledOutOffset_eq {p : TiledFwdParams 𝕜}
    (ho : p.oStride = stridesFor .bhsd p.seqQ p.numHeads p.headDim) (b h i d : ℕ) :
    p.outOffset b h i d = ((b * p.numHeads + h) * p.seqQ + i) * p.headDim + d := by
  rw [TiledFwdParams.outOffset, ho, stridesFor]
  ring

/-- The problem that the naive kernels work on. -/
theorem naiveParams_problem {id : NaiveDtype} (hid : id.elem = q.dtype) {buf : NaiveBuffers 𝕜}
    (hq : q.data = some buf.q) (hk : k.data = some buf.k) (hv : v.data = some buf.v)
    {scores out : ℕ → Flt 𝕜} {lse : Option (ℕ → Flt 𝕜)} :
    (naiveParams num q k v cfg shape id scores out lse).problem num buf =
      requestProblem num q k v cfg shape := by
  rw [requestProblem, Tensor.bytes_eq hq, Tensor.bytes_eq hk, Tensor.bytes_eq hv, ← hid]
  rfl

/-! ## Decode parameters -/

/-- The output of a single-token request is laid out as `[B, H_q, 1, D]`. -/
theorem outIndex_decodeParams (hseq : shape.seqQ = 1) {id : DecodeDtype} {splits : ℕ}
    {partials out : ℕ → Flt 𝕜} (b h d : ℕ) :
    outIndex (decodeParams num q k v cfg shape id splits partials out) b h d =
      (b * shape.numHeads + h) * shape.headDim + d := by
  simp only [outIndex, decodeParams, Strides.toDecode, outStrides, stridesFor, hseq]
  ring

omit [Field 𝕜] [LinearOrder 𝕜] in
/-- The size of the partials does not wrap where the output was allocated. -/
theorem partialBytes_of_allocOut (hvalid : ValidShape shape) {message : String} {out : ℕ → Flt 𝕜}
    (hout : allocOut env shape message = .ok out) {splits : ℕ} (hsplits : splits ≤ maxSplits) :
    partialBytes shape splits = truePartialBytes shape splits := by
  have hrequests : shape.batch * shape.numHeads ≤ 2 ^ 31 :=
    (Nat.le_mul_of_pos_right _ hvalid.seqQ_pos).trans (rows_lt_of_allocOut hvalid hout).le
  have hdim : 2 + shape.headDim ≤ 258 := Nat.add_le_add_left hvalid.headDim_le 2
  have hle : partialElements shape.batch shape.numHeads splits shape.headDim ≤ 2 ^ 31 * 16 * 258 :=
    Nat.mul_le_mul (Nat.mul_le_mul hrequests hsplits) hdim
  rw [partialBytes_eq, Nat.mod_eq_of_lt]
  unfold truePartialBytes
  omega

omit [Field 𝕜] [LinearOrder 𝕜] in
/-- The partials that were acquired bound the grid of the partial kernel. -/
theorem decodeParams_requests_lt (hvalid : ValidShape shape) {message : String} {out : ℕ → Flt 𝕜}
    (hout : allocOut env shape message = .ok out) {scratch : ScratchEnv 𝕜} {mem : ℕ → Flt 𝕜}
    (h : acquireScratchFp32 scratch (partialBytes shape (decodeSplits dev cfg shape) / 4) = .ok mem) :
    shape.batch * shape.numHeads * decodeSplits dev cfg shape + 3 < 2 ^ 33 := by
  have hlt := (acquireScratchFp32_eq_ok h).2.1
  have hsplits : decodeSplits dev cfg shape ≤ maxSplits := resolveSplits_le cfg _ _
  rw [partialBytes_of_allocOut hvalid hout hsplits, truePartialBytes,
    Nat.mul_div_cancel _ (by decide), partialElements] at hlt
  have hdim : 34 ≤ 2 + shape.headDim := Nat.add_le_add_left hvalid.le_headDim 2
  have hle := Nat.mul_le_mul_left (shape.batch * shape.numHeads * decodeSplits dev cfg shape) hdim
  omega

/-- The positions of a dense request are the keys that its one query sees, under either mask. -/
theorem decodeParams_visible (hseq : shape.seqQ = 1)
    {id : DecodeDtype} {splits : ℕ} {partials out : ℕ → Flt 𝕜} (b : ℕ) :
    (decodeParams num q k v cfg shape id splits partials out).visible b =
      ((requestProblem num q k v cfg shape).visible 0).map Nat.castEmbedding := by
  have hall : (requestProblem num q k v cfg shape).visible 0 = Finset.range shape.seqKv := by
    refine Finset.filter_true_of_mem fun j hj => ?_
    have hlt : j < shape.seqKv := Finset.mem_range.mp hj
    refine ⟨hlt, fun hc => ?_⟩
    have hcausal : cfg.causal = true := hc
    change (j : ℤ) ≤ (0 : ℕ) + diagonalOf cfg shape
    rw [diagonalOf, if_pos hcausal, hseq]
    omega
  rw [hall]
  refine eq_map_range fun j => ?_
  simp [DecodeFwdParams.visible, DecodeFwdParams.Mapped, decodeParams, DecodeFwdParams.seqLen]

/-- The kernels' average over a dense request is its attention. -/
theorem decodeParams_average (hseq : shape.seqQ = 1)
    {id : DecodeDtype} (hid : id.elem = q.dtype) {splits : ℕ} {partials out : ℕ → Flt 𝕜}
    {buf : DecodeBuffers 𝕜} (hq : q.data = some buf.q) (hk : k.data = some buf.k)
    (hv : v.data = some buf.v) {b h d : ℕ} :
    let p := decodeParams num q k v cfg shape id splits partials out
    average num.E (scores num p buf b h) (fun j => valueAt num p buf b h j d) (p.visible b) =
      (requestProblem num q k v cfg shape).attention num.E b h 0 d := by
  intro p
  -- the kernel counts positions in `int64_t`; those of a dense request are not negative
  have hload : ∀ (base stride j e : ℕ),
      ((base : ℤ) + (j : ℤ) * (stride : ℕ) + e).toNat = base + j * stride + e := by
    intro base stride j e
    omega
  rw [decodeParams_visible hseq, average_map, AttnProblem.attention]
  refine average_congr num.E (fun j _ => congrArg WithBot.some ?_) fun j _ => ?_
  · rw [AttnProblem.logit, AttnProblem.dot, mul_comm, scoreAt]
    refine congrArg (· * effectiveScale num cfg shape) (Finset.sum_congr rfl fun e _ => ?_)
    have hquery : queryAt num p buf b h e = (requestProblem num q k v cfg shape).q b h 0 e := by
      change num.load id.elem buf.q _ = num.load q.dtype q.bytes _
      rw [hid, Tensor.bytes_eq hq, Nat.zero_mul, Nat.add_zero]
      rfl
    have hkey : keyAt num p buf b h j e =
        (requestProblem num q k v cfg shape).k b (h / (requestProblem num q k v cfg shape).group) j e := by
      change num.load id.elem buf.k (_ + (j : ℤ) * _ + _).toNat = num.load q.dtype k.bytes _
      rw [hid, Tensor.bytes_eq hk, hload]
      rfl
    exact congrArg₂ (· * ·) hquery hkey
  · change num.load id.elem buf.v (_ + (j : ℤ) * _ + _).toNat = num.load q.dtype v.bytes _
    rw [hid, Tensor.bytes_eq hv, hload]
    rfl

variable (hshape : inferShape q k v cfg.layout = .ok shape)
  (hvalid : (validate num cfg shape).isOk)

section Rows

variable [IsStrictOrderedRing 𝕜] {r : AttentionResult 𝕜} {b h i : ℕ}
  (hb : b < shape.batch) (hh : h < shape.numHeads) (hi : i < shape.seqQ)

include hshape hvalid hb hh hi

/-- The naive backend answers the rows that have a softmax block. -/
theorem naiveForward_answers (hr : naiveForward num env q k v cfg = .ok r)
    (hrow : shape.rowIndex b h i < 2 ^ 24) :
    OutAnswers num (requestProblem num q k v cfg shape) shape r.out b h i ∧
      (cfg.returnLse = true →
        LseAnswers num (requestProblem num q k v cfg shape) shape r.lse b h i) := by
  obtain ⟨id, scores, out, lse, res, hid, -, -, -, hlse, hlaunch, hout, hres, -⟩ :=
    naiveForward_eq_ok hshape hvalid hr
  obtain ⟨buf, ⟨hq, hk, hv, -, -⟩, -, rfl⟩ := launchNaiveForward_eq_ok hlaunch
  set p := naiveParams num q k v cfg shape id scores out lse with hp
  have hproblem : p.problem num buf = requestProblem num q k v cfg shape :=
    naiveParams_problem (elem_of_dtypeIdFor hid) hq hk hv
  have hvis : ((p.problem num buf).visible i).Nonempty :=
    hproblem ▸ requestProblem_visible (validate_isOk_iff.mp hvalid) i
  have hlt : shape.rowIndex b h i < shape.rows := AttentionShape.rowIndex_lt hb hh hi
  have hblocks : shape.rowIndex b h i < softmaxBlocks p :=
    lt_min (hlt.trans_le (le_max_right _ _)) hrow
  rw [← hproblem, hout, hres]
  refine ⟨fun d hd => ?_, fun hret => ?_⟩
  · rw [← naivePipeline_out rfl hb hh hi hd hblocks hvis, outOffset_eq rfl]
    rfl
  · obtain ⟨mem, rfl⟩ := exists_lse hlse hret
    obtain ⟨mem', hmem, hvalue⟩ :=
      naivePipeline_lse num p buf hret rfl hb hh hi hblocks hvis
    rw [hmem]
    exact ⟨mem', rfl, hvalue⟩

/-- The tiled backend answers every row. -/
theorem tiledForward_answers (hr : tiledForward num env q k v cfg = .ok r) :
    OutAnswers num (requestProblem num q k v cfg shape) shape r.out b h i ∧
      (cfg.returnLse = true →
        LseAnswers num (requestProblem num q k v cfg shape) shape r.lse b h i) := by
  obtain ⟨tile, id, out, lse, res, hid, -, htile, halloc, hlse, hlaunch, hout, hres, -⟩ :=
    tiledForward_eq_ok hshape hvalid hr
  obtain ⟨buf, ⟨hq, hk, hv, -⟩, -, hrun⟩ := launchTiledForward_eq_ok hlaunch
  set p := tiledParams num q k v cfg shape id out lse with hp
  have hreq := validate_isOk_iff.mp hvalid
  obtain ⟨hM, hblockN, hwarps⟩ := selectTile_pos htile
  have hN : 0 < tile.blockN := by omega
  have hrows := rows_lt_of_allocOut hreq.validShape halloc
  obtain ⟨hbatch, hheads, hseq⟩ := le_rows hreq.validShape
  have hgrid : tiledGridX p tile < 2 ^ 31 := (rowBlocks_le hM).trans_lt (hseq.trans_lt hrows)
  have hproblem : p.problem num buf p.dtype.elem p.headDim = requestProblem num q k v cfg shape := by
    rw [requestProblem, Tensor.bytes_eq hq, Tensor.bytes_eq hk, Tensor.bytes_eq hv,
      ← elem_of_dtypeIdFor hid]
    rfl
  have hdvd : 4 ∣ p.headDim := dvd_trans (by decide) hreq.validShape.dvd_headDim
  have hmem := launchTile_eq_ok hrun
  rw [int32Cast_toNat hgrid, int32Cast_toNat (show p.numHeads < _ from hheads.trans_lt hrows),
    int32Cast_toNat (show p.batch < _ from hbatch.trans_lt hrows)] at hmem
  subst hmem
  rw [← hproblem, hout, hres]
  refine ⟨fun d hd => ?_, fun hret => ?_⟩
  · have hcell := (tiledGrid_out buf p.dtype.elem num (p := p) hM hN hwarps hdvd rfl hb hh hi hd).2
    rw [tiledOutOffset_eq rfl] at hcell
    exact hcell
  · obtain ⟨mem, rfl⟩ := exists_lse hlse hret
    exact ⟨_, rfl, tiledGrid_lse hM hN hwarps ⟨hret, rfl⟩ mem hb hh hi⟩

/-- The flash backend answers every row. -/
theorem flashForward_answers (hr : flashForward num env q k v cfg = .ok r) :
    OutAnswers num (requestProblem num q k v cfg shape) shape r.out b h i ∧
      (cfg.returnLse = true →
        LseAnswers num (requestProblem num q k v cfg shape) shape r.lse b h i) := by
  obtain ⟨-, out, lse, res, -, -, -, -, halloc, hlse, hlaunch, hout, hres, -⟩ :=
    flashForward_eq_ok hshape hvalid hr
  set p := flashParams num q k v cfg shape out lse with hp
  have hreq := validate_isOk_iff.mp hvalid
  have hrows := rows_lt_of_allocOut hreq.validShape halloc
  obtain ⟨hbatch, hheads, hseq⟩ := le_rows hreq.validShape
  obtain ⟨buf, tile, ⟨hq, hk, hv, -⟩, ⟨hc, hstages, hM, hdvd⟩, rfl⟩ :=
    launchFlashFwd_grid hlaunch hreq.validShape rfl rfl (hseq.trans_lt hrows) (hheads.trans_lt hrows)
      (hbatch.trans_lt hrows)
  have hproblem : p.problem num buf q.dtype p.headDim = requestProblem num q k v cfg shape := by
    rw [requestProblem, Tensor.bytes_eq hq, Tensor.bytes_eq hk, Tensor.bytes_eq hv]
    rfl
  rw [← hproblem, hout, hres]
  refine ⟨fun d hd => ?_, fun hret => ?_⟩
  · exact flashGrid_out hc hstages hM hdvd rfl buf.out hb hh hi hd
  · obtain ⟨mem, rfl⟩ := exists_lse hlse hret
    exact ⟨_, rfl, flashGrid_lse hc hstages hM hdvd ⟨hret, rfl⟩ mem hb hh hi⟩

omit hi in
/-- The decode backend answers every row; it has no LSE tensor. -/
theorem decodeForward_answers (hr : decodeForward num env q k v cfg = .ok r) :
    OutAnswers num (requestProblem num q k v cfg shape) shape r.out b h 0 ∧ r.lse = none := by
  obtain ⟨id, partials, out, res, hid, hseq, hscratch, halloc, hlaunch, hout, hlse, -⟩ :=
    decodeForward_eq_ok hshape hvalid hr
  obtain ⟨buf, ⟨hq, hk, hv, -⟩, -, hrun⟩ := launchDecodeSplitK_eq_ok hlaunch
  have hreq := validate_isOk_iff.mp hvalid
  refine ⟨fun d hd => ?_, hlse⟩
  set p := decodeParams num q k v cfg shape id (decodeSplits dev cfg shape) partials out with hp
  have hinj : OutInjective p := by
    intro b h d b' h' d' hh hh' hd hd' heq
    rw [hp, outIndex_decodeParams hseq, outIndex_decodeParams hseq] at heq
    obtain ⟨hrow, hcol⟩ := Strided.mul_add_inj hd hd' heq
    obtain ⟨hb, hhead⟩ := Strided.mul_add_inj hh hh' hrow
    exact ⟨hb, hhead, hcol⟩
  have hdvd : 32 ∣ p.headDim := hreq.validShape.dvd_headDim
  have hgrid : p.requests + 3 < 2 ^ 33 := decodeParams_requests_lt hreq.validShape halloc hscratch
  have hcell := launchForDim_out ⟨(Nat.zero_add _).symm, (Nat.zero_add _).symm⟩ hinj hdvd
    (resolveSplits_pos cfg _ _) hgrid hrun hb hh hd
  rw [hp, outIndex_decodeParams hseq, ← hp] at hcell
  have hindex : shape.rowIndex b h 0 = b * shape.numHeads + h := by
    rw [AttentionShape.rowIndex, hseq]
    omega
  rw [hout, hindex, hcell, hp, decodeParams_average hseq (elem_of_dtypeIdFor hid) hq hk hv]

end Rows

end Answers

end SciAttention

import SciAttention.Attention.Paged
import SciAttention.KvCache.Refinement

/-!
# Paged attention is contiguous decode attention

`runPaged_out` says what any accepted paged request computes: the softmax average over the positions
its page table maps. For a synchronised cache the mapped positions below a sequence's length are all
of them, each at the slot that stores it (`Synced.kvRow`), so the average is the one over the stored
rows in logical order, wherever their blocks lie.
-/

namespace SciAttention

open Flt Softmax PagedKVCache

section Request

variable {𝕜 : Type*} [Field 𝕜] [LinearOrder 𝕜] {num : Numerics 𝕜} {env : AttentionEnv 𝕜}
  {q : Tensor} {kv : PagedKVCache} {params : PagedAttentionParams} {cfg : AttentionConfig 𝕜}

theorem elem_of_dtypeIdFor {dtype : DType} {id : DecodeDtype} (h : dtypeIdFor dtype = some id) :
    id.elem = dtype := by
  cases dtype <;> simp [dtypeIdFor] at h <;> subst h <;> rfl

/-- What a request passed on its way to the launch. -/
structure PagedAccepted (env : AttentionEnv 𝕜) (q : Tensor) (kv : PagedKVCache)
    (params : PagedAttentionParams) (cfg : AttentionConfig 𝕜) (id : DecodeDtype)
    (table : ℤ → ℤ) (out : ℕ → Flt 𝕜) : Prop where
  ndims_eq : q.ndims = 4
  seqQ_eq : q.dim 2 = nativeSeqQ
  numSeqs_pos : 0 < q.dim 0
  numSeqs_le : q.dim 0 ≤ kv.cfg.maxNumSeqs
  layer_nonneg : 0 ≤ params.layer
  layer_lt : params.layer < kv.storage.cfg.numLayers
  dtype_id : dtypeIdFor q.dtype = some id
  dim_dvd : 32 ∣ q.dim 3
  dim_supported : (q.dim 3 : ℤ) ∈ supportedHeadDims
  table_eq : params.pageTable.or kv.pageTableDevicePtr = some table
  scratch_ok : acquireScratchFp32 env.scratch
    (partialElements (q.dim 0) (q.dim 1) (pagedSplits env kv params cfg) (q.dim 3)) =
      .ok env.scratch.contents
  out_eq : env.outAlloc = some out

/-- The checks of `RunPaged` and the parameters it builds. -/
theorem pagedRequest_eq_ok {p : DecodeFwdParams 𝕜} :
    pagedRequest num env q kv params cfg = .ok p ↔
      ∃ id table out, PagedAccepted env q kv params cfg id table out ∧
        p = pagedParams num env q kv params cfg id table env.scratch.contents out := by
  constructor
  · intro h
    unfold pagedRequest at h
    split_ifs at h with h1 h2 h3 h4 h5
    · cases hid : dtypeIdFor q.dtype <;> simp [hid] at h
    cases hid : dtypeIdFor q.dtype with
    | none => simp [hid] at h
    | some id =>
      cases htable : params.pageTable.or kv.pageTableDevicePtr with
      | none => simp [hid, htable] at h
      | some table =>
        cases hscratch : acquireScratchFp32 env.scratch
            (partialElements (q.dim 0) (q.dim 1) (pagedSplits env kv params cfg) (q.dim 3)) with
        | error e => simp [hid, htable, hscratch] at h
        | ok scratch =>
          obtain ⟨-, -, rfl⟩ := acquireScratchFp32_eq_ok hscratch
          cases hout : env.outAlloc with
          | none => simp [hid, htable, hscratch, hout] at h
          | some out =>
            simp only [hid, htable, hscratch, hout, Except.ok.injEq] at h
            simp only [ne_eq, not_not] at h1 h2
            rw [not_or, not_not, supportedHeadDimIndex_nonneg_iff] at h5
            exact ⟨id, table, out, ⟨h1, h2, by omega, by omega, by omega, by omega, hid,
              Nat.dvd_of_mod_eq_zero h5.1, h5.2, htable, hscratch, hout⟩, h.symm⟩
  · rintro ⟨id, table, out, h, rfl⟩
    unfold pagedRequest
    have hdim : ¬ (q.dim 3 % 32 ≠ 0 ∨ supportedHeadDimIndex (q.dim 3) < 0) := by
      rw [not_or, not_not, supportedHeadDimIndex_nonneg_iff]
      exact ⟨Nat.mod_eq_zero_of_dvd h.dim_dvd, h.dim_supported⟩
    have hseqs := h.numSeqs_pos
    have hmax := h.numSeqs_le
    have hlayer := h.layer_nonneg
    have hlayers := h.layer_lt
    rw [if_neg (not_not.mpr h.ndims_eq), if_neg (not_not.mpr h.seqQ_eq), if_neg (by omega),
      if_neg (by omega), h.dtype_id]
    simp only [if_neg hdim, h.table_eq, h.scratch_ok, h.out_eq]

namespace PagedAccepted

variable {id : DecodeDtype} {table : ℤ → ℤ} {out : ℕ → Flt 𝕜}

omit [Field 𝕜] [LinearOrder 𝕜] in
theorem numHeads_pos (h : PagedAccepted env q kv params cfg id table out) : 0 < q.dim 1 := by
  rcases Nat.eq_zero_or_pos (q.dim 1) with hzero | hpos
  · have := (acquireScratchFp32_eq_ok h.scratch_ok).1
    simp [partialElements, hzero] at this
  · exact hpos

omit [Field 𝕜] [LinearOrder 𝕜] in
/-- The partials fit the grid of the partial kernel. -/
theorem requests_lt (h : PagedAccepted env q kv params cfg id table out) :
    q.dim 0 * q.dim 1 * pagedSplits env kv params cfg + 3 < 2 ^ 33 := by
  have hlt := (acquireScratchFp32_eq_ok h.scratch_ok).2.1
  have hdim := pos_of_mem_supportedHeadDims h.dim_supported
  obtain ⟨n, hn⟩ := h.dim_dvd
  rw [partialElements] at hlt
  have hle := Nat.mul_le_mul_left (q.dim 0 * q.dim 1 * pagedSplits env kv params cfg)
    (show 34 ≤ 2 + q.dim 3 by omega)
  omega

end PagedAccepted

/-- The memory a paged request works on. -/
def pagedBuffers (env : AttentionEnv 𝕜) (kv : PagedKVCache) (layer : ℤ) (qData : Bytes)
    (out : ℕ → Flt 𝕜) : DecodeBuffers 𝕜 :=
  ⟨qData, kv.storage.kLayers layer.toNat, kv.storage.vLayers layer.toNat, out,
    env.scratch.contents⟩

omit [Field 𝕜] [LinearOrder 𝕜] in
theorem blockSizeFor_pos (params : PagedAttentionParams) (kv : PagedKVCache) :
    0 < params.blockSizeFor kv := by
  unfold PagedAttentionParams.blockSizeFor
  split_ifs with h
  · omega
  · exact kv.cfg.blockSize_pos

/-- The launch of an accepted request with a query in memory runs the kernels. -/
theorem launchPagedAttention_eq {id : DecodeDtype} {table : ℤ → ℤ} {out : ℕ → Flt 𝕜}
    (h : PagedAccepted env q kv params cfg id table out)
    (hmax : 0 < params.maxBlocksFor kv) (launch : ℕ → LaunchOutcome) :
    launchPagedAttention num
        (pagedParams num env q kv params cfg id table env.scratch.contents out) launch =
      match q.data with
      | none => .error (Status.invalidArgument "decode: null pointer")
      | some qData => launchForDim num
          (pagedParams num env q kv params cfg id table env.scratch.contents out)
          (pagedBuffers env kv params.layer qData out) launch := by
  have hsplits : 0 < pagedSplits env kv params cfg := resolveSplits_pos cfg _ _
  have hblocks := blockSizeFor_pos params kv
  have hnum := kv.storage.cfg.numBlocks_pos
  rw [launchPagedAttention, if_neg (by simp [pagedParams]), launchDecodeSplitKPaged,
    if_neg (by simp [pagedParams]), if_neg (by simp only [pagedParams]; omega), launchDecodeSplitK]
  cases hq : q.data with
  | none => simp only [pagedParams, hq]
  | some qData =>
    simp only [pagedParams, hq]
    rw [if_neg (by omega), launchDecodeTyped, if_pos h.dim_supported]
    rfl

/-- A paged request that succeeded was accepted, and its launch gave the output. -/
theorem runPaged_eq_ok {r : AttentionResult 𝕜} (h : runPaged num env q kv params cfg = .ok r) :
    ∃ p, pagedRequest num env q kv params cfg = .ok p ∧
      launchPagedAttention num p env.launch = .ok r.out ∧
      r.outDims = [q.dim 0, q.dim 1, q.dim 2, q.dim 3] := by
  unfold runPaged at h
  split at h
  · cases h
  · rename_i p hreq
    split at h
    · cases h
    · rename_i out hlaunch
      cases h
      exact ⟨p, hreq, hlaunch, rfl⟩

/-- The three kinds of partials of a paged request lie one after the other. -/
theorem pagedParams_layout (id : DecodeDtype) (table : ℤ → ℤ) (scratch out : ℕ → Flt 𝕜) :
    PartialLayout (pagedParams num env q kv params cfg id table scratch out) :=
  ⟨(Nat.zero_add _).symm, (Nat.zero_add _).symm⟩

/-- The output of a paged request is the row-major `[num_seqs, H_q, 1, D]` tensor. -/
theorem outIndex_pagedParams (hseq : q.dim 2 = 1) (id : DecodeDtype) (table : ℤ → ℤ)
    (scratch out : ℕ → Flt 𝕜) (i h d : ℕ) :
    outIndex (pagedParams num env q kv params cfg id table scratch out) i h d =
      (i * q.dim 1 + h) * q.dim 3 + d := by
  simp only [outIndex, pagedParams, hseq, Nat.mul_one, Nat.one_mul]
  ring

theorem pagedParams_outInjective (hseq : q.dim 2 = 1) (id : DecodeDtype) (table : ℤ → ℤ)
    (scratch out : ℕ → Flt 𝕜) :
    OutInjective (pagedParams num env q kv params cfg id table scratch out) := by
  intro i h d i' h' d' hh hh' hd hd' heq
  rw [outIndex_pagedParams hseq, outIndex_pagedParams hseq] at heq
  obtain ⟨hrow, hcol⟩ := Strided.mul_add_inj hd hd' heq
  obtain ⟨hi, hhead⟩ := Strided.mul_add_inj hh hh' hrow
  exact ⟨hi, hhead, hcol⟩

variable [IsStrictOrderedRing 𝕜]

/-- The output of the kernels on an accepted request. -/
theorem PagedAccepted.launch_out {id : DecodeDtype} {table : ℤ → ℤ} {out mem : ℕ → Flt 𝕜}
    {launch : ℕ → LaunchOutcome} {buf : DecodeBuffers 𝕜}
    (hacc : PagedAccepted env q kv params cfg id table out) {p : DecodeFwdParams 𝕜}
    (hp : p = pagedParams num env q kv params cfg id table env.scratch.contents out)
    (hlaunch : launchForDim num p buf launch = .ok mem) {i h d : ℕ} (hi : i < q.dim 0)
    (hh : h < q.dim 1) (hd : d < q.dim 3) :
    mem ((i * q.dim 1 + h) * q.dim 3 + d) =
      fin (average num.E (scores num p buf i h) (fun j => valueAt num p buf i h j d)
        (p.visible i)) := by
  have hlay : PartialLayout p := hp ▸ pagedParams_layout id table _ out
  have hinj : OutInjective p := hp ▸ pagedParams_outInjective hacc.seqQ_eq id table _ out
  have hindex : outIndex p i h d = (i * q.dim 1 + h) * q.dim 3 + d :=
    hp ▸ outIndex_pagedParams hacc.seqQ_eq id table _ out i h d
  have hsplits : 0 < p.numSplits := by
    rw [hp]
    exact resolveSplits_pos cfg _ _
  have hgrid : p.requests + 3 < 2 ^ 33 := by
    have hrequests : p.requests = q.dim 0 * q.dim 1 * pagedSplits env kv params cfg := by rw [hp]; rfl
    rw [hrequests]
    exact hacc.requests_lt
  have hdims : p.batch = q.dim 0 ∧ p.numHeads = q.dim 1 ∧ p.headDim = q.dim 3 := by
    rw [hp]
    exact ⟨rfl, rfl, rfl⟩
  rw [← hindex]
  exact launchForDim_out hlay hinj (hdims.2.2 ▸ hacc.dim_dvd) hsplits hgrid hlaunch
    (hdims.1 ▸ hi) (hdims.2.1 ▸ hh) (hdims.2.2 ▸ hd)

/-- Every paged request computes the softmax averages over the positions its page table maps. -/
theorem runPaged_out {r : AttentionResult 𝕜} (hmax : 0 < params.maxBlocksFor kv)
    (hok : runPaged num env q kv params cfg = .ok r) :
    ∃ id table out qData, PagedAccepted env q kv params cfg id table out ∧ q.data = some qData ∧
      r.outDims = [q.dim 0, q.dim 1, q.dim 2, q.dim 3] ∧
      ∀ i < q.dim 0, ∀ h < q.dim 1, ∀ d < q.dim 3,
        let p := pagedParams num env q kv params cfg id table env.scratch.contents out
        let buf := pagedBuffers env kv params.layer qData out
        r.out ((i * q.dim 1 + h) * q.dim 3 + d) =
          fin (average num.E (scores num p buf i h) (fun j => valueAt num p buf i h j d)
            (p.visible i)) := by
  obtain ⟨p, hreq, hlaunch, hdims⟩ := runPaged_eq_ok hok
  obtain ⟨id, table, out, hacc, rfl⟩ := pagedRequest_eq_ok.mp hreq
  rw [launchPagedAttention_eq hacc hmax] at hlaunch
  cases hq : q.data with
  | none =>
    rw [hq] at hlaunch
    cases hlaunch
  | some qData =>
    rw [hq] at hlaunch
    exact ⟨id, table, out, qData, hacc, rfl, hdims, fun i hi h hh d hd =>
      hacc.launch_out rfl hlaunch hi hh hd⟩

omit [IsStrictOrderedRing 𝕜] in
/-- An accepted request succeeds when the device runs its kernels. -/
theorem runPaged_isOk {id : DecodeDtype} {table : ℤ → ℤ} {out : ℕ → Flt 𝕜} {qData : Bytes}
    (hacc : PagedAccepted env q kv params cfg id table out) (hmax : 0 < params.maxBlocksFor kv)
    (hq : q.data = some qData) (hlaunch : ∀ n, env.launch n = .ok) :
    ∃ r, runPaged num env q kv params cfg = .ok r := by
  have hreq : pagedRequest num env q kv params cfg =
      .ok (pagedParams num env q kv params cfg id table env.scratch.contents out) :=
    pagedRequest_eq_ok.mpr ⟨id, table, out, hacc, rfl⟩
  obtain ⟨mem, hmem⟩ : ∃ mem, launchForDim num
      (pagedParams num env q kv params cfg id table env.scratch.contents out)
      (pagedBuffers env kv params.layer qData out) env.launch = .ok mem :=
    launchForDim_isOk hlaunch (Nat.mul_pos hacc.numSeqs_pos hacc.numHeads_pos)
      (resolveSplits_pos cfg _ _) hacc.requests_lt
  simp only [runPaged, hreq, launchPagedAttention_eq hacc hmax, hq, hmem]
  exact ⟨_, rfl⟩

end Request

/-! ## Positions of a synchronised cache -/

namespace PagedKVCache

/-- The slot that stores position `x` of sequence `s`. -/
def slotOf (c : PagedKVCache) (s x : ℕ) : ℕ :=
  ((c.seqBlocks s).getD (x / c.cfg.blockSize) (-1)).toNat * c.cfg.blockSize + x % c.cfg.blockSize

/-- The mirror as the kernels read it, entry by entry. -/
theorem pageTableDevicePtr_eq {c : PagedKVCache} {table : HostTable}
    (hdevice : c.pageTableDevice = some table) :
    ∃ flat, c.pageTableDevicePtr = some flat ∧
      ∀ s j : ℕ, j < c.maxBlocksPerSeq → flat (s * c.maxBlocksPerSeq + j) = table s j := by
  refine ⟨_, congrArg (Option.map _) hdevice, fun s j hj => ?_⟩
  have hcast : ((s : ℤ) * c.maxBlocksPerSeq + j).toNat = s * c.maxBlocksPerSeq + j := by omega
  simp only [hcast]
  rw [Strided.flat_div s hj, Strided.flat_mod s hj]

variable {c : PagedKVCache} {table : HostTable} {flat : ℤ → ℤ}

/-- The rows of the page table are not empty. -/
theorem Synced.maxBlocks_pos (h : Synced c table) : 0 < c.maxBlocksPerSeq :=
  h.inv.maxBlocks_eq ▸ c.cfg.numBlocks_pos

/-- Below a sequence's length the page table leads to the slot that stores the position. -/
theorem Synced.pageTableRow_eq (h : Synced c table)
    (hflat : ∀ s j : ℕ, j < c.maxBlocksPerSeq → flat (s * c.maxBlocksPerSeq + j) = table s j)
    {s x : ℕ} (hs : s < c.cfg.maxNumSeqs) (hx : x < c.seqLengths s) :
    pageTableRow flat s x c.cfg.blockSize c.maxBlocksPerSeq c.cfg.numBlocks = c.slotOf s x := by
  have hblock : x / c.cfg.blockSize < (c.seqBlocks s).length := by
    rw [Nat.div_lt_iff_lt_mul c.cfg.blockSize_pos]
    exact hx.trans_le (h.inv.length_le s)
  have hmax : x / c.cfg.blockSize < c.maxBlocksPerSeq := by
    rw [h.inv.maxBlocks_eq]
    exact hblock.trans_le (h.inv.hostRow s hs).length_le
  have hentry : table s (x / c.cfg.blockSize) =
      (c.seqBlocks s).getD (x / c.cfg.blockSize) (-1) :=
    h.current s hs _ ((Nat.div_mul_le_self x _).trans_lt hx)
  have hmem : (c.seqBlocks s).getD (x / c.cfg.blockSize) (-1) ∈ c.seqBlocks s := by
    rw [List.getD_eq_getElem _ _ hblock]
    exact List.getElem_mem hblock
  obtain ⟨hnonneg, hlt⟩ := h.inv.bounds hmem
  have hlookup : pageTableLookup flat s x c.cfg.blockSize c.maxBlocksPerSeq =
      (c.seqBlocks s).getD (x / c.cfg.blockSize) (-1) := by
    have hdiv : (x : ℤ).tdiv c.cfg.blockSize = (x / c.cfg.blockSize : ℕ) := rfl
    simp only [pageTableLookup, hdiv]
    rw [if_neg (by omega), hflat s _ hmax, hentry]
  have hmod : (x : ℤ).tmod c.cfg.blockSize = (x % c.cfg.blockSize : ℕ) := rfl
  simp only [pageTableRow, hlookup, hmod]
  rw [if_neg (by omega), slotOf, Nat.cast_add, Nat.cast_mul, Int.toNat_of_nonneg hnonneg]

end PagedKVCache

/-! ## Stored rows -/

/-- The bytes of element `index` of a stored row are those the kernels load. -/
theorem rowOf_elem {shape : KVCacheShape} {elemBytes slot index : ℕ} (mem : Bytes)
    (h : index < shape.numKvHeads * shape.headDim) :
    ((rowOf shape elemBytes mem slot).drop (index * elemBytes)).take elemBytes =
      (List.range elemBytes).map fun b =>
        mem ((slot * (shape.numKvHeads * shape.headDim) + index) * elemBytes + b) := by
  have hroom : index * elemBytes + elemBytes ≤ shape.numKvHeads * (shape.headDim * elemBytes) := by
    rw [← Nat.succ_mul, ← Nat.mul_assoc]
    exact Nat.mul_le_mul_right _ h
  refine List.ext_getElem ?_ fun b hb hb' => ?_
  · simp only [List.length_take, List.length_drop, rowOf, List.length_map, List.length_range,
      slotRowBytes]
    omega
  · simp only [List.getElem_take, List.getElem_drop, rowOf, List.getElem_map, List.getElem_range,
      slotByte, slotRowBytes]
    congr 1
    ring

section Stored

variable {𝕜 : Type*} [Field 𝕜] [LinearOrder 𝕜] (num : Numerics 𝕜)

/-- Element `d` of kv head `g` in the row stored for position `x` of sequence `s`. -/
def PagedKVCache.storedAt (c : PagedKVCache) (isKey : Bool) (layer s g x d : ℕ) : 𝕜 :=
  num.toFloat c.cfg.dtype
    (((c.rowAt isKey layer (c.slotOf s x)).drop ((g * c.cfg.headDim + d) * c.cfg.elemBytes)).take
      c.cfg.elemBytes)

/-- Contiguous decode attention of a query over `n` key and value rows. -/
def decodeAttention (scale : 𝕜) (headDim : ℕ) (query : ℕ → 𝕜) (key value : ℕ → ℕ → 𝕜)
    (n d : ℕ) :
    𝕜 :=
  average num.E
    (fun x => (((∑ e ∈ Finset.range headDim, query e * key x e) * scale : 𝕜) : WithBot 𝕜))
    (fun x => value x d) (Finset.range n)

/-- Over no rows the output is zero. -/
theorem decodeAttention_zero (scale : 𝕜) (headDim : ℕ) (query : ℕ → 𝕜)
    (key value : ℕ → ℕ → 𝕜)
    (d : ℕ) : decodeAttention num scale headDim query key value 0 d = 0 := by
  simp [decodeAttention, average]

/-- Element `d` of row `(i, h)` of a query tensor `[num_seqs, H_q, 1, D]`. -/
def queryElem (q : Tensor) (qData : Bytes) (i h d : ℕ) : 𝕜 :=
  num.load q.dtype qData ((i * q.dim 1 + h) * q.dim 3 + d)

/-- The contiguous decode attention of row `(i, h)` of a query over the rows that a cache stores for
the tokens of sequence `i` in a layer. -/
def PagedKVCache.attentionOf (c : PagedKVCache) (layer : ℕ) (cfg : AttentionConfig 𝕜) (q : Tensor)
    (qData : Bytes) (i h d : ℕ) : 𝕜 :=
  let g := h / (q.dim 1 / c.cfg.numKvHeads)
  let shape : AttentionShape :=
    { batch := q.dim 0, seqQ := 1, seqKv := c.seqLengths i, numHeads := q.dim 1
      numKvHeads := c.cfg.numKvHeads, headDim := c.cfg.headDim }
  decodeAttention num (effectiveScale num cfg shape) c.cfg.headDim (queryElem num q qData i h)
    (c.storedAt num true layer i g) (c.storedAt num false layer i g) (c.seqLengths i) d

variable {num}

/-- The element a kernel loads from a layer is the one of the stored row. -/
theorem PagedKVCache.load_eq_storedAt (c : PagedKVCache) (isKey : Bool) {layer s g x d : ℕ}
    (hg : g < c.cfg.numKvHeads) (hd : d < c.cfg.headDim) :
    num.load c.cfg.dtype (c.storage.side isKey layer)
        (c.slotOf s x * (c.cfg.numKvHeads * c.cfg.headDim) + (g * c.cfg.headDim + d)) =
      c.storedAt num isKey layer s g x d := by
  have hindex : g * c.cfg.headDim + d < c.cfg.numKvHeads * c.cfg.headDim := by
    have := Nat.mul_le_mul_right c.cfg.headDim (show g + 1 ≤ c.cfg.numKvHeads from hg)
    linarith
  rw [Numerics.load, PagedKVCache.storedAt, PagedKVCache.rowAt, rowOf_elem _ hindex]
  rfl

variable {env : AttentionEnv 𝕜} {q : Tensor} {params : PagedAttentionParams}
  {cfg : AttentionConfig 𝕜} {id : DecodeDtype} {flat : ℤ → ℤ} {scratch out : ℕ → Flt 𝕜}
  {qData : Bytes} {c : PagedKVCache} {table : HostTable}

/-- A query `[n, H_q, 1, D]` that fits a cache. -/
structure FitsCache (q : Tensor) (c : PagedKVCache) : Prop where
  ndims_eq : q.ndims = 4
  numSeqs_le : q.dim 0 ≤ c.cfg.maxNumSeqs
  seqQ_eq : q.dim 2 = 1
  dim_eq : q.dim 3 = c.cfg.headDim
  dtype_eq : q.dtype = c.cfg.dtype
  group_dvd : c.cfg.numKvHeads ∣ q.dim 1

theorem FitsCache.kvHead_lt (h : FitsCache q c) {head : ℕ} (hh : head < q.dim 1) :
    head / (q.dim 1 / c.cfg.numKvHeads) < c.cfg.numKvHeads := by
  obtain ⟨n, hn⟩ := h.group_dvd
  have hpos := c.cfg.numKvHeads_pos
  rw [hn, Nat.mul_div_cancel_left _ hpos]
  rw [hn] at hh
  have hn0 : 0 < n := Nat.pos_of_ne_zero fun hzero => by simp [hzero] at hh
  rwa [Nat.div_lt_iff_lt_mul hn0]

/-- The length of a sequence that a query addresses. -/
theorem FitsCache.seqLength_eq (h : FitsCache q c) {i : ℕ} (hi : i < q.dim 0) :
    c.seqLength i = c.seqLengths i := by
  have := h.numSeqs_le
  rw [seqLength, if_neg (by omega), Int.toNat_natCast]

/-- The offset of an element of a row, in natural numbers. -/
theorem elem_offset_toNat (base slot stride e : ℕ) :
    ((0 + base : ℕ) + (slot : ℤ) * (stride : ℕ) + e).toNat = slot * stride + (base + e) := by
  have hcast : ((0 + base : ℕ) + (slot : ℤ) * (stride : ℕ) + e) =
      (slot * stride + (base + e) : ℕ) := by
    push_cast
    ring
  rw [hcast, Int.toNat_natCast]

/-- A set of integer positions that are exactly the natural numbers below `n`. -/
theorem eq_map_range {J : Finset ℤ} {n : ℕ} (h : ∀ j : ℤ, j ∈ J ↔ 0 ≤ j ∧ j < n) :
    J = (Finset.range n).map Nat.castEmbedding := by
  ext j
  simp only [h, Finset.mem_map, Finset.mem_range, Nat.castEmbedding_apply]
  constructor
  · rintro ⟨hj, hlt⟩
    exact ⟨j.toNat, by omega, by omega⟩
  · rintro ⟨x, hx, rfl⟩
    omega

/-- The page table of a request leads sequence `i` to its tokens: the mapped positions are those below
the length, each at the slot that stores it. -/
structure ReadsTokens (c : PagedKVCache) (p : DecodeFwdParams 𝕜) (i : ℕ) : Prop where
  mem_visible : ∀ j : ℤ, j ∈ p.visible i ↔ 0 ≤ j ∧ j < c.seqLengths i
  kvRow_eq : ∀ x < c.seqLengths i, p.kvRow i x = c.slotOf i x

/-- Where a request reads the tokens of a sequence, the kernels' average is the contiguous attention
over the stored rows. -/
theorem ReadsTokens.average_eq {p : DecodeFwdParams 𝕜} {i : ℕ} (h : ReadsTokens c p i)
    (hcfg : c.storage.cfg = c.cfg) (hfits : FitsCache q c) (hid : id.elem = q.dtype) {head d : ℕ}
    (hh : head < q.dim 1) (hd : d < c.cfg.headDim)
    (hp : p = pagedParams num env q c params cfg id flat scratch out) :
    average num.E (scores num p (pagedBuffers env c params.layer qData out) i head)
        (fun j => valueAt num p (pagedBuffers env c params.layer qData out) i head j d)
        (p.visible i) = c.attentionOf num params.layer.toNat cfg q qData i head d := by
  have hg := hfits.kvHead_lt hh
  have helem : p.dtype.elem = c.cfg.dtype := by
    rw [hp]
    exact hid.trans hfits.dtype_eq
  -- what the kernel loads for a position is what the cache stored for it
  have hload : ∀ isKey, ∀ x < c.seqLengths i, ∀ e < c.cfg.headDim,
      num.load c.cfg.dtype (c.storage.side isKey params.layer.toNat)
        ((0 + head / (q.dim 1 / c.cfg.numKvHeads) * c.cfg.headDim : ℕ) +
          p.kvRow i x * (c.cfg.numKvHeads * c.cfg.headDim : ℕ) + e : ℤ).toNat =
      c.storedAt num isKey params.layer.toNat i (head / (q.dim 1 / c.cfg.numKvHeads)) x e := by
    intro isKey x hx e he
    rw [← c.load_eq_storedAt isKey hg he, h.kvRow_eq x hx, elem_offset_toNat]
  rw [eq_map_range h.mem_visible, average_map]
  refine average_congr num.E (fun x hx => ?_) fun x hx => ?_
  · refine congrArg WithBot.some ?_
    rw [Finset.mem_range] at hx
    have hdim : p.headDim = c.cfg.headDim := by
      rw [hp]
      exact hfits.dim_eq
    have hscale : p.scale = effectiveScale num cfg
        { batch := q.dim 0, seqQ := 1, seqKv := c.seqLengths i, numHeads := q.dim 1
          numKvHeads := c.cfg.numKvHeads, headDim := c.cfg.headDim } := by
      rw [hp]
      simp only [pagedParams, effectiveScale, hfits.dim_eq]
    rw [scoreAt, hdim, hscale]
    congr 1
    refine Finset.sum_congr rfl fun e he => ?_
    have hkey := hload true x hx e (Finset.mem_range.mp he)
    have hquery : queryAt num p (pagedBuffers env c params.layer qData out) i head e =
        queryElem num q qData i head e := by
      rw [queryAt, queryElem, helem, hfits.dtype_eq, hp]
      congr 1
      simp only [DecodeFwdParams.qRow, pagedParams, hfits.seqQ_eq]
      ring
    rw [hquery, ← hkey, keyAt, helem, hp]
    simp only [pagedParams, DecodeFwdParams.kBase, DecodeFwdParams.group, hcfg, hfits.dim_eq]
    rfl
  · rw [Finset.mem_range] at hx
    have hvalue := hload false x hx d hd
    rw [← hvalue, valueAt, helem, hp]
    simp only [pagedParams, DecodeFwdParams.vBase, DecodeFwdParams.group, hcfg, hfits.dim_eq]
    rfl

/-- With the cache's block size and row length a request reads the tokens of a sequence as soon as it
maps no position behind them. -/
theorem PagedKVCache.Synced.readsTokens (h : Synced c table)
    (hflat : ∀ s j : ℕ, j < c.maxBlocksPerSeq → flat (s * c.maxBlocksPerSeq + j) = table s j)
    (hbs : params.blockSizeFor c = c.cfg.blockSize)
    (hmb : params.maxBlocksFor c = c.maxBlocksPerSeq) {i : ℕ} (hi : i < c.cfg.maxNumSeqs)
    {p : DecodeFwdParams 𝕜} (hp : p = pagedParams num env q c params cfg id flat scratch out)
    (hlen : (c.seqLengths i : ℤ) ≤ p.seqLen i)
    (hbehind : ∀ j ∈ p.visible i, j < c.seqLengths i) : ReadsTokens c p i := by
  have hrow : ∀ x < c.seqLengths i, p.kvRow i x = c.slotOf i x := by
    intro x hx
    rw [hp]
    simp only [pagedParams, DecodeFwdParams.kvRow, hbs, hmb, h.inv.storageCfg_eq]
    exact h.pageTableRow_eq hflat hi hx
  refine ⟨fun j => ⟨fun hj => ⟨?_, hbehind j hj⟩, fun hj => ?_⟩, hrow⟩
  · simp only [DecodeFwdParams.visible, Finset.mem_filter, Finset.mem_Ico] at hj
    exact hj.1.1
  · obtain ⟨x, rfl⟩ := Int.eq_ofNat_of_zero_le hj.1
    have hx : x < c.seqLengths i := by omega
    simp only [DecodeFwdParams.visible, Finset.mem_filter, Finset.mem_Ico]
    refine ⟨by omega, fun _ => ?_⟩
    rw [hrow x hx]
    omega

variable [IsStrictOrderedRing 𝕜]

/-- The outputs of a paged request on a synchronised cache, row by row. -/
def RowsAre (num : Numerics 𝕜) (c : PagedKVCache) (layer : ℕ) (cfg : AttentionConfig 𝕜) (q : Tensor)
    (r : AttentionResult 𝕜) : Prop :=
  r.outDims = [q.dim 0, q.dim 1, 1, q.dim 3] ∧
    ∃ qData, q.data = some qData ∧ ∀ i < q.dim 0, ∀ h < q.dim 1, ∀ d < q.dim 3,
      r.out ((i * q.dim 1 + h) * q.dim 3 + d) = fin (c.attentionOf num layer cfg q qData i h d) ∧
        (c.seqLength i = 0 → r.out ((i * q.dim 1 + h) * q.dim 3 + d) = fin 0)

/-- A request that reads the tokens of its sequences is answered by contiguous attention over the
stored rows. -/
theorem PagedKVCache.Synced.runPaged_rows (h : Synced c table) (hfits : FitsCache q c)
    (htable : params.pageTable.or c.pageTableDevicePtr = c.pageTableDevicePtr)
    (hmax : 0 < params.maxBlocksFor c)
    (hreads : ∀ flat id out,
      (∀ s j : ℕ, j < c.maxBlocksPerSeq → flat (s * c.maxBlocksPerSeq + j) = table s j) →
      ∀ i < q.dim 0, ReadsTokens c
        (pagedParams num env q c params cfg id flat env.scratch.contents out) i)
    {r : AttentionResult 𝕜} (hok : runPaged num env q c params cfg = .ok r) :
    RowsAre num c params.layer.toNat cfg q r := by
  obtain ⟨id, flat, out, qData, hacc, hq, hdims, hrows⟩ := runPaged_out hmax hok
  have hflat := hacc.table_eq
  rw [htable] at hflat
  obtain ⟨flat', hptr, hentries⟩ := pageTableDevicePtr_eq h.device_eq
  obtain rfl : flat' = flat := Option.some.inj (hptr.symm.trans hflat)
  refine ⟨by rw [hdims, hfits.seqQ_eq], qData, hq, fun i hi head hhead d hd => ?_⟩
  have hout : r.out ((i * q.dim 1 + head) * q.dim 3 + d) =
      fin (c.attentionOf num params.layer.toNat cfg q qData i head d) := by
    rw [hrows i hi head hhead d hd]
    exact congrArg fin ((hreads _ id out hentries i hi).average_eq h.inv.storageCfg_eq hfits
      (elem_of_dtypeIdFor hacc.dtype_id) hhead (hfits.dim_eq ▸ hd) rfl)
  refine ⟨hout, fun hzero => ?_⟩
  rw [hfits.seqLength_eq hi] at hzero
  rw [hout, attentionOf, hzero, decodeAttention_zero]

omit [IsStrictOrderedRing 𝕜] [Field 𝕜] [LinearOrder 𝕜] in
/-- A device that serves a request: its query is in memory, and the scratch buffer, the output and
the launches succeed. -/
structure DeviceReady (env : AttentionEnv 𝕜) (q : Tensor) (elements : ℕ) : Prop where
  query : ∃ qData, q.data = some qData
  out : ∃ mem, env.outAlloc = some mem
  scratch : ∃ mem, acquireScratchFp32 env.scratch elements = .ok mem
  launch : ∀ n, env.launch n = .ok

omit [IsStrictOrderedRing 𝕜] in
/-- On a synchronised cache a request that fits is served. -/
theorem PagedKVCache.Synced.serves (h : Synced c table) (hfits : FitsCache q c)
    (hseqs : 0 < q.dim 0) (hlayer : 0 ≤ params.layer) (hlayers : params.layer < c.cfg.numLayers)
    (htable : params.pageTable.or c.pageTableDevicePtr = c.pageTableDevicePtr)
    (hmax : 0 < params.maxBlocksFor c)
    (hready : DeviceReady env q (partialElements (q.dim 0) (q.dim 1) (pagedSplits env c params cfg)
      (q.dim 3))) : ∃ r, runPaged num env q c params cfg = .ok r := by
  obtain ⟨flat, hptr, -⟩ := pageTableDevicePtr_eq h.device_eq
  obtain ⟨qData, hq⟩ := hready.query
  obtain ⟨out, hout⟩ := hready.out
  obtain ⟨mem, hscratch⟩ := hready.scratch
  obtain ⟨-, -, rfl⟩ := acquireScratchFp32_eq_ok hscratch
  obtain ⟨id, hid⟩ : ∃ id, dtypeIdFor q.dtype = some id := by
    have hsupported := c.cfg.dtype_supported
    rw [hfits.dtype_eq]
    cases hdtype : c.cfg.dtype <;> simp_all [isSupportedComputeDtype, dtypeIdFor]
  have hdim : (q.dim 3 : ℤ) ∈ supportedHeadDims := hfits.dim_eq ▸ c.cfg.headDim_supported
  have hdvd : 32 ∣ q.dim 3 := by
    simp only [supportedHeadDims, List.mem_cons, List.not_mem_nil, or_false] at hdim
    omega
  exact runPaged_isOk ⟨hfits.ndims_eq, hfits.seqQ_eq, hseqs, hfits.numSeqs_le, hlayer,
    h.inv.storageCfg_eq ▸ hlayers, hid, hdvd, hdim, htable.trans hptr, hscratch, hout⟩ hmax hq
    hready.launch

end Stored

end SciAttention

import SciAttention.Attention.PagedDecode
import SciAttention.Attention.RealNumerics

/-!
# Which accepted paged requests are memory safe

`RunPaged` takes the head count, the head dimension and the element type from the query, the block
size from the parameters and the pool from the cache, and compares none of them. Whatever the page
table and the lengths hold, the partial kernel stays inside the cache's layer exactly when the largest
row and head it can address fit (`Covers`). `reads` lists what the kernel dereferences, and
`partialState_congr` says that nothing else is looked at.
-/

namespace SciAttention

open Flt PagedKVCache

/-! ## The geometry of a cache -/

namespace PagedKVCache

/-- The sizes that `Create` fixes and no call changes. -/
structure Geometry (c : PagedKVCache) : Prop where
  storageCfg_eq : c.storage.cfg = c.cfg
  maxBlocks_eq : c.maxBlocksPerSeq = c.cfg.numBlocks

theorem Geometry.create {cfg : KVCacheConfig} {env : PagedEnv} {c : PagedKVCache}
    (h : PagedKVCache.create cfg env = .ok c) : Geometry c := by
  obtain ⟨storage, blocks, hstorage, -, rfl⟩ := create_eq_ok h
  obtain ⟨hvalid, hcfg, -⟩ := KVCache.create_eq_ok hstorage
  exact ⟨rfl, by rw [hcfg]; rfl⟩

theorem Geometry.appendTokens {c : PagedKVCache} (h : Geometry c) (seqId layer : ℤ)
    (kNew vNew : Tensor) (env : AppendEnv) :
    Geometry (c.appendTokens seqId layer kNew vNew env).1 := by
  obtain ⟨blocks, seqBlocks, hreserved⟩ := c.reserveBlocks_eq seqId.toNat (kNew.dim 0)
  simp only [PagedKVCache.appendTokens]
  split
  · exact h
  split
  · rw [hreserved]
    exact ⟨h.storageCfg_eq, h.maxBlocks_eq⟩
  · rw [hreserved]
    rcases writeTokens_cases { c with blocks := blocks, seqBlocks := seqBlocks } seqId.toNat layer
      kNew vNew env with ⟨e, st, dev, capacity, -, hst, -, heq⟩ |
        ⟨slots, cells, capacity, -, -, -, heq⟩
    · rw [heq]
      exact ⟨hst.trans h.storageCfg_eq, h.maxBlocks_eq⟩
    · rw [heq]
      exact ⟨(KVCache.append_cfg _ _ _ _ _ _ _).trans h.storageCfg_eq, h.maxBlocks_eq⟩

theorem Geometry.step {c : PagedKVCache} (h : Geometry c) (call : Call) :
    Geometry (c.step call).1 := by
  cases call with
  | appendTokens seqId layer kNew vNew env => exact h.appendTokens seqId layer kNew vNew env
  | resetSeq seqId env =>
    rcases resetSeq_cases c seqId env with ⟨e, -, heq⟩ |
      ⟨s, -, -, ⟨-, -, heq⟩ | ⟨st, hst, -, heq⟩⟩
    · simp only [PagedKVCache.step, heq]
      exact h
    · simp only [PagedKVCache.step, heq]
      exact ⟨(KVCache.reset_cfg _ _ _ _).trans h.storageCfg_eq, h.maxBlocks_eq⟩
    · simp only [PagedKVCache.step, heq]
      exact ⟨hst.trans h.storageCfg_eq, h.maxBlocks_eq⟩
  | syncPageTable =>
    obtain ⟨device, synced, heq⟩ := c.syncPageTable_eq
    simp only [PagedKVCache.step, heq]
    exact ⟨h.storageCfg_eq, h.maxBlocks_eq⟩
  | forceSyncPageTable =>
    obtain ⟨device, synced, heq⟩ := c.forceSyncPageTable_eq
    simp only [PagedKVCache.step, heq]
    exact ⟨h.storageCfg_eq, h.maxBlocks_eq⟩

theorem Geometry.run {c : PagedKVCache} (h : Geometry c) (calls : List Call) :
    Geometry (c.run calls) :=
  run_induction (P := Geometry) (fun _ call hc => hc.step call) h calls

/-- Elements of one layer of the cache's K (or V) storage. -/
def layerElements (c : PagedKVCache) : ℕ := kvLayerElements c.cfg.toDeviceShape

end PagedKVCache

/-! ## What the partial kernel dereferences -/

namespace DecodeFwdParams

variable {𝕜 : Type*} (p : DecodeFwdParams 𝕜)

/-- The element offsets that warp `flat` dereferences behind a K or V pointer with the given bases
and token stride. -/
def reads (base : ℕ → ℕ → ℕ) (stride : ℕ) (flat : ℕ) : List ℤ :=
  (p.tokens (p.batchOf flat) (p.splitOf flat)).flatMap fun j =>
    match p.kvRowPtr (base (p.batchOf flat) (p.headOf flat)) j stride (p.batchOf flat) with
    | none => []
    | some row => (List.range 32).flatMap fun lane => (List.range p.laneElems).map fun i =>
        row + (lane * p.laneElems + i : ℕ)

/-- The launch checks of `LaunchPagedAttention` and what it calls: the kernel is started. -/
def Starts : Prop :=
  p.q.isSome ∧ p.k.isSome ∧ p.v.isSome ∧ p.out.isSome ∧ p.partials.isSome ∧ p.pageTable.isSome ∧
    0 < p.blockSize ∧ 0 < p.maxBlocksPerSeq ∧ 0 < p.numKvBlocks ∧ 0 < p.numSplits ∧
    (p.headDim : ℤ) ∈ supportedHeadDims

/-- The partial kernel divides by nothing that is zero, stays inside K and V storage of `elements`
elements, and reads them as `dtype`. -/
structure Safe (elements : ℕ) (dtype : DType) : Prop where
  kvHeads_ne : ∀ flat < p.requests, p.numKvHeads ≠ 0
  group_ne : ∀ flat < p.requests, p.group ≠ 0
  k_bounds : ∀ flat < p.requests, ∀ x ∈ p.reads p.kBase p.kStride.sS flat, 0 ≤ x ∧ x < elements
  v_bounds : ∀ flat < p.requests, ∀ x ∈ p.reads p.vBase p.vStride.sS flat, 0 ≤ x ∧ x < elements
  dtype_eq : (∃ flat < p.requests, p.reads p.kBase p.kStride.sS flat ≠ [] ∨
    p.reads p.vBase p.vStride.sS flat ≠ []) → p.dtype.elem = dtype

/-- The request with other contents of the page table and of the lengths. -/
def withContents (table : ℤ → ℤ) (lens : ℕ → ℤ) : DecodeFwdParams 𝕜 :=
  { p with pageTable := some table, seqLens := p.seqLens.map fun _ => lens }

variable {p}

theorem mem_reads {base : ℕ → ℕ → ℕ} {stride flat : ℕ} (hdim : 32 ∣ p.headDim) {x : ℤ} :
    x ∈ p.reads base stride flat ↔ ∃ j ∈ p.tokens (p.batchOf flat) (p.splitOf flat),
      p.Mapped (p.batchOf flat) j ∧ ∃ d < p.headDim,
        x = base (p.batchOf flat) (p.headOf flat) + p.kvRow (p.batchOf flat) j * stride + d := by
  have hslices : 32 * p.laneElems = p.headDim := Nat.mul_div_cancel' hdim
  simp only [reads, List.mem_flatMap]
  refine exists_congr fun j => and_congr_right fun _ => ?_
  by_cases hmap : p.Mapped (p.batchOf flat) j
  · rw [p.kvRowPtr_of_mapped hmap]
    simp only [List.mem_flatMap, List.mem_map, List.mem_range, hmap, true_and]
    constructor
    · rintro ⟨lane, hlane, i, hi, rfl⟩
      exact ⟨_, p.lane_lt hlane hi, rfl⟩
    · rintro ⟨d, hd, rfl⟩
      have hpos : 0 < p.laneElems := by omega
      refine ⟨d / p.laneElems, ?_, d % p.laneElems, Nat.mod_lt _ hpos, ?_⟩
      · rw [Nat.div_lt_iff_lt_mul hpos]
        omega
      · rw [Nat.div_add_mod']
  · rw [p.kvRowPtr_of_not_mapped hmap]
    simp [hmap]

/-- The registers a warp ends with depend only on the elements it dereferences. -/
theorem partialState_congr [Field 𝕜] [LinearOrder 𝕜] (num : Numerics 𝕜)
    {buf buf' : DecodeBuffers 𝕜}
    (hdim : 32 ∣ p.headDim) {flat : ℕ} (hq : buf.q = buf'.q)
    (hk : ∀ x ∈ p.reads p.kBase p.kStride.sS flat,
      num.load p.dtype.elem buf.k x.toNat = num.load p.dtype.elem buf'.k x.toNat)
    (hv : ∀ x ∈ p.reads p.vBase p.vStride.sS flat,
      num.load p.dtype.elem buf.v x.toNat = num.load p.dtype.elem buf'.v x.toNat)
    {lane : ℕ} (hlane : lane < 32) :
    let st := partialState num p buf (p.batchOf flat) (p.headOf flat) (p.splitOf flat) lane
    let st' := partialState num p buf' (p.batchOf flat) (p.headOf flat) (p.splitOf flat) lane
    st.m = st'.m ∧ st.l = st'.l ∧ ∀ i < p.laneElems, st.acc i = st'.acc i := by
  have hmem : ∀ {base : ℕ → ℕ → ℕ} {stride : ℕ},
    ∀ j ∈ p.part (p.batchOf flat) (p.splitOf flat),
      ∀ d < p.headDim, base (p.batchOf flat) (p.headOf flat) +
        p.kvRow (p.batchOf flat) j * stride + d ∈ p.reads base stride flat := by
    intro base stride j hj d hd
    simp only [part, Finset.mem_filter, List.mem_toFinset] at hj
    exact (mem_reads hdim).mpr ⟨j, hj.1, hj.2, d, hd, rfl⟩
  have hscores : ∀ j ∈ p.part (p.batchOf flat) (p.splitOf flat),
      scores num p buf (p.batchOf flat) (p.headOf flat) j =
        scores num p buf' (p.batchOf flat) (p.headOf flat) j := by
    intro j hj
    refine congrArg WithBot.some (congrArg (· * p.scale) (Finset.sum_congr rfl fun d hd => ?_))
    rw [queryAt, queryAt, keyAt, keyAt, hq, hk _ (hmem j hj d (Finset.mem_range.mp hd))]
  have hsup := Finset.sup_congr rfl hscores
  have h : HoldsFor num p buf (p.batchOf flat) (p.headOf flat) _ _ :=
    partialState_holds hdim (p.splitOf flat)
  have h' : HoldsFor num p buf' (p.batchOf flat) (p.headOf flat) _ _ :=
    partialState_holds hdim (p.splitOf flat)
  refine ⟨?_, ?_, fun i hi => ?_⟩
  · rw [h.m_eq lane hlane, h'.m_eq lane hlane, hsup]
  · rw [h.l_eq lane hlane, h'.l_eq lane hlane, hsup,
      Softmax.mass_congr num.E hscores fun _ _ => rfl]
  · rw [h.acc_eq lane hlane i hi, h'.acc_eq lane hlane i hi, hsup]
    refine congrArg fin (Softmax.mass_congr num.E hscores (fun j hj => ?_) _)
    rw [valueAt, valueAt, hv _ (hmem j hj _ (p.lane_lt hlane hi))]

end DecodeFwdParams

/-! ## The largest index -/

/-- The contents of an `int32_t` buffer. -/
def IsInt32 {ι : Type*} (f : ι → ℤ) : Prop := ∀ i, -2 ^ 31 ≤ f i ∧ f i < 2 ^ 31

/-- The largest row that a request can address, over all page tables and lengths: the last block id
an entry can name, and the last offset a position can have. -/
def maxRow (kv : PagedKVCache) (params : PagedAttentionParams) : ℕ :=
  let positions := if params.seqLens.isSome then 2 ^ 31 - 1 else params.blockSizeFor kv
  (min kv.cfg.numBlocks (2 ^ 31) - 1) * params.blockSizeFor kv +
    (min (params.blockSizeFor kv) positions - 1)

/-- The sizes of a request fit the cache: as many query heads as kv heads at least, the cache's
element type, and room for the last element of the last row. -/
structure Covers (q : Tensor) (kv : PagedKVCache) (params : PagedAttentionParams) : Prop where
  heads_le : kv.cfg.numKvHeads ≤ q.dim 1
  dtype_eq : q.dtype = kv.cfg.dtype
  room : (maxRow kv params * kv.cfg.numKvHeads + (q.dim 1 - 1) / (q.dim 1 / kv.cfg.numKvHeads) + 1) *
    q.dim 3 ≤ kv.layerElements

/-- A row the page table leads to is bounded by the last id and the last offset. -/
theorem pageTableRow_le {table : ℤ → ℤ} (htable : IsInt32 table) {s bs mb nb positions : ℕ} {j : ℤ}
    (hbs : 0 < bs) (hj : 0 ≤ j) (hlt : j < positions)
    (hrow : 0 ≤ pageTableRow table s j bs mb nb) :
    pageTableRow table s j bs mb nb ≤ ((min nb (2 ^ 31) - 1) * bs + (min bs positions - 1) : ℕ) := by
  obtain ⟨x, rfl⟩ := Int.eq_ofNat_of_zero_le hj
  have hmod : (x : ℤ).tmod bs = (x % bs : ℕ) := rfl
  have hoffset : x % bs ≤ min bs positions - 1 := by
    have := Nat.mod_lt x hbs
    have := Nat.mod_le x bs
    omega
  simp only [pageTableRow, pageTableLookup, hmod] at hrow ⊢
  split_ifs at hrow ⊢ with hmax hout hout
  · omega
  · omega
  · omega
  · obtain ⟨t, ht⟩ := Int.eq_ofNat_of_zero_le (by omega :
      0 ≤ table (s * mb + (x : ℤ).tdiv bs))
    have hint := htable (s * mb + (x : ℤ).tdiv bs)
    rw [ht] at hout hint ⊢
    have hid : t ≤ min nb (2 ^ 31) - 1 := by omega
    have := Nat.mul_le_mul_right bs hid
    exact_mod_cast Nat.add_le_add this hoffset

/-- The bound is attained: every entry names the last id. -/
theorem pageTableRow_last {s bs mb nb x : ℕ} (hmb : 0 < mb) (hnb : 0 < nb)
    (hx : x < bs) :
    pageTableRow (fun _ => (min nb (2 ^ 31) - 1 : ℕ)) s x bs mb nb =
      ((min nb (2 ^ 31) - 1) * bs + x : ℕ) := by
  have hdiv : (x : ℤ).tdiv bs = (x / bs : ℕ) := rfl
  have hmod : (x : ℤ).tmod bs = (x % bs : ℕ) := rfl
  simp only [pageTableRow, pageTableLookup, hdiv, hmod]
  rw [Nat.div_eq_of_lt hx, Nat.mod_eq_of_lt hx, if_neg (by omega), if_neg (by omega)]
  push_cast
  rfl

section Request

variable {𝕜 : Type*} [Field 𝕜] [LinearOrder 𝕜] {num : Numerics 𝕜} {env : AttentionEnv 𝕜}
  {q : Tensor} {kv : PagedKVCache} {params : PagedAttentionParams} {cfg : AttentionConfig 𝕜}
  {id : DecodeDtype} {table₀ table : ℤ → ℤ} {lens : ℕ → ℤ} {out : ℕ → Flt 𝕜}
  {p : DecodeFwdParams 𝕜}

/-- The sizes that the kernel sees. -/
theorem contents_kvRow (hgeo : Geometry kv)
    (hp : p = (pagedParams num env q kv params cfg id table₀ env.scratch.contents out).withContents
      table lens) (b : ℕ) (j : ℤ) :
    p.kvRow b j = pageTableRow table b j (params.blockSizeFor kv) (params.maxBlocksFor kv)
      kv.cfg.numBlocks := by
  rw [hp]
  simp only [DecodeFwdParams.kvRow, DecodeFwdParams.withContents, pagedParams, hgeo.storageCfg_eq]

/-- The rows of a request are at most `maxRow`. -/
theorem contents_kvRow_le (hgeo : Geometry kv)
    (hp : p = (pagedParams num env q kv params cfg id table₀ env.scratch.contents out).withContents
      table lens) (htable : IsInt32 table) (hlens : IsInt32 lens) {b split : ℕ} {j : ℤ}
    (hsplits : 0 < p.numSplits) (hsplit : split < p.numSplits) (hj : j ∈ p.tokens b split)
    (hmapped : 0 ≤ p.kvRow b j) : p.kvRow b j ≤ maxRow kv params := by
  have hbs := blockSizeFor_pos params kv
  obtain ⟨hj0, hlt⟩ := (p.exists_mem_tokens hsplits).mp ⟨split, hsplit, hj⟩
  rw [contents_kvRow hgeo hp] at hmapped ⊢
  have hseq : p.seqLen b = if params.seqLens.isSome then lens b
      else (kv.cfg.numBlocks * params.blockSizeFor kv : ℕ) := by
    rw [hp]
    simp only [DecodeFwdParams.seqLen, DecodeFwdParams.withContents, pagedParams,
      hgeo.storageCfg_eq]
    cases params.seqLens <;> rfl
  rw [hseq] at hlt
  simp only [maxRow]
  -- without lengths the positions end with the pool, with lengths only with `int32_t`
  cases hnull : params.seqLens with
  | none =>
    rw [hnull] at hlt
    refine (pageTableRow_le htable hbs hj0 hlt hmapped).trans ?_
    simp only [Option.isSome_none, Bool.false_eq_true, if_false, Nat.cast_le]
    omega
  | some l =>
    rw [hnull, Option.isSome_some, if_pos rfl] at hlt
    have hint := (hlens b).2
    have hlast : j < (2 ^ 31 - 1 : ℕ) := by
      push_cast
      omega
    refine (pageTableRow_le htable hbs hj0 hlast hmapped).trans ?_
    simp

/-- A covered request stays inside the layer, whatever its buffers hold. -/
theorem Covers.reads_bounds (hcov : Covers q kv params) (hgeo : Geometry kv)
    (hacc : PagedAccepted env q kv params cfg id table₀ out)
    (hp : p = (pagedParams num env q kv params cfg id table₀ env.scratch.contents out).withContents
      table lens) (htable : IsInt32 table) (hlens : IsInt32 lens) {flat : ℕ} {x : ℤ}
    (hx : x ∈ p.reads p.kBase p.kStride.sS flat) : 0 ≤ x ∧ x < kv.layerElements := by
  have hdim : p.headDim = q.dim 3 := by rw [hp]; rfl
  have hsplits : 0 < p.numSplits := by rw [hp]; exact resolveSplits_pos cfg _ _
  obtain ⟨j, hj, hmapped, d, hd, rfl⟩ :=
    (DecodeFwdParams.mem_reads (hdim ▸ hacc.dim_dvd)).mp hx
  have hrow0 : 0 ≤ p.kvRow (p.batchOf flat) j := hmapped (by rw [hp]; rfl)
  have hrow := contents_kvRow_le hgeo hp htable hlens hsplits (Nat.mod_lt _ hsplits) hj hrow0
  obtain ⟨r, hr⟩ := Int.eq_ofNat_of_zero_le hrow0
  rw [hr] at hrow ⊢
  have hbase : p.kBase (p.batchOf flat) (p.headOf flat) =
      p.headOf flat / (q.dim 1 / kv.cfg.numKvHeads) * q.dim 3 := by
    rw [hp]
    simp only [DecodeFwdParams.kBase, DecodeFwdParams.withContents, DecodeFwdParams.group,
      pagedParams, hgeo.storageCfg_eq, Nat.mul_zero, Nat.zero_add]
  have hstride : p.kStride.sS = kv.cfg.numKvHeads * q.dim 3 := by
    rw [hp]
    simp only [DecodeFwdParams.withContents, pagedParams, hgeo.storageCfg_eq]
  have hhead : p.headOf flat < q.dim 1 := by
    have hheads : p.numHeads = q.dim 1 := by rw [hp]; rfl
    rw [← hheads]
    exact Nat.mod_lt _ (hheads ▸ hacc.numHeads_pos)
  rw [hbase, hstride]
  refine ⟨by positivity, ?_⟩
  -- the row behind the one that is read still fits
  have hlast : (r * kv.cfg.numKvHeads + p.headOf flat / (q.dim 1 / kv.cfg.numKvHeads) + 1) *
      q.dim 3 ≤ kv.layerElements := by
    refine (Nat.mul_le_mul_right _ (Nat.add_le_add_right (Nat.add_le_add
      (Nat.mul_le_mul_right _ ?_) (Nat.div_le_div_right ?_)) 1)).trans hcov.room
    · exact_mod_cast hrow
    · omega
  rw [hdim] at hd
  have hlt : p.headOf flat / (q.dim 1 / kv.cfg.numKvHeads) * q.dim 3 +
      r * (kv.cfg.numKvHeads * q.dim 3) + d < kv.layerElements := by
    refine lt_of_lt_of_le ?_ hlast
    linarith
  exact_mod_cast hlt

/-- The last offset is a position of the request when the lengths are as long as they can be. -/
theorem lastOffset_lt (hgeo : Geometry kv)
    (hp : p = (pagedParams num env q kv params cfg id table₀ env.scratch.contents out).withContents
      table fun _ => 2 ^ 31 - 1) (b : ℕ) :
    ((min (params.blockSizeFor kv)
      (if params.seqLens.isSome then 2 ^ 31 - 1 else params.blockSizeFor kv) - 1 : ℕ) : ℤ) <
      p.seqLen b := by
  have hbs := blockSizeFor_pos params kv
  have hnb := kv.cfg.numBlocks_pos
  rw [hp]
  simp only [DecodeFwdParams.seqLen, DecodeFwdParams.withContents, pagedParams, hgeo.storageCfg_eq]
  cases hnull : params.seqLens with
  | none =>
    have hle := Nat.mul_le_mul_right (params.blockSizeFor kv) hnb
    simp only [Option.map_none, Option.isSome_none, Bool.false_eq_true, if_false, Nat.cast_lt]
    omega
  | some l =>
    simp only [Option.map_some, Option.isSome_some, if_true]
    omega

/-- Some buffers make a request read the last element of the last row. -/
theorem exists_last_read (num : Numerics 𝕜) (hgeo : Geometry kv)
    (hacc : PagedAccepted env q kv params cfg id table₀ out)
    (hmax : 0 < params.maxBlocksFor kv) : ∃ table lens, IsInt32 table ∧ IsInt32 lens ∧
    let p := (pagedParams num env q kv params cfg id table₀ env.scratch.contents out).withContents
      table lens
    ∃ flat < p.requests, (((maxRow kv params * kv.cfg.numKvHeads +
      (q.dim 1 - 1) / (q.dim 1 / kv.cfg.numKvHeads)) * q.dim 3 + (q.dim 3 - 1) : ℕ) : ℤ) ∈
        p.reads p.kBase p.kStride.sS flat := by
  have hbs := blockSizeFor_pos params kv
  have hnb := kv.cfg.numBlocks_pos
  have hheads := hacc.numHeads_pos
  have hdim := pos_of_mem_supportedHeadDims hacc.dim_supported
  -- every entry the last block, every length the greatest
  refine ⟨fun _ => (min kv.cfg.numBlocks (2 ^ 31) - 1 : ℕ), fun _ => 2 ^ 31 - 1,
    fun _ => by dsimp only; omega, fun _ => by dsimp only; omega, ?_⟩
  intro p
  have hlast := lastOffset_lt hgeo (p := p) rfl 0
  generalize hx : min (params.blockSizeFor kv)
    (if params.seqLens.isSome then 2 ^ 31 - 1 else params.blockSizeFor kv) - 1 = x at hlast
  have hrow : p.kvRow 0 x = maxRow kv params := by
    rw [contents_kvRow hgeo rfl, pageTableRow_last hmax hnb (by omega), maxRow, hx]
  have hsplits : 0 < p.numSplits := resolveSplits_pos cfg _ _
  obtain ⟨split, hsplit, hj⟩ := (p.exists_mem_tokens hsplits).mpr ⟨Int.natCast_nonneg x, hlast⟩
  have hhead : q.dim 1 - 1 < p.numHeads := by
    change q.dim 1 - 1 < q.dim 1
    omega
  have hbatch : p.batchOf (p.flatOf 0 (q.dim 1 - 1) split) = 0 := p.batchOf_flatOf hhead hsplit
  refine ⟨p.flatOf 0 (q.dim 1 - 1) split, p.flatOf_lt hacc.numSeqs_pos hhead hsplit,
    (DecodeFwdParams.mem_reads hacc.dim_dvd).mpr ⟨x, ?_, ?_, q.dim 3 - 1, ?_, ?_⟩⟩
  · rw [hbatch, p.splitOf_flatOf hsplit]
    exact hj
  · intro _
    rw [hbatch, hrow]
    omega
  · change q.dim 3 - 1 < q.dim 3
    omega
  · rw [hbatch, hrow, p.headOf_flatOf hhead hsplit]
    simp only [p, DecodeFwdParams.kBase, DecodeFwdParams.withContents, DecodeFwdParams.group,
      pagedParams, hgeo.storageCfg_eq]
    push_cast
    ring

omit [Field 𝕜] [LinearOrder 𝕜] in
theorem PagedKVCache.Geometry.maxBlocksFor_pos (hgeo : Geometry kv) (params : PagedAttentionParams) :
    0 < params.maxBlocksFor kv := by
  have hnb := kv.cfg.numBlocks_pos
  unfold PagedAttentionParams.maxBlocksFor
  split_ifs with hset
  · omega
  · exact hgeo.maxBlocks_eq ▸ hnb

/-- A request with a query in memory that is safe for all contents fits the cache. -/
theorem Covers.of_safe (hgeo : Geometry kv) (hacc : PagedAccepted env q kv params cfg id table₀ out)
    {qData : Bytes} (hq : q.data = some qData)
    (hp : p = pagedParams num env q kv params cfg id table₀ env.scratch.contents out)
    (hsafe : ∀ table lens, IsInt32 table → IsInt32 lens → (p.withContents table lens).Starts →
      (p.withContents table lens).Safe kv.layerElements kv.cfg.dtype) : Covers q kv params := by
  have hmax := hgeo.maxBlocksFor_pos params
  obtain ⟨table, lens, htable, hlens, flat, hflat, hread⟩ :=
    exists_last_read num hgeo hacc hmax
  rw [← hp] at hflat hread
  have hstarts : (p.withContents table lens).Starts := by
    rw [hp]
    exact ⟨by simp [DecodeFwdParams.withContents, pagedParams, hq], rfl, rfl, rfl, rfl, rfl,
      blockSizeFor_pos params kv, hmax, kv.storage.cfg.numBlocks_pos, resolveSplits_pos cfg _ _,
      hacc.dim_supported⟩
  have h := hsafe table lens htable hlens hstarts
  refine ⟨?_, ?_, ?_⟩
  · have hgroup : (p.withContents table lens).group = q.dim 1 / kv.cfg.numKvHeads := by
      rw [hp]
      simp only [DecodeFwdParams.group, DecodeFwdParams.withContents, pagedParams,
        hgeo.storageCfg_eq]
    exact (Nat.div_ne_zero_iff.mp (hgroup ▸ h.group_ne flat hflat)).2
  · rw [← h.dtype_eq ⟨flat, hflat, .inl (List.ne_nil_of_mem hread)⟩, hp]
    exact (elem_of_dtypeIdFor hacc.dtype_id).symm
  · have hlt := (h.k_bounds flat hflat _ hread).2
    have hdim := pos_of_mem_supportedHeadDims hacc.dim_supported
    rw [Nat.add_mul, Nat.one_mul]
    omega

/-- A request that fits the cache is safe for all contents. -/
theorem Covers.safe (hcov : Covers q kv params) (hgeo : Geometry kv)
    (hacc : PagedAccepted env q kv params cfg id table₀ out) (htable : IsInt32 table)
    (hlens : IsInt32 lens)
    (hp : p = (pagedParams num env q kv params cfg id table₀ env.scratch.contents out).withContents
      table lens) : p.Safe kv.layerElements kv.cfg.dtype := by
  have hheads : p.numKvHeads = kv.cfg.numKvHeads := by
    rw [hp]
    simp only [DecodeFwdParams.withContents, pagedParams, hgeo.storageCfg_eq]
  have hgroup : p.group = q.dim 1 / kv.cfg.numKvHeads := by
    rw [DecodeFwdParams.group, hheads, hp]
    rfl
  refine ⟨fun _ _ => hheads ▸ kv.cfg.numKvHeads_pos.ne', fun _ _ => ?_, fun _ _ x hx =>
    hcov.reads_bounds hgeo hacc hp htable hlens hx, fun _ _ x hx => ?_, fun _ => ?_⟩
  · rw [hgroup]
    exact Nat.div_ne_zero_iff.mpr ⟨kv.cfg.numKvHeads_pos.ne', hcov.heads_le⟩
  · -- K and V rows are addressed alike
    have hsame : p.reads p.vBase p.vStride.sS = p.reads p.kBase p.kStride.sS := by
      rw [hp]
      rfl
    rw [hsame] at hx
    exact hcov.reads_bounds hgeo hacc hp htable hlens hx
  · rw [hp]
    exact (elem_of_dtypeIdFor hacc.dtype_id).trans hcov.dtype_eq

/-- An accepted request whose kernel is started is safe for every content of its page table and its
lengths exactly when its sizes fit the cache. -/
theorem pagedRequest_safe_iff {kvCfg : KVCacheConfig} {kvEnv : PagedEnv} {c₀ : PagedKVCache}
    (hcreate : PagedKVCache.create kvCfg kvEnv = .ok c₀) (calls : List Call)
    (hkv : kv = c₀.run calls) (hreq : pagedRequest num env q kv params cfg = .ok p) :
    (∀ table lens, IsInt32 table → IsInt32 lens → (p.withContents table lens).Starts →
      (p.withContents table lens).Safe kv.layerElements kv.cfg.dtype) ↔
    q.data = none ∨ Covers q kv params := by
  have hgeo : Geometry kv := hkv ▸ (Geometry.create hcreate).run calls
  obtain ⟨id, table₀, out, hacc, hp⟩ := pagedRequest_eq_ok.mp hreq
  constructor
  · intro hsafe
    cases hq : q.data with
    | none => exact .inl rfl
    | some qData => exact .inr (Covers.of_safe hgeo hacc hq hp hsafe)
  · rintro hcases table lens htable hlens hstarts
    rcases hcases with hnone | hcov
    · have hsome := hstarts.1
      simp [DecodeFwdParams.withContents, hp, pagedParams, hnone] at hsome
    · exact hcov.safe hgeo hacc htable hlens (by rw [hp])

end Request

/-- A half-precision query of one head with `headDim` zeros. -/
def oneHeadQuery (headDim : ℕ) : Tensor :=
  { dims := [1, 1, 1, headDim], dtype := .float16, data := some fun _ => 0 }

/-- A query of the cache's own head dimension is safe. -/
theorem safe_oneHeadQuery : ∃ kv p,
    PagedKVCache.create (tinyConfig 1 1 2) zeroEnv = .ok kv ∧
    pagedRequest realNumerics readyEnv (oneHeadQuery 32) kv { blockSize := 1 }
      { scale := 0, softcap := 0 } = .ok p ∧
    ∀ table lens, IsInt32 table → IsInt32 lens → (p.withContents table lens).Starts →
      (p.withContents table lens).Safe kv.layerElements kv.cfg.dtype := by
  obtain ⟨kv, p, hcreate, hreq, hcov⟩ : ∃ kv p,
      PagedKVCache.create (tinyConfig 1 1 2) zeroEnv = .ok kv ∧
      pagedRequest realNumerics readyEnv (oneHeadQuery 32) kv { blockSize := 1 }
        { scale := 0, softcap := 0 } = .ok p ∧ Covers (oneHeadQuery 32) kv { blockSize := 1 } :=
    ⟨_, _, rfl, rfl, by decide +kernel, by decide +kernel, by decide +kernel⟩
  exact ⟨kv, p, hcreate, hreq, (pagedRequest_safe_iff hcreate [] rfl hreq).mpr (.inr hcov)⟩

/-- A query of head dimension 64 is accepted on a cache of head dimension 32 and reads behind it. -/
theorem not_safe_oneHeadQuery : ∃ kv p,
    PagedKVCache.create (tinyConfig 1 1 2) zeroEnv = .ok kv ∧
    pagedRequest realNumerics readyEnv (oneHeadQuery 64) kv { blockSize := 1 }
      { scale := 0, softcap := 0 } = .ok p ∧
    ¬ ∀ table lens, IsInt32 table → IsInt32 lens → (p.withContents table lens).Starts →
      (p.withContents table lens).Safe kv.layerElements kv.cfg.dtype := by
  obtain ⟨kv, p, hcreate, hreq, hroom⟩ : ∃ kv p,
      PagedKVCache.create (tinyConfig 1 1 2) zeroEnv = .ok kv ∧
      pagedRequest realNumerics readyEnv (oneHeadQuery 64) kv { blockSize := 1 }
        { scale := 0, softcap := 0 } = .ok p ∧
      kv.layerElements < (maxRow kv { blockSize := 1 } * kv.cfg.numKvHeads + 0 / (1 / 1) + 1) * 64 :=
    ⟨_, _, rfl, rfl, by decide +kernel⟩
  refine ⟨kv, p, hcreate, hreq, fun hsafe => ?_⟩
  obtain ⟨id, table₀, out, hacc, hp⟩ := pagedRequest_eq_ok.mp hreq
  have hcov := Covers.of_safe (Geometry.create hcreate) hacc rfl hp hsafe
  have hle := hcov.room
  simp only [oneHeadQuery, Tensor.dim, List.getD_cons_succ, List.getD_cons_zero, Nat.sub_self,
    Nat.zero_div] at hle hroom
  omega

end SciAttention

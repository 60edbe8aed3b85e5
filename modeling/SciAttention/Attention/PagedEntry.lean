import SciAttention.Attention.PagedDecode
import SciAttention.Attention.RealNumerics

/-!
# The paged entry points on reachable caches

`paged_attention` with explicit parameters attends to exactly the stored tokens of every reachable,
synchronised cache. The two entry points that leave `seq_lens` unset attend to every mapped position,
which are the stored tokens only where every mapped block is full; `sca::paged` moreover reads the
page table in blocks of 16 whatever the cache's block size.
-/

namespace SciAttention

open Flt Softmax PagedKVCache

/-! ## Explicit parameters -/

/-- The parameters that name the cache's own table and geometry, with explicit lengths. -/
def explicitParams (c : PagedKVCache) (lens : ℕ → ℤ) (numSeqs : ℤ) (layer : ℕ) :
    PagedAttentionParams :=
  { pageTable := c.pageTableDevicePtr
    seqLens := some lens
    numSeqs := numSeqs
    blockSize := c.cfg.blockSize
    maxBlocksPerSeq := c.maxBlocksPerSeq
    layer := layer }

theorem blockSizeFor_explicit (c : PagedKVCache) (lens : ℕ → ℤ) (numSeqs : ℤ) (layer : ℕ) :
    (explicitParams c lens numSeqs layer).blockSizeFor c = c.cfg.blockSize := by
  have := c.cfg.blockSize_pos
  simp [PagedAttentionParams.blockSizeFor, explicitParams]

theorem maxBlocksFor_explicit (c : PagedKVCache) (lens : ℕ → ℤ) (numSeqs : ℤ) (layer : ℕ) :
    (explicitParams c lens numSeqs layer).maxBlocksFor c = c.maxBlocksPerSeq := by
  simp [PagedAttentionParams.maxBlocksFor, explicitParams]

section Entry

variable {𝕜 : Type*} [Field 𝕜] [LinearOrder 𝕜] [IsStrictOrderedRing 𝕜] (num : Numerics 𝕜)
  (env : AttentionEnv 𝕜)

/-- An answer is contiguous attention over the rows stored in a layer, and there is one when the
device is ready; `blockSize` sets the number of splits. -/
def Answers (q : Tensor) (c : PagedKVCache) (layer : ℕ) (cfg : AttentionConfig 𝕜) (blockSize : ℕ)
    (answer : Except Status (AttentionResult 𝕜)) : Prop :=
  (∀ r, answer = .ok r → RowsAre num c layer cfg q r) ∧
    (0 < q.dim 0 → DeviceReady env q (partialElements (q.dim 0) (q.dim 1)
      (resolveSplits cfg (c.cfg.numBlocks * blockSize) env.smCount) (q.dim 3)) →
      ∃ r, answer = .ok r)

/-- A request that uses the cache's table and row length and reads the tokens of its sequences. -/
theorem PagedKVCache.Synced.answers {c : PagedKVCache} {table : HostTable} (h : Synced c table)
    {q : Tensor} (hfits : FitsCache q c) {params : PagedAttentionParams} {layer : ℕ}
    (hparams : params.layer = layer) (hlayer : layer < c.cfg.numLayers)
    (htable : params.pageTable.or c.pageTableDevicePtr = c.pageTableDevicePtr)
    (hmb : params.maxBlocksFor c = c.maxBlocksPerSeq) {cfg : AttentionConfig 𝕜}
    (hreads : ∀ flat id out,
      (∀ s j : ℕ, j < c.maxBlocksPerSeq → flat (s * c.maxBlocksPerSeq + j) = table s j) →
      ∀ i < q.dim 0, ReadsTokens c
        (pagedParams num env q c params cfg id flat env.scratch.contents out) i) :
    Answers num env q c layer cfg (params.blockSizeFor c) (runPaged num env q c params cfg) := by
  have hmax : 0 < params.maxBlocksFor c := hmb ▸ h.maxBlocks_pos
  refine ⟨fun r hok => ?_, fun hseqs hready => ?_⟩
  · have hrows := h.runPaged_rows hfits htable hmax hreads hok
    rwa [hparams, Int.toNat_natCast] at hrows
  · refine h.serves hfits hseqs (by omega) (by omega) htable hmax ?_
    rwa [pagedSplits, h.inv.storageCfg_eq]

/-- Explicit parameters on a synchronised cache. -/
theorem PagedKVCache.Synced.explicit_answers {c : PagedKVCache} {table : HostTable}
    (h : Synced c table) {q : Tensor} (hfits : FitsCache q c) {layer : ℕ}
    (hlayer : layer < c.cfg.numLayers) {lens : ℕ → ℤ}
    (hlens : ∀ i < q.dim 0, lens i = c.seqLength i) (numSeqs : ℤ) (cfg : AttentionConfig 𝕜) :
    Answers num env q c layer cfg c.cfg.blockSize
      (pagedAttention num env q c (explicitParams c lens numSeqs layer) cfg) := by
  have hbs := blockSizeFor_explicit c lens numSeqs layer
  have hmb := maxBlocksFor_explicit c lens numSeqs layer
  have hanswers := h.answers num env hfits
    (show (explicitParams c lens numSeqs layer).layer = layer from rfl) hlayer
    (by simp [explicitParams]) hmb fun flat id out hflat i hi => by
      have hlen : (pagedParams num env q c (explicitParams c lens numSeqs layer) cfg id flat
          env.scratch.contents out).seqLen i = c.seqLengths i :=
        (hlens i hi).trans (congrArg Nat.cast (hfits.seqLength_eq hi))
      refine h.readsTokens hflat hbs hmb (hi.trans_le hfits.numSeqs_le) rfl hlen.ge fun j hj => ?_
      simp only [DecodeFwdParams.visible, Finset.mem_filter, Finset.mem_Ico, hlen] at hj
      exact hj.1.2
  rwa [hbs] at hanswers

/-- Paged attention with explicit parameters is contiguous decode attention over the stored rows, in
every reachable state after a successful `SyncPageTable`. -/
theorem pagedAttention_run {kvCfg : KVCacheConfig} {kvEnv : PagedEnv} {c₀ c : PagedKVCache}
    (hsmall : kvCfg.numBlocks ≤ 2 ^ 31) (hcreate : PagedKVCache.create kvCfg kvEnv = .ok c₀)
    (calls : List Call) (hsync : (c₀.run calls).syncPageTable.2.isOk)
    (hc : c = (c₀.run calls).syncPageTable.1) {q : Tensor} (hfits : FitsCache q c) {layer : ℕ}
    (hlayer : layer < c.cfg.numLayers) {lens : ℕ → ℤ}
    (hlens : ∀ i < q.dim 0, lens i = c.seqLength i) (numSeqs : ℤ) (cfg : AttentionConfig 𝕜) :
    Answers num env q c layer cfg c.cfg.blockSize
      (pagedAttention num env q c (explicitParams c lens numSeqs layer) cfg) := by
  obtain ⟨table, hsynced⟩ := synced_run hsmall hcreate calls hsync
  rw [← hc] at hsynced
  exact hsynced.explicit_answers num env hfits hlayer hlens numSeqs cfg

end Entry

/-- A half-precision query of `seqs` sequences with one head of 32 zeros. -/
def zeroQuery (seqs : ℕ) : Tensor :=
  { dims := [seqs, 1, 1, 32], dtype := .float16, data := some fun _ => 0 }

theorem readyEnv_deviceReady {𝕜 : Type*} [Field 𝕜] {elements seqs : ℕ} (hpos : 0 < elements)
    (hle : elements ≤ 2 ^ 18) : DeviceReady (readyEnv (𝕜 := 𝕜)) (zeroQuery seqs) elements :=
  ⟨⟨_, rfl⟩, ⟨_, rfl⟩, ⟨_, readyEnv_scratch hpos hle⟩, fun _ => rfl⟩

/-- Two tokens of one sequence in separate blocks, read by a query over both sequences. -/
theorem pagedAttention_tiny : ∃ c₀ r,
    PagedKVCache.create (tinyConfig 1 1 2) zeroEnv = .ok c₀ ∧
    let c := (c₀.run [.appendTokens 0 0 (tokenTensor 2 1 fun _ => 1) (tokenTensor 2 1 fun _ => 2)
      appendOk]).syncPageTable.1
    pagedAttention realNumerics readyEnv (zeroQuery 2) c
        (explicitParams c (fun i => c.seqLength i) 2 0) { scale := 0, softcap := 0 } = .ok r ∧
      RowsAre realNumerics c 0 { scale := 0, softcap := 0 } (zeroQuery 2) r := by
  have hcreate : PagedKVCache.create (tinyConfig 1 1 2) zeroEnv = .ok _ := rfl
  obtain ⟨hrows, hserved⟩ := pagedAttention_run realNumerics readyEnv (by decide) hcreate
    [.appendTokens 0 0 (tokenTensor 2 1 fun _ => 1) (tokenTensor 2 1 fun _ => 2) appendOk]
    (by decide +kernel) rfl (q := zeroQuery 2) ⟨by decide, by decide +kernel, by decide,
      by decide +kernel, by decide +kernel, by decide +kernel⟩ (show 0 < _ by decide +kernel)
    (fun i _ => rfl) 2 { scale := 0, softcap := 0 }
  obtain ⟨r, hr⟩ := hserved (by decide) (readyEnv_deviceReady (by decide +kernel)
    (by decide +kernel))
  exact ⟨_, r, hcreate, hr, hrows r hr⟩

/-! ## Unset lengths -/

namespace PagedKVCache

/-- The device row of sequence `i` maps logical block `j`. -/
def MapsBlock (c : PagedKVCache) (i j : ℕ) : Prop :=
  ∃ table ∈ c.pageTableDevice, j < c.maxBlocksPerSeq ∧ 0 ≤ table i j ∧ table i j < c.cfg.numBlocks

instance (c : PagedKVCache) (i j : ℕ) : Decidable (c.MapsBlock i j) :=
  inferInstanceAs (Decidable (∃ table ∈ c.pageTableDevice, _))

theorem MapsBlock.lt {c : PagedKVCache} {i j : ℕ} (h : c.MapsBlock i j) :
    j < c.maxBlocksPerSeq := by
  obtain ⟨-, -, hlt, -⟩ := h
  exact hlt

/-- Every block that the device row of sequence `i` maps is full of tokens. -/
def MappedFull (c : PagedKVCache) (i : ℕ) : Prop :=
  ∀ j < c.maxBlocksPerSeq, c.MapsBlock i j → (j + 1) * c.cfg.blockSize ≤ c.seqLength i

instance (c : PagedKVCache) (i : ℕ) : Decidable (c.MappedFull i) :=
  inferInstanceAs (Decidable (∀ j < c.maxBlocksPerSeq, _))

variable {c : PagedKVCache} {table : HostTable} {flat : ℤ → ℤ}

/-- A position the kernels find mapped lies in a mapped block. -/
theorem Synced.mapsBlock (h : Synced c table)
    (hflat : ∀ s j : ℕ, j < c.maxBlocksPerSeq → flat (s * c.maxBlocksPerSeq + j) = table s j)
    {blockSize i x : ℕ}
    (hrow : 0 ≤ pageTableRow flat i x blockSize c.maxBlocksPerSeq c.cfg.numBlocks) :
    c.MapsBlock i (x / blockSize) := by
  have hdiv : (x : ℤ).tdiv blockSize = (x / blockSize : ℕ) := rfl
  simp only [pageTableRow, pageTableLookup, hdiv] at hrow
  split_ifs at hrow with hmax hout hid
  · omega
  · omega
  · omega
  · have hlt : x / blockSize < c.maxBlocksPerSeq := by omega
    rw [hflat i _ hlt] at hid
    exact ⟨table, h.device_eq, hlt, by omega, by omega⟩

/-- A sequence that maps no block is empty. -/
theorem Synced.seqLengths_eq_zero (h : Synced c table) {i : ℕ} (hi : i < c.cfg.maxNumSeqs)
    (hnone : ∀ j, ¬ c.MapsBlock i j) : c.seqLengths i = 0 := by
  by_contra hne
  obtain ⟨flat, -, hflat⟩ := pageTableDevicePtr_eq h.device_eq
  refine hnone (0 / c.cfg.blockSize) (h.mapsBlock hflat ?_)
  rw [h.pageTableRow_eq hflat hi (by omega : 0 < c.seqLengths i)]
  omega

end PagedKVCache

section Default

variable {𝕜 : Type*} [Field 𝕜] [LinearOrder 𝕜] {num : Numerics 𝕜} {env : AttentionEnv 𝕜}
  {q : Tensor} {params : PagedAttentionParams} {cfg : AttentionConfig 𝕜} {id : DecodeDtype}
  {flat : ℤ → ℤ} {scratch out : ℕ → Flt 𝕜} {c : PagedKVCache} {table : HostTable}

/-- Without lengths a request sees the positions of the blocks its rows map. -/
theorem PagedKVCache.Synced.mapsBlock_of_visible (h : Synced c table)
    (hflat : ∀ s j : ℕ, j < c.maxBlocksPerSeq → flat (s * c.maxBlocksPerSeq + j) = table s j)
    (hmb : params.maxBlocksFor c = c.maxBlocksPerSeq) {i : ℕ} {j : ℤ}
    (hj : j ∈ (pagedParams num env q c params cfg id flat scratch out).visible i) :
    0 ≤ j ∧ c.MapsBlock i (j.toNat / params.blockSizeFor c) := by
  simp only [DecodeFwdParams.visible, Finset.mem_filter, Finset.mem_Ico] at hj
  obtain ⟨x, rfl⟩ := Int.eq_ofNat_of_zero_le hj.1.1
  refine ⟨hj.1.1, h.mapsBlock hflat ?_⟩
  have hmapped := hj.2 rfl
  simp only [pagedParams, DecodeFwdParams.kvRow, hmb, h.inv.storageCfg_eq] at hmapped
  exact hmapped

/-- Without lengths, and with the cache's block size, a request reads the tokens of a sequence whose
mapped blocks are full. -/
theorem PagedKVCache.Synced.readsTokens_of_full (h : Synced c table) (hfits : FitsCache q c)
    (hflat : ∀ s j : ℕ, j < c.maxBlocksPerSeq → flat (s * c.maxBlocksPerSeq + j) = table s j)
    (hbs : params.blockSizeFor c = c.cfg.blockSize)
    (hmb : params.maxBlocksFor c = c.maxBlocksPerSeq) (hlens : params.seqLens = none) {i : ℕ}
    (hi : i < q.dim 0) (hfull : c.MappedFull i) :
    ReadsTokens c (pagedParams num env q c params cfg id flat scratch out) i := by
  have hmax := hi.trans_le hfits.numSeqs_le
  refine h.readsTokens hflat hbs hmb hmax rfl ?_ fun j hj => ?_
  · simp only [DecodeFwdParams.seqLen, pagedParams, hlens, hbs, h.inv.storageCfg_eq]
    have hle := h.inv.length_le i
    have hblocks := (h.inv.hostRow i hmax).length_le
    exact_mod_cast hle.trans (Nat.mul_le_mul_right _ hblocks)
  · obtain ⟨hnonneg, hblock⟩ := h.mapsBlock_of_visible hflat hmb hj
    have hle := hfull _ hblock.lt hblock
    rw [hbs, hfits.seqLength_eq hi] at hle
    have hlt := Nat.lt_div_mul_add (a := j.toNat) c.cfg.blockSize_pos
    rw [Nat.add_mul, Nat.one_mul] at hle
    omega

/-- Without lengths a request reads the tokens of a sequence that maps no block. -/
theorem PagedKVCache.Synced.readsTokens_of_unmapped (h : Synced c table) (hfits : FitsCache q c)
    (hflat : ∀ s j : ℕ, j < c.maxBlocksPerSeq → flat (s * c.maxBlocksPerSeq + j) = table s j)
    (hmb : params.maxBlocksFor c = c.maxBlocksPerSeq) {i : ℕ} (hi : i < q.dim 0)
    (hnone : ∀ j, ¬ c.MapsBlock i j) :
    ReadsTokens c (pagedParams num env q c params cfg id flat scratch out) i := by
  have hzero := h.seqLengths_eq_zero (hi.trans_le hfits.numSeqs_le) hnone
  refine ⟨fun j => ⟨fun hj => ?_, fun hj => by omega⟩, fun x hx => by omega⟩
  exact absurd (h.mapsBlock_of_visible hflat hmb hj).2 (hnone _)

omit [LinearOrder 𝕜] [Field 𝕜] in
/-- Two results with the same output tensor. -/
def SameOut (q : Tensor) (r r' : AttentionResult 𝕜) : Prop :=
  r.outDims = r'.outDims ∧ ∀ i < q.dim 0, ∀ h < q.dim 1, ∀ d < q.dim 3,
    r.out ((i * q.dim 1 + h) * q.dim 3 + d) = r'.out ((i * q.dim 1 + h) * q.dim 3 + d)

theorem RowsAre.sameOut {layer : ℕ} {r r' : AttentionResult 𝕜} (h : RowsAre num c layer cfg q r)
    (h' : RowsAre num c layer cfg q r') : SameOut q r r' := by
  obtain ⟨hdims, qData, hq, hrows⟩ := h
  obtain ⟨hdims', qData', hq', hrows'⟩ := h'
  obtain rfl : qData = qData' := Option.some.inj (hq.symm.trans hq')
  refine ⟨hdims.trans hdims'.symm, fun i hi head hh d hd => ?_⟩
  rw [(hrows i hi head hh d hd).1, (hrows' i hi head hh d hd).1]

variable [IsStrictOrderedRing 𝕜]

omit [IsStrictOrderedRing 𝕜] [Field 𝕜] [LinearOrder 𝕜] in
theorem blockSizeFor_paramsOf (c : PagedKVCache) :
    (paramsOf c).blockSizeFor c = c.cfg.blockSize := by
  simp [PagedAttentionParams.blockSizeFor, paramsOf]

omit [IsStrictOrderedRing 𝕜] [Field 𝕜] [LinearOrder 𝕜] in
theorem maxBlocksFor_paramsOf (c : PagedKVCache) :
    (paramsOf c).maxBlocksFor c = c.maxBlocksPerSeq := by
  simp [PagedAttentionParams.maxBlocksFor, paramsOf]

/-- The overload without parameters reads the tokens where every mapped block is full. -/
theorem PagedKVCache.Synced.pagedAttentionAll_answers (h : Synced c table) (hfits : FitsCache q c)
    (hfull : ∀ i < q.dim 0, c.MappedFull i) :
    Answers num env q c 0 cfg c.cfg.blockSize (pagedAttentionAll num env q c cfg) := by
  have hbs := blockSizeFor_paramsOf c
  have hmb := maxBlocksFor_paramsOf c
  rw [← hbs]
  exact h.answers num env hfits (show (paramsOf c).layer = (0 : ℕ) from rfl) c.cfg.numLayers_pos
    (by simp [paramsOf]) hmb fun flat id out hflat i hi =>
      h.readsTokens_of_full hfits hflat hbs hmb rfl hi (hfull i hi)

/-- `sca::paged` reads the page table in blocks of 16. -/
theorem PagedKVCache.Synced.paged_answers (h : Synced c table) (hfits : FitsCache q c)
    (hfull : ∀ i < q.dim 0, c.MappedFull i)
    (hsixteen : c.cfg.blockSize = 16 ∨ ∀ i < q.dim 0, ∀ j, ¬ c.MapsBlock i j) :
    Answers num env q c 0 cfg 16 (paged num env q c cfg) := by
  have hbs : ({} : PagedAttentionParams).blockSizeFor c = 16 := rfl
  have hmb : ({} : PagedAttentionParams).maxBlocksFor c = c.maxBlocksPerSeq := rfl
  refine h.answers num env hfits (show ({} : PagedAttentionParams).layer = (0 : ℕ) from rfl)
    c.cfg.numLayers_pos (by simp) hmb fun flat id out hflat i hi => ?_
  rcases hsixteen with heq | hnone
  · exact h.readsTokens_of_full hfits hflat (hbs.trans heq.symm) hmb rfl hi (hfull i hi)
  · exact h.readsTokens_of_unmapped hfits hflat hmb hi (hnone i hi)

/-- In every reachable, synchronised state whose mapped blocks are full the overload without
parameters is contiguous attention over the stored tokens, and so is `sca::paged` where the block size
is 16 or nothing is mapped; then all entry points agree. -/
theorem defaultEntries_run {kvCfg : KVCacheConfig} {kvEnv : PagedEnv} {c₀ c : PagedKVCache}
    (hsmall : kvCfg.numBlocks ≤ 2 ^ 31) (hcreate : PagedKVCache.create kvCfg kvEnv = .ok c₀)
    (calls : List Call) (hsync : (c₀.run calls).syncPageTable.2.isOk)
    (hc : c = (c₀.run calls).syncPageTable.1) {q : Tensor} (hfits : FitsCache q c)
    (hfull : ∀ i < q.dim 0, c.MappedFull i) (num : Numerics 𝕜) (env : AttentionEnv 𝕜)
    (cfg : AttentionConfig 𝕜) :
    Answers num env q c 0 cfg c.cfg.blockSize (pagedAttentionAll num env q c cfg) ∧
    (c.cfg.blockSize = 16 ∨ (∀ i < q.dim 0, ∀ j, ¬ c.MapsBlock i j) →
      Answers num env q c 0 cfg 16 (paged num env q c cfg) ∧
      ∀ (lens : ℕ → ℤ) (numSeqs : ℤ), (∀ i < q.dim 0, lens i = c.seqLength i) →
      ∀ r₁ r₂ r₃,
        paged num env q c cfg = .ok r₁ → pagedAttentionAll num env q c cfg = .ok r₂ →
        pagedAttention num env q c (explicitParams c lens numSeqs 0) cfg = .ok r₃ →
        SameOut q r₁ r₂ ∧ SameOut q r₂ r₃) := by
  obtain ⟨table, hsynced⟩ := synced_run hsmall hcreate calls hsync
  rw [← hc] at hsynced
  have hall : Answers num env q c 0 cfg c.cfg.blockSize (pagedAttentionAll num env q c cfg) :=
    hsynced.pagedAttentionAll_answers hfits hfull
  refine ⟨hall, fun hsixteen => ?_⟩
  have hpaged : Answers num env q c 0 cfg 16 (paged num env q c cfg) :=
    hsynced.paged_answers hfits hfull hsixteen
  refine ⟨hpaged, fun lens numSeqs hlens r₁ r₂ r₃ h₁ h₂ h₃ => ?_⟩
  have hexplicit := hsynced.explicit_answers num env hfits c.cfg.numLayers_pos hlens numSeqs cfg
  exact ⟨(hpaged.1 r₁ h₁).sameOut (hall.1 r₂ h₂),
    (hall.1 r₂ h₂).sameOut (hexplicit.1 r₃ h₃)⟩

end Default

/-- A half-precision token row of 32 ones. -/
def onesToken (tokens : ℕ) : Tensor := tokenTensor tokens 1 fun i => if i % 2 = 1 then 0x3c else 0

/-- A sequence that fills its only block, read by both default entry points. -/
theorem defaultEntries_tiny : ∃ c₀ r₁ r₂,
    PagedKVCache.create (tinyConfig 1 16 2) zeroEnv = .ok c₀ ∧
    let c := (c₀.run [.appendTokens 0 0 (onesToken 16) (onesToken 16) appendOk]).syncPageTable.1
    pagedAttentionAll realNumerics readyEnv (zeroQuery 2) c { scale := 0, softcap := 0 } = .ok r₁ ∧
      paged realNumerics readyEnv (zeroQuery 2) c { scale := 0, softcap := 0 } = .ok r₂ ∧
      RowsAre realNumerics c 0 { scale := 0, softcap := 0 } (zeroQuery 2) r₁ ∧
      RowsAre realNumerics c 0 { scale := 0, softcap := 0 } (zeroQuery 2) r₂ := by
  have hcreate : PagedKVCache.create (tinyConfig 1 16 2) zeroEnv = .ok _ := rfl
  obtain ⟨hall, hpaged⟩ := defaultEntries_run (by decide) hcreate
    [.appendTokens 0 0 (onesToken 16) (onesToken 16) appendOk]
    (by decide +kernel) rfl (q := zeroQuery 2) ⟨by decide, by decide +kernel, by decide,
      by decide +kernel, by decide +kernel, by decide +kernel⟩
    (by decide +kernel) realNumerics readyEnv { scale := 0, softcap := 0 }
  obtain ⟨r₁, h₁⟩ := hall.2 (by decide) (readyEnv_deviceReady (by decide +kernel)
    (by decide +kernel))
  have hpaged := (hpaged (.inl (by decide +kernel))).1
  obtain ⟨r₂, h₂⟩ := hpaged.2 (by decide) (readyEnv_deviceReady (by decide +kernel)
    (by decide +kernel))
  exact ⟨_, r₁, r₂, hcreate, h₁, h₂, hall.1 r₁ h₁, hpaged.1 r₂ h₂⟩

/-- A zero query averages the value rows of the positions it sees. -/
theorem runPaged_zeroQuery {c : PagedKVCache} {params : PagedAttentionParams}
    {cfg : AttentionConfig ℝ} {r : AttentionResult ℝ} (hmax : 0 < params.maxBlocksFor c)
    (hok : runPaged realNumerics readyEnv (zeroQuery 1) c params cfg = .ok r) :
    ∃ table out, params.pageTable.or c.pageTableDevicePtr = some table ∧
      let p := pagedParams realNumerics readyEnv (zeroQuery 1) c params cfg .fp16 table (fun _ => 0) out
      let buf := pagedBuffers readyEnv c params.layer (fun _ => 0) out
      r.out 0 = fin ((∑ j ∈ p.visible 0, valueAt realNumerics p buf 0 0 j 0) / (p.visible 0).card) := by
  obtain ⟨id, table, out, qData, hacc, hq, -, hrows⟩ := runPaged_out hmax hok
  obtain rfl : id = .fp16 := (Option.some.inj hacc.dtype_id).symm
  obtain rfl : (fun _ => 0) = qData := Option.some.inj hq
  refine ⟨table, out, hacc.table_eq, ?_⟩
  have hscores : ∀ p buf, p.dtype = .fp16 → buf.q = (fun _ => 0) →
      scores realNumerics p buf 0 0 = fun _ => ((0 : ℝ) : WithBot ℝ) := by
    intro p buf hp hbuf
    funext j
    refine congrArg WithBot.some ?_
    simp only [scoreAt, queryAt, hp, hbuf, DecodeDtype.elem, load_zero, zero_mul,
      Finset.sum_const_zero]
  intro p buf
  have hout : r.out 0 = fin (average realNumerics.E (scores realNumerics p buf 0 0)
      (fun j => valueAt realNumerics p buf 0 0 j 0) (p.visible 0)) :=
    hrows 0 (by decide) 0 (by decide) 0 (by decide)
  rw [hout, hscores p buf rfl rfl, average_const]

theorem storedValue_one : storedValue .float16 [0, 0x3c] = 1 := by
  have hbits : littleEndian [0, 0x3c] = 15360 := rfl
  norm_num [storedValue, hbits, ieeeValue]

/-- A cache whose first sequence has one token of ones in a block of sixteen rows. -/
structure OneToken (c : PagedKVCache) : Prop where
  fits : FitsCache (zeroQuery 1) c
  device : ∃ table ∈ c.pageTableDevice, table 0 0 = 0 ∧ table 0 1 = -1
  shape : c.maxBlocksPerSeq = 2 ∧ c.storage.cfg.numBlocks = 2 ∧ c.storage.cfg.numKvHeads = 1
  blockSize_eq : c.cfg.blockSize = 16
  length_eq : c.seqLengths 0 = 1
  stored : (c.rowAt false 0 (c.slotOf 0 0)).take c.cfg.elemBytes = [0, 0x3c]
  values : ∀ x < 16, (List.range 2).map (fun b => c.storage.vLayers 0 (x * 32 * 2 + b)) =
    if x = 0 then [0, 0x3c] else [0, 0]

/-- Contiguous attention over the one token is its value row. -/
theorem OneToken.attentionOf_eq {c : PagedKVCache} (h : OneToken c) (cfg : AttentionConfig ℝ) :
    c.attentionOf realNumerics 0 cfg (zeroQuery 1) (fun _ => 0) 0 0 0 = 1 := by
  have hquery : queryElem realNumerics (zeroQuery 1) (fun _ => 0) 0 0 = fun _ => (0 : ℝ) :=
    funext fun d => load_zero _
  have hvalue : c.storedAt realNumerics false 0 0 0 0 0 = (1 : ℝ) := by
    simp only [storedAt, Nat.zero_mul, Nat.add_zero, List.drop_zero, h.stored, ← h.fits.dtype_eq]
    change ((storedValue .float16 [0, 0x3c] : ℚ) : ℝ) = 1
    rw [storedValue_one, Rat.cast_one]
  simp only [attentionOf, decodeAttention, hquery, zero_mul, Finset.sum_const_zero, average_const,
    h.length_eq, Finset.sum_range_one, Nat.zero_div, hvalue, Finset.card_range, Nat.cast_one,
    div_one]

/-- The rows of a sequence that owns block 0 and no other. -/
theorem pageTableRow_firstBlock {flat : ℤ → ℤ} (hfirst : flat 0 = 0) (hsecond : flat 1 = -1) (x : ℕ) :
    pageTableRow flat 0 x 16 2 2 = if x < 16 then (x : ℤ) else -1 := by
  have hdiv : (x : ℤ).tdiv (16 : ℕ) = (x / 16 : ℕ) := rfl
  have hmod : (x : ℤ).tmod (16 : ℕ) = (x % 16 : ℕ) := rfl
  simp only [pageTableRow, pageTableLookup, hdiv, hmod, Nat.cast_zero, zero_mul, zero_add]
  rcases (show x / 16 = 0 ∨ x / 16 = 1 ∨ 2 ≤ x / 16 by omega) with hx | hx | hx
  · simp only [hx, Nat.cast_zero, hfirst]
    split_ifs <;> omega
  · simp only [hx, Nat.cast_one, hsecond]
    split_ifs <;> omega
  · rw [if_pos (by omega)]
    split_ifs <;> omega

/-- What is visible where the first `n` positions have rows and the others have none. -/
theorem visible_firstRows {p : DecodeFwdParams ℝ} {n : ℕ} (hpaged : p.pageTable.isSome)
    (hkv : ∀ x : ℕ, p.kvRow 0 x = if x < n then (x : ℤ) else -1) (hseq : n ≤ p.seqLen 0) :
    p.visible 0 = (Finset.range n).map Nat.castEmbedding := by
  refine eq_map_range fun j => ?_
  simp only [DecodeFwdParams.visible, Finset.mem_filter, Finset.mem_Ico]
  constructor
  · rintro ⟨⟨hj, hlt⟩, hmapped⟩
    obtain ⟨x, rfl⟩ := Int.eq_ofNat_of_zero_le hj
    have hnonneg := hmapped hpaged
    rw [hkv x] at hnonneg
    split_ifs at hnonneg with hx <;> omega
  · rintro ⟨hj, hlt⟩
    obtain ⟨x, rfl⟩ := Int.eq_ofNat_of_zero_le hj
    refine ⟨by omega, fun _ => ?_⟩
    rw [hkv x, if_pos (by omega)]
    exact hj

/-- A request without lengths sees the whole block. -/
theorem OneToken.out_eq {c : PagedKVCache} (h : OneToken c) {params : PagedAttentionParams}
    {cfg : AttentionConfig ℝ} {r : AttentionResult ℝ} (hbs : params.blockSizeFor c = 16)
    (hmb : params.maxBlocksFor c = c.maxBlocksPerSeq) (hlens : params.seqLens = none)
    (hlayer : params.layer = 0)
    (htable : params.pageTable.or c.pageTableDevicePtr = c.pageTableDevicePtr)
    (hok : runPaged realNumerics readyEnv (zeroQuery 1) c params cfg = .ok r) :
    r.out 0 = fin (1 / 16) := by
  obtain ⟨hmax, hblocks, hheads⟩ := h.shape
  obtain ⟨flat, out, hflat, hout⟩ := runPaged_zeroQuery (by omega) hok
  obtain ⟨table, hdevice, hfirst, hsecond⟩ := h.device
  obtain ⟨flat', hptr, hentries⟩ := pageTableDevicePtr_eq hdevice
  obtain rfl : flat' = flat := Option.some.inj (hptr.symm.trans (htable ▸ hflat))
  have hentry : flat' 0 = 0 ∧ flat' 1 = -1 := by
    have h0 := hentries 0 0 (by omega)
    have h1 := hentries 0 1 (by omega)
    simp only [Nat.cast_zero, zero_mul, add_zero, zero_add, Nat.cast_one, hfirst, hsecond] at h0 h1
    exact ⟨h0, h1⟩
  generalize hp : pagedParams realNumerics readyEnv (zeroQuery 1) c params cfg .fp16 flat'
    (fun _ => 0) out = p at hout
  have hkv : ∀ x : ℕ, p.kvRow 0 x = if x < 16 then (x : ℤ) else -1 := by
    intro x
    rw [← hp]
    simp only [pagedParams, DecodeFwdParams.kvRow, hbs, hmb, hmax, hblocks]
    exact pageTableRow_firstBlock hentry.1 hentry.2 x
  have hseq : p.seqLen 0 = 32 := by
    rw [← hp]
    simp [pagedParams, DecodeFwdParams.seqLen, hlens, hbs, hblocks]
  have hvisible : p.visible 0 = (Finset.range 16).map Nat.castEmbedding :=
    visible_firstRows (by rw [← hp]; rfl) hkv (by rw [hseq]; decide)
  have hvalues : ∀ x ∈ Finset.range 16, valueAt realNumerics p
      (pagedBuffers readyEnv c params.layer (fun _ => 0) out) 0 0 (Nat.castEmbedding x) 0 =
      if x = 0 then (1 : ℝ) else 0 := by
    intro x hx
    rw [Finset.mem_range] at hx
    have hindex : ((p.vBase 0 0 : ℤ) + p.kvRow 0 x * p.vStride.sS + (0 : ℕ)).toNat = x * 32 := by
      rw [hkv x, if_pos hx, ← hp]
      simp [pagedParams, DecodeFwdParams.vBase, hheads, zeroQuery, Tensor.dim]
      omega
    have hload : valueAt realNumerics p (pagedBuffers readyEnv c params.layer (fun _ => 0) out) 0 0
        (Nat.castEmbedding x) 0 = realNumerics.load .float16 (c.storage.vLayers 0) (x * 32) := by
      rw [valueAt, Nat.castEmbedding_apply, hindex, ← hp]
      simp [pagedBuffers, hlayer, pagedParams, DecodeDtype.elem]
    rw [hload]
    change ((storedValue .float16 ((List.range 2).map fun b =>
      c.storage.vLayers 0 (x * 32 * 2 + b)) : ℚ) : ℝ) = _
    rw [h.values x hx]
    split_ifs
    · rw [storedValue_one, Rat.cast_one]
    · exact load_zero 0
  rw [hout, hvisible, Finset.sum_map, Finset.card_map, Finset.sum_congr rfl hvalues]
  simp

/-- Such a request is served. -/
theorem OneToken.serves {c : PagedKVCache} {table : HostTable} (h : OneToken c)
    (hsynced : Synced c table) {params : PagedAttentionParams} {cfg : AttentionConfig ℝ}
    (hbs : params.blockSizeFor c = 16) (hmb : params.maxBlocksFor c = c.maxBlocksPerSeq)
    (hlens : params.seqLens = none) (hlayer : params.layer = 0)
    (htable : params.pageTable.or c.pageTableDevicePtr = c.pageTableDevicePtr) :
    ∃ r, runPaged realNumerics readyEnv (zeroQuery 1) c params cfg = .ok r ∧
      r.out 0 = fin (1 / 16) := by
  have hlayers := c.cfg.numLayers_pos
  have hpos : 0 < pagedSplits readyEnv c params cfg := resolveSplits_pos cfg _ _
  have hle : pagedSplits readyEnv c params cfg ≤ 16 := resolveSplits_le cfg _ _
  have hready : DeviceReady (readyEnv (𝕜 := ℝ)) (zeroQuery 1)
      (partialElements 1 1 (pagedSplits readyEnv c params cfg) 32) :=
    readyEnv_deviceReady (by simp only [partialElements]; omega)
      (by simp only [partialElements]; omega)
  obtain ⟨r, hok⟩ := hsynced.serves h.fits (by decide) hlayer.ge (by omega) htable
    (hmb ▸ hsynced.maxBlocks_pos) hready
  exact ⟨r, hok, h.out_eq hbs hmb hlens hlayer htable hok⟩

/-- So its answer is not the attention over the one token. -/
theorem OneToken.not_rowsAre {c : PagedKVCache} (h : OneToken c) {cfg : AttentionConfig ℝ}
    {r : AttentionResult ℝ} (hout : r.out 0 = fin (1 / 16)) :
    ¬ RowsAre realNumerics c 0 cfg (zeroQuery 1) r := by
  rintro ⟨-, qData, hq, hrows⟩
  obtain rfl : (fun _ => 0) = qData := Option.some.inj hq
  have hone := (hrows 0 (by decide) 0 (by decide) 0 (by decide)).1
  rw [h.attentionOf_eq] at hone
  have := Flt.fin.inj (hout.symm.trans hone)
  norm_num at this

/-- One token in a block of sixteen: the default entry points average it with fifteen zero rows. -/
theorem not_rowsAre_partialBlock : ∃ c₀ r₁ r₂,
    PagedKVCache.create (tinyConfig 1 16 2) zeroEnv = .ok c₀ ∧
    let state := (c₀.run [.appendTokens 0 0 (onesToken 1) (onesToken 1) appendOk]).syncPageTable
    let c := state.1
    state.2.isOk ∧ FitsCache (zeroQuery 1) c ∧
    pagedAttentionAll realNumerics readyEnv (zeroQuery 1) c { scale := 0, softcap := 0 } = .ok r₁ ∧
      paged realNumerics readyEnv (zeroQuery 1) c { scale := 0, softcap := 0 } = .ok r₂ ∧
      ¬ RowsAre realNumerics c 0 { scale := 0, softcap := 0 } (zeroQuery 1) r₁ ∧
      ¬ RowsAre realNumerics c 0 { scale := 0, softcap := 0 } (zeroQuery 1) r₂ := by
  obtain ⟨c₀, hcreate, hsync, hone⟩ : ∃ c₀, PagedKVCache.create (tinyConfig 1 16 2) zeroEnv =
    .ok c₀ ∧
      let state := (c₀.run [.appendTokens 0 0 (onesToken 1) (onesToken 1) appendOk]).syncPageTable
      state.2.isOk ∧ OneToken state.1 := by
    refine ⟨_, rfl, by decide +kernel, ⟨by decide, by decide +kernel, by decide, by decide +kernel,
      by decide +kernel, by decide +kernel⟩, by decide +kernel, by decide +kernel,
      by decide +kernel, by decide +kernel, by decide +kernel, by decide +kernel⟩
  obtain ⟨table, hsynced⟩ := synced_run (by decide) hcreate _ hsync
  obtain ⟨r₁, h₁, hout₁⟩ : ∃ r, runPaged realNumerics readyEnv (zeroQuery 1) _ (paramsOf _)
      { scale := 0, softcap := 0 } = .ok r ∧ r.out 0 = fin (1 / 16) :=
    hone.serves hsynced ((blockSizeFor_paramsOf _).trans hone.blockSize_eq)
      (maxBlocksFor_paramsOf _) rfl rfl (by simp [paramsOf])
  obtain ⟨r₂, h₂, hout₂⟩ : ∃ r, runPaged realNumerics readyEnv (zeroQuery 1) _ {}
      { scale := 0, softcap := 0, backend := .paged } = .ok r ∧ r.out 0 = fin (1 / 16) :=
    hone.serves hsynced rfl rfl rfl rfl (by simp)
  exact ⟨c₀, r₁, r₂, hcreate, hsync, hone.fits, h₁, h₂, hone.not_rowsAre hout₁,
    hone.not_rowsAre hout₂⟩

end SciAttention

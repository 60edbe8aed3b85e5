import SciAttention.Core.Types
import Mathlib.Data.List.Forall2
import Mathlib.Data.List.GetD
import Mathlib.Tactic.Positivity

/-!
# KV cache configuration, addresses and slots

Model of `src/kv_cache/kv_cache_layout.cuh` and of the configuration, budget and slot-mapping
helpers of `src/kv_cache/kv_cache.cpp`. A configuration as the caller passes it has `int64_t`
fields; `ValidConfig` is one that `ValidateConfig` accepted.
-/

namespace SciAttention

/-! ## Addresses inside one layer -/

/-- `cuda::KVCacheShape`. -/
structure KVCacheShape where
  numBlocks : ℕ
  blockSize : ℕ
  numKvHeads : ℕ
  headDim : ℕ
deriving DecidableEq, Repr

/-- `KvOffset`: element offset of `(block, offset_in_block, kv_head, d)` in one layer. -/
def kvOffset (shape : KVCacheShape) (block offsetInBlock kvHead d : ℕ) : ℕ :=
  ((block * shape.blockSize + offsetInBlock) * shape.numKvHeads + kvHead) * shape.headDim + d

/-- `KvLayerElements`. -/
def kvLayerElements (shape : KVCacheShape) : ℕ :=
  shape.numBlocks * shape.blockSize * shape.numKvHeads * shape.headDim

/-! ## Configuration -/

/-- `sca::KVCacheConfig`. -/
structure KVCacheConfig where
  numLayers : ℤ := 0
  numKvHeads : ℤ := 0
  headDim : ℤ := 0
  blockSize : ℤ := 16
  numBlocks : ℤ := 0
  maxNumSeqs : ℤ := 1
  dtype : DType := .float16
  layout : KvLayout := .blockMajor
deriving DecidableEq, Repr

/-- `IsSupportedBlockSize`. -/
def isSupportedBlockSize (blockSize : ℤ) : Bool :=
  [1, 8, 16, 32, 64].contains blockSize

/-- `ValidateConfig`. The layout test is left out: the enumeration has one value. -/
def validateConfig (cfg : KVCacheConfig) : Status :=
  if cfg.numLayers ≤ 0 then
    makeStatus .shapeMismatch ("KVCacheConfig invalid: num_layers=" ++ toString cfg.numLayers)
  else if cfg.numKvHeads ≤ 0 then
    makeStatus .shapeMismatch ("KVCacheConfig invalid: num_kv_heads=" ++ toString cfg.numKvHeads)
  else if supportedHeadDimIndex cfg.headDim < 0 then
    makeStatus .unsupportedHeadDim ("KVCacheConfig invalid: head_dim=" ++ toString cfg.headDim)
  else if ¬ isSupportedBlockSize cfg.blockSize then
    makeStatus .shapeMismatch
      ("KVCacheConfig invalid: block_size=" ++ toString cfg.blockSize ++
        " (supported: 1, 8, 16, 32, 64)")
  else if cfg.numBlocks ≤ 0 then
    makeStatus .shapeMismatch ("KVCacheConfig invalid: num_blocks=" ++ toString cfg.numBlocks)
  else if cfg.maxNumSeqs ≤ 0 then
    makeStatus .shapeMismatch ("KVCacheConfig invalid: max_num_seqs=" ++ toString cfg.maxNumSeqs)
  else if ¬ isSupportedComputeDtype cfg.dtype then
    makeStatus .unsupportedDtype ("KVCacheConfig invalid: dtype=" ++ dtypeName cfg.dtype)
  else
    .ok

/-- A configuration that passed `ValidateConfig`, with its fields as natural numbers. -/
structure ValidConfig where
  numLayers : ℕ
  numKvHeads : ℕ
  headDim : ℕ
  blockSize : ℕ
  numBlocks : ℕ
  maxNumSeqs : ℕ
  dtype : DType
  numLayers_pos : 0 < numLayers
  numKvHeads_pos : 0 < numKvHeads
  headDim_supported : (headDim : ℤ) ∈ supportedHeadDims
  blockSize_supported : isSupportedBlockSize blockSize
  numBlocks_pos : 0 < numBlocks
  maxNumSeqs_pos : 0 < maxNumSeqs
  dtype_supported : isSupportedComputeDtype dtype

/-- The fields of an accepted configuration. -/
theorem validateConfig_isOk {cfg : KVCacheConfig} (h : (validateConfig cfg).isOk) :
    0 < cfg.numLayers ∧ 0 < cfg.numKvHeads ∧ cfg.headDim ∈ supportedHeadDims ∧
      isSupportedBlockSize cfg.blockSize ∧ 0 < cfg.numBlocks ∧ 0 < cfg.maxNumSeqs ∧
      isSupportedComputeDtype cfg.dtype := by
  unfold validateConfig at h
  split_ifs at h with h1 h2 h3 h4 h5 h6 h7 <;> try exact absurd h (not_isOk_makeStatus _ _)
  refine ⟨by omega, by omega, (supportedHeadDimIndex_nonneg_iff _).mp h3, by simpa using h4,
    by omega, by omega, by simpa using h7⟩

theorem pos_of_mem_supportedHeadDims {d : ℤ} (h : d ∈ supportedHeadDims) : 0 < d := by
  simp only [supportedHeadDims, List.mem_cons, List.not_mem_nil, or_false] at h
  omega

theorem pos_of_isSupportedBlockSize {b : ℤ} (h : isSupportedBlockSize b) : 0 < b := by
  simp only [isSupportedBlockSize, List.contains_eq_mem, List.mem_cons, List.not_mem_nil, or_false,
    decide_eq_true_eq] at h
  omega

/-- The validated form of an accepted configuration. -/
def KVCacheConfig.validated (cfg : KVCacheConfig) (h : (validateConfig cfg).isOk) : ValidConfig :=
  have hf := validateConfig_isOk h
  have hd := pos_of_mem_supportedHeadDims hf.2.2.1
  have hb := pos_of_isSupportedBlockSize hf.2.2.2.1
  { numLayers := cfg.numLayers.toNat
    numKvHeads := cfg.numKvHeads.toNat
    headDim := cfg.headDim.toNat
    blockSize := cfg.blockSize.toNat
    numBlocks := cfg.numBlocks.toNat
    maxNumSeqs := cfg.maxNumSeqs.toNat
    dtype := cfg.dtype
    numLayers_pos := by omega
    numKvHeads_pos := by omega
    headDim_supported := by
      rw [Int.toNat_of_nonneg hd.le]
      exact hf.2.2.1
    blockSize_supported := by
      rw [Int.toNat_of_nonneg hb.le]
      exact hf.2.2.2.1
    numBlocks_pos := by omega
    maxNumSeqs_pos := by omega
    dtype_supported := hf.2.2.2.2.2.2 }

namespace ValidConfig

variable (cfg : ValidConfig)

/-- `ToDeviceShape`. -/
def toDeviceShape : KVCacheShape :=
  ⟨cfg.numBlocks, cfg.blockSize, cfg.numKvHeads, cfg.headDim⟩

/-- Bytes of one element. -/
def elemBytes : ℕ := dtypeSize cfg.dtype

/-- Bytes of one stored token row: all kv heads of one position. -/
def rowBytes : ℕ := cfg.numKvHeads * cfg.headDim * cfg.elemBytes

theorem headDim_pos : 0 < cfg.headDim := by
  have := pos_of_mem_supportedHeadDims cfg.headDim_supported
  omega

theorem blockSize_pos : 0 < cfg.blockSize := by
  have := pos_of_isSupportedBlockSize cfg.blockSize_supported
  omega

theorem elemBytes_pos : 0 < cfg.elemBytes := dtypeSize_pos cfg.dtype

theorem rowBytes_pos : 0 < cfg.rowBytes :=
  Nat.mul_pos (Nat.mul_pos cfg.numKvHeads_pos cfg.headDim_pos) cfg.elemBytes_pos

end ValidConfig

/-! ## Byte budget -/

/-- `int64_t` arithmetic, wrapping. -/
def int64Wrap (x : ℤ) : ℤ := Int.bmod x (2 ^ 64)

theorem int64Wrap_of_lt {x : ℤ} (h0 : -2 ^ 63 ≤ x) (h : x < 2 ^ 63) : int64Wrap x = x := by
  unfold int64Wrap
  rw [Int.bmod_eq_of_le] <;> omega

@[simp] theorem int64Wrap_mul_left (x y : ℤ) : int64Wrap (int64Wrap x * y) = int64Wrap (x * y) :=
  Int.bmod_mul_bmod

@[simp] theorem int64Wrap_mul_right (x y : ℤ) : int64Wrap (x * int64Wrap y) = int64Wrap (x * y) :=
  Int.mul_bmod_bmod

/-- `KvCacheBytes`. -/
def kvCacheBytes (cfg : KVCacheConfig) : Except Status ℕ :=
  if ¬ (validateConfig cfg).isOk then .error (validateConfig cfg)
  else
    let perLayer := int64Wrap (int64Wrap (int64Wrap (cfg.numBlocks * cfg.blockSize) *
      cfg.numKvHeads) * cfg.headDim)
    let total := int64Wrap (int64Wrap (int64Wrap (2 * cfg.numLayers) * perLayer) *
      dtypeSize cfg.dtype)
    if total ≤ 0 then .error (makeStatus .shapeMismatch "KVCacheConfig overflow")
    else .ok total.toNat

/-- `MaxBlocksForBudget`. -/
def maxBlocksForBudget (cfg : KVCacheConfig) (budgetBytes : ℕ) : ℕ :=
  let perBlockBytes := int64Wrap (int64Wrap (int64Wrap (int64Wrap (int64Wrap (2 * cfg.numLayers) *
    cfg.blockSize) * cfg.numKvHeads) * cfg.headDim) * dtypeSize cfg.dtype)
  if perBlockBytes ≤ 0 then 0 else budgetBytes / perBlockBytes.toNat

/-! ## Slot mapping -/

/-- One iteration of the loop in `ComputeSlotMapping`. `row` is the memory around the row pointer,
so that an index outside the row reads what is there. -/
def slotAt (row : ℤ → ℤ) (seqStart blockSize maxBlocks : ℤ) (t : ℕ) : Except Status ℤ :=
  let position := seqStart + t
  let logicalBlock := position.tdiv blockSize
  let offsetInBlock := position.tmod blockSize
  if logicalBlock ≥ maxBlocks then
    .error (makeStatus .kvCapacityExceeded
      ("ComputeSlotMapping: logical block " ++ toString logicalBlock ++ " >= max_blocks=" ++
        toString maxBlocks))
  else
    let physical := row logicalBlock
    if physical < 0 then
      .error (makeStatus .shapeMismatch
        ("ComputeSlotMapping: block table slot " ++ toString logicalBlock ++
          " is empty (-1) for position " ++ toString position))
    else .ok (int32Cast (physical * blockSize + offsetInBlock))

/-- The loop of `ComputeSlotMapping`: the first failing token ends it. -/
def slotLoop (row : ℤ → ℤ) (seqStart blockSize maxBlocks : ℤ) : List ℕ → Except Status (List ℤ)
  | [] => .ok []
  | t :: ts =>
    match slotAt row seqStart blockSize maxBlocks t with
    | .error e => .error e
    | .ok slot =>
      match slotLoop row seqStart blockSize maxBlocks ts with
      | .error e => .error e
      | .ok slots => .ok (slot :: slots)

/-- `ComputeSlotMapping`. -/
def computeSlotMapping (blockTableRow : Option (ℤ → ℤ))
    (seqStart numTokens blockSize maxBlocks : ℤ) : Except Status (List ℤ) :=
  match blockTableRow with
  | none => .error (makeStatus .shapeMismatch "ComputeSlotMapping: null block table row")
  | some row =>
    if blockSize ≤ 0 ∨ numTokens ≤ 0 then
      .error (makeStatus .shapeMismatch "ComputeSlotMapping: block_size/num_tokens <= 0")
    else slotLoop row seqStart blockSize maxBlocks (List.range numTokens.toNat)

/-- The loop succeeds exactly when every iteration does. -/
theorem slotLoop_eq_ok {row : ℤ → ℤ} {seqStart blockSize maxBlocks : ℤ} {ts : List ℕ}
    {slots : List ℤ} :
    slotLoop row seqStart blockSize maxBlocks ts = .ok slots ↔
      List.Forall₂ (fun t slot => slotAt row seqStart blockSize maxBlocks t = .ok slot)
        ts slots := by
  induction ts generalizing slots with
  | nil => simp [slotLoop, eq_comm]
  | cons t ts ih =>
    rw [slotLoop]
    cases hslot : slotAt row seqStart blockSize maxBlocks t with
    | error e => simp [List.forall₂_cons_left_iff, hslot]
    | ok slot =>
      cases hrest : slotLoop row seqStart blockSize maxBlocks ts with
      | error e =>
        have hnone : ∀ u, ¬ List.Forall₂
            (fun t slot => slotAt row seqStart blockSize maxBlocks t = .ok slot) ts u := by
          intro u hu
          rw [← ih, hrest] at hu
          simp at hu
        simp [List.forall₂_cons_left_iff, hnone]
      | ok rest =>
        have hsome : ∀ u, List.Forall₂
            (fun t slot => slotAt row seqStart blockSize maxBlocks t = .ok slot) ts u ↔
              rest = u := by
          intro u
          rw [← ih, hrest]
          simp
        simp only [List.forall₂_cons_left_iff, hslot, hsome, Except.ok.injEq]
        constructor
        · rintro rfl
          exact ⟨slot, rest, rfl, rfl, rfl⟩
        · rintro ⟨_, _, rfl, rfl, rfl⟩
          rfl

/-- A successful mapping has one entry per token, computed by `slotAt`. -/
theorem computeSlotMapping_eq_ok {row : ℤ → ℤ} {seqStart numTokens blockSize maxBlocks : ℤ}
    {slots : List ℤ}
    (h : computeSlotMapping (some row) seqStart numTokens blockSize maxBlocks = .ok slots) :
    slots.length = numTokens.toNat ∧ ∀ t, t < numTokens.toNat →
      slotAt row seqStart blockSize maxBlocks t = .ok (slots.getD t 0) := by
  simp only [computeSlotMapping] at h
  split_ifs at h
  have hall := slotLoop_eq_ok.mp h
  have hlen : slots.length = numTokens.toNat := by simpa using hall.length_eq.symm
  refine ⟨hlen, fun t ht => ?_⟩
  have hget := hall.get (i := t) (by simpa using ht) (by omega)
  rw [List.getD_eq_getElem _ _ (by omega)]
  simpa using hget

/-- The failure of one token is the failure of the whole mapping. -/
theorem computeSlotMapping_isOk_of_forall {row : ℤ → ℤ}
    {seqStart numTokens blockSize maxBlocks : ℤ} (hb : 0 < blockSize) (hn : 0 < numTokens)
    (hall : ∀ t, t < numTokens.toNat →
      ∃ slot, slotAt row seqStart blockSize maxBlocks t = .ok slot) :
    ∃ slots, computeSlotMapping (some row) seqStart numTokens blockSize maxBlocks = .ok slots := by
  have hrec : ∀ ts : List ℕ, (∀ t ∈ ts, t < numTokens.toNat) →
      ∃ slots, slotLoop row seqStart blockSize maxBlocks ts = .ok slots := by
    intro ts
    induction ts with
    | nil => exact fun _ => ⟨[], rfl⟩
    | cons t ts ih =>
      intro hlt
      obtain ⟨slot, hslot⟩ := hall t (hlt t (by simp))
      obtain ⟨slots, hslots⟩ := ih fun u hu => hlt u (by simp [hu])
      exact ⟨slot :: slots, by simp [slotLoop, hslot, hslots]⟩
  obtain ⟨slots, hslots⟩ := hrec (List.range numTokens.toNat) (by simp)
  refine ⟨slots, ?_⟩
  simp only [computeSlotMapping]
  rw [if_neg (by omega), hslots]

/-- At a non-negative position the truncating division is the division of natural numbers. -/
theorem tdiv_position (seqStart t blockSize : ℕ) :
    ((seqStart : ℤ) + t).tdiv blockSize = ((seqStart + t) / blockSize : ℕ) := by
  rw [← Nat.cast_add, Int.tdiv_eq_ediv_of_nonneg (by positivity)]
  rfl

/-- At a non-negative position the truncating remainder is the remainder of natural numbers. -/
theorem tmod_position (seqStart t blockSize : ℕ) :
    ((seqStart : ℤ) + t).tmod blockSize = ((seqStart + t) % blockSize : ℕ) := by
  rw [← Nat.cast_add, Int.tmod_eq_emod_of_nonneg (by positivity)]
  rfl

/-- At a position that is mapped, the slot is `block * block_size + offset`, cast to `int32_t`. -/
theorem slotAt_mapped {row : ℤ → ℤ} {seqStart blockSize maxBlocks t : ℕ}
    (hlt : (seqStart + t) / blockSize < maxBlocks)
    (hrow : 0 ≤ row (((seqStart + t) / blockSize : ℕ) : ℤ)) :
    slotAt row seqStart blockSize maxBlocks t =
      .ok (int32Cast (row (((seqStart + t) / blockSize : ℕ) : ℤ) * blockSize +
        ((seqStart + t) % blockSize : ℕ))) := by
  simp only [slotAt, tdiv_position, tmod_position]
  rw [if_neg (by omega), if_neg (by omega)]

/-- A position that got a slot is mapped. -/
theorem slotAt_eq_ok {row : ℤ → ℤ} {seqStart blockSize maxBlocks t : ℕ} {slot : ℤ}
    (h : slotAt row seqStart blockSize maxBlocks t = .ok slot) :
    (seqStart + t) / blockSize < maxBlocks ∧
      0 ≤ row (((seqStart + t) / blockSize : ℕ) : ℤ) := by
  simp only [slotAt, tdiv_position] at h
  split_ifs at h
  omega

end SciAttention

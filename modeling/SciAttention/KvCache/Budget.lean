import SciAttention.KvCache.Storage
import Mathlib.Order.GaloisConnection.Basic

/-!
# The byte budget

`KvCacheBytes`, `MaxBlocksForBudget` and the budget check of `KVCache::Create` each multiply the same
dimensions in an order of their own and in wrapping arithmetic. Here they are compared with one product
of integers.
-/

namespace SciAttention

/-! ## Exact products -/

/-- The value is one of `int64_t`. -/
def FitsInt64 (x : ℤ) : Prop := -2 ^ 63 ≤ x ∧ x < 2 ^ 63

instance (x : ℤ) : Decidable (FitsInt64 x) := inferInstanceAs (Decidable (_ ∧ _))

namespace KVCacheConfig

variable (cfg : KVCacheConfig)

/-- Bytes of one block: K and V of every layer. -/
def blockBytes : ℤ :=
  2 * cfg.numLayers * cfg.blockSize * cfg.numKvHeads * cfg.headDim * dtypeSize cfg.dtype

/-- The product of `KvCacheBytes` over the integers. -/
def trueBytes : ℤ :=
  2 * cfg.numLayers * cfg.numBlocks * cfg.blockSize * cfg.numKvHeads * cfg.headDim *
    dtypeSize cfg.dtype

theorem trueBytes_eq : cfg.trueBytes = cfg.numBlocks * cfg.blockBytes := by
  unfold trueBytes blockBytes
  ring

variable {cfg}

theorem blockBytes_pos (hvalid : (validateConfig cfg).isOk) : 0 < cfg.blockBytes := by
  obtain ⟨hlayers, hheads, hdim, hblock, -⟩ := validateConfig_isOk hvalid
  have hd := pos_of_mem_supportedHeadDims hdim
  have hb := pos_of_isSupportedBlockSize hblock
  have he : (0 : ℤ) < dtypeSize cfg.dtype := Int.natCast_pos.mpr (dtypeSize_pos _)
  unfold blockBytes
  positivity

theorem trueBytes_pos (hvalid : (validateConfig cfg).isOk) : 0 < cfg.trueBytes := by
  rw [trueBytes_eq]
  exact Int.mul_pos (validateConfig_isOk hvalid).2.2.2.2.1 (blockBytes_pos hvalid)

/-- The number of blocks is not looked at beyond its sign. -/
theorem validateConfig_numBlocks (hvalid : (validateConfig cfg).isOk) {n : ℤ} (hn : 0 < n) :
    (validateConfig { cfg with numBlocks := n }).isOk := by
  obtain ⟨h1, h2, h3, h4, -, h6, h7⟩ := validateConfig_isOk hvalid
  have hd := (supportedHeadDimIndex_nonneg_iff _).mpr h3
  unfold validateConfig
  rw [if_neg (by simpa using h1), if_neg (by simpa using h2), if_neg hd, if_neg (by simpa using h4),
    if_neg (by simpa using hn), if_neg (by simpa using h6), if_neg (by simpa using h7)]
  rfl

end KVCacheConfig

/-! ## The two helpers -/

/-- `KvCacheBytes` wraps the exact product once. -/
theorem kvCacheBytes_eq {cfg : KVCacheConfig} (hvalid : (validateConfig cfg).isOk) :
    kvCacheBytes cfg =
      if int64Wrap cfg.trueBytes ≤ 0 then
        .error (makeStatus .shapeMismatch "KVCacheConfig overflow")
      else .ok (int64Wrap cfg.trueBytes).toNat := by
  have hexact : int64Wrap (2 * cfg.numLayers * (cfg.numBlocks * cfg.blockSize * cfg.numKvHeads *
      cfg.headDim) * dtypeSize cfg.dtype) = int64Wrap cfg.trueBytes := by
    unfold KVCacheConfig.trueBytes
    congr 1
    ring
  simp only [kvCacheBytes, hvalid, not_true, if_false, int64Wrap_mul_left, int64Wrap_mul_right, hexact]

/-- `MaxBlocksForBudget` wraps the exact bytes of a block once. -/
theorem maxBlocksForBudget_eq (cfg : KVCacheConfig) (budget : ℕ) :
    maxBlocksForBudget cfg budget =
      if int64Wrap cfg.blockBytes ≤ 0 then 0 else budget / (int64Wrap cfg.blockBytes).toNat := by
  simp only [maxBlocksForBudget, int64Wrap_mul_left]
  rfl

/-- What is kept of a wrapped value that stays positive. -/
theorem int64Wrap_pos_iff (x : ℤ) : 0 < int64Wrap x ↔ 0 < x % 2 ^ 64 ∧ x % 2 ^ 64 < 2 ^ 63 := by
  unfold int64Wrap
  rw [Int.bmod_eq_emod]
  have h0 := Int.emod_nonneg x (show ((2 ^ 64 : ℕ) : ℤ) ≠ 0 by norm_num)
  have h1 := Int.emod_lt_of_pos x (show (0 : ℤ) < ((2 ^ 64 : ℕ) : ℤ) by norm_num)
  push_cast at *
  split_ifs <;> omega

theorem int64Wrap_of_fits {x : ℤ} (h : FitsInt64 x) : int64Wrap x = x := int64Wrap_of_lt h.1 h.2

/-- Without overflow `KvCacheBytes` is the exact product. -/
theorem kvCacheBytes_of_fits {cfg : KVCacheConfig} (hvalid : (validateConfig cfg).isOk)
    (hfit : FitsInt64 cfg.trueBytes) : kvCacheBytes cfg = .ok cfg.trueBytes.toNat := by
  have hpos := KVCacheConfig.trueBytes_pos hvalid
  rw [kvCacheBytes_eq hvalid, int64Wrap_of_fits hfit, if_neg (by omega)]

/-- Without overflow `MaxBlocksForBudget` divides by the exact bytes of a block. -/
theorem maxBlocksForBudget_of_fits {cfg : KVCacheConfig} (hvalid : (validateConfig cfg).isOk)
    (hfit : FitsInt64 cfg.blockBytes) (budget : ℕ) :
    maxBlocksForBudget cfg budget = budget / cfg.blockBytes.toNat := by
  have hpos := KVCacheConfig.blockBytes_pos hvalid
  rw [maxBlocksForBudget_eq, int64Wrap_of_fits hfit, if_neg (by omega)]

/-! ## Overflow -/

/-- `KvCacheBytes` reports every overflow, and `KVCache::Create` admits what really is in its budget. -/
structure DetectsOverflow (cfg : KVCacheConfig) : Prop where
  ok_iff : ∀ bytes : ℕ, kvCacheBytes cfg = .ok bytes ↔
    (validateConfig cfg).isOk ∧ FitsInt64 cfg.trueBytes ∧ (bytes : ℤ) = cfg.trueBytes
  refused : ¬ FitsInt64 cfg.trueBytes → ∃ e, kvCacheBytes cfg = .error e
  admitted : ∀ env (freeBytes : ℕ) c, env.freeBytes = some freeBytes →
    KVCache.create cfg env = .ok c → 5 * cfg.trueBytes ≤ 4 * freeBytes

/-- A cache that was created passed the budget check with the bytes that `KvCacheBytes` gave. -/
theorem KVCache.create_bytes {cfg : KVCacheConfig} {env : StorageEnv} {freeBytes : ℕ} {c : KVCache}
    (hfree : env.freeBytes = some freeBytes) (h : KVCache.create cfg env = .ok c) :
    ∃ bytes, kvCacheBytes cfg = .ok bytes ∧ 5 * bytes ≤ 4 * freeBytes := by
  unfold KVCache.create at h
  split_ifs at h
  cases hbytes : kvCacheBytes cfg with
  | error e => simp [hbytes] at h
  | ok bytes =>
    refine ⟨bytes, rfl, ?_⟩
    by_contra hover
    simp [hbytes, hfree, Nat.not_le.mp hover] at h

/-- Every wrap is seen, except one that lands on a positive value. -/
theorem detectsOverflow_iff (cfg : KVCacheConfig) :
    DetectsOverflow cfg ↔
      ((validateConfig cfg).isOk → FitsInt64 cfg.trueBytes ∨
        ¬ (0 < cfg.trueBytes % 2 ^ 64 ∧ cfg.trueBytes % 2 ^ 64 < 2 ^ 63)) := by
  constructor
  · intro h hvalid
    by_contra! hbad
    obtain ⟨e, he⟩ := h.refused hbad.1
    have hpos := (int64Wrap_pos_iff _).mpr hbad.2
    rw [kvCacheBytes_eq hvalid, if_neg (by omega)] at he
    cases he
  · intro hcond
    -- what the function returns in the three cases: invalid, exact, wrapped to a value that is not positive
    have hok : ∀ bytes : ℕ, kvCacheBytes cfg = .ok bytes ↔
        (validateConfig cfg).isOk ∧ FitsInt64 cfg.trueBytes ∧ (bytes : ℤ) = cfg.trueBytes := by
      intro bytes
      by_cases hvalid : (validateConfig cfg).isOk
      · have hpos := KVCacheConfig.trueBytes_pos hvalid
        by_cases hfit : FitsInt64 cfg.trueBytes
        · simp only [kvCacheBytes_of_fits hvalid hfit, Except.ok.injEq, hvalid, hfit, true_and]
          omega
        · have hwrap := ((int64Wrap_pos_iff _).not.mpr ((hcond hvalid).resolve_left hfit))
          simp [kvCacheBytes_eq hvalid, Int.not_lt.mp hwrap, hfit]
      · simp [kvCacheBytes, hvalid]
    refine ⟨hok, fun hfit => ?_, fun env freeBytes c hfree hc => ?_⟩
    · cases hbytes : kvCacheBytes cfg with
      | error e => exact ⟨e, rfl⟩
      | ok bytes => exact absurd ((hok bytes).mp hbytes).2.1 hfit
    · obtain ⟨bytes, hbytes, hle⟩ := KVCache.create_bytes hfree hc
      have := ((hok bytes).mp hbytes).2.2
      omega

/-- One layer of `2 ^ 58 + 1` blocks: the product wraps to 128 bytes. -/
def wrappingConfig : KVCacheConfig :=
  { numLayers := 1, numKvHeads := 1, headDim := 32, blockSize := 1, numBlocks := 2 ^ 58 + 1 }

theorem not_detectsOverflow_wrappingConfig :
    kvCacheBytes wrappingConfig = .ok 128 ∧ ¬ DetectsOverflow wrappingConfig := by
  have hbytes : kvCacheBytes wrappingConfig = .ok 128 := by decide +kernel
  refine ⟨hbytes, fun h => ?_⟩
  have := ((h.ok_iff 128).mp hbytes).2.2
  exact absurd this (by decide)

/-! ## The budget line -/

/-- `KvCacheBytes` of the configuration with `n` blocks is within the budget. -/
def PassesBudget (cfg : KVCacheConfig) (budget n : ℕ) : Prop :=
  ∃ bytes, kvCacheBytes { cfg with numBlocks := n } = .ok bytes ∧ bytes ≤ budget

/-- The bytes of `n` blocks against a budget, over the integers. -/
theorem passesBudget_iff {cfg : KVCacheConfig} (hvalid : (validateConfig cfg).isOk) {budget n : ℕ}
    (hn : 0 < n) (hfit : FitsInt64 (n * cfg.blockBytes)) :
    PassesBudget cfg budget n ↔ n * cfg.blockBytes.toNat ≤ budget := by
  have hbytes := kvCacheBytes_of_fits (KVCacheConfig.validateConfig_numBlocks hvalid
    (Int.natCast_pos.mpr hn)) (by rwa [KVCacheConfig.trueBytes_eq])
  rw [KVCacheConfig.trueBytes_eq] at hbytes
  have hmul : ((n : ℤ) * cfg.blockBytes).toNat = n * cfg.blockBytes.toNat := by
    rw [Int.toNat_mul (by positivity) (KVCacheConfig.blockBytes_pos hvalid).le, Int.toNat_natCast]
  unfold PassesBudget
  rw [hbytes]
  simp only [Except.ok.injEq, exists_eq_left', ← hmul]
  rfl

/-- Part of an exact product is exact. -/
theorem FitsInt64.mul_of_le {m n b : ℤ} (h : FitsInt64 (n * b)) (hb : 0 ≤ b) (hm : 0 ≤ m)
    (hmn : m ≤ n) : FitsInt64 (m * b) := by
  have hle := mul_le_mul_of_nonneg_right hmn hb
  have hnonneg := mul_nonneg hm hb
  unfold FitsInt64 at *
  omega

/-- `MaxBlocksForBudget` is the upper adjoint of `KvCacheBytes` in the number of blocks. -/
theorem maxBlocksForBudget_adjoint {cfg : KVCacheConfig} (hvalid : (validateConfig cfg).isOk) :
    (∀ budget n : ℕ, 1 ≤ n → FitsInt64 (n * cfg.blockBytes) →
      (PassesBudget cfg budget n ↔ n ≤ maxBlocksForBudget cfg budget)) ∧
    Monotone (maxBlocksForBudget cfg) ∧
    (FitsInt64 cfg.blockBytes → ∀ budget,
      (maxBlocksForBudget cfg budget = 0 ↔ ¬ PassesBudget cfg budget 1)) ∧
    (FitsInt64 cfg.trueBytes → ∃ bytes, kvCacheBytes cfg = .ok bytes ∧
      (maxBlocksForBudget cfg bytes : ℤ) = cfg.numBlocks) := by
  have hpos := KVCacheConfig.blockBytes_pos hvalid
  have hadjoint := Nat.galoisConnection_mul_div (k := cfg.blockBytes.toNat) (by omega)
  have hline : ∀ budget n : ℕ, 1 ≤ n → FitsInt64 (n * cfg.blockBytes) →
      (PassesBudget cfg budget n ↔ n ≤ maxBlocksForBudget cfg budget) := by
    intro budget n hn hfit
    have hblock : FitsInt64 cfg.blockBytes := by
      simpa using hfit.mul_of_le (m := 1) hpos.le (by omega) (by omega)
    rw [passesBudget_iff hvalid hn hfit, maxBlocksForBudget_of_fits hvalid hblock]
    exact hadjoint n budget
  refine ⟨hline, fun b b' hb => ?_, fun hfit budget => ?_, fun hfit => ?_⟩
  · simp only [maxBlocksForBudget_eq]
    split_ifs
    · exact le_rfl
    · exact Nat.div_le_div_right hb
  · rw [hline budget 1 le_rfl (by simpa using hfit)]
    omega
  · refine ⟨_, kvCacheBytes_of_fits hvalid hfit, ?_⟩
    have hblocks := (validateConfig_isOk hvalid).2.2.2.2.1
    rw [KVCacheConfig.trueBytes_eq] at hfit ⊢
    have hblock : FitsInt64 cfg.blockBytes := by
      simpa using hfit.mul_of_le (m := 1) hpos.le (by omega) (by omega)
    rw [maxBlocksForBudget_of_fits hvalid hblock, Int.toNat_mul hblocks.le hpos.le,
      Nat.mul_div_cancel _ (by omega), Int.toNat_of_nonneg hblocks.le]

/-- Two layers of 64 bytes a block: half a block does not count. -/
theorem maxBlocksForBudget_adjoint_pair :
    let cfg : KVCacheConfig :=
      { numLayers := 2, numKvHeads := 1, headDim := 32, blockSize := 1, numBlocks := 3 }
    (validateConfig cfg).isOk ∧ (PassesBudget cfg 700 2 ↔ 2 ≤ maxBlocksForBudget cfg 700) ∧
      maxBlocksForBudget cfg 700 = 2 := by
  intro cfg
  have hvalid : (validateConfig cfg).isOk := by decide
  exact ⟨hvalid, (maxBlocksForBudget_adjoint hvalid).1 700 2 (by omega) (by decide), by decide⟩

/-! ## The advice -/

/-- How `KVCache::Create` refuses a configuration that is over the budget. -/
def overBudgetStatus (bytes freeBytes suggested : ℕ) : Status :=
  makeStatus .kvCapacityExceeded
    ("KV cache needs " ++ toString (bytes / (1024 * 1024)) ++ " MiB but only " ++
      toString (freeBytes / (1024 * 1024)) ++ " MiB is free (budget " ++
      toStringDouble (4 * freeBytes) (5 * (1024 * 1024)) ++
      " MiB); suggest num_blocks <= " ++ toString suggested)

theorem toString_injective {m n : ℕ} (h : toString m = toString n) : m = n := by
  have hdigits := congrArg (fun s => Nat.ofDigitChars 10 s.toList 0) h
  simpa using hdigits

/-- The suggestion can be read off the message. -/
theorem overBudgetStatus_inj {bytes freeBytes m n : ℕ}
    (h : overBudgetStatus bytes freeBytes m = overBudgetStatus bytes freeBytes n) : m = n := by
  have hmessage := congrArg Status.message h
  simp only [overBudgetStatus, makeStatus] at hmessage
  exact toString_injective (by simpa using hmessage)

/-- The suggestion of an over-budget refusal: the division by `2 * num_layers` is made twice, in
`KVCache::Create` and inside `MaxBlocksForBudget`. -/
theorem KVCache.create_overBudget {cfg : KVCacheConfig} {env : StorageEnv} {bytes freeBytes : ℕ}
    (hbytes : kvCacheBytes cfg = .ok bytes) (hfree : env.freeBytes = some freeBytes)
    (hover : 4 * freeBytes / 5 < bytes) :
    KVCache.create cfg env = .error (overBudgetStatus bytes freeBytes
      (max 1 (maxBlocksForBudget cfg (4 * freeBytes / 5 / (2 * cfg.numLayers.toNat))))) := by
  have hvalid : (validateConfig cfg).isOk := by
    by_contra hbad
    simp [kvCacheBytes, hbad] at hbytes
  have hgate : 5 * bytes > 4 * freeBytes := by omega
  simp only [KVCache.create, hvalid, dif_pos, hbytes, hfree, hgate, if_true, overBudgetStatus,
    Nat.div_div_eq_div_mul]

/-- The suggested number of blocks is the largest that passes the check, and none is suggested when not
even one block does. -/
structure AdviceIsBest (cfg : KVCacheConfig) (budget suggested : ℕ) : Prop where
  best : PassesBudget cfg budget 1 →
    PassesBudget cfg budget suggested ∧ ¬ PassesBudget cfg budget (suggested + 1)
  nothing_fits : ¬ PassesBudget cfg budget 1 → suggested = 0

/-- The best advice in terms of the bytes of one block, when the configuration itself is over the budget. -/
theorem adviceIsBest_iff_div {cfg : KVCacheConfig} (hvalid : (validateConfig cfg).isOk)
    (hfit : FitsInt64 cfg.trueBytes) {budget : ℕ} (hover : (budget : ℤ) < cfg.trueBytes)
    {suggested : ℕ} (hle : suggested ≤ max 1 (budget / cfg.blockBytes.toNat)) :
    AdviceIsBest cfg budget suggested ↔ suggested = budget / cfg.blockBytes.toNat := by
  have hpos := KVCacheConfig.blockBytes_pos hvalid
  have hblock : 0 < cfg.blockBytes.toNat := by omega
  rw [KVCacheConfig.trueBytes_eq] at hfit hover
  have hblocks := (validateConfig_isOk hvalid).2.2.2.2.1
  -- up to the configuration's own number of blocks nothing overflows
  have hpasses : ∀ n : ℕ, 0 < n → (n : ℤ) ≤ cfg.numBlocks →
      (PassesBudget cfg budget n ↔ n ≤ budget / cfg.blockBytes.toNat) := by
    intro n hn hle
    rw [passesBudget_iff hvalid hn (hfit.mul_of_le hpos.le (by omega) hle),
      Nat.le_div_iff_mul_le hblock]
  have hlt : ((budget / cfg.blockBytes.toNat : ℕ) : ℤ) < cfg.numBlocks := by
    have hquot : budget / cfg.blockBytes.toNat * cfg.blockBytes.toNat ≤ budget :=
      Nat.div_mul_le_self _ _
    have hquot' : ((budget / cfg.blockBytes.toNat : ℕ) : ℤ) * cfg.blockBytes ≤ budget := by
      rw [← Int.toNat_of_nonneg hpos.le]
      exact_mod_cast hquot
    exact lt_of_mul_lt_mul_right (hquot'.trans_lt hover) hpos.le
  have hone := hpasses 1 one_pos (by omega)
  generalize budget / cfg.blockBytes.toNat = blocks at *
  constructor
  · intro hadvice
    by_cases h1 : PassesBudget cfg budget 1
    · obtain ⟨hfits, hnext⟩ := hadvice.best h1
      rw [hone] at h1
      rw [hpasses _ (by omega) (by omega)] at hnext
      omega
    · have h0 := hadvice.nothing_fits h1
      rw [hone] at h1
      omega
  · rintro rfl
    refine ⟨fun h1 => ?_, fun h1 => ?_⟩
    · rw [hone] at h1
      exact ⟨(hpasses _ (by omega) hlt.le).mpr le_rfl,
        fun h => absurd ((hpasses _ (by omega) (by omega)).mp h) (by omega)⟩
    · rw [hone] at h1
      omega

/-- Dividing by `2 * num_layers` twice gives the best number of blocks only where that number is one. -/
theorem adviceIsBest_iff {cfg : KVCacheConfig} (hvalid : (validateConfig cfg).isOk)
    (hfit : FitsInt64 cfg.trueBytes) (freeBytes : ℕ) :
    (∀ env bytes suggested, kvCacheBytes cfg = .ok bytes → env.freeBytes = some freeBytes →
        4 * freeBytes / 5 < bytes →
        KVCache.create cfg env = .error (overBudgetStatus bytes freeBytes suggested) →
        AdviceIsBest cfg (4 * freeBytes / 5) suggested) ↔
      (((4 * freeBytes / 5 : ℕ) : ℤ) < cfg.trueBytes →
        cfg.blockBytes ≤ (4 * freeBytes / 5 : ℕ) ∧
          ((4 * freeBytes / 5 : ℕ) : ℤ) < 2 * cfg.blockBytes) := by
  have hpos := KVCacheConfig.blockBytes_pos hvalid
  have hbytes := kvCacheBytes_of_fits hvalid hfit
  have hlayers := (validateConfig_isOk hvalid).1
  have hblocks := (validateConfig_isOk hvalid).2.2.2.2.1
  have hblock : FitsInt64 cfg.blockBytes := by
    rw [KVCacheConfig.trueBytes_eq] at hfit
    simpa using hfit.mul_of_le (m := 1) hpos.le (by omega) (by omega)
  generalize hbudget : 4 * freeBytes / 5 = budget
  -- the advice, with both divisions
  have hsuggested : maxBlocksForBudget cfg (budget / (2 * cfg.numLayers.toNat)) =
      budget / cfg.blockBytes.toNat / (2 * cfg.numLayers.toNat) := by
    rw [maxBlocksForBudget_of_fits hvalid hblock, Nat.div_div_eq_div_mul, mul_comm,
      Nat.div_div_eq_div_mul]
  have hhalf : budget / cfg.blockBytes.toNat / (2 * cfg.numLayers.toNat) ≤
      budget / cfg.blockBytes.toNat / 2 := Nat.div_le_div_left (by omega) (by omega)
  have hone : budget / cfg.blockBytes.toNat = 1 ↔
      cfg.blockBytes ≤ budget ∧ (budget : ℤ) < 2 * cfg.blockBytes := by
    rw [Nat.div_eq_iff (by omega)]
    omega
  have hbest : (budget : ℤ) < cfg.trueBytes →
      (AdviceIsBest cfg budget
          (max 1 (budget / cfg.blockBytes.toNat / (2 * cfg.numLayers.toNat))) ↔
        max 1 (budget / cfg.blockBytes.toNat / (2 * cfg.numLayers.toNat)) =
          budget / cfg.blockBytes.toNat) :=
    fun hover => adviceIsBest_iff_div hvalid hfit hover (by omega)
  constructor
  · intro hadvice hover
    have hfree : (StorageEnv.mk (some freeBytes) (fun _ => none) fun _ => none).freeBytes =
        some freeBytes := rfl
    have hcreate := KVCache.create_overBudget hbytes hfree (by omega)
    rw [hbudget, hsuggested] at hcreate
    have := (hbest hover).mp (hadvice _ _ _ hbytes rfl (by omega) hcreate)
    rw [← hone]
    omega
  · intro hcond env bytes suggested hbytes' hfree hover hcreate
    obtain rfl := Except.ok.inj (hbytes.symm.trans hbytes')
    have hover' : (budget : ℤ) < cfg.trueBytes := by omega
    rw [KVCache.create_overBudget hbytes hfree (by omega), hbudget, hsuggested] at hcreate
    rw [← overBudgetStatus_inj (Except.error.inj hcreate), hbest hover']
    have := hone.mpr (hcond hover')
    omega

/-- 32 layers of 8 heads of 128 in blocks of 16: 2 MiB a block. -/
def layersConfig : KVCacheConfig :=
  { numLayers := 32, numKvHeads := 8, headDim := 128, blockSize := 16, numBlocks := 100000 }

/-- With a budget of 3 GiB 1536 blocks fit and 24 are suggested. -/
theorem not_adviceIsBest_layersConfig :
    PassesBudget layersConfig 3221225472 1536 ∧
      KVCache.create layersConfig ⟨some 4026531840, fun _ => none, fun _ => none⟩ =
        .error (overBudgetStatus 209715200000 4026531840 24) ∧
      ¬ AdviceIsBest layersConfig 3221225472 24 := by
  have hpasses (n : ℕ) (hn : 0 < n) (hfit : FitsInt64 (n * layersConfig.blockBytes)) :
      PassesBudget layersConfig 3221225472 n ↔ n * layersConfig.blockBytes.toNat ≤ 3221225472 :=
    passesBudget_iff (by decide) hn hfit
  refine ⟨(hpasses 1536 (by decide) (by decide)).mpr (by decide),
    KVCache.create_overBudget (by decide +kernel) rfl (by decide), fun h => ?_⟩
  have hnext := (h.best ((hpasses 1 (by decide) (by decide)).mpr (by decide))).2
  exact hnext ((hpasses 25 (by decide) (by decide)).mpr (by decide))

theorem adviceIsBest_iff_layersConfig :
    ¬ ∀ env bytes suggested, kvCacheBytes layersConfig = .ok bytes →
      env.freeBytes = some 4026531840 → 4 * 4026531840 / 5 < bytes →
      KVCache.create layersConfig env = .error (overBudgetStatus bytes 4026531840 suggested) →
      AdviceIsBest layersConfig (4 * 4026531840 / 5) suggested := by
  have hvalid : (validateConfig layersConfig).isOk := by decide
  rw [adviceIsBest_iff hvalid (by decide)]
  decide

end SciAttention

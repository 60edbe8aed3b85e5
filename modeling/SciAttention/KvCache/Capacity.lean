import Mathlib.Algebra.Order.Floor.Div
import SciAttention.KvCache.MultiLayer
import SciAttention.KvCache.RevisionGate

/-!
# When there is room for an append

Whether `AppendTokens` succeeds should depend on the pool alone: the blocks that the sequence lacks are
free or they are not. In a reachable state neither the manager's table nor the slot mapping can refuse what
the pool gave. The slot buffer can: a failed allocation drops the buffer and keeps its capacity, so later
calls that fit the old capacity get a null pointer.
-/

namespace SciAttention

namespace PagedKVCache

open BlockManager

/-- The blocks that a sequence lacks for `numNew` more tokens. -/
def missingBlocks (c : PagedKVCache) (seqId : ℤ) (numNew : ℕ) : ℤ :=
  ((c.seqLength seqId + numNew) ⌈/⌉ c.cfg.blockSize : ℕ) - c.logicalBlockCount seqId

/-- An append that only the pool may refuse: its arguments are those of the cache, the slot buffer can be
allocated and the launch succeeds. -/
structure AppendReady (c : PagedKVCache) (seqId layer : ℤ) (kNew vNew : Tensor) (n : ℕ)
    (env : AppendEnv) : Prop where
  seq_nonneg : 0 ≤ seqId
  seq_lt : seqId < c.cfg.maxNumSeqs
  layer_nonneg : 0 ≤ layer
  layer_lt : layer < c.cfg.numLayers
  tokens_pos : 0 < n
  kNew_dims : kNew.dims = [n, c.cfg.numKvHeads, c.cfg.headDim]
  vNew_dims : vNew.dims = [n, c.cfg.numKvHeads, c.cfg.headDim]
  kNew_dtype : kNew.dtype = c.cfg.dtype
  vNew_dtype : vNew.dtype = c.cfg.dtype
  kNew_data : kNew.data.isSome
  vNew_data : vNew.data.isSome
  slotAlloc : env.slotAlloc.isSome
  launch : env.launch = .ok

/-- The pool alone decides about the append. -/
structure DecidedByPool (c : PagedKVCache) (seqId layer : ℤ) (kNew vNew : Tensor) (n : ℕ)
    (env : AppendEnv) : Prop where
  isOk_iff : (c.appendTokens seqId layer kNew vNew env).2.isOk ↔
    c.missingBlocks seqId n ≤ c.blocks.numFreeBlocks
  full : c.blocks.numFreeBlocks < c.missingBlocks seqId n →
    ∃ detail, (c.appendTokens seqId layer kNew vNew env).2 = makeStatus .kvCapacityExceeded detail
  /-- The table has room for what the pool gave. -/
  table : ∀ m ids, c.blocks.allocate (c.missingBlocks seqId n) = (m, .ok ids) → ids ≠ [] →
    (m.appendToTable seqId ids).2.isOk
  /-- Every token gets a slot of its own, in a block of the sequence. -/
  slots : ∀ c', c.reserveBlocks seqId.toNat n = (c', .ok) →
    ∃ slots, (c'.refreshRow seqId.toNat).nextSlots seqId.toNat n = .ok slots ∧ slots.length = n ∧
      slots.Nodup ∧ ∀ slot ∈ slots, 0 ≤ slot ∧ slot / c.cfg.blockSize ∈ c'.seqBlocks seqId.toNat

section Ready

variable {c : PagedKVCache} {seqId layer : ℤ} {kNew vNew : Tensor} {n : ℕ} {env : AppendEnv}

theorem AppendReady.seq_toNat_lt (h : AppendReady c seqId layer kNew vNew n env) :
    seqId.toNat < c.cfg.maxNumSeqs := by
  have := h.seq_nonneg
  have := h.seq_lt
  omega

theorem AppendReady.dim_eq (h : AppendReady c seqId layer kNew vNew n env) : kNew.dim 0 = n := by
  rw [Tensor.dim, h.kNew_dims]
  rfl

/-- The argument checks pass. -/
theorem AppendReady.checked (h : AppendReady c seqId layer kNew vNew n env) :
    (c.checkAppend seqId layer kNew vNew).isOk := by
  have hn := h.tokens_pos
  have hseq : ¬ (seqId < 0 ∨ seqId ≥ c.cfg.maxNumSeqs) :=
    not_or.2 ⟨h.seq_nonneg.not_gt, h.seq_lt.not_ge⟩
  have hlayer : ¬ (layer < 0 ∨ layer ≥ c.cfg.numLayers) :=
    not_or.2 ⟨h.layer_nonneg.not_gt, h.layer_lt.not_ge⟩
  unfold checkAppend
  rw [if_neg hseq, if_neg hlayer, if_neg, if_neg]
  · exact Status.isOk_ok
  · rw [h.dim_eq]
    omega
  · simp [Tensor.ndims, Tensor.dim, h.kNew_dims, h.vNew_dims]

/-- The blocks that `AppendTokens` asks for are the missing ones. -/
theorem AppendReady.missingBlocks_eq (h : AppendReady c seqId layer kNew vNew n env) :
    c.missingBlocks seqId n =
      c.neededBlocks seqId.toNat n - (c.seqBlocks seqId.toNat).length := by
  have hrange : ¬ (seqId < 0 ∨ seqId ≥ c.cfg.maxNumSeqs) :=
    not_or.2 ⟨h.seq_nonneg.not_gt, h.seq_lt.not_ge⟩
  rw [missingBlocks, seqLength, logicalBlockCount, if_neg hrange, if_neg hrange, neededBlocks,
    Nat.ceilDiv_eq_add_pred_div]

/-- Of what `StoreAccepted` lists only the slot buffer is open. -/
theorem AppendReady.storeAccepted_iff (h : AppendReady c seqId layer kNew vNew n env) :
    StoreAccepted c kNew vNew env ↔ c.slotMappingCapacity < n ∨ c.slotMappingDevice.isSome := by
  have hslot : (if c.slotMappingCapacity < n then env.slotAlloc.isSome
      else c.slotMappingDevice.isSome) = true ↔
      c.slotMappingCapacity < n ∨ c.slotMappingDevice.isSome := by
    split_ifs with hcap
    · exact iff_of_true h.slotAlloc (.inl hcap)
    · exact (or_iff_right hcap).symm
  constructor
  · intro hacc
    exact hslot.1 (h.dim_eq ▸ hacc.slotBuffer)
  · intro hbuffer
    refine ⟨h.kNew_dtype, h.vNew_dtype, ?_, ?_, h.kNew_data, h.vNew_data, ?_, h.launch⟩
    · simp [Tensor.dim, h.kNew_dims]
    · simp [Tensor.dim, h.kNew_dims]
    · rw [h.dim_eq]
      exact hslot.2 hbuffer

end Ready

/-! ## The inner error branches -/

/-- The row of a sequence has room for whatever the pool gave. -/
theorem Inv.appendToTable_isOk {c : PagedKVCache} (h : Inv c) {s : ℕ} (hs : s < c.cfg.maxNumSeqs)
    {count : ℤ} {m : BlockManager} {ids : List ℤ} (halloc : c.blocks.allocate count = (m, .ok ids))
    (hne : ids ≠ []) : (m.appendToTable s ids).2.isOk := by
  obtain ⟨-, e, -, heq⟩ | ⟨-, -, e, -, heq⟩ | ⟨-, -, m', ids', heq, hpop, htable, -⟩ :=
    c.blocks.allocate_cases count
  · rw [halloc] at heq
    simp at heq
  · rw [halloc] at heq
    simp at heq
  · obtain ⟨rfl, hids⟩ := Prod.ext_iff.1 (halloc.symm.trans heq)
    obtain rfl : ids = ids' := Except.ok.inj hids
    obtain ⟨-, hroom⟩ := h.room hpop s
    have hattach := appendToTable_of_room (m := m)
      (by rw [htable, h.tableSeqs_eq]; exact hs)
      (by rw [htable, h.tableBlocks_eq]; exact h.tableRow s hs) (fun b hb => (h.bounds hb).1) hne
      (by rw [htable, h.tableBlocks_eq]; exact hroom)
    rw [hattach]
    exact Status.isOk_ok

/-- Too few free blocks are reported as such. -/
theorem reserveBlocks_few (c : PagedKVCache) {s n : ℕ}
    (hfew : (c.blocks.freeList.length : ℤ) < c.neededBlocks s n - (c.seqBlocks s).length) :
    ∃ detail, (c.reserveBlocks s n).2 = makeStatus .kvCapacityExceeded detail := by
  simp only [reserveBlocks]
  rw [if_pos (by omega)]
  obtain ⟨hle, -⟩ | ⟨-, -, e, -, halloc⟩ | ⟨-, hle, -⟩ :=
    c.blocks.allocate_cases (c.neededBlocks s n - (c.seqBlocks s).length)
  · omega
  · rw [halloc]
    exact ⟨_, rfl⟩
  · omega

/-- With blocks for all tokens, each gets a slot of its own in a block of the sequence. -/
theorem Inv.nextSlots_owned {c : PagedKVCache} (h : Inv c) {s n : ℕ} (hs : s < c.cfg.maxNumSeqs)
    (hn : 0 < n) (hroom : c.seqLengths s + n ≤ (c.seqBlocks s).length * c.cfg.blockSize)
    (hfit : SlotsFit c s n) :
    ∃ slots, c.nextSlots s n = .ok slots ∧ slots.length = n ∧ slots.Nodup ∧
      ∀ slot ∈ slots, 0 ≤ slot ∧ slot / c.cfg.blockSize ∈ c.seqBlocks s := by
  have hbs := c.cfg.blockSize_pos
  obtain ⟨slots, hslots⟩ := h.nextSlots_ok hs hn hroom
  have hlen : slots.length = n := by simpa using (computeSlotMapping_eq_ok hslots).1
  have hcells : SlotCells c s n fun t => slots.getD t 0 := h.slotCells hs hslots fun _ _ => rfl
  refine ⟨slots, hslots, hlen, ?_, fun slot hslot => ?_⟩
  · rw [List.nodup_iff_getElem?_ne_getElem?]
    intro t u htu hu heq
    obtain ⟨b, hb, hbslot⟩ := hcells.eq h hfit (show t < n by omega)
    obtain ⟨d, hd, hdslot⟩ := hcells.eq h hfit (show u < n by omega)
    simp only [List.getD_eq_getElem?_getD, heq] at hbslot hdslot
    have hsame : b.toNat * c.cfg.blockSize + (c.seqLengths s + t) % c.cfg.blockSize =
        d.toNat * c.cfg.blockSize + (c.seqLengths s + u) % c.cfg.blockSize := by omega
    -- equal slots are one block and offset, so one position
    obtain ⟨-, hblock, hoff⟩ := h.slot_inj hb hd (Nat.mod_lt _ hbs) (Nat.mod_lt _ hbs) hsame
    have htdiv := Nat.div_add_mod (c.seqLengths s + t) c.cfg.blockSize
    have hudiv := Nat.div_add_mod (c.seqLengths s + u) c.cfg.blockSize
    rw [hblock, hoff] at htdiv
    omega
  · obtain ⟨t, ht, rfl⟩ := List.getElem_of_mem hslot
    obtain ⟨b, hb, hbslot⟩ := hcells.eq h hfit (show t < n by omega)
    have hb0 := (h.bounds (List.mem_of_getElem? hb)).1
    rw [List.getD_eq_getElem _ _ ht] at hbslot
    rw [hbslot]
    refine ⟨Int.natCast_nonneg _, ?_⟩
    rw [← Int.natCast_ediv, Strided.flat_div _ (Nat.mod_lt _ hbs), Int.toNat_of_nonneg hb0]
    exact List.mem_of_getElem? hb

section Decided

variable {c : PagedKVCache} {seqId layer : ℤ} {kNew vNew : Tensor} {n : ℕ} {env : AppendEnv}

/-- Past the argument checks an append reserves blocks and writes. -/
theorem AppendReady.appendTokens_eq (h : AppendReady c seqId layer kNew vNew n env) :
    c.appendTokens seqId layer kNew vNew env =
      if ¬ (c.reserveBlocks seqId.toNat n).2.isOk then c.reserveBlocks seqId.toNat n
      else (c.reserveBlocks seqId.toNat n).1.writeTokens seqId.toNat layer kNew vNew env := by
  unfold appendTokens
  rw [h.dim_eq]
  exact if_neg (not_not.2 h.checked)

/-- The table takes what the pool gave. -/
theorem Inv.table_room (h : Inv c) (hready : AppendReady c seqId layer kNew vNew n env) :
    ∀ m ids, c.blocks.allocate (c.missingBlocks seqId n) = (m, .ok ids) → ids ≠ [] →
      (m.appendToTable seqId ids).2.isOk := by
  intro m ids halloc hne
  rw [← Int.toNat_of_nonneg hready.seq_nonneg]
  exact h.appendToTable_isOk hready.seq_toNat_lt halloc hne

/-- A pool that lacks blocks is reported, before anything else can go wrong. -/
theorem Inv.decidedByPool_of_few (h : Inv c) (hready : AppendReady c seqId layer kNew vNew n env)
    (hfew : c.blocks.numFreeBlocks < c.missingBlocks seqId n) :
    DecidedByPool c seqId layer kNew vNew n env := by
  obtain ⟨detail, hdetail⟩ := c.reserveBlocks_few (hready.missingBlocks_eq ▸ hfew)
  have hbad : ¬ (c.reserveBlocks seqId.toNat n).2.isOk := by
    rw [hdetail]
    exact not_isOk_makeStatus _ _
  have happend := hready.appendTokens_eq
  rw [if_pos hbad] at happend
  refine ⟨iff_of_false ?_ hfew.not_ge, fun _ => ⟨detail, ?_⟩, h.table_room hready, fun c' hc' => ?_⟩
  · rwa [happend]
  · rwa [happend]
  · rw [hc'] at hbad
    exact absurd Status.isOk_ok hbad

/-- A pool with enough blocks decides exactly when the slot buffer is there or is to be allocated. -/
theorem Inv.decidedByPool_of_enough (h : Inv c) (hsmall : c.cfg.numBlocks * c.cfg.blockSize < 2 ^ 31)
    (hready : AppendReady c seqId layer kNew vNew n env)
    (henough : c.missingBlocks seqId n ≤ c.blocks.numFreeBlocks) :
    DecidedByPool c seqId layer kNew vNew n env ↔
      c.slotMappingCapacity < n ∨ c.slotMappingDevice.isSome := by
  have hs := hready.seq_toNat_lt
  have hfound : c.neededBlocks seqId.toNat (kNew.dim 0) ≤
      (c.seqBlocks seqId.toNat).length + c.blocks.freeList.length := by
    rw [hready.missingBlocks_eq, numFreeBlocks] at henough
    rw [hready.dim_eq]
    omega
  have hok_iff : (c.appendTokens seqId layer kNew vNew env).2.isOk ↔
      c.slotMappingCapacity < n ∨ c.slotMappingDevice.isSome := by
    rw [h.appendTokens_isOk_iff, and_iff_right hready.checked, and_iff_right hfound,
      hready.storeAccepted_iff]
  have hslots : ∀ c', c.reserveBlocks seqId.toNat n = (c', .ok) →
      ∃ slots, (c'.refreshRow seqId.toNat).nextSlots seqId.toNat n = .ok slots ∧ slots.length = n ∧
        slots.Nodup ∧ ∀ slot ∈ slots, 0 ≤ slot ∧ slot / c.cfg.blockSize ∈
          c'.seqBlocks seqId.toNat := by
    intro c' hc'
    rcases reserveBlocks_cases h hs n with ⟨e, failures, hbad, -, hres⟩ | ⟨m, ids, hres, hr⟩
    · obtain rfl : e = .ok := congrArg Prod.snd (hres.symm.trans hc')
      exact absurd Status.isOk_ok hbad
    · obtain rfl : c.attach m seqId.toNat ids = c' := congrArg Prod.fst (hres.symm.trans hc')
      refine (hr.inv h hs).nextSlots_owned hs hready.tokens_pos ?_
        ((h.nextSlotsFit hsmall.le seqId.toNat n).reserved hr)
      simpa [attach, refreshRow] using hr.capacity
  rw [← hok_iff]
  exact ⟨fun hpool => hpool.isOk_iff.2 henough, fun hok =>
    ⟨iff_of_true hok henough, fun hlack => absurd hlack henough.not_gt, h.table_room hready, hslots⟩⟩

end Decided

/-- A pool whose slots fit `int32_t`: the validated configuration and the invariant. -/
theorem Inv.create_of_slots {cfg : KVCacheConfig} {env : PagedEnv} {c : PagedKVCache}
    (hcreate : PagedKVCache.create cfg env = .ok c) (hsmall : cfg.numBlocks * cfg.blockSize < 2 ^ 31) :
    Inv c ∧ c.cfg.numBlocks * c.cfg.blockSize < 2 ^ 31 := by
  obtain ⟨storage, blocks, hstorage, -, rfl⟩ := create_eq_ok hcreate
  obtain ⟨hvalid, hcfg, -⟩ := KVCache.create_eq_ok hstorage
  obtain ⟨-, -, -, hblock, hblocks, -⟩ := validateConfig_isOk hvalid
  have hblock := pos_of_isSupportedBlockSize hblock
  have hle : cfg.numBlocks ≤ cfg.numBlocks * cfg.blockSize := le_mul_of_one_le_right hblocks.le hblock
  refine ⟨Inv.create (hle.trans hsmall.le) hcreate, ?_⟩
  have hnumBlocks : (storage.cfg.numBlocks : ℤ) = cfg.numBlocks := by
    rw [hcfg]
    exact Int.toNat_of_nonneg hblocks.le
  have hblockSize : (storage.cfg.blockSize : ℤ) = cfg.blockSize := by
    rw [hcfg]
    exact Int.toNat_of_nonneg hblock.le
  rw [← hnumBlocks, ← hblockSize] at hsmall
  exact_mod_cast hsmall

/-- In every reachable state, for every append that only the pool may refuse: the pool alone decides,
exactly when it refuses or the slot buffer is to be allocated or still there. -/
theorem decidedByPool_run_iff {cfg : KVCacheConfig} {env₀ : PagedEnv} {c : PagedKVCache}
    (hcreate : PagedKVCache.create cfg env₀ = .ok c) (hsmall : cfg.numBlocks * cfg.blockSize < 2 ^ 31)
    (calls : List Call) {seqId layer : ℤ} {kNew vNew : Tensor} {n : ℕ} {env : AppendEnv}
    (hready : AppendReady (c.run calls) seqId layer kNew vNew n env) :
    DecidedByPool (c.run calls) seqId layer kNew vNew n env ↔
      (c.run calls).blocks.numFreeBlocks < (c.run calls).missingBlocks seqId n ∨
        (c.run calls).slotMappingCapacity < n ∨ (c.run calls).slotMappingDevice.isSome := by
  obtain ⟨hinv, hslots⟩ := Inv.create_of_slots hcreate hsmall
  rw [← hinv.run_cfg calls] at hslots
  by_cases hfew : (c.run calls).blocks.numFreeBlocks < (c.run calls).missingBlocks seqId n
  · exact iff_of_true ((hinv.run calls).decidedByPool_of_few hready hfew) (.inl hfew)
  · rw [or_iff_right hfew]
    exact (hinv.run calls).decidedByPool_of_enough hslots hready (not_lt.1 hfew)

/-- The arguments are compared with the configuration only, which stays. -/
theorem AppendReady.run {c : PagedKVCache} (hinv : Inv c) {seqId layer : ℤ} {kNew vNew : Tensor} {n : ℕ}
    {env : AppendEnv} (h : AppendReady c seqId layer kNew vNew n env) (calls : List Call) :
    AppendReady (c.run calls) seqId layer kNew vNew n env := by
  have hcfg := hinv.run_cfg calls
  exact
    { h with
      seq_lt := hcfg ▸ h.seq_lt
      layer_lt := hcfg ▸ h.layer_lt
      kNew_dims := hcfg ▸ h.kNew_dims
      vNew_dims := hcfg ▸ h.vNew_dims
      kNew_dtype := hcfg ▸ h.kNew_dtype
      vNew_dtype := hcfg ▸ h.vNew_dtype }

/-- A device whose slot allocation fails. -/
def slotAllocFails : AppendEnv := ⟨none, .ok⟩

theorem decidedByPool_tiny : ∃ c, PagedKVCache.create (tinyConfig 1 1 2) zeroEnv = .ok c ∧
    DecidedByPool (c.run [.appendTokens 0 0 (tokenTensor 1 1 fun _ => 1) (tokenTensor 1 1 fun _ => 1)
      appendOk]) 1 0 (tokenTensor 1 1 fun _ => 2) (tokenTensor 1 1 fun _ => 2) 1 appendOk := by
  obtain ⟨c, hc⟩ : ∃ c, PagedKVCache.create (tinyConfig 1 1 2) zeroEnv = .ok c := ⟨_, rfl⟩
  have hinv := (Inv.create_of_slots hc (by decide)).1
  refine ⟨c, hc, (decidedByPool_run_iff hc (by decide) _ (.run hinv ?_ _)).2 (.inr (.inr ?_))⟩
  · obtain rfl := Except.ok.inj hc
    constructor <;> decide +kernel
  · obtain rfl := Except.ok.inj hc
    decide +kernel

/-- A first append makes a buffer of 1024 slots; one of 1025 tokens loses it when the device cannot give a
larger one. From then on a single token is refused for a null pointer, with free blocks in the pool. -/
theorem not_decidedByPool_lostBuffer : ∃ c, PagedKVCache.create (tinyConfig 1 64 32) zeroEnv = .ok c ∧
    let c' := c.run
      [.appendTokens 0 0 (tokenTensor 1 1 fun _ => 1) (tokenTensor 1 1 fun _ => 1) appendOk,
        .appendTokens 0 0 (tokenTensor 1025 1 fun _ => 1) (tokenTensor 1025 1 fun _ => 1) slotAllocFails]
    AppendReady c' 1 0 (tokenTensor 1 1 fun _ => 2) (tokenTensor 1 1 fun _ => 2) 1 appendOk ∧
    ¬ DecidedByPool c' 1 0 (tokenTensor 1 1 fun _ => 2) (tokenTensor 1 1 fun _ => 2) 1 appendOk := by
  obtain ⟨c, hc⟩ : ∃ c, PagedKVCache.create (tinyConfig 1 64 32) zeroEnv = .ok c := ⟨_, rfl⟩
  have hinv := (Inv.create_of_slots hc (by decide)).1
  obtain rfl := Except.ok.inj hc
  refine ⟨_, rfl, .run hinv ?_ _, fun hpool => ?_⟩
  · constructor <;> decide +kernel
  · exact absurd (hpool.isOk_iff.2 (by decide +kernel)) (by decide +kernel)

end PagedKVCache

end SciAttention

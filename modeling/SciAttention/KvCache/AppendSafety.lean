import SciAttention.KvCache.Capacity

/-!
# What the append kernel may touch

`kv_append_kernel` takes its source offsets from the configuration of the cache, for `k_new` and `v_new`
alike. `KVCache::Append` compares the shape of `k_new` with that configuration and looks only at the dtype of
`v_new`, so the reads of `v_new` stay inside it only when it is large enough by chance. The kernel drops slots
past the last block; the others are inside the layer unless its size wrapped when it was allocated.
-/

namespace SciAttention

open PagedKVCache (tinyConfig zeroEnv tokenTensor)

/-- `Tensor::num_bytes()`, a `size_t`. -/
def Tensor.numBytes (t : Tensor) : ℕ := sizeWrap (t.numElements * dtypeSize t.dtype)

/-- `num_bytes()` of the K or the V tensor of one layer. -/
def ValidConfig.layerBytes (cfg : ValidConfig) : ℕ :=
  sizeWrap (kvLayerElements cfg.toDeviceShape * cfg.elemBytes)

/-- The kernel stays inside its three buffers. -/
structure CopiesInside (cfg : ValidConfig) (kNew vNew : Tensor) (slots : ℕ → ℤ) (n : ℕ) : Prop where
  kNew : ∀ w ∈ kvAppendCopies cfg.toDeviceShape cfg.elemBytes slots n, w.1 < kNew.numBytes
  vNew : ∀ w ∈ kvAppendCopies cfg.toDeviceShape cfg.elemBytes slots n, w.1 < vNew.numBytes
  layer : ∀ w ∈ kvAppendCopies cfg.toDeviceShape cfg.elemBytes slots n, w.2 < cfg.layerBytes

/-- The slot of a token lies in the layer, so that its row is stored. -/
def SlotStored (cfg : ValidConfig) (slots : ℕ → ℤ) (t : ℕ) : Prop :=
  0 ≤ slots t ∧ (slots t).toNat / cfg.blockSize < cfg.numBlocks

/-- The tensor has the rows of all tokens that are stored. -/
def HoldsRows (cfg : ValidConfig) (x : Tensor) (slots : ℕ → ℤ) (n : ℕ) : Prop :=
  ∀ t < n, SlotStored cfg slots t → (t + 1) * cfg.rowBytes ≤ x.numBytes

/-- The layer has room for the rows that are stored. -/
def LayerHolds (cfg : ValidConfig) (slots : ℕ → ℤ) (n : ℕ) : Prop :=
  ∀ t < n, SlotStored cfg slots t → ((slots t).toNat + 1) * cfg.rowBytes ≤ cfg.layerBytes

/-- What the kernel copies is there, and there is room for it. -/
structure RowsFit (cfg : ValidConfig) (kNew vNew : Tensor) (slots : ℕ → ℤ) (n : ℕ) : Prop where
  kNew : HoldsRows cfg kNew slots n
  vNew : HoldsRows cfg vNew slots n
  layer : LayerHolds cfg slots n

theorem numElements_of_ndims {x : Tensor} (h : x.ndims = 3) :
    x.numElements = x.dim 0 * x.dim 1 * x.dim 2 := by
  obtain ⟨a, b, d, hdims⟩ := List.length_eq_three.1 h
  simp [Tensor.numElements, Tensor.dim, hdims, Nat.mul_assoc]

section Copies

variable {cfg : ValidConfig} {slots : ℕ → ℤ} {n : ℕ}

theorem slotRowBytes_toDeviceShape (cfg : ValidConfig) :
    slotRowBytes cfg.toDeviceShape cfg.elemBytes = cfg.rowBytes := by
  simp only [slotRowBytes, ValidConfig.toDeviceShape, ValidConfig.rowBytes]
  ring

/-- The copies of the rows that are stored. -/
theorem mem_copies_iff {w : ℕ × ℕ} :
    w ∈ kvAppendCopies cfg.toDeviceShape cfg.elemBytes slots n ↔
      ∃ t x, t < n ∧ x < cfg.rowBytes ∧ SlotStored cfg slots t ∧
        w = (t * cfg.rowBytes + x, (slots t).toNat * cfg.rowBytes + x) := by
  rw [mem_kvAppendCopies_iff cfg.numKvHeads_pos, slotRowBytes_toDeviceShape]
  exact exists₂_congr fun t x => and_congr_right fun _ => and_congr_right fun _ => and_assoc.symm

/-- The bytes of a row are inside exactly when its last one is. -/
theorem row_lt_iff (row size : ℕ) :
    (∀ x < cfg.rowBytes, row * cfg.rowBytes + x < size) ↔ (row + 1) * cfg.rowBytes ≤ size := by
  have hpos := cfg.rowBytes_pos
  rw [Nat.add_mul, Nat.one_mul]
  refine ⟨fun h => ?_, fun h x hx => by omega⟩
  have hlast := h (cfg.rowBytes - 1) (by omega)
  omega

/-- The reads of a tensor are inside it exactly when it holds the rows. -/
theorem reads_lt_iff (size : ℕ) :
    (∀ w ∈ kvAppendCopies cfg.toDeviceShape cfg.elemBytes slots n, w.1 < size) ↔
      ∀ t < n, SlotStored cfg slots t → (t + 1) * cfg.rowBytes ≤ size := by
  simp only [mem_copies_iff, ← row_lt_iff]
  constructor
  · exact fun h t ht hstored x hx => h _ ⟨t, x, ht, hx, hstored, rfl⟩
  · rintro h _ ⟨t, x, ht, hx, hstored, rfl⟩
    exact h t ht hstored x hx

/-- The destinations are inside the layer exactly when it has room for the rows. -/
theorem writes_lt_iff (size : ℕ) :
    (∀ w ∈ kvAppendCopies cfg.toDeviceShape cfg.elemBytes slots n, w.2 < size) ↔
      ∀ t < n, SlotStored cfg slots t → ((slots t).toNat + 1) * cfg.rowBytes ≤ size := by
  simp only [mem_copies_iff, ← row_lt_iff]
  constructor
  · exact fun h t ht hstored x hx => h _ ⟨t, x, ht, hx, hstored, rfl⟩
  · rintro h _ ⟨t, x, ht, hx, hstored, rfl⟩
    exact h t ht hstored x hx

theorem copiesInside_iff {kNew vNew : Tensor} :
    CopiesInside cfg kNew vNew slots n ↔ RowsFit cfg kNew vNew slots n :=
  ⟨fun h => ⟨(reads_lt_iff _).1 h.kNew, (reads_lt_iff _).1 h.vNew, (writes_lt_iff _).1 h.layer⟩,
    fun h => ⟨(reads_lt_iff _).2 h.kNew, (reads_lt_iff _).2 h.vNew, (writes_lt_iff _).2 h.layer⟩⟩

/-- The condition reads only the slots of the tokens. -/
theorem RowsFit.congr {kNew vNew : Tensor} {slots' : ℕ → ℤ} (heq : ∀ t < n, slots t = slots' t) :
    RowsFit cfg kNew vNew slots n ↔ RowsFit cfg kNew vNew slots' n := by
  have hstored (t : ℕ) (ht : t < n) : SlotStored cfg slots t ↔ SlotStored cfg slots' t := by
    rw [SlotStored, SlotStored, heq t ht]
  have hrows (x : Tensor) : HoldsRows cfg x slots n ↔ HoldsRows cfg x slots' n :=
    forall₂_congr fun t ht => by rw [hstored t ht]
  have hlayer : LayerHolds cfg slots n ↔ LayerHolds cfg slots' n :=
    forall₂_congr fun t ht => by rw [hstored t ht, heq t ht]
  exact ⟨fun h => ⟨(hrows _).1 h.kNew, (hrows _).1 h.vNew, hlayer.1 h.layer⟩,
    fun h => ⟨(hrows _).2 h.kNew, (hrows _).2 h.vNew, hlayer.2 h.layer⟩⟩

/-- A tensor of the cache's dtype and of the shape `[num_tokens, num_kv_heads, head_dim]` holds all rows, if
its size does not wrap. -/
theorem HoldsRows.of_shape {x : Tensor} (hdtype : x.dtype = cfg.dtype) (hndims : x.ndims = 3)
    (hn : x.dim 0 = n) (hrow : cfg.numKvHeads * cfg.headDim ≤ x.dim 1 * x.dim 2)
    (hsize : x.numElements * dtypeSize x.dtype < 2 ^ 64) : HoldsRows cfg x slots n := by
  intro t ht _
  rw [Tensor.numBytes, sizeWrap_of_lt hsize, numElements_of_ndims hndims, hn, hdtype]
  calc (t + 1) * cfg.rowBytes ≤ n * (x.dim 1 * x.dim 2 * dtypeSize cfg.dtype) :=
        Nat.mul_le_mul ht (Nat.mul_le_mul_right _ hrow)
    _ = n * x.dim 1 * x.dim 2 * dtypeSize cfg.dtype := by ring

/-- A layer whose size does not wrap has room for every row that is stored. -/
theorem LayerHolds.of_lt (hsize : kvLayerElements cfg.toDeviceShape * cfg.elemBytes < 2 ^ 64) :
    LayerHolds cfg slots n := by
  intro t _ hstored
  have hslot : (slots t).toNat < cfg.numBlocks * cfg.blockSize :=
    (Nat.div_lt_iff_lt_mul cfg.blockSize_pos).1 hstored.2
  rw [ValidConfig.layerBytes, sizeWrap_of_lt hsize]
  calc ((slots t).toNat + 1) * cfg.rowBytes
      ≤ cfg.numBlocks * cfg.blockSize * cfg.rowBytes := Nat.mul_le_mul_right _ hslot
    _ = kvLayerElements cfg.toDeviceShape * cfg.elemBytes := by
        simp only [ValidConfig.rowBytes, kvLayerElements, ValidConfig.toDeviceShape]
        ring

end Copies

/-! ## Direct calls -/

namespace KVCache

/-- What `KVCache::Append` checks before it launches. -/
structure AppendChecked (c : KVCache) (layer : ℤ) (kNew vNew : Tensor) (numTokens : ℤ) : Prop where
  layer_nonneg : 0 ≤ layer
  layer_lt : layer < c.cfg.numLayers
  kNew_dtype : kNew.dtype = c.cfg.dtype
  vNew_dtype : vNew.dtype = c.cfg.dtype
  kNew_ndims : kNew.ndims = 3
  kNew_tokens : (kNew.dim 0 : ℤ) = numTokens
  kNew_heads : kNew.dim 1 = c.cfg.numKvHeads
  kNew_headDim : kNew.dim 2 = c.cfg.headDim
  kNew_data : kNew.data.isSome
  vNew_data : vNew.data.isSome
  tokens_pos : 0 < numTokens

/-- A call launches exactly when it passes these checks. -/
theorem append_launches_iff (c : KVCache) (layer : ℤ) (kNew vNew : Tensor) (slots : ℕ → ℤ)
    (numTokens : ℤ) :
    (c.append layer kNew vNew (some slots) numTokens .ok).2.isOk ↔
      AppendChecked c layer kNew vNew numTokens := by
  constructor
  · intro hok
    obtain ⟨e, hbad, heq⟩ | ⟨k, v, cells, hk, hv, -, hlayer, hdtype, hshape, -⟩ :=
      c.append_cases layer kNew vNew (some slots) numTokens .ok
    · rw [heq] at hok
      exact absurd hok hbad
    · refine ⟨hlayer.1, hlayer.2, hdtype.1, hdtype.2, hshape.1, hshape.2.1, hshape.2.2.1, hshape.2.2.2,
        by simp [hk], by simp [hv], ?_⟩
      by_contra hn
      have hlaunch : c.launchKvAppend layer.toNat kNew.data vNew.data slots numTokens .ok =
          (c, .invalidArgument "kv append: num_tokens <= 0") := by
        simp only [launchKvAppend, hk, hv]
        exact if_pos (not_lt.1 hn)
      unfold append at hok
      rw [if_neg (by omega), if_neg (by simp [hdtype]), if_neg (by simp [hshape])] at hok
      simp [hlaunch] at hok
  · intro h
    have hn := h.tokens_pos
    rw [← h.kNew_tokens] at hn ⊢
    exact (append_isOk_iff ⟨h.layer_nonneg, h.layer_lt⟩ h.kNew_ndims (by omega)).2
      ⟨rfl, ⟨h.kNew_dtype, h.vNew_dtype⟩, ⟨h.kNew_heads, h.kNew_headDim⟩,
        ⟨h.kNew_data, h.vNew_data⟩, rfl⟩

/-- If the call launches its kernel, the kernel stays inside its buffers. -/
def AppendInside (c : KVCache) (layer : ℤ) (kNew vNew : Tensor) (slots : ℕ → ℤ) (numTokens : ℤ) :
    Prop :=
  (c.append layer kNew vNew (some slots) numTokens .ok).2.isOk →
    CopiesInside c.cfg kNew vNew slots numTokens.toNat

/-- The kernel of a call stays inside its buffers exactly when the rows of the stored tokens fit. -/
theorem appendInside_iff_rowsFit (c : KVCache) (layer : ℤ) (kNew vNew : Tensor) (slots : ℕ → ℤ)
    (numTokens : ℤ) :
    AppendInside c layer kNew vNew slots numTokens ↔
      (AppendChecked c layer kNew vNew numTokens → RowsFit c.cfg kNew vNew slots numTokens.toNat) := by
  rw [AppendInside, append_launches_iff, copiesInside_iff]

end KVCache

/-! ## Calls through the paged cache -/

namespace PagedKVCache

/-- If `AppendTokens` launches the kernel, the kernel stays inside its buffers. -/
def AppendTokensInside (c : PagedKVCache) (seqId layer : ℤ) (kNew vNew : Tensor)
    (slotAlloc : Option (ℕ → ℤ)) : Prop :=
  ∀ cells, (c.appendTokens seqId layer kNew vNew ⟨slotAlloc, .ok⟩).2.isOk →
    (c.appendTokens seqId layer kNew vNew ⟨slotAlloc, .ok⟩).1.slotMappingDevice = some cells →
    CopiesInside c.cfg kNew vNew cells (kNew.dim 0)

/-- The slot that the `t`-th new token of a sequence gets, with the cast to `int32_t`. Its block is owned by
the sequence or comes from the top of the free list. -/
def nextSlot (c : PagedKVCache) (s t : ℕ) : ℤ :=
  let position := c.seqLengths s + t
  let block := (c.seqBlocks s ++ c.blocks.freeList.reverse).getD (position / c.cfg.blockSize) 0
  int32Cast (block * c.cfg.blockSize + (position % c.cfg.blockSize : ℕ))

/-- The blocks that were reserved came from the top of the free list. -/
theorem SlotCells.nextSlot {c : PagedKVCache} {m : BlockManager} {s n : ℕ} {ids : List ℤ}
    {cells : ℕ → ℤ}
    (hr : Reserved c m s n ids) (hcells : SlotCells ((c.attach m s ids).refreshRow s) s n cells) {t : ℕ}
    (ht : t < n) : cells t = c.nextSlot s t := by
  obtain ⟨b, hb, hcell⟩ := hcells t ht
  dsimp only [refreshRow, attach] at hb hcell
  rw [Function.update_self] at hb
  have hfree : c.blocks.freeList.reverse = ids ++ m.freeList.reverse := by
    rw [hr.popped.freeList_eq]
    simp
  obtain ⟨hlt, -⟩ := List.getElem?_eq_some_iff.mp hb
  rw [PagedKVCache.nextSlot, List.getD_eq_getElem?_getD, hfree, ← List.append_assoc,
    List.getElem?_append_left hlt, hb]
  exact hcell

/-- Through `AppendTokens` the slots are those of the next positions. -/
theorem Inv.appendTokensInside_iff {c : PagedKVCache} (h : Inv c) (seqId layer : ℤ) (kNew vNew : Tensor)
    (slotAlloc : Option (ℕ → ℤ)) :
    AppendTokensInside c seqId layer kNew vNew slotAlloc ↔
      ((c.checkAppend seqId layer kNew vNew).isOk →
        c.neededBlocks seqId.toNat (kNew.dim 0) ≤
          (c.seqBlocks seqId.toNat).length + c.blocks.freeList.length →
        StoreAccepted c kNew vNew ⟨slotAlloc, .ok⟩ →
        RowsFit c.cfg kNew vNew (c.nextSlot seqId.toNat) (kNew.dim 0)) := by
  have hok_iff := h.appendTokens_isOk_iff seqId layer kNew vNew ⟨slotAlloc, .ok⟩
  by_cases hok : (c.appendTokens seqId layer kNew vNew ⟨slotAlloc, .ok⟩).2.isOk
  swap
  · exact iff_of_true (fun _ hok' => absurd hok' hok) fun hcheck hfound hacc =>
      absurd (hok_iff.2 ⟨hcheck, hfound, hacc⟩) hok
  -- a call that fails launches nothing; from here on it succeeds
  obtain ⟨hcheck, hfound, hacc⟩ := hok_iff.1 hok
  rw [forall_prop_of_true hcheck, forall_prop_of_true hfound, forall_prop_of_true hacc]
  obtain ⟨e, failures, hbad, heq⟩ | ⟨s, m, ids, c₂, hargs, hr, rfl, hcase⟩ :=
    appendTokens_cases h seqId layer kNew vNew ⟨slotAlloc, .ok⟩
  · rw [heq] at hok
    exact absurd hok hbad
  obtain ⟨e, st, dev, capacity, hbad, -, -, heq⟩ |
    ⟨slots, cells, capacity, hslots, hcells, -, heq⟩ := hcase
  · rw [heq] at hok
    exact absurd hok hbad
  have hcell {t : ℕ} (ht : t < kNew.dim 0) : cells t = c.nextSlot seqId.toNat t := by
    have hseq : seqId.toNat = s := by rw [hargs.seqId_eq, Int.toNat_natCast]
    rw [hseq]
    exact ((hr.inv h hargs.seq_lt).slotCells hargs.seq_lt hslots hcells).nextSlot hr ht
  have hdevice : (c.appendTokens seqId layer kNew vNew ⟨slotAlloc, .ok⟩).1.slotMappingDevice =
      some cells := by
    rw [heq]
    rfl
  rw [← RowsFit.congr fun t => hcell, ← copiesInside_iff]
  constructor
  · exact fun hinside => hinside cells hok hdevice
  · intro hrows cells' _ hcells'
    obtain rfl : cells = cells' := Option.some.inj (hdevice.symm.trans hcells')
    exact hrows

end PagedKVCache

/-- For every direct call, and for every call through a reachable paged cache: the kernel stays inside its
buffers exactly when no launch happens or the rows of the stored tokens are in both tensors and fit the
layer. -/
theorem appendInside_iff (layer : ℤ) (kNew vNew : Tensor) :
    (∀ (c : KVCache) (slots : ℕ → ℤ) (numTokens : ℤ),
      c.AppendInside layer kNew vNew slots numTokens ↔
        (c.AppendChecked layer kNew vNew numTokens → RowsFit c.cfg kNew vNew slots numTokens.toNat)) ∧
    ∀ (cfg : KVCacheConfig) (env : PagedEnv) (c : PagedKVCache), PagedKVCache.create cfg env = .ok c →
      cfg.numBlocks ≤ 2 ^ 31 → ∀ (calls : List PagedKVCache.Call) (seqId : ℤ)
        (slotAlloc : Option (ℕ → ℤ)),
      (c.run calls).AppendTokensInside seqId layer kNew vNew slotAlloc ↔
        (((c.run calls).checkAppend seqId layer kNew vNew).isOk →
          (c.run calls).neededBlocks seqId.toNat (kNew.dim 0) ≤
            ((c.run calls).seqBlocks seqId.toNat).length + (c.run calls).blocks.freeList.length →
          (c.run calls).StoreAccepted kNew vNew ⟨slotAlloc, .ok⟩ →
          RowsFit (c.run calls).cfg kNew vNew ((c.run calls).nextSlot seqId.toNat) (kNew.dim 0)) :=
  ⟨fun c => c.appendInside_iff_rowsFit layer kNew vNew, fun _ _ _ hcreate hsmall calls seqId =>
    ((PagedKVCache.Inv.create hsmall hcreate).run calls).appendTokensInside_iff seqId layer kNew vNew⟩

theorem appendInside_token : ∃ c, PagedKVCache.create (tinyConfig 1 1 2) zeroEnv = .ok c ∧
    c.storage.AppendInside 0 (tokenTensor 1 1 fun _ => 1) (tokenTensor 1 1 fun _ => 2) (fun _ => 0) 1 ∧
    (c.run []).AppendTokensInside 0 0 (tokenTensor 1 1 fun _ => 1) (tokenTensor 1 1 fun _ => 2) none := by
  obtain ⟨c, hc⟩ : ∃ c, PagedKVCache.create (tinyConfig 1 1 2) zeroEnv = .ok c := ⟨_, rfl⟩
  have hfit (slots : ℕ → ℤ) :
    RowsFit c.cfg (tokenTensor 1 1 fun _ => 1) (tokenTensor 1 1 fun _ => 2) slots
      1 := by
    cases hc
    exact ⟨.of_shape rfl rfl rfl le_rfl (by decide), .of_shape rfl rfl rfl le_rfl (by decide),
      .of_lt (by decide)⟩
  exact ⟨c, hc, ((appendInside_iff _ _ _).1 _ _ _).2 fun _ => by cases hc; exact hfit _,
    ((appendInside_iff _ _ _).2 _ _ c hc (by decide) [] _ _).2 fun _ _ _ => hfit _⟩

/-- A half-precision tensor of one element. -/
def oneElement : Tensor := { dims := [1, 1, 1], dtype := .float16, data := some fun _ => 0 }

/-- A `v_new` of one element passes all checks next to a `k_new` of one token, and the kernel reads 64 bytes
of it. -/
theorem not_appendInside_oneElement : ∃ c, PagedKVCache.create (tinyConfig 1 1 2) zeroEnv = .ok c ∧
    ¬ c.storage.AppendInside 0 (tokenTensor 1 1 fun _ => 1) oneElement (fun _ => 0) 1 ∧
    ¬ c.AppendTokensInside 0 0 (tokenTensor 1 1 fun _ => 1) oneElement (some fun _ => -1) := by
  refine ⟨_, rfl, fun hinside => ?_, fun hinside => ?_⟩
  · have hread := (hinside (by decide +kernel)).vNew (63, 63) (by decide +kernel)
    exact absurd hread (by decide)
  · have hread := (hinside _ (by decide +kernel) rfl).vNew (63, 63) (by decide +kernel)
    exact absurd hread (by decide)

end SciAttention

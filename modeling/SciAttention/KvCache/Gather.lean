import SciAttention.KvCache.Schedules
import SciAttention.KvCache.Storage

/-!
# Gathering blocks

Model of `kv_gather_kernel`, `LaunchKvGather` and `KVCache::GatherInternal`: the bytes of the
listed blocks one after the other, zeros for ids outside the layer. Gathered after any launches of
the append and reset kernels, under any schedules, every row is the one that was last put into its
slot.
-/

namespace SciAttention

open Strided

/-! ## The kernel -/

/-- One iteration of `kv_gather_kernel`. -/
def kvGatherByte (shape : KVCacheShape) (elemBytes : ℕ) (layer : Bytes) (blockIds : ℕ → ℤ)
    (idx : ℕ) :
    List (ℕ × UInt8) :=
  let perBlock := perBlockBytes shape elemBytes
  let physical := blockIds (idx / perBlock)
  if physical < 0 ∨ physical ≥ shape.numBlocks then [(idx, 0)]
  else [(idx, layer (physical.toNat * perBlock + idx % perBlock))]

/-- Every work item writes its own byte. -/
theorem kvGatherByte_eq (shape : KVCacheShape) (elemBytes : ℕ) (layer : Bytes) (blockIds : ℕ → ℤ)
    (idx : ℕ) :
    ∃ x, kvGatherByte shape elemBytes layer blockIds idx = [(idx, x)] := by
  unfold kvGatherByte
  dsimp only
  split_ifs
  · exact ⟨_, rfl⟩
  · exact ⟨_, rfl⟩

/-- The writes of `kv_gather_kernel`. -/
def kvGatherWrites (shape : KVCacheShape) (elemBytes : ℕ) (layer : Bytes) (blockIds : ℕ → ℤ)
    (numBlocks : ℕ) : List (ℕ × UInt8) :=
  let total := numBlocks * perBlockBytes shape elemBytes
  (gridStride (blocksFor total) kvThreads total).flatMap (kvGatherByte shape elemBytes layer blockIds)

/-- `LaunchKvGather`; the layer's own pointer is never null. -/
def launchKvGather (shape : KVCacheShape) (elemBytes : ℕ) (layer : Bytes) (blockIds : Option (ℕ → ℤ))
    (numBlocks : ℤ) (out : Option Bytes) (launch : LaunchOutcome) : Option Bytes × Status :=
  match blockIds, out with
  | some ids, some dst =>
    if numBlocks ≤ 0 then (out, .ok)
    else
      (some (Scatter.apply dst
        (launch.executed (kvGatherWrites shape elemBytes layer ids numBlocks.toNat))), launch.status)
  | _, _ => (out, .invalidArgument "kv gather: null pointer")

/-- `KVCache::GatherInternal`; `outAlloc` is the memory of the result, `none` for a failed allocation. -/
def KVCache.gatherInternal (c : KVCache) (layer : ℤ) (blockIds : Option (ℕ → ℤ)) (numBlocks : ℤ)
    (isKey : Bool) (outAlloc : Option Bytes) (launch : LaunchOutcome) : Except Status Tensor :=
  if layer < 0 ∨ layer ≥ c.cfg.numLayers then
    .error (makeStatus .shapeMismatch ("KVCache::Gather layer=" ++ toString layer ++ " out of range"))
  else if blockIds.isNone ∨ numBlocks ≤ 0 then
    .error (makeStatus .shapeMismatch "KVCache::Gather requires block_ids and num_blocks>0")
  else if outAlloc.isNone then
    .error (makeStatus .workspaceExceeded "KVCache::Gather allocation failed")
  else
    let r := launchKvGather c.cfg.toDeviceShape c.cfg.elemBytes (c.side isKey layer.toNat) blockIds numBlocks
      outAlloc launch
    if ¬ r.2.isOk then .error r.2
    else
      .ok
        { dims := [numBlocks.toNat, c.cfg.blockSize, c.cfg.numKvHeads, c.cfg.headDim]
          dtype := c.cfg.dtype
          data := r.1 }

/-! ## What is gathered -/

section Gathered

variable {shape : KVCacheShape} {elemBytes : ℕ} {layer out : Bytes} {blockIds : ℕ → ℤ}
    {numBlocks : ℕ}
  {ws : List (ℕ × UInt8)}

/-- Under every schedule byte `y` of gathered block `i` is that byte of the block, zero outside the layer. -/
theorem apply_gather (hws : Schedule (numBlocks * perBlockBytes shape elemBytes)
    (kvGatherByte shape elemBytes layer blockIds) ws) {i y : ℕ} (hi : i < numBlocks)
    (hy : y < perBlockBytes shape elemBytes) :
    Scatter.apply out ws (i * perBlockBytes shape elemBytes + y) =
      if BlockInLayer shape (blockIds i) then
        layer ((blockIds i).toNat * perBlockBytes shape elemBytes + y) else 0 := by
  have hown : kvGatherByte shape elemBytes layer blockIds (i * perBlockBytes shape elemBytes + y) =
      [(i * perBlockBytes shape elemBytes + y, if BlockInLayer shape (blockIds i) then
        layer ((blockIds i).toNat * perBlockBytes shape elemBytes + y) else 0)] := by
    simp only [kvGatherByte, flat_div i hy, flat_mod i hy]
    by_cases hin : BlockInLayer shape (blockIds i)
    · rw [if_neg (not_or.2 ⟨hin.1.not_gt, hin.2.not_ge⟩), if_pos hin]
    · rw [if_pos (not_and_or.1 hin |>.imp not_le.1 not_lt.1), if_neg hin]
  refine Scatter.apply_of_agree (hws.mem_iff.2 ⟨_, flat_lt hi hy, hown ▸ List.mem_singleton_self _⟩) ?_
  -- every byte of the result has a single writer
  intro w hw heq
  obtain ⟨idx, -, hw⟩ := hws.mem_iff.1 hw
  obtain ⟨x, hx⟩ := kvGatherByte_eq shape elemBytes layer blockIds idx
  rw [hx, List.mem_singleton] at hw
  subst hw
  obtain rfl : idx = i * perBlockBytes shape elemBytes + y := heq
  exact congrArg Prod.snd (List.singleton_inj.1 (hx.symm.trans hown))

/-- Gathered rows are the rows of the blocks. -/
theorem rowOf_gather (hws : Schedule (numBlocks * perBlockBytes shape elemBytes)
    (kvGatherByte shape elemBytes layer blockIds) ws) {i offset : ℕ} (hi : i < numBlocks)
    (ho : offset < shape.blockSize) :
    rowOf shape elemBytes (Scatter.apply out ws) (i * shape.blockSize + offset) =
      if BlockInLayer shape (blockIds i) then
        rowOf shape elemBytes layer ((blockIds i).toNat * shape.blockSize + offset)
      else zeroRow shape elemBytes := by
  have hbytes : ∀ x ∈ List.range (slotRowBytes shape elemBytes),
      Scatter.apply out ws (slotByte shape elemBytes (i * shape.blockSize + offset) x) =
        if BlockInLayer shape (blockIds i) then
          layer (slotByte shape elemBytes ((blockIds i).toNat * shape.blockSize + offset) x) else 0 := by
    intro x hx
    rw [slotByte_eq_block, slotByte_eq_block,
      apply_gather hws hi (offset_lt_perBlockBytes ho (List.mem_range.1 hx))]
  rw [rowOf, List.map_congr_left hbytes]
  split_ifs
  · rfl
  · rw [List.map_const', List.length_range, zeroRow]

/-- A launch gathers what any schedule of it gathers. -/
theorem launchKvGather_of_schedule (hws : Schedule (numBlocks * perBlockBytes shape elemBytes)
    (kvGatherByte shape elemBytes layer blockIds) ws) (hn : 0 < numBlocks) :
    launchKvGather shape elemBytes layer (some blockIds) numBlocks (some out) .ok =
      (some (Scatter.apply out ws), .ok) := by
  have hsame : Scatter.apply out (kvGatherWrites shape elemBytes layer blockIds numBlocks) =
      Scatter.apply out ws := by
    refine Scatter.apply_eq_of_mem_iff (fun w => (List.Perm.mem_iff hws).symm) (fun w hw w' hw' heq => ?_) out
    obtain ⟨idx, -, hw⟩ := Schedule.mem_iff (List.Perm.refl _) |>.1 hw
    obtain ⟨idx', -, hw'⟩ := Schedule.mem_iff (List.Perm.refl _) |>.1 hw'
    obtain ⟨x, hx⟩ := kvGatherByte_eq shape elemBytes layer blockIds idx
    obtain ⟨x', hx'⟩ := kvGatherByte_eq shape elemBytes layer blockIds idx'
    rw [hx, List.mem_singleton] at hw
    rw [hx', List.mem_singleton] at hw'
    subst hw hw'
    obtain rfl : idx = idx' := heq
    exact congrArg Prod.snd (List.singleton_inj.1 (hx.symm.trans hx'))
  simp only [launchKvGather, Int.toNat_natCast]
  rw [if_neg (by omega)]
  exact Prod.ext (congrArg some hsame) rfl

end Gathered

/-! ## What the launches left -/

/-- A launch of the append or of the reset kernel. -/
inductive KvLaunch where
  | append (kNew vNew : Bytes) (slotMapping : ℕ → ℤ) (numTokens : ℕ)
  | reset (blockIds : ℕ → ℤ) (numBlocks : ℕ)

namespace KvLaunch

variable (shape : KVCacheShape) (elemBytes : ℕ)

/-- The work items of the grid. -/
def total : KvLaunch → ℕ
  | append _ _ _ numTokens => numTokens * shape.numKvHeads
  | reset _ numBlocks => numBlocks * perBlockBytes shape elemBytes

/-- The iteration of the kernel. -/
def iteration : KvLaunch → ℕ → List ((Bool × ℕ) × UInt8)
  | append kNew vNew slotMapping _ => kvAppendIteration shape elemBytes kNew vNew slotMapping
  | reset blockIds _ => kvResetIteration shape elemBytes blockIds

/-- The launch stores into the slot. -/
def Stores (slot : ℕ) : KvLaunch → Prop
  | append _ _ slotMapping numTokens => ∃ token < numTokens, slotMapping token = slot
  | reset blockIds numBlocks => ∃ i < numBlocks, blockIds i = (slot / shape.blockSize : ℕ)

/-- What the launch may leave in a slot that it stores into: byte by byte the row of a token of the slot, or
zeros. -/
def Leaves (isKey : Bool) (slot : ℕ) (row : List UInt8) : KvLaunch → Prop
  | append kNew vNew slotMapping numTokens =>
    row.length = slotRowBytes shape elemBytes ∧ ∀ y < slotRowBytes shape elemBytes,
      ∃ token < numTokens, slotMapping token = slot ∧
        row[y]? = some ((if isKey then kNew else vNew) (token * slotRowBytes shape elemBytes + y))
  | reset _ _ => row = zeroRow shape elemBytes

end KvLaunch

/-- The row is the one last put into the slot, by launches listed latest first; a slot that none
of them stores into keeps its initial row. -/
def LastRow (shape : KVCacheShape) (elemBytes : ℕ) (isKey : Bool) (slot : ℕ) (initial row : List UInt8) :
    List KvLaunch → Prop
  | [] => row = initial
  | launch :: earlier =>
    (launch.Stores shape slot ∧ launch.Leaves shape elemBytes isKey slot row) ∨
      (¬ launch.Stores shape slot ∧ LastRow shape elemBytes isKey slot initial row earlier)

/-- One of the two layers of a memory. -/
def layerOf (mem : Bool × ℕ → UInt8) (isKey : Bool) : Bytes := fun a => mem (isKey, a)

/-- The launches, latest first, each under some schedule. -/
inductive Executes (shape : KVCacheShape) (elemBytes : ℕ) (start : Bool × ℕ → UInt8) :
    List KvLaunch → (Bool × ℕ → UInt8) → Prop
  | none : Executes shape elemBytes start [] start
  | launch {launch : KvLaunch} {earlier : List KvLaunch} {mem : Bool × ℕ → UInt8}
      {ws : List ((Bool × ℕ) × UInt8)} (before : Executes shape elemBytes start earlier mem)
      (schedule : Schedule (launch.total shape elemBytes) (launch.iteration shape elemBytes) ws) :
      Executes shape elemBytes start (launch :: earlier) (Scatter.apply mem ws)

section Launches

variable {shape : KVCacheShape} {elemBytes : ℕ} {isKey : Bool} {slot : ℕ}

/-- The only token of a slot leaves its row. -/
theorem leaves_append_iff {kNew vNew : Bytes} {slotMapping : ℕ → ℤ} {numTokens token : ℕ}
    {row : List UInt8}
    (htoken : token < numTokens) (hslot : slotMapping token = slot)
    (honly : ∀ token' < numTokens, slotMapping token' = slot → token' = token) :
    (KvLaunch.append kNew vNew slotMapping numTokens).Leaves shape elemBytes isKey slot row ↔
      row = sourceRow shape elemBytes (if isKey then kNew else vNew) token := by
  have hget (y : ℕ) (hy : y < slotRowBytes shape elemBytes) :
      (sourceRow shape elemBytes (if isKey then kNew else vNew) token)[y]? =
        some ((if isKey then kNew else vNew) (token * slotRowBytes shape elemBytes + y)) := by
    rw [sourceRow, List.getElem?_map, List.getElem?_range hy, Option.map_some]
  have hlen : (sourceRow shape elemBytes (if isKey then kNew else vNew) token).length =
      slotRowBytes shape elemBytes := by
    rw [sourceRow, List.length_map, List.length_range]
  constructor
  · rintro ⟨hrow, hbytes⟩
    refine List.ext_getElem? fun y => ?_
    by_cases hy : y < slotRowBytes shape elemBytes
    · obtain ⟨token', htoken', hslot', hbyte⟩ := hbytes y hy
      rw [hbyte, hget y hy, honly token' htoken' hslot']
    · rw [List.getElem?_eq_none (by omega), List.getElem?_eq_none (by omega)]
  · rintro rfl
    exact ⟨hlen, fun y hy => ⟨token, htoken, hslot, hget y hy⟩⟩

/-- The launch writes the byte of a row to the value. -/
def KvLaunch.WritesByte (shape : KVCacheShape) (elemBytes : ℕ) (isKey : Bool) (slot y : ℕ) (x : UInt8) :
    KvLaunch → Prop
  | append kNew vNew slotMapping numTokens => ∃ token < numTokens, slotMapping token = slot ∧
      x = (if isKey then kNew else vNew) (token * slotRowBytes shape elemBytes + y)
  | reset blockIds numBlocks => (∃ i < numBlocks, blockIds i = (slot / shape.blockSize : ℕ)) ∧ x = 0

/-- What a schedule of a launch writes to the bytes of a row. -/
theorem KvLaunch.mem_schedule {launch : KvLaunch} {ws : List ((Bool × ℕ) × UInt8)}
    (hH : 0 < shape.numKvHeads)
    (hbs : 0 < shape.blockSize) (hslot : slot / shape.blockSize < shape.numBlocks)
    (hws : Schedule (launch.total shape elemBytes) (launch.iteration shape elemBytes) ws) {y : ℕ}
    (hy : y < slotRowBytes shape elemBytes) {x : UInt8} :
    ((isKey, slotByte shape elemBytes slot y), x) ∈ ws ↔
      launch.WritesByte shape elemBytes isKey slot y x := by
  cases launch with
  | append kNew vNew slotMapping numTokens =>
    have hmem : ((isKey, slotByte shape elemBytes slot y), x) ∈ ws ↔
        (slotByte shape elemBytes slot y, x) ∈ kvAppendWrites shape elemBytes (if isKey then kNew else vNew)
          slotMapping numTokens := by
      rw [hws.mem_iff]
      simp only [total, iteration, mem_kvAppendIteration, kvAppendWrites, List.mem_flatMap,
        mem_gridStride (grid_pos _)]
    rw [hmem, mem_kvAppendWrites_iff hH]
    constructor
    · rintro ⟨token, y', htoken, hy', h0, -, heq⟩
      obtain ⟨haddr, rfl⟩ := Prod.mk.inj heq
      obtain ⟨hs, rfl⟩ := mul_add_inj hy hy' haddr
      exact ⟨token, htoken, by omega, rfl⟩
    · rintro ⟨token, htoken, hs, rfl⟩
      refine ⟨token, y, htoken, hy, by omega, by simpa [hs] using hslot, ?_⟩
      rw [hs, Int.toNat_natCast]
      rfl
  | reset blockIds numBlocks =>
    have hsplit : slotByte shape elemBytes slot y = slot / shape.blockSize * perBlockBytes shape elemBytes +
        (slot % shape.blockSize * slotRowBytes shape elemBytes + y) := by
      rw [← slotByte_eq_block, Nat.div_add_mod']
    have hin := offset_lt_perBlockBytes (Nat.mod_lt slot hbs) hy
    have hmem : ((isKey, slotByte shape elemBytes slot y), x) ∈ ws ↔
        (slotByte shape elemBytes slot y, x) ∈ kvResetWrites shape elemBytes blockIds numBlocks := by
      rw [hws.mem_iff, mem_kvResetWrites]
      simp only [total, iteration, mem_kvResetIteration]
    rw [hmem, mem_kvResetWrites_iff, hsplit]
    constructor
    · rintro ⟨i, y', hi, hy', h0, -, heq⟩
      obtain ⟨haddr, rfl⟩ := Prod.mk.inj heq
      have hblock := (mul_add_inj hin hy' haddr).1
      exact ⟨⟨i, hi, by rw [hblock, Int.toNat_of_nonneg h0]⟩, rfl⟩
    · rintro ⟨⟨i, hi, hid⟩, rfl⟩
      refine ⟨i, _, hi,
        hin, by rw [hid]; exact Int.natCast_nonneg _, by rw [hid]; exact_mod_cast hslot, ?_⟩
      rw [hid, Int.toNat_natCast]

/-- One launch: a slot that it stores into holds what it leaves there, another one its old row. -/
theorem KvLaunch.rowOf_step {launch : KvLaunch} {ws : List ((Bool × ℕ) × UInt8)}
    (hH : 0 < shape.numKvHeads)
    (hbs : 0 < shape.blockSize) (hslot : slot / shape.blockSize < shape.numBlocks)
    (hws : Schedule (launch.total shape elemBytes) (launch.iteration shape elemBytes) ws)
    (mem : Bool × ℕ → UInt8) :
    (launch.Stores shape slot ∧ launch.Leaves shape elemBytes isKey slot
        (rowOf shape elemBytes (layerOf (Scatter.apply mem ws) isKey) slot)) ∨
      (¬ launch.Stores shape slot ∧ rowOf shape elemBytes (layerOf (Scatter.apply mem ws) isKey) slot =
        rowOf shape elemBytes (layerOf mem isKey) slot) := by
  have hmem {y : ℕ} (hy : y < slotRowBytes shape elemBytes) {x : UInt8} :
      ((isKey, slotByte shape elemBytes slot y), x) ∈ ws ↔
        launch.WritesByte shape elemBytes isKey slot y x :=
    launch.mem_schedule hH hbs hslot hws hy
  have hlen (layer : Bytes) : (rowOf shape elemBytes layer slot).length = slotRowBytes shape elemBytes := by
    rw [rowOf, List.length_map, List.length_range]
  by_cases hstores : launch.Stores shape slot
  · refine .inl ⟨hstores, ?_⟩
    have hbyte (y : ℕ) (hy : y < slotRowBytes shape elemBytes) :
        launch.WritesByte shape elemBytes isKey slot y
          (layerOf (Scatter.apply mem ws) isKey (slotByte shape elemBytes slot y)) := by
      have hsome : ∃ x, launch.WritesByte shape elemBytes isKey slot y x := by
        cases launch with
        | append _ _ _ _ =>
          obtain ⟨token, htoken, hs⟩ := hstores
          exact ⟨_, token, htoken, hs, rfl⟩
        | reset _ _ => exact ⟨0, hstores, rfl⟩
      obtain ⟨x, hx⟩ := hsome
      exact (hmem hy).1 (Scatter.apply_mem ⟨_, (hmem hy).2 hx, rfl⟩ mem)
    cases launch with
    | append kNew vNew slotMapping numTokens =>
      refine ⟨hlen _, fun y hy => ?_⟩
      obtain ⟨token, htoken, hs, hx⟩ := hbyte y hy
      refine ⟨token, htoken, hs, ?_⟩
      rw [← hx, rowOf, List.getElem?_map, List.getElem?_range hy, Option.map_some]
    | reset blockIds numBlocks =>
      refine List.eq_replicate_iff.2 ⟨hlen _, fun x hx => ?_⟩
      obtain ⟨y, hy, rfl⟩ := List.mem_map.1 hx
      exact (hbyte y (List.mem_range.1 hy)).2
  · refine .inr ⟨hstores, List.map_congr_left fun y hy => ?_⟩
    refine Scatter.apply_of_forall_ne fun w hw heq => hstores ?_
    obtain ⟨cell, x⟩ := w
    obtain rfl : cell = (isKey, slotByte shape elemBytes slot y) := heq
    have hwrites := (hmem (List.mem_range.1 hy)).1 hw
    cases launch with
    | append _ _ _ _ =>
      obtain ⟨token, htoken, hs, -⟩ := hwrites
      exact ⟨token, htoken, hs⟩
    | reset _ _ => exact hwrites.1

/-- After any launches every slot of the layer holds the row last put into it. -/
theorem Executes.lastRow {start mem : Bool × ℕ → UInt8} {launches : List KvLaunch}
    (h : Executes shape elemBytes start launches mem) (hH : 0 < shape.numKvHeads) (hbs : 0 < shape.blockSize)
    (hslot : slot / shape.blockSize < shape.numBlocks) :
    LastRow shape elemBytes isKey slot (rowOf shape elemBytes (layerOf start isKey) slot)
      (rowOf shape elemBytes (layerOf mem isKey) slot) launches := by
  induction h with
  | none => exact rfl
  | launch before schedule ih =>
    rcases KvLaunch.rowOf_step hH hbs hslot schedule _ with hstored | ⟨hkept, heq⟩
    · exact .inl hstored
    · rw [heq]
      exact .inr ⟨hkept, ih⟩

end Launches

end SciAttention

import SciAttention.KvCache.Layout
import SciAttention.Common.Scatter
import SciAttention.Common.Strided
import Mathlib.Tactic.Ring

/-!
# Scatter-append and block reset

Model of `src/kv_cache/kv_cache_kernels.cu`. Both kernels only move bytes into a layer, so each is
the list of its byte writes in thread order; `K` and `V` get the same addresses from different
sources. `kvAppendWrites` and `kvResetWrites` follow the grid-stride loops of the kernels.
-/

namespace SciAttention

open Strided

/-- `kThreads` of the KV kernels. -/
def kvThreads : ℕ := 256

/-- `BlocksFor`: the grid size for a number of work items, clamped to `[1, 2^20]`. -/
def blocksFor (workItems : ℕ) : ℕ :=
  let blocks := (workItems + kvThreads - 1) / kvThreads
  if blocks < 1 then 1 else if blocks > 2 ^ 20 then 2 ^ 20 else blocks

theorem blocksFor_pos (workItems : ℕ) : 0 < blocksFor workItems := by
  unfold blocksFor
  dsimp only
  split_ifs <;> omega

/-- One iteration of `kv_append_kernel`: the bytes of one `(token, head)` row. A negative slot and a
block outside the layer store nothing. -/
def kvAppendRow (shape : KVCacheShape) (elemBytes : ℕ) (src : Bytes) (slotMapping : ℕ → ℤ)
    (row : ℕ) : List (ℕ × UInt8) :=
  let token := row / shape.numKvHeads
  let head := row % shape.numKvHeads
  let slot := slotMapping token
  if slot < 0 then []
  else
    let block := slot.toNat / shape.blockSize
    let offsetInBlock := slot.toNat % shape.blockSize
    if block ≥ shape.numBlocks then []
    else
      let rowBytes := shape.headDim * elemBytes
      (List.range rowBytes).map fun b =>
        (kvOffset shape block offsetInBlock head 0 * elemBytes + b,
          src ((token * shape.numKvHeads + head) * rowBytes + b))

/-- The writes of `kv_append_kernel` into one of the two layers. -/
def kvAppendWrites (shape : KVCacheShape) (elemBytes : ℕ) (src : Bytes) (slotMapping : ℕ → ℤ)
    (numTokens : ℕ) : List (ℕ × UInt8) :=
  let totalRows := numTokens * shape.numKvHeads
  (gridStride (blocksFor totalRows) kvThreads totalRows).flatMap
    (kvAppendRow shape elemBytes src slotMapping)

/-- What one iteration of `kv_append_kernel` copies: offsets in the source and in the layer. -/
def kvAppendRowCopies (shape : KVCacheShape) (elemBytes : ℕ) (slotMapping : ℕ → ℤ) (row : ℕ) :
    List (ℕ × ℕ) :=
  let token := row / shape.numKvHeads
  let head := row % shape.numKvHeads
  let slot := slotMapping token
  if slot < 0 then []
  else
    let block := slot.toNat / shape.blockSize
    let offsetInBlock := slot.toNat % shape.blockSize
    if block ≥ shape.numBlocks then []
    else
      let rowBytes := shape.headDim * elemBytes
      (List.range rowBytes).map fun b =>
        ((token * shape.numKvHeads + head) * rowBytes + b,
          kvOffset shape block offsetInBlock head 0 * elemBytes + b)

/-- What `kv_append_kernel` copies into each of the two layers. -/
def kvAppendCopies (shape : KVCacheShape) (elemBytes : ℕ) (slotMapping : ℕ → ℤ) (numTokens : ℕ) :
    List (ℕ × ℕ) :=
  let totalRows := numTokens * shape.numKvHeads
  (gridStride (blocksFor totalRows) kvThreads totalRows).flatMap
    (kvAppendRowCopies shape elemBytes slotMapping)

/-- Bytes of one block of a layer. -/
def perBlockBytes (shape : KVCacheShape) (elemBytes : ℕ) : ℕ :=
  shape.blockSize * shape.numKvHeads * shape.headDim * elemBytes

/-- One iteration of `kv_reset_kernel`; ids outside the layer are skipped. -/
def kvResetByte (shape : KVCacheShape) (elemBytes : ℕ) (blockIds : ℕ → ℤ) (idx : ℕ) :
    List (ℕ × UInt8) :=
  let perBlock := perBlockBytes shape elemBytes
  let physical := blockIds (idx / perBlock)
  if physical < 0 ∨ physical ≥ shape.numBlocks then []
  else [(physical.toNat * perBlock + idx % perBlock, 0)]

/-- The writes of `kv_reset_kernel` into one of the two layers. -/
def kvResetWrites (shape : KVCacheShape) (elemBytes : ℕ) (blockIds : ℕ → ℤ) (numBlocks : ℕ) :
    List (ℕ × UInt8) :=
  let total := numBlocks * perBlockBytes shape elemBytes
  (gridStride (blocksFor total) kvThreads total).flatMap (kvResetByte shape elemBytes blockIds)

/-! ## What the kernels write -/

theorem grid_pos (workItems : ℕ) : 0 < blocksFor workItems * kvThreads :=
  Nat.mul_pos (blocksFor_pos workItems) (by decide)

/-- The copies of the append kernel, row by row. -/
theorem mem_kvAppendCopies {shape : KVCacheShape} {elemBytes : ℕ} {slotMapping : ℕ → ℤ}
    {numTokens : ℕ} {w : ℕ × ℕ} :
    w ∈ kvAppendCopies shape elemBytes slotMapping numTokens ↔
      ∃ row, row < numTokens * shape.numKvHeads ∧
        w ∈ kvAppendRowCopies shape elemBytes slotMapping row := by
  simp only [kvAppendCopies, List.mem_flatMap, mem_gridStride (grid_pos _)]

/-- Each copy writes the byte that it reads. -/
theorem kvAppendRow_eq_map (shape : KVCacheShape) (elemBytes : ℕ) (src : Bytes) (slotMapping : ℕ → ℤ)
    (row : ℕ) :
    kvAppendRow shape elemBytes src slotMapping row =
      (kvAppendRowCopies shape elemBytes slotMapping row).map fun w => (w.2, src w.1) := by
  simp only [kvAppendRow, kvAppendRowCopies]
  split_ifs
  · rfl
  · rfl
  · rw [List.map_map]
    rfl

theorem kvAppendWrites_eq_map (shape : KVCacheShape) (elemBytes : ℕ) (src : Bytes)
    (slotMapping : ℕ → ℤ) (numTokens : ℕ) :
    kvAppendWrites shape elemBytes src slotMapping numTokens =
      (kvAppendCopies shape elemBytes slotMapping numTokens).map fun w => (w.2, src w.1) := by
  simp only [kvAppendWrites, kvAppendCopies, List.map_flatMap, ← kvAppendRow_eq_map]

/-- The kernel reads the slots of its own tokens only. -/
theorem kvAppendWrites_congr {shape : KVCacheShape} {elemBytes : ℕ} {src : Bytes}
    {slots slots' : ℕ → ℤ} {numTokens : ℕ} (h : ∀ t < numTokens, slots t = slots' t) :
    kvAppendWrites shape elemBytes src slots numTokens =
      kvAppendWrites shape elemBytes src slots' numTokens := by
  simp only [kvAppendWrites]
  refine List.flatMap_congr fun row hrow => ?_
  rw [mem_gridStride (grid_pos _)] at hrow
  have htoken : row / shape.numKvHeads < numTokens :=
    Nat.div_lt_of_lt_mul (by rwa [Nat.mul_comm])
  simp only [kvAppendRow, h _ htoken]

/-- The writes of the reset kernel, byte by byte. -/
theorem mem_kvResetWrites {shape : KVCacheShape} {elemBytes : ℕ} {blockIds : ℕ → ℤ}
    {numBlocks : ℕ} {w : ℕ × UInt8} :
    w ∈ kvResetWrites shape elemBytes blockIds numBlocks ↔
      ∃ idx, idx < numBlocks * perBlockBytes shape elemBytes ∧
        w ∈ kvResetByte shape elemBytes blockIds idx := by
  simp only [kvResetWrites, List.mem_flatMap, mem_gridStride (grid_pos _)]

/-- Bytes of one stored token row of a layer: all kv heads of one slot. -/
def slotRowBytes (shape : KVCacheShape) (elemBytes : ℕ) : ℕ :=
  shape.numKvHeads * (shape.headDim * elemBytes)

/-- The append kernel copies row `token` of the source to row `slot_mapping[token]` of the layer,
for every token whose slot lies in the layer. -/
theorem mem_kvAppendCopies_iff {shape : KVCacheShape} {elemBytes : ℕ} {slotMapping : ℕ → ℤ}
    {numTokens : ℕ} {w : ℕ × ℕ} (hH : 0 < shape.numKvHeads) :
    w ∈ kvAppendCopies shape elemBytes slotMapping numTokens ↔
      ∃ token x, token < numTokens ∧ x < slotRowBytes shape elemBytes ∧ 0 ≤ slotMapping token ∧
        (slotMapping token).toNat / shape.blockSize < shape.numBlocks ∧
        w = (token * slotRowBytes shape elemBytes + x,
          (slotMapping token).toNat * slotRowBytes shape elemBytes + x) := by
  set H := shape.numKvHeads with hHdef
  set R := shape.headDim * elemBytes with hR
  have hrow : slotRowBytes shape elemBytes = H * R := rfl
  rw [mem_kvAppendCopies, hrow]
  constructor
  · -- a row of the grid is a head of a token, its bytes a part of the token
    rintro ⟨row, hlt, hw⟩
    simp only [kvAppendRowCopies, ← hHdef, ← hR] at hw
    split_ifs at hw with hneg hblk
    · simp at hw
    · simp at hw
    · obtain ⟨b, hb, rfl⟩ := List.mem_map.mp hw
      rw [List.mem_range] at hb
      have hhead : row % H < H := Nat.mod_lt row hH
      refine ⟨row / H, row % H * R + b, Nat.div_lt_of_lt_mul (by rwa [Nat.mul_comm]), ?_,
        by omega, by omega, ?_⟩
      · exact Strided.flat_lt hhead hb
      · have hslot := Nat.div_add_mod (slotMapping (row / H)).toNat shape.blockSize
        refine Prod.ext ?_ ?_
        · ring
        · simp only [kvOffset, ← hHdef]
          rw [Nat.mul_comm shape.blockSize] at hslot
          rw [hslot, hR]
          ring
  · rintro ⟨token, x, htok, hx, hneg, hblk, rfl⟩
    have hRpos : 0 < R := Nat.pos_of_ne_zero (by rintro h0; simp [h0] at hx)
    have hhead : x / R < H := Nat.div_lt_of_lt_mul (by rwa [Nat.mul_comm])
    refine ⟨token * H + x / R, ?_, ?_⟩
    · exact Strided.flat_lt htok hhead
    · have htoken : (token * H + x / R) / H = token := Strided.flat_div token hhead
      have hheadEq : (token * H + x / R) % H = x / R := Strided.flat_mod token hhead
      simp only [kvAppendRowCopies, ← hHdef, ← hR, htoken, hheadEq]
      rw [if_neg (by omega), if_neg (by omega)]
      refine List.mem_map.mpr ⟨x % R, List.mem_range.mpr (Nat.mod_lt x hRpos), ?_⟩
      have hslot := Nat.div_add_mod (slotMapping token).toNat shape.blockSize
      have hxd := Nat.div_add_mod x R
      refine Prod.ext ?_ ?_
      · calc (token * H + x / R) * R + x % R
            = token * (H * R) + (R * (x / R) + x % R) := by ring
          _ = token * (H * R) + x := by rw [hxd]
      · simp only [kvOffset, ← hHdef]
        rw [Nat.mul_comm shape.blockSize] at hslot
        rw [hslot]
        calc (((slotMapping token).toNat * H + x / R) * shape.headDim + 0) * elemBytes + x % R
            = (slotMapping token).toNat * (H * R) + (R * (x / R) + x % R) := by rw [hR]; ring
          _ = (slotMapping token).toNat * (H * R) + x := by rw [hxd]

/-- The same for the bytes that are written. -/
theorem mem_kvAppendWrites_iff {shape : KVCacheShape} {elemBytes : ℕ} {src : Bytes}
    {slotMapping : ℕ → ℤ} {numTokens : ℕ} {w : ℕ × UInt8} (hH : 0 < shape.numKvHeads) :
    w ∈ kvAppendWrites shape elemBytes src slotMapping numTokens ↔
      ∃ token x, token < numTokens ∧ x < slotRowBytes shape elemBytes ∧ 0 ≤ slotMapping token ∧
        (slotMapping token).toNat / shape.blockSize < shape.numBlocks ∧
        w = ((slotMapping token).toNat * slotRowBytes shape elemBytes + x,
          src (token * slotRowBytes shape elemBytes + x)) := by
  simp only [kvAppendWrites_eq_map, List.mem_map, mem_kvAppendCopies_iff hH]
  constructor
  · rintro ⟨_, ⟨token, x, htoken, hx, h0, hblock, rfl⟩, rfl⟩
    exact ⟨token, x, htoken, hx, h0, hblock, rfl⟩
  · rintro ⟨token, x, htoken, hx, h0, hblock, rfl⟩
    exact ⟨_, ⟨token, x, htoken, hx, h0, hblock, rfl⟩, rfl⟩

/-- The reset kernel writes zero to every byte of every listed block of the layer. -/
theorem mem_kvResetWrites_iff {shape : KVCacheShape} {elemBytes : ℕ} {blockIds : ℕ → ℤ}
    {numBlocks : ℕ} {w : ℕ × UInt8} :
    w ∈ kvResetWrites shape elemBytes blockIds numBlocks ↔
      ∃ i y, i < numBlocks ∧ y < perBlockBytes shape elemBytes ∧ 0 ≤ blockIds i ∧
        blockIds i < shape.numBlocks ∧
        w = ((blockIds i).toNat * perBlockBytes shape elemBytes + y, 0) := by
  set P := perBlockBytes shape elemBytes with hP
  rw [mem_kvResetWrites, ← hP]
  constructor
  · rintro ⟨idx, hlt, hw⟩
    have hPpos : 0 < P := Nat.pos_of_ne_zero (by rintro h0; simp [h0] at hlt)
    simp only [kvResetByte, ← hP] at hw
    split_ifs at hw with hid
    · simp at hw
    · refine ⟨idx / P, idx % P, Nat.div_lt_of_lt_mul (by rwa [Nat.mul_comm]),
        Nat.mod_lt idx hPpos, by omega, by omega, by simpa using hw⟩
  · rintro ⟨i, y, hi, hy, h0, hlt, rfl⟩
    have hPpos : 0 < P := by omega
    refine ⟨i * P + y, ?_, ?_⟩
    · calc i * P + y < i * P + P := by omega
        _ = (i + 1) * P := by ring
        _ ≤ numBlocks * P := Nat.mul_le_mul_right P hi
    · have hdiv : (i * P + y) / P = i := Strided.flat_div i hy
      have hmod : (i * P + y) % P = y := Strided.flat_mod i hy
      simp only [kvResetByte, ← hP, hdiv, hmod]
      rw [if_neg (by omega)]
      simp

/-! ## The layer after a kernel -/

/-- Byte `x` of the token row stored in a slot. -/
def slotByte (shape : KVCacheShape) (elemBytes slot x : ℕ) : ℕ :=
  slot * slotRowBytes shape elemBytes + x

/-- A slot that no token maps to keeps its row, however many of the writes ran. -/
theorem append_miss {shape : KVCacheShape} {elemBytes : ℕ} {src layer : Bytes}
    {slotMapping : ℕ → ℤ} {numTokens slot x : ℕ} (hH : 0 < shape.numKvHeads)
    (hx : x < slotRowBytes shape elemBytes)
    (hmiss : ∀ token < numTokens, slotMapping token ≠ slot) {ws : List (ℕ × UInt8)}
    (hws : ws ⊆ kvAppendWrites shape elemBytes src slotMapping numTokens) :
    Scatter.apply layer ws (slotByte shape elemBytes slot x) =
      layer (slotByte shape elemBytes slot x) := by
  refine Scatter.apply_of_forall_ne fun w hw heq => ?_
  obtain ⟨token, x', htok, hx', h0, -, rfl⟩ := (mem_kvAppendWrites_iff hH).mp (hws hw)
  have hslot := (mul_add_inj hx' hx heq).1
  exact hmiss token htok (by omega)

/-- A slot that exactly one token maps to holds that token's row. -/
theorem append_hit {shape : KVCacheShape} {elemBytes : ℕ} {src layer : Bytes}
    {slotMapping : ℕ → ℤ} {numTokens token slot x : ℕ} (hH : 0 < shape.numKvHeads)
    (hx : x < slotRowBytes shape elemBytes) (htok : token < numTokens)
    (hslot : slotMapping token = slot) (hblk : slot / shape.blockSize < shape.numBlocks)
    (hinj : ∀ token' < numTokens, slotMapping token' = slot → token' = token) :
    Scatter.apply layer (kvAppendWrites shape elemBytes src slotMapping numTokens)
        (slotByte shape elemBytes slot x) =
      src (token * slotRowBytes shape elemBytes + x) := by
  refine Scatter.apply_of_agree ((mem_kvAppendWrites_iff hH).mpr
    ⟨token, x, htok, hx, by omega, by simpa [hslot] using hblk, by simp [slotByte, hslot]⟩) ?_
  rintro w hw heq
  obtain ⟨token', x', htok', hx', h0, -, rfl⟩ := (mem_kvAppendWrites_iff hH).mp hw
  obtain ⟨hs, rfl⟩ := mul_add_inj hx' hx heq
  rw [hinj token' htok' (by omega)]

/-- A slot row lies inside its block. -/
theorem slotByte_eq_block (shape : KVCacheShape) (elemBytes block offset x : ℕ) :
    slotByte shape elemBytes (block * shape.blockSize + offset) x =
      block * perBlockBytes shape elemBytes + (offset * slotRowBytes shape elemBytes + x) := by
  simp only [slotByte, perBlockBytes, slotRowBytes]
  ring

theorem offset_lt_perBlockBytes {shape : KVCacheShape} {elemBytes offset x : ℕ}
    (ho : offset < shape.blockSize) (hx : x < slotRowBytes shape elemBytes) :
    offset * slotRowBytes shape elemBytes + x < perBlockBytes shape elemBytes := by
  calc offset * slotRowBytes shape elemBytes + x
      < offset * slotRowBytes shape elemBytes + slotRowBytes shape elemBytes := by omega
    _ = (offset + 1) * slotRowBytes shape elemBytes := by ring
    _ ≤ shape.blockSize * slotRowBytes shape elemBytes := Nat.mul_le_mul_right _ ho
    _ = perBlockBytes shape elemBytes := by simp only [perBlockBytes, slotRowBytes]; ring

/-- A block that is not listed keeps its rows, however many of the writes ran. -/
theorem reset_miss {shape : KVCacheShape} {elemBytes : ℕ} {layer : Bytes} {blockIds : ℕ → ℤ}
    {numBlocks block offset x : ℕ} (ho : offset < shape.blockSize)
    (hx : x < slotRowBytes shape elemBytes) (hmiss : ∀ i < numBlocks, blockIds i ≠ block)
    {ws : List (ℕ × UInt8)} (hws : ws ⊆ kvResetWrites shape elemBytes blockIds numBlocks) :
    Scatter.apply layer ws (slotByte shape elemBytes (block * shape.blockSize + offset) x) =
      layer (slotByte shape elemBytes (block * shape.blockSize + offset) x) := by
  refine Scatter.apply_of_forall_ne fun w hw heq => ?_
  obtain ⟨i, y, hi, hy, h0, -, rfl⟩ := mem_kvResetWrites_iff.mp (hws hw)
  rw [slotByte_eq_block] at heq
  have hblock := (mul_add_inj hy (offset_lt_perBlockBytes ho hx) heq).1
  exact hmiss i hi (by omega)

/-- Every row of a listed block is zero after the reset. -/
theorem reset_hit {shape : KVCacheShape} {elemBytes : ℕ} {layer : Bytes} {blockIds : ℕ → ℤ}
    {numBlocks block offset x i : ℕ} (ho : offset < shape.blockSize)
    (hx : x < slotRowBytes shape elemBytes) (hi : i < numBlocks) (hid : blockIds i = block)
    (hlt : block < shape.numBlocks) :
    Scatter.apply layer (kvResetWrites shape elemBytes blockIds numBlocks)
      (slotByte shape elemBytes (block * shape.blockSize + offset) x) = 0 := by
  rw [slotByte_eq_block]
  refine Scatter.apply_of_agree (mem_kvResetWrites_iff.mpr
    ⟨i, _, hi, offset_lt_perBlockBytes ho hx, by omega, by omega, by rw [hid, Int.toNat_natCast]⟩) ?_
  rintro w hw -
  obtain ⟨_, _, -, -, -, -, rfl⟩ := mem_kvResetWrites_iff.mp hw
  rfl

/-! ## Whole rows -/

/-- The token row stored in a slot of a layer. -/
def rowOf (shape : KVCacheShape) (elemBytes : ℕ) (layer : Bytes) (slot : ℕ) : List UInt8 :=
  (List.range (slotRowBytes shape elemBytes)).map fun x => layer (slotByte shape elemBytes slot x)

/-- The row a fresh or reset slot holds. -/
def zeroRow (shape : KVCacheShape) (elemBytes : ℕ) : List UInt8 :=
  List.replicate (slotRowBytes shape elemBytes) 0

/-- The row of `[num_tokens, num_kv_heads, head_dim]` data that the append kernel takes for a
token. -/
def sourceRow (shape : KVCacheShape) (elemBytes : ℕ) (src : Bytes) (token : ℕ) : List UInt8 :=
  (List.range (slotRowBytes shape elemBytes)).map fun x =>
    src (token * slotRowBytes shape elemBytes + x)

section Rows

variable {shape : KVCacheShape} {elemBytes : ℕ} {src layer : Bytes}

theorem rowOf_append_miss {slotMapping : ℕ → ℤ} {numTokens slot : ℕ} (hH : 0 < shape.numKvHeads)
    (hmiss : ∀ token < numTokens, slotMapping token ≠ slot) {ws : List (ℕ × UInt8)}
    (hws : ws ⊆ kvAppendWrites shape elemBytes src slotMapping numTokens) :
    rowOf shape elemBytes (Scatter.apply layer ws) slot = rowOf shape elemBytes layer slot :=
  List.map_congr_left fun _ hx => append_miss hH (List.mem_range.mp hx) hmiss hws

theorem rowOf_append_hit {slotMapping : ℕ → ℤ} {numTokens token slot : ℕ}
    (hH : 0 < shape.numKvHeads) (htok : token < numTokens) (hslot : slotMapping token = slot)
    (hblk : slot / shape.blockSize < shape.numBlocks)
    (hinj : ∀ token' < numTokens, slotMapping token' = slot → token' = token) :
    rowOf shape elemBytes
        (Scatter.apply layer (kvAppendWrites shape elemBytes src slotMapping numTokens)) slot =
      sourceRow shape elemBytes src token :=
  List.map_congr_left fun _ hx => append_hit hH (List.mem_range.mp hx) htok hslot hblk hinj

theorem rowOf_reset_miss {blockIds : ℕ → ℤ} {numBlocks block offset : ℕ}
    (ho : offset < shape.blockSize) (hmiss : ∀ i < numBlocks, blockIds i ≠ block)
    {ws : List (ℕ × UInt8)} (hws : ws ⊆ kvResetWrites shape elemBytes blockIds numBlocks) :
    rowOf shape elemBytes (Scatter.apply layer ws) (block * shape.blockSize + offset) =
      rowOf shape elemBytes layer (block * shape.blockSize + offset) :=
  List.map_congr_left fun _ hx => reset_miss ho (List.mem_range.mp hx) hmiss hws

theorem rowOf_reset_hit {blockIds : ℕ → ℤ} {numBlocks block offset i : ℕ}
    (ho : offset < shape.blockSize) (hi : i < numBlocks) (hid : blockIds i = block)
    (hlt : block < shape.numBlocks) :
    rowOf shape elemBytes
        (Scatter.apply layer (kvResetWrites shape elemBytes blockIds numBlocks))
        (block * shape.blockSize + offset) = zeroRow shape elemBytes := by
  rw [zeroRow, List.eq_replicate_iff]
  refine ⟨by simp [rowOf], fun v hv => ?_⟩
  obtain ⟨x, hx, rfl⟩ := List.mem_map.mp hv
  exact reset_hit ho (List.mem_range.mp hx) hi hid hlt

/-- A layer of zeros holds zero rows. -/
theorem rowOf_zero (slot : ℕ) : rowOf shape elemBytes (fun _ => 0) slot = zeroRow shape elemBytes := by
  simp [rowOf, zeroRow, List.map_const']

end Rows

end SciAttention

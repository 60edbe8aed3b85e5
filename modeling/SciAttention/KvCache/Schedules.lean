import SciAttention.KvCache.Kernels

/-!
# The KV kernels under every schedule

`kv_append_kernel` and `kv_reset_kernel` (`src/kv_cache/kv_cache_kernels.cu`) write the K and the
V layer from all threads of a grid at once. A schedule is any order of the byte writes of all
their iterations; iterations that run one after the other, in any order, are one. The writes agree
wherever they meet, so that every schedule leaves what the sequential loops leave.
-/

namespace SciAttention

open Strided

/-! ## Kernels on both layers -/

/-- The K and the V layer as one memory, K under `true`. -/
def bothLayers (k v : Bytes) : Bool × ℕ → UInt8 := fun cell => if cell.1 then k cell.2 else v cell.2

/-- One iteration of `kv_append_kernel` on both layers: `dst_k[b] = src_k[b]`, `dst_v[b] = src_v[b]`. -/
def kvAppendIteration (shape : KVCacheShape) (elemBytes : ℕ) (kNew vNew : Bytes) (slotMapping : ℕ → ℤ)
    (row : ℕ) : List ((Bool × ℕ) × UInt8) :=
  (kvAppendRowCopies shape elemBytes slotMapping row).flatMap fun copy =>
    [((true, copy.2), kNew copy.1), ((false, copy.2), vNew copy.1)]

/-- One iteration of `kv_reset_kernel` on both layers. -/
def kvResetIteration (shape : KVCacheShape) (elemBytes : ℕ) (blockIds : ℕ → ℤ) (idx : ℕ) :
    List ((Bool × ℕ) × UInt8) :=
  (kvResetByte shape elemBytes blockIds idx).flatMap fun w => [((true, w.1), w.2), ((false, w.1), w.2)]

/-- The writes that a grid-stride loop over `total` work items makes, in some order. -/
def Schedule {α : Type*} (total : ℕ) (iteration : ℕ → List α) (ws : List α) : Prop :=
  ws.Perm ((gridStride (blocksFor total) kvThreads total).flatMap iteration)

section Schedule

variable {α : Type*} {total : ℕ} {iteration : ℕ → List α} {ws : List α}

/-- Iterations one after the other, in whatever order the threads come to them. -/
theorem Schedule.of_order {order : List ℕ}
    (h : order.Perm (gridStride (blocksFor total) kvThreads total)) :
    Schedule total iteration (order.flatMap iteration) :=
  h.flatMap_right _

/-- Every work item runs, whatever the grid. -/
theorem Schedule.mem_iff (h : Schedule total iteration ws) {w : α} :
    w ∈ ws ↔ ∃ i < total, w ∈ iteration i := by
  rw [List.Perm.mem_iff h, List.mem_flatMap]
  simp only [mem_gridStride (grid_pos total)]

end Schedule

/-- The writes to one of the layers. -/
def layerWrites (isKey : Bool) (ws : List ((Bool × ℕ) × UInt8)) : List (ℕ × UInt8) :=
  ws.filterMap fun w => if w.1.1 = isKey then some (w.1.2, w.2) else none

theorem mem_layerWrites {isKey : Bool} {ws : List ((Bool × ℕ) × UInt8)} {a : ℕ} {x : UInt8} :
    (a, x) ∈ layerWrites isKey ws ↔ ((isKey, a), x) ∈ ws := by
  simp only [layerWrites, List.mem_filterMap, Option.ite_none_right_eq_some, Option.some.injEq,
    Prod.mk.injEq]
  constructor
  · rintro ⟨⟨⟨_, _⟩, _⟩, hw, rfl, rfl, rfl⟩
    exact hw
  · intro hw
    exact ⟨_, hw, rfl, rfl, rfl⟩

/-- Each layer gets its own writes, in their order. -/
theorem apply_bothLayers (k v : Bytes) (ws : List ((Bool × ℕ) × UInt8)) :
    Scatter.apply (bothLayers k v) ws =
      bothLayers (Scatter.apply k (layerWrites true ws)) (Scatter.apply v (layerWrites false ws)) := by
  induction ws generalizing k v with
  | nil => rfl
  | cons w ws ih =>
    obtain ⟨⟨isKey, a⟩, x⟩ := w
    cases isKey with
    | true =>
      have hlayers : Function.update (bothLayers k v) (true, a) x = bothLayers (Function.update k a x) v := by
        funext ⟨isKey, b⟩
        cases isKey <;> simp [bothLayers, Function.update_apply]
      rw [Scatter.apply_cons, hlayers, ih]
      rfl
    | false =>
      have hlayers : Function.update (bothLayers k v) (false, a) x =
        bothLayers k (Function.update v a x) := by
        funext ⟨isKey, b⟩
        cases isKey <;> simp [bothLayers, Function.update_apply]
      rw [Scatter.apply_cons, hlayers, ih]
      rfl

/-! ## The sequential loops -/

/-- The slot lies in the layer. -/
def SlotInLayer (shape : KVCacheShape) (slot : ℤ) : Prop :=
  0 ≤ slot ∧ slot.toNat / shape.blockSize < shape.numBlocks

instance (shape : KVCacheShape) (slot : ℤ) : Decidable (SlotInLayer shape slot) :=
  inferInstanceAs (Decidable (_ ∧ _))

/-- Copy row `(token, head)` of the source to its place in the slot, if the slot lies in the layer. -/
def scatterRow (shape : KVCacheShape) (elemBytes : ℕ) (src : Bytes) (slot : ℤ) (token head : ℕ) :
    List (ℕ × UInt8) :=
  let rowBytes := shape.headDim * elemBytes
  if SlotInLayer shape slot then
    (List.range rowBytes).map fun b =>
      ((slot.toNat * shape.numKvHeads + head) * rowBytes + b,
        src ((token * shape.numKvHeads + head) * rowBytes + b))
  else []

/-- The sequential scatter: the rows of every token and head, one after the other. -/
def sequentialScatter (shape : KVCacheShape) (elemBytes : ℕ) (src : Bytes) (slotMapping : ℕ → ℤ)
    (numTokens : ℕ) (layer : Bytes) : Bytes :=
  Scatter.apply layer <| (List.range numTokens).flatMap fun token =>
    (List.range shape.numKvHeads).flatMap fun head =>
      scatterRow shape elemBytes src (slotMapping token) token head

/-- The block lies in the layer. -/
def BlockInLayer (shape : KVCacheShape) (id : ℤ) : Prop := 0 ≤ id ∧ id < shape.numBlocks

instance (shape : KVCacheShape) (id : ℤ) : Decidable (BlockInLayer shape id) :=
  inferInstanceAs (Decidable (_ ∧ _))

/-- The sequential reset: the bytes of every listed block, one after the other. -/
def sequentialReset (shape : KVCacheShape) (elemBytes : ℕ) (blockIds : ℕ → ℤ) (numBlocks : ℕ)
    (layer : Bytes) : Bytes :=
  Scatter.apply layer <| (List.range numBlocks).flatMap fun i =>
    if BlockInLayer shape (blockIds i) then
      (List.range (perBlockBytes shape elemBytes)).map fun y =>
        ((blockIds i).toNat * perBlockBytes shape elemBytes + y, 0)
    else []

/-! ## What the iterations write -/

section Rows

variable {shape : KVCacheShape} {elemBytes : ℕ}

/-- The slot of a row of the grid, split into block and offset and put together again. -/
theorem kvAppendRow_eq_scatterRow (src : Bytes) (slotMapping : ℕ → ℤ) (row : ℕ) :
    kvAppendRow shape elemBytes src slotMapping row =
      scatterRow shape elemBytes src (slotMapping (row / shape.numKvHeads)) (row / shape.numKvHeads)
        (row % shape.numKvHeads) := by
  have hslot : ∀ slot : ℕ, slot / shape.blockSize * shape.blockSize + slot % shape.blockSize = slot :=
    fun slot => Nat.div_add_mod' slot _
  simp only [kvAppendRow, scatterRow, kvOffset, hslot, Nat.add_zero, Nat.mul_assoc]
  by_cases hneg : slotMapping (row / shape.numKvHeads) < 0
  · rw [if_pos hneg, if_neg fun hin => hneg.not_ge hin.1]
  · rw [if_neg hneg]
    by_cases hblock : (slotMapping (row / shape.numKvHeads)).toNat / shape.blockSize ≥ shape.numBlocks
    · rw [if_pos hblock, if_neg fun hin => hblock.not_gt hin.2]
    · rw [if_neg hblock, if_pos ⟨not_lt.1 hneg, not_le.1 hblock⟩]

theorem mem_kvAppendIteration {kNew vNew : Bytes} {slotMapping : ℕ → ℤ} {row : ℕ} {isKey : Bool}
    {a : ℕ}
    {x : UInt8} :
    ((isKey, a), x) ∈ kvAppendIteration shape elemBytes kNew vNew slotMapping row ↔
      (a, x) ∈ kvAppendRow shape elemBytes (if isKey then kNew else vNew) slotMapping row := by
  simp only [kvAppendIteration, kvAppendRow_eq_map, List.mem_flatMap, List.mem_map, List.mem_cons,
    List.not_mem_nil, or_false, Prod.mk.injEq]
  cases isKey <;> simp [eq_comm]

theorem mem_kvResetIteration {blockIds : ℕ → ℤ} {idx : ℕ} {isKey : Bool} {a : ℕ} {x : UInt8} :
    ((isKey, a), x) ∈ kvResetIteration shape elemBytes blockIds idx ↔
      (a, x) ∈ kvResetByte shape elemBytes blockIds idx := by
  simp only [kvResetIteration, List.mem_flatMap, List.mem_cons, List.not_mem_nil, or_false, Prod.mk.injEq]
  cases isKey <;> simp [eq_comm]

/-- The work items of the grid are the tokens and heads of the sequential loops. -/
theorem sequentialScatter_eq (src : Bytes) (slotMapping : ℕ → ℤ) (numTokens : ℕ) (layer : Bytes) :
    sequentialScatter shape elemBytes src slotMapping numTokens layer =
      Scatter.apply layer ((List.range (numTokens * shape.numKvHeads)).flatMap
        (kvAppendRow shape elemBytes src slotMapping)) := by
  rw [sequentialScatter, ← range_mul_flatMap]
  congr 1
  refine List.flatMap_congr fun token _ => List.flatMap_congr fun head hhead => ?_
  rw [List.mem_range] at hhead
  rw [kvAppendRow_eq_scatterRow, flat_div token hhead, flat_mod token hhead]

theorem sequentialReset_eq (blockIds : ℕ → ℤ) (numBlocks : ℕ) (layer : Bytes) :
    sequentialReset shape elemBytes blockIds numBlocks layer =
      Scatter.apply layer ((List.range (numBlocks * perBlockBytes shape elemBytes)).flatMap
        (kvResetByte shape elemBytes blockIds)) := by
  rw [sequentialReset, ← range_mul_flatMap]
  congr 1
  refine List.flatMap_congr fun i _ => ?_
  have hbyte : ∀ y ∈ List.range (perBlockBytes shape elemBytes),
      kvResetByte shape elemBytes blockIds (i * perBlockBytes shape elemBytes + y) =
        if BlockInLayer shape (blockIds i) then
          [((blockIds i).toNat * perBlockBytes shape elemBytes + y, 0)] else [] := by
    intro y hy
    rw [List.mem_range] at hy
    simp only [kvResetByte, flat_div i hy, flat_mod i hy]
    by_cases hin : BlockInLayer shape (blockIds i)
    · rw [if_neg (not_or.2 ⟨hin.1.not_gt, hin.2.not_ge⟩), if_pos hin]
    · rw [if_pos (not_and_or.1 hin |>.imp not_le.1 not_lt.1), if_neg hin]
  rw [List.flatMap_congr hbyte]
  split_ifs
  · exact List.map_eq_flatMap
  · exact List.flatMap_eq_nil_iff.2 (fun _ _ => rfl) |>.symm

/-- Where a row of the grid writes, and what. -/
theorem mem_kvAppendRow {src : Bytes} {slotMapping : ℕ → ℤ} {numTokens row a : ℕ} {x : UInt8}
    (hrow : row < numTokens * shape.numKvHeads)
    (hw : (a, x) ∈ kvAppendRow shape elemBytes src slotMapping row) :
    ∃ token y, token < numTokens ∧ y < slotRowBytes shape elemBytes ∧
      SlotInLayer shape (slotMapping token) ∧ a = slotByte shape elemBytes (slotMapping token).toNat y ∧
      x = src (token * slotRowBytes shape elemBytes + y) := by
  have hhead : row % shape.numKvHeads < shape.numKvHeads :=
    Nat.mod_lt _ (Nat.pos_of_ne_zero fun h0 => by simp [h0] at hrow)
  rw [kvAppendRow_eq_scatterRow] at hw
  unfold scatterRow at hw
  split_ifs at hw with hin
  · obtain ⟨b, hb, hab⟩ := List.mem_map.1 hw
    obtain ⟨rfl, rfl⟩ := Prod.mk.inj hab
    rw [List.mem_range] at hb
    refine ⟨row / shape.numKvHeads, row % shape.numKvHeads * (shape.headDim * elemBytes) + b,
      Nat.div_lt_of_lt_mul (by rwa [Nat.mul_comm]), flat_lt hhead hb, hin, ?_, ?_⟩
    · simp only [slotByte, slotRowBytes]
      ring
    · congr 1
      simp only [slotRowBytes]
      ring
  · simp at hw

end Rows

/-! ## Schedule independence -/

/-- The slots in the layer belong to one token each. -/
def DistinctSlots (shape : KVCacheShape) (slotMapping : ℕ → ℤ) (numTokens : ℕ) : Prop :=
  ∀ token < numTokens, ∀ token' < numTokens, SlotInLayer shape (slotMapping token) →
    slotMapping token = slotMapping token' → token = token'

/-- What a schedule of the append kernel leaves: the sequential scatter in both layers, where a row without a
slot in the layer does nothing and a byte of no written slot keeps its value. -/
structure Scattered (shape : KVCacheShape) (elemBytes : ℕ) (kNew vNew : Bytes) (slotMapping : ℕ → ℤ)
    (numTokens : ℕ) (k v : Bytes) (ws : List ((Bool × ℕ) × UInt8)) : Prop where
  sequential : Scatter.apply (bothLayers k v) ws =
    bothLayers (sequentialScatter shape elemBytes kNew slotMapping numTokens k)
      (sequentialScatter shape elemBytes vNew slotMapping numTokens v)
  outside : ∀ row, ¬ SlotInLayer shape (slotMapping (row / shape.numKvHeads)) →
    ∀ mem, Scatter.apply mem (kvAppendIteration shape elemBytes kNew vNew slotMapping row) = mem
  frame : ∀ isKey a, (∀ token < numTokens, SlotInLayer shape (slotMapping token) →
      ∀ y < slotRowBytes shape elemBytes, a ≠ slotByte shape elemBytes (slotMapping token).toNat y) →
    Scatter.apply (bothLayers k v) ws (isKey, a) = bothLayers k v (isKey, a)

/-- What a schedule of the reset kernel leaves: the sequential reset in both layers, where an id outside the
layer does nothing and a byte of no listed block keeps its value. -/
structure Zeroed (shape : KVCacheShape) (elemBytes : ℕ) (blockIds : ℕ → ℤ) (numBlocks : ℕ)
    (k v : Bytes)
    (ws : List ((Bool × ℕ) × UInt8)) : Prop where
  sequential : Scatter.apply (bothLayers k v) ws =
    bothLayers (sequentialReset shape elemBytes blockIds numBlocks k)
      (sequentialReset shape elemBytes blockIds numBlocks v)
  outside : ∀ idx, ¬ BlockInLayer shape (blockIds (idx / perBlockBytes shape elemBytes)) →
    ∀ mem, Scatter.apply mem (kvResetIteration shape elemBytes blockIds idx) = mem
  frame : ∀ isKey a, (∀ i < numBlocks, BlockInLayer shape (blockIds i) →
      ∀ y < perBlockBytes shape elemBytes, a ≠ (blockIds i).toNat * perBlockBytes shape elemBytes + y) →
    Scatter.apply (bothLayers k v) ws (isKey, a) = bothLayers k v (isKey, a)

/-- Iterations whose writes agree wherever they meet leave, under every schedule, what they leave in order. -/
theorem Schedule.apply_eq {total : ℕ} {iteration : ℕ → List ((Bool × ℕ) × UInt8)}
    {ws : List ((Bool × ℕ) × UInt8)} (hws : Schedule total iteration ws)
    (layerRow : Bool → ℕ → List (ℕ × UInt8))
    (hlayer : ∀ isKey i a x, ((isKey, a), x) ∈ iteration i ↔ (a, x) ∈ layerRow isKey i)
    (hagree : ∀ isKey, ∀ i < total, ∀ j < total, ∀ w ∈ layerRow isKey i,
      ∀ w' ∈ layerRow isKey j,
      w.1 = w'.1 → w.2 = w'.2) (k v : Bytes) :
    Scatter.apply (bothLayers k v) ws =
      bothLayers (Scatter.apply k ((List.range total).flatMap (layerRow true)))
        (Scatter.apply v ((List.range total).flatMap (layerRow false))) := by
  have hmem (isKey : Bool) (w : ℕ × UInt8) :
      w ∈ layerWrites isKey ws ↔ ∃ i < total, w ∈ layerRow isKey i := by
    obtain ⟨a, x⟩ := w
    simp only [mem_layerWrites, hws.mem_iff, hlayer]
  have hsame (isKey : Bool) (layer : Bytes) : Scatter.apply layer (layerWrites isKey ws) =
      Scatter.apply layer ((List.range total).flatMap (layerRow isKey)) := by
    refine Scatter.apply_eq_of_mem_iff (fun w => ?_) (fun w hw w' hw' heq => ?_) layer
    · simp only [hmem, List.mem_flatMap, List.mem_range]
    · obtain ⟨i, hi, hwi⟩ := (hmem isKey w).1 hw
      obtain ⟨j, hj, hwj⟩ := (hmem isKey w').1 hw'
      exact hagree isKey i hi j hj w hwi w' hwj heq
  rw [apply_bothLayers, hsame, hsame]

section Kernels

variable {shape : KVCacheShape} {elemBytes : ℕ} {ws : List ((Bool × ℕ) × UInt8)}

/-- Every schedule of an append with distinct slots is the sequential scatter. -/
theorem scattered_of_schedule {kNew vNew : Bytes} {slotMapping : ℕ → ℤ} {numTokens : ℕ}
    (hdistinct : DistinctSlots shape slotMapping numTokens)
    (hws : Schedule (numTokens * shape.numKvHeads)
      (kvAppendIteration shape elemBytes kNew vNew slotMapping) ws) (k v : Bytes) :
    Scattered shape elemBytes kNew vNew slotMapping numTokens k v ws := by
  refine ⟨?_, fun row hout mem => ?_, fun isKey a hfree => ?_⟩
  · rw [sequentialScatter_eq, sequentialScatter_eq]
    refine hws.apply_eq (fun isKey =>
      kvAppendRow shape elemBytes (if isKey then kNew else vNew) slotMapping)
      (fun _ _ _ _ => mem_kvAppendIteration) (fun isKey i hi j hj w hw w' hw' heq => ?_) k v
    obtain ⟨a, x⟩ := w
    obtain ⟨a', x'⟩ := w'
    obtain ⟨token, y, htoken, hy, hin, rfl, rfl⟩ := mem_kvAppendRow hi hw
    obtain ⟨token', y', htoken', hy', hin', rfl, rfl⟩ := mem_kvAppendRow hj hw'
    -- one address is one slot, so one token, and one byte of its row
    obtain ⟨hslot, rfl⟩ := mul_add_inj hy hy' heq
    have hsame : slotMapping token = slotMapping token' := by
      rw [← Int.toNat_of_nonneg hin.1, hslot, Int.toNat_of_nonneg hin'.1]
    rw [hdistinct token htoken token' htoken' hin hsame]
  · have hnone : kvAppendIteration shape elemBytes kNew vNew slotMapping row = [] := by
      refine List.eq_nil_iff_forall_not_mem.2 fun w hw => ?_
      obtain ⟨⟨isKey, a⟩, x⟩ := w
      rw [mem_kvAppendIteration, kvAppendRow_eq_scatterRow, scatterRow, if_neg hout] at hw
      exact absurd hw List.not_mem_nil
    rw [hnone, Scatter.apply_nil]
  · refine Scatter.apply_of_forall_ne fun w hw heq => ?_
    obtain ⟨cell, x⟩ := w
    obtain rfl : cell = (isKey, a) := heq
    obtain ⟨row, hrow, hw⟩ := hws.mem_iff.1 hw
    obtain ⟨token, y, htoken, hy, hin, haddr, -⟩ := mem_kvAppendRow hrow (mem_kvAppendIteration.1 hw)
    exact hfree token htoken hin y hy haddr

/-- Every schedule of a reset is the sequential reset, whatever the list of blocks. -/
theorem zeroed_of_schedule {blockIds : ℕ → ℤ} {numBlocks : ℕ}
    (hws : Schedule (numBlocks * perBlockBytes shape elemBytes)
      (kvResetIteration shape elemBytes blockIds) ws) (k v : Bytes) :
    Zeroed shape elemBytes blockIds numBlocks k v ws := by
  have hbyte {idx a : ℕ} {x : UInt8} (hw : (a, x) ∈ kvResetByte shape elemBytes blockIds idx) :
      BlockInLayer shape (blockIds (idx / perBlockBytes shape elemBytes)) ∧
        a = (blockIds (idx / perBlockBytes shape elemBytes)).toNat * perBlockBytes shape elemBytes +
          idx % perBlockBytes shape elemBytes ∧ x = 0 := by
    simp only [kvResetByte] at hw
    split_ifs at hw with hin
    · simp at hw
    · obtain ⟨rfl, rfl⟩ := Prod.mk.inj (List.mem_singleton.1 hw)
      exact ⟨⟨by omega, by omega⟩, rfl, rfl⟩
  refine ⟨?_, fun idx hout mem => ?_, fun isKey a hfree => ?_⟩
  · rw [sequentialReset_eq, sequentialReset_eq]
    refine hws.apply_eq (fun _ => kvResetByte shape elemBytes blockIds)
      (fun _ _ _ _ => mem_kvResetIteration) (fun _ i _ j _ w hw w' hw' _ => ?_) k v
    -- every write is of a zero
    rw [(hbyte hw).2.2, (hbyte hw').2.2]
  · have hnone : kvResetIteration shape elemBytes blockIds idx = [] := by
      refine List.eq_nil_iff_forall_not_mem.2 fun w hw => ?_
      obtain ⟨⟨isKey, a⟩, x⟩ := w
      exact hout (hbyte (mem_kvResetIteration.1 hw)).1
    rw [hnone, Scatter.apply_nil]
  · refine Scatter.apply_of_forall_ne fun w hw heq => ?_
    obtain ⟨cell, x⟩ := w
    obtain rfl : cell = (isKey, a) := heq
    obtain ⟨idx, hidx, hw⟩ := hws.mem_iff.1 hw
    obtain ⟨hin, haddr, -⟩ := hbyte (mem_kvResetIteration.1 hw)
    have hpos : 0 < perBlockBytes shape elemBytes := Nat.pos_of_ne_zero fun h0 => by simp [h0] at hidx
    exact hfree _ (Nat.div_lt_of_lt_mul (by rwa [Nat.mul_comm])) hin _ (Nat.mod_lt _ hpos) haddr

end Kernels

/-- Both kernels under every schedule, for every shape, token count, mapping and list of blocks. -/
theorem kvKernels_scheduleIndependent (shape : KVCacheShape) (elemBytes : ℕ) (k v : Bytes)
    (ws : List ((Bool × ℕ) × UInt8)) :
    (∀ kNew vNew slotMapping numTokens, DistinctSlots shape slotMapping numTokens →
      Schedule (numTokens * shape.numKvHeads) (kvAppendIteration shape elemBytes kNew vNew slotMapping) ws →
      Scattered shape elemBytes kNew vNew slotMapping numTokens k v ws) ∧
    (∀ blockIds numBlocks,
      Schedule (numBlocks * perBlockBytes shape elemBytes) (kvResetIteration shape elemBytes blockIds) ws →
      Zeroed shape elemBytes blockIds numBlocks k v ws) :=
  ⟨fun _ _ _ _ hdistinct hws => scattered_of_schedule hdistinct hws k v,
    fun _ _ hws => zeroed_of_schedule hws k v⟩

/-- Two tokens to the slots of the other, the second one first. -/
theorem kvKernels_scheduleIndependent_swapped :
    Scattered ⟨2, 1, 1, 1⟩ 1 (fun i => if i = 0 then 1 else 2) (fun i => if i = 0 then 3 else 4)
      (fun token => 1 - token) 2 (fun _ => 0) (fun _ => 0)
      [((true, 0), 2), ((false, 0), 4), ((true, 1), 1), ((false, 1), 3)] :=
  (kvKernels_scheduleIndependent _ _ _ _ _).1 _ _ _ _ (fun token _ token' _ _ heq => by simpa using heq)
    (by unfold Schedule; decide +kernel)

end SciAttention

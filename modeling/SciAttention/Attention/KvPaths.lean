import SciAttention.Attention.Addressing
import SciAttention.Attention.PagedDecode
import SciAttention.Attention.RealNumerics
import SciAttention.KvCache.Gather
import SciAttention.KvCache.SlotMapping

/-!
# The address computations of the KV cache

Scatter goes from a position over its slot to bytes, reset and gather go from a block over bytes
within it, paged decode multiplies a row of the page table by a stride. All of them address the
element that `KvOffset` gives.
-/

namespace SciAttention

open Strided

/-! ## Positions -/

/-- A position that the row of a block table maps to a block of the layer, with an `int32_t` slot. -/
structure MapsTo (shape : KVCacheShape) (row : ℤ → ℤ) (maxBlocks position block : ℕ) : Prop where
  position_lt : position < 2 ^ 63
  column_lt : position / shape.blockSize < maxBlocks
  entry_eq : row (position / shape.blockSize : ℕ) = block
  block_lt : block < shape.numBlocks
  slot_lt : block * shape.blockSize + position % shape.blockSize < 2 ^ 31

/-- The parameters of a decode launch that reads a cache of the shape through a page table. -/
structure ReadsThrough {𝕜 : Type*} (p : DecodeFwdParams 𝕜) (shape : KVCacheShape) (maxBlocks : ℕ)
    (table : ℤ → ℤ) : Prop where
  pageTable_eq : p.pageTable = some table
  blockSize_eq : p.blockSize = shape.blockSize
  maxBlocks_eq : p.maxBlocksPerSeq = maxBlocks
  numKvBlocks_eq : p.numKvBlocks = shape.numBlocks
  kStride_eq : p.kStride = ⟨0, shape.headDim, shape.numKvHeads * shape.headDim⟩
  vStride_eq : p.vStride = p.kStride

section Position

variable {shape : KVCacheShape} {elemBytes : ℕ} {row : ℤ → ℤ} {maxBlocks position block : ℕ}

/-- `ComputeSlotMapping` gives the position its slot. -/
theorem MapsTo.slot_eq (h : MapsTo shape row maxBlocks position block) (hbs : 0 < shape.blockSize)
    {seqStart : ℤ} {numTokens token : ℕ} {slots : List ℤ} (hposition : seqStart + token = position)
    (htoken : token < numTokens)
    (hslots : computeSlotMapping64 (some row) seqStart numTokens shape.blockSize maxBlocks = .ok slots) :
    slots[token]? = some ((block * shape.blockSize + position % shape.blockSize : ℕ) : ℤ) := by
  obtain ⟨-, rfl⟩ := (computeSlotMapping64_eq_ok (by omega) (by omega)).1 hslots
  have hlt := h.position_lt
  have hslot := h.slot_lt
  have hpos64 : position64 seqStart token = position := by
    rw [position64, hposition]
    exact int64Wrap_of_lt (by omega) (by omega)
  have hdiv : (position : ℤ).tdiv shape.blockSize = (position / shape.blockSize : ℕ) := rfl
  have hmod : (position : ℤ).tmod shape.blockSize = (position % shape.blockSize : ℕ) := rfl
  rw [List.getElem?_map, List.getElem?_range htoken, Option.map_some, mappedSlot, entryRead, hpos64,
    hdiv, hmod,
    h.entry_eq, ← Nat.cast_mul, ← Nat.cast_add, int32Cast_of_lt (by omega) (by exact_mod_cast hslot)]

/-- The append kernel copies the elements of a `(token, head)` row to those of the slot's block and offset. -/
theorem mem_kvAppendRowCopies {slotMapping : ℕ → ℤ} {token head offset : ℕ}
    (hblock : block < shape.numBlocks) (hoffset : offset < shape.blockSize) (hhead : head < shape.numKvHeads)
    (hslot : slotMapping token = (block * shape.blockSize + offset : ℕ)) {copy : ℕ × ℕ} :
    copy ∈ kvAppendRowCopies shape elemBytes slotMapping (token * shape.numKvHeads + head) ↔
      ∃ d < shape.headDim, ∃ e < elemBytes,
        copy = (((token * shape.numKvHeads + head) * shape.headDim + d) * elemBytes + e,
          kvOffset shape block offset head d * elemBytes + e) := by
  simp only [kvAppendRowCopies, flat_div token hhead, flat_mod token hhead, hslot, Int.toNat_natCast,
    flat_div block hoffset, flat_mod block hoffset]
  rw [if_neg (Int.natCast_nonneg _).not_gt, if_neg hblock.not_ge, List.mem_map]
  constructor
  · rintro ⟨b, hb, rfl⟩
    rw [List.mem_range] at hb
    have hpos : 0 < elemBytes := Nat.pos_of_ne_zero fun h0 => by simp [h0] at hb
    refine ⟨b / elemBytes, (Nat.div_lt_iff_lt_mul hpos).2 hb, b % elemBytes, Nat.mod_lt _ hpos, ?_⟩
    have hb' := Nat.div_add_mod' b elemBytes
    refine Prod.ext ?_ ?_
    · simp only [Nat.add_mul, Nat.mul_assoc, Nat.add_assoc, hb']
    · simp only [kvOffset, Nat.add_zero, Nat.add_mul, Nat.add_assoc, hb']
  · rintro ⟨d, hd, e, he, rfl⟩
    refine ⟨d * elemBytes + e, List.mem_range.2 (flat_lt hd he), Prod.ext ?_ ?_⟩
    · ring
    · simp only [kvOffset]
      ring

/-- A flat offset within a block, in bytes, is the offset of the element. -/
theorem perBlockBytes_add (b offset head d e : ℕ) :
    b * perBlockBytes shape elemBytes +
        (((offset * shape.numKvHeads + head) * shape.headDim + d) * elemBytes + e) =
      kvOffset shape b offset head d * elemBytes + e := by
  simp only [perBlockBytes, kvOffset]
  ring

theorem flat_lt_perBlockBytes {offset head d e : ℕ} (hoffset : offset < shape.blockSize)
    (hhead : head < shape.numKvHeads) (hd : d < shape.headDim) (he : e < elemBytes) :
    ((offset * shape.numKvHeads + head) * shape.headDim + d) * elemBytes + e <
      perBlockBytes shape elemBytes :=
  flat_lt (flat_lt (flat_lt hoffset hhead) hd) he

/-- The page table leads to the row of the slot. -/
theorem MapsTo.pageTableRow_eq (h : MapsTo shape row maxBlocks position block) {table : ℤ → ℤ}
    {seq : ℕ}
    (htable : ∀ column < maxBlocks, table (seq * maxBlocks + column : ℕ) = row column) :
    pageTableRow table seq position shape.blockSize maxBlocks shape.numBlocks =
      (block * shape.blockSize + position % shape.blockSize : ℕ) := by
  have hdiv : (position : ℤ).tdiv shape.blockSize = (position / shape.blockSize : ℕ) := rfl
  have hmod : (position : ℤ).tmod shape.blockSize = (position % shape.blockSize : ℕ) := rfl
  have hentry := htable _ h.column_lt
  rw [h.entry_eq, Nat.cast_add, Nat.cast_mul] at hentry
  have hcolumn := h.column_lt
  have hblock := h.block_lt
  have hlookup : pageTableLookup table seq position shape.blockSize maxBlocks = block := by
    simp only [pageTableLookup, hdiv]
    rw [if_neg (by exact_mod_cast hcolumn.not_ge), hentry]
  simp only [pageTableRow, hlookup, hmod]
  rw [if_neg (by omega), Nat.cast_add, Nat.cast_mul]

end Position

/-! ## The four paths -/

/-- The four address computations of a position in a block: the element that `KvOffset` gives for
the block and the offset in it. -/
structure PathsAgree (𝕜 : Type*) (shape : KVCacheShape) (elemBytes : ℕ) (row : ℤ → ℤ)
    (maxBlocks position block : ℕ) : Prop where
  /-- The slot that `ComputeSlotMapping` gives, as the append kernel decodes it. -/
  scatter : ∀ (seqStart : ℤ) (numTokens token : ℕ) (slots : List ℤ), seqStart + token = position →
    token < numTokens →
    computeSlotMapping64 (some row) seqStart numTokens shape.blockSize maxBlocks = .ok slots →
    ∀ head < shape.numKvHeads, ∀ copy,
      copy ∈ kvAppendRowCopies shape elemBytes (fun t => slots.getD t 0)
        (token * shape.numKvHeads + head) ↔
        ∃ d < shape.headDim, ∃ e < elemBytes,
          copy = (((token * shape.numKvHeads + head) * shape.headDim + d) * elemBytes + e,
            kvOffset shape block (position % shape.blockSize) head d * elemBytes + e)
  /-- The byte that the reset kernel clears for the block and the flat offset within it. -/
  reset : ∀ (blockIds : ℕ → ℤ) (i : ℕ), blockIds i = block →
    ∀ head < shape.numKvHeads, ∀ d < shape.headDim, ∀ e < elemBytes,
      kvResetByte shape elemBytes blockIds (i * perBlockBytes shape elemBytes +
          (((position % shape.blockSize * shape.numKvHeads + head) * shape.headDim + d) * elemBytes + e)) =
        [(kvOffset shape block (position % shape.blockSize) head d * elemBytes + e, 0)]
  /-- The byte that the gather kernel reads for the block and the flat offset within it. -/
  gather : ∀ (layer : Bytes) (blockIds : ℕ → ℤ) (i : ℕ), blockIds i = block →
    ∀ head < shape.numKvHeads, ∀ d < shape.headDim, ∀ e < elemBytes,
      kvGatherByte shape elemBytes layer blockIds (i * perBlockBytes shape elemBytes +
          (((position % shape.blockSize * shape.numKvHeads + head) * shape.headDim + d) * elemBytes + e)) =
        [(i * perBlockBytes shape elemBytes +
            (((position % shape.blockSize * shape.numKvHeads + head) * shape.headDim + d) * elemBytes + e),
          layer (kvOffset shape block (position % shape.blockSize) head d * elemBytes + e))]
  /-- The elements that the decode kernel reads through a page table with this row. -/
  decode : ∀ (p : DecodeFwdParams 𝕜) (table : ℤ → ℤ) (seq : ℕ),
    ReadsThrough p shape maxBlocks table →
    (∀ column < maxBlocks, table (seq * maxBlocks + column : ℕ) = row column) →
    ∀ head, ∃ kvRow : ℤ,
      p.kvRowPtr (p.kBase seq head) position p.kStride.sS seq = some kvRow ∧
      p.kvRowPtr (p.vBase seq head) position p.vStride.sS seq = some kvRow ∧
      ∀ d : ℕ, (kvRow + d).toNat = kvOffset shape block (position % shape.blockSize) (head / p.group) d

/-- What a gather returns after launches that started from a memory: for ids in the layer the rows
last put into the slots of the block, for the others zeros. -/
def GathersLast (shape : KVCacheShape) (elemBytes : ℕ) (start : Bool × ℕ → UInt8)
    (launches : List KvLaunch)
    (isKey : Bool) (blockIds : ℕ → ℤ) (numBlocks : ℕ) (result : Bytes) : Prop :=
  ∀ i < numBlocks, ∀ offset < shape.blockSize,
    if BlockInLayer shape (blockIds i) then
      LastRow shape elemBytes isKey ((blockIds i).toNat * shape.blockSize + offset)
        (rowOf shape elemBytes (layerOf start isKey) ((blockIds i).toNat * shape.blockSize + offset))
        (rowOf shape elemBytes result (i * shape.blockSize + offset)) launches
    else rowOf shape elemBytes result (i * shape.blockSize + offset) = zeroRow shape elemBytes

/-- The address computations of the cache agree. -/
structure AddressesAgree {𝕜 : Type*} [Field 𝕜] [LinearOrder 𝕜] (num : Numerics 𝕜)
    (env : AttentionEnv 𝕜)
    (shape : KVCacheShape) (elemBytes : ℕ) : Prop where
  bijective : Set.BijOn (fun c : ℕ × ℕ × ℕ × ℕ => kvOffset shape c.1 c.2.1 c.2.2.1 c.2.2.2)
    (coords shape.numBlocks shape.blockSize shape.numKvHeads shape.headDim) (Set.Iio (kvLayerElements shape))
  paths : ∀ row maxBlocks position block, MapsTo shape row maxBlocks position block →
    PathsAgree 𝕜 shape elemBytes row maxBlocks position block
  /-- `RunPaged` launches with such parameters on a cache of the shape, unless the request has
  another block size or head dimension. -/
  requests : ∀ (q : Tensor) (kv : PagedKVCache) (params : PagedAttentionParams) (cfg : AttentionConfig 𝕜)
    (p : DecodeFwdParams 𝕜), pagedRequest num env q kv params cfg = .ok p →
    kv.storage.cfg.toDeviceShape = shape → params.blockSizeFor kv = shape.blockSize →
    q.dim 3 = shape.headDim → ∃ table, ReadsThrough p shape (params.maxBlocksFor kv) table
  gathered : ∀ start launches mem, Executes shape elemBytes start launches mem →
    ∀ isKey blockIds numBlocks, 0 < numBlocks → ∀ (out : Bytes) ws,
      Schedule (numBlocks * perBlockBytes shape elemBytes)
        (kvGatherByte shape elemBytes (layerOf mem isKey) blockIds) ws →
      launchKvGather shape elemBytes (layerOf mem isKey) (some blockIds) numBlocks (some out) .ok =
        (some (Scatter.apply out ws), .ok) ∧
      GathersLast shape elemBytes start launches isKey blockIds numBlocks (Scatter.apply out ws)

section Agreement

variable {shape : KVCacheShape} {elemBytes : ℕ} {row : ℤ → ℤ} {maxBlocks position block : ℕ}

/-- The scatter path. -/
theorem MapsTo.scatter (h : MapsTo shape row maxBlocks position block) (hbs : 0 < shape.blockSize)
    {seqStart : ℤ} {numTokens token : ℕ} {slots : List ℤ} (hposition : seqStart + token = position)
    (htoken : token < numTokens)
    (hslots : computeSlotMapping64 (some row) seqStart numTokens shape.blockSize maxBlocks = .ok slots)
    {head : ℕ} (hhead : head < shape.numKvHeads) {copy : ℕ × ℕ} :
    copy ∈ kvAppendRowCopies shape elemBytes (fun t => slots.getD t 0) (token * shape.numKvHeads + head) ↔
      ∃ d < shape.headDim, ∃ e < elemBytes,
        copy = (((token * shape.numKvHeads + head) * shape.headDim + d) * elemBytes + e,
          kvOffset shape block (position % shape.blockSize) head d * elemBytes + e) := by
  refine mem_kvAppendRowCopies h.block_lt (Nat.mod_lt _ hbs) hhead ?_
  rw [List.getD_eq_getElem?_getD, h.slot_eq hbs hposition htoken hslots, Option.getD_some]

/-- The paged decode path. -/
theorem MapsTo.decode {𝕜 : Type*} (h : MapsTo shape row maxBlocks position block)
    {p : DecodeFwdParams 𝕜}
    {table : ℤ → ℤ} {seq : ℕ} (hp : ReadsThrough p shape maxBlocks table)
    (htable : ∀ column < maxBlocks, table (seq * maxBlocks + column : ℕ) = row column) (head : ℕ) :
    ∃ kvRow : ℤ, p.kvRowPtr (p.kBase seq head) position p.kStride.sS seq = some kvRow ∧
      p.kvRowPtr (p.vBase seq head) position p.vStride.sS seq = some kvRow ∧
      ∀ d : ℕ, (kvRow + d).toNat = kvOffset shape block (position % shape.blockSize)
        (head / p.group) d := by
  have hrow : p.kvRow seq position = (block * shape.blockSize + position % shape.blockSize : ℕ) := by
    rw [DecodeFwdParams.kvRow, hp.pageTable_eq, hp.blockSize_eq, hp.maxBlocks_eq, hp.numKvBlocks_eq]
    exact h.pageTableRow_eq htable
  have hmapped : p.Mapped seq position := fun _ => hrow ▸ Int.natCast_nonneg _
  have hbase : p.vBase seq head = p.kBase seq head := by
    rw [DecodeFwdParams.vBase, DecodeFwdParams.kBase, hp.vStride_eq]
  refine ⟨_, p.kvRowPtr_of_mapped hmapped _ _, ?_, fun d => ?_⟩
  · rw [p.kvRowPtr_of_mapped hmapped, hbase, hp.vStride_eq]
  · refine (congrArg Int.toNat ?_).trans (Int.toNat_natCast _)
    rw [hrow, DecodeFwdParams.kBase, hp.kStride_eq, kvOffset]
    push_cast
    ring

theorem pathsAgree_of_mapsTo {𝕜 : Type*} (hbs : 0 < shape.blockSize)
    (h : MapsTo shape row maxBlocks position block) :
    PathsAgree 𝕜 shape elemBytes row maxBlocks position block where
  scatter := fun _ _ _ _ hposition htoken hslots _ hhead _ => h.scatter hbs hposition htoken hslots hhead
  reset := fun blockIds i hid head hhead d hd e he => by
    have hlt := flat_lt_perBlockBytes (Nat.mod_lt position hbs) hhead hd he
    have hblock := h.block_lt
    simp only [kvResetByte, flat_div i hlt, flat_mod i hlt, hid, Int.toNat_natCast]
    rw [if_neg (by omega), perBlockBytes_add block]
  gather := fun layer blockIds i hid head hhead d hd e he => by
    have hlt := flat_lt_perBlockBytes (Nat.mod_lt position hbs) hhead hd he
    have hblock := h.block_lt
    simp only [kvGatherByte, flat_div i hlt, flat_mod i hlt, hid, Int.toNat_natCast]
    rw [if_neg (by omega), perBlockBytes_add block]
  decode := fun _ _ _ hp htable head => h.decode hp htable head

/-- A gather after launches returns the rows they put last. -/
theorem gathersLast_of_executes {start mem : Bool × ℕ → UInt8} {launches : List KvLaunch}
    (hH : 0 < shape.numKvHeads) (hbs : 0 < shape.blockSize) (h : Executes shape elemBytes start launches mem)
    {isKey : Bool} {blockIds : ℕ → ℤ} {numBlocks : ℕ} {out : Bytes} {ws : List (ℕ × UInt8)}
    (hws : Schedule (numBlocks * perBlockBytes shape elemBytes)
      (kvGatherByte shape elemBytes (layerOf mem isKey) blockIds) ws) :
    GathersLast shape elemBytes start launches isKey blockIds numBlocks (Scatter.apply out ws) := by
  intro i hi offset hoffset
  rw [rowOf_gather hws hi hoffset]
  by_cases hin : BlockInLayer shape (blockIds i)
  · rw [if_pos hin, if_pos hin]
    refine h.lastRow hH hbs ?_
    obtain ⟨h0, hlt⟩ := hin
    rw [flat_div _ hoffset]
    omega
  · rw [if_neg hin, if_neg hin]

end Agreement

/-- The parameters of an accepted request on a cache of the shape. -/
theorem readsThrough_of_pagedRequest {𝕜 : Type*} [Field 𝕜] [LinearOrder 𝕜] {num : Numerics 𝕜}
    {env : AttentionEnv 𝕜} {q : Tensor} {kv : PagedKVCache} {params : PagedAttentionParams}
    {cfg : AttentionConfig 𝕜} {p : DecodeFwdParams 𝕜} {shape : KVCacheShape}
    (hreq : pagedRequest num env q kv params cfg = .ok p) (hshape : kv.storage.cfg.toDeviceShape = shape)
    (hbs : params.blockSizeFor kv = shape.blockSize) (hdim : q.dim 3 = shape.headDim) :
    ∃ table, ReadsThrough p shape (params.maxBlocksFor kv) table := by
  obtain ⟨id, table, out, -, rfl⟩ := pagedRequest_eq_ok.1 hreq
  subst hshape
  refine ⟨table, rfl, hbs, rfl, rfl, ?_, rfl⟩
  simp only [pagedParams, hdim]
  rfl

/-- Every shape with positive fields. -/
theorem kvAddresses_agree {𝕜 : Type*} [Field 𝕜] [LinearOrder 𝕜] (num : Numerics 𝕜)
    (env : AttentionEnv 𝕜)
    (shape : KVCacheShape) (elemBytes : ℕ) (hbs : 0 < shape.blockSize) (hH : 0 < shape.numKvHeads) :
    AddressesAgree num env shape elemBytes where
  bijective := bijOn_flat shape.numBlocks shape.blockSize shape.numKvHeads shape.headDim
  paths := fun _ _ _ _ h => pathsAgree_of_mapsTo hbs h
  requests := fun _ _ _ _ _ hreq hshape hblock hdim => readsThrough_of_pagedRequest hreq hshape hblock hdim
  gathered := fun _ _ _ h _ _ _ hn _ _ hws =>
    ⟨launchKvGather_of_schedule hws hn, gathersLast_of_executes hH hbs h hws⟩

theorem kvAddresses_agree_small : AddressesAgree realNumerics readyEnv ⟨8, 16, 2, 64⟩ 2 :=
  kvAddresses_agree realNumerics readyEnv ⟨8, 16, 2, 64⟩ 2 (by decide) (by decide)

end SciAttention

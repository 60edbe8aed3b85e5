import SciAttention.Attention.NaiveSpec
import SciAttention.Attention.RealNumerics
import SciAttention.Attention.TiledSpec

/-!
# The tiled grid and the naive pipeline

The slots of the threads of all blocks are a rearrangement of the output elements (`gridCells`), so every
element is stored once; what is stored is attention, and so is what the naive pipeline leaves behind.
-/

namespace SciAttention

open Flt Softmax

namespace TiledCta

variable {𝕜 : Type*}

/-! ## The elements of a block -/

/-- The output elements of a slot, by query and dimension. -/
def slotCells (a : TiledCta 𝕜) (slot : ℕ) : List (ℕ × ℕ) :=
  if a.i0 + slot / a.slotsPerRow ≥ a.p.seqQ then []
  else (List.range 4).map fun c => (a.i0 + slot / a.slotsPerRow, slot % a.slotsPerRow * 4 + c)

/-- The output elements of a block, slot by slot of thread by thread. -/
def blockCells (a : TiledCta 𝕜) : List (ℕ × ℕ) :=
  (Strided.threads a.threads a.totalSlots).flatMap a.slotCells

variable {a : TiledCta 𝕜}

theorem mem_slotCells {slot : ℕ} {x : ℕ × ℕ} :
    x ∈ a.slotCells slot ↔ a.i0 + slot / a.slotsPerRow < a.p.seqQ ∧
      ∃ c < 4, x = (a.i0 + slot / a.slotsPerRow, slot % a.slotsPerRow * 4 + c) := by
  unfold slotCells
  split_ifs with h
  · simp only [List.not_mem_nil, false_iff, not_and]
    intro hlt
    omega
  · simp only [List.mem_map, List.mem_range, not_le.mp h, true_and, eq_comm]

/-- The slot of an element of the block. -/
theorem slot_of_mem {slot : ℕ} {x : ℕ × ℕ} (hx : x ∈ a.slotCells slot) :
    (x.1 - a.i0) * a.slotsPerRow + x.2 / 4 = slot := by
  obtain ⟨-, c, hc, rfl⟩ := mem_slotCells.mp hx
  have hdiv : (slot % a.slotsPerRow * 4 + c) / 4 = slot % a.slotsPerRow := Strided.flat_div _ hc
  rw [hdiv, Nat.add_sub_cancel_left, Nat.div_add_mod']

/-- No element of a block is in two slots. -/
theorem nodup_blockCells (hthreads : 0 < a.threads) : a.blockCells.Nodup := by
  refine Strided.nodup_flatMap_of_key (fun x => (x.1 - a.i0) * a.slotsPerRow + x.2 / 4) ?_
    (fun slot _ x hx => slot_of_mem hx) fun slot _ => ?_
  · exact (Strided.threads_perm hthreads _).nodup_iff.mpr List.nodup_range
  · unfold slotCells
    split_ifs
    · exact List.nodup_nil
    · refine List.nodup_range.map fun c c' heq => ?_
      exact Nat.add_left_cancel (Prod.mk.inj heq).2

/-- Every element of the block's rows is in a slot. -/
theorem mem_blockCells (hthreads : 0 < a.threads) (hdvd : 4 ∣ a.headDim) {i d : ℕ} :
    (i, d) ∈ a.blockCells ↔ a.i0 ≤ i ∧ i < a.i0 + a.tile.blockM ∧ i < a.p.seqQ ∧
    d < a.headDim := by
  simp only [blockCells, List.mem_flatMap, (Strided.threads_perm hthreads _).mem_iff, List.mem_range]
  constructor
  · rintro ⟨slot, hslot, hx⟩
    obtain ⟨hrow, c, hc, heq⟩ := mem_slotCells.mp hx
    obtain ⟨rfl, rfl⟩ := Prod.mk.inj heq
    exact ⟨Nat.le_add_right _ _, by have := slotRow_lt hslot; omega, hrow, slotCol_lt hslot hc⟩
  · rintro ⟨hlo, hhi, hrow, hd⟩
    have hdim : a.slotsPerRow * 4 = a.headDim := Nat.div_mul_cancel hdvd
    have hd4 : d / 4 < a.slotsPerRow := by omega
    have hrow' : i - a.i0 < a.tile.blockM := by omega
    refine ⟨(i - a.i0) * a.slotsPerRow + d / 4, Strided.flat_lt hrow' hd4, mem_slotCells.mpr ?_⟩
    rw [Strided.flat_div _ hd4, Strided.flat_mod _ hd4, Nat.add_sub_cancel' hlo]
    exact ⟨hrow, d % 4, Nat.mod_lt d (by decide), by rw [Nat.div_add_mod']⟩

variable [Field 𝕜] [LinearOrder 𝕜] [IsStrictOrderedRing 𝕜] {num : Numerics 𝕜}

/-- The output stores of a block, element by element. -/
theorem stores_fst_eq (hwarps : 0 < a.tile.warps) (hblockN : 0 < a.tile.blockN) :
    (a.stores num).1 = a.blockCells.map fun x =>
      (a.outIndex x.1 x.2, fin ((a.problem num).attention num.E a.batch a.head x.1 x.2)) := by
  rw [blockCells, List.map_flatMap, Strided.threads, List.flatMap_assoc]
  refine Strided.flatMap_congr fun tid htid => Strided.flatMap_congr fun slot hslot => ?_
  obtain ⟨hlt, hmod⟩ := (Strided.mem_loop_of_lt (List.mem_range.mp htid)).mp hslot
  dsimp only
  rw [slotCells]
  by_cases hrow : a.i0 + slot / a.slotsPerRow ≥ a.p.seqQ
  · rw [if_pos hrow, if_pos hrow, List.map_nil]
  · rw [if_neg hrow, if_neg hrow, List.map_map]
    refine List.map_congr_left fun c hc => ?_
    have hvalue := slotValue_eq num hwarps hblockN hlt (List.mem_range.mp hc) (not_le.mp hrow)
    rw [hmod] at hvalue
    simp only [Function.comp_apply, hvalue, Prod.mk.injEq, and_true]
    unfold outBase outIndex
    ring

/-- The LSE stores of a block. -/
theorem mem_stores_snd (hwarps : 0 < a.tile.warps) (hblockN : 0 < a.tile.blockN) {w : ℕ × Flt 𝕜} :
    w ∈ (a.stores num).2 ↔ (a.p.returnLse = true ∧ a.p.lse.isSome) ∧ ∃ row < a.tile.blockM,
      a.i0 + row < a.p.seqQ ∧ w = (a.lseIndex (a.i0 + row),
        ofBot ((a.problem num).lse num.E num.log a.batch a.head (a.i0 + row))) := by
  have hthreads : 0 < a.threads := Nat.mul_pos hwarps (by decide)
  simp only [stores, lseStores]
  split_ifs with hlse
  · simp only [List.mem_flatMap, (Strided.threads_perm hthreads _).mem_iff, List.mem_range, hlse,
      true_and, and_self]
    refine exists_congr fun row => and_congr_right fun hlt => ?_
    by_cases hrow : a.i0 + row ≥ a.p.seqQ
    · simp only [if_pos hrow, List.not_mem_nil, false_iff, not_and]
      intro h
      omega
    · rw [if_neg hrow, rowLseValue_eq hwarps hblockN hlt (not_le.mp hrow), List.mem_singleton]
      exact (and_iff_right (not_le.mp hrow)).symm
  · simp only [List.not_mem_nil, false_iff, not_and]
    exact fun h => absurd h hlse

end TiledCta

/-! ## The grid -/

namespace TiledFwdParams

variable {𝕜 : Type*}

/-- The offset of an output element. -/
def outOffset (p : TiledFwdParams 𝕜) (b h i d : ℕ) : ℕ :=
  b * p.oStride.sB + h * p.oStride.sH + i * p.oStride.sS + d

/-- The offset of a row's log-sum-exp. -/
def lseOffset (p : TiledFwdParams 𝕜) (b h i : ℕ) : ℕ := (b * p.numHeads + h) * p.seqQ + i

/-- The problem behind a launch. -/
def problem [Field 𝕜] [LinearOrder 𝕜] (num : Numerics 𝕜) (p : TiledFwdParams 𝕜)
    (buf : TiledBuffers 𝕜) (elem : DType) (headDim : ℕ) : AttnProblem 𝕜 :=
  .ofMemory num elem buf.q buf.k buf.v p.qStride p.kStride p.vStride
    { batch := p.batch, numHeads := p.numHeads, numKvHeads := p.numKvHeads, seqQ := p.seqQ
      seqKv := p.seqKv, headDim }
    p.scale p.causal p.diagonal

/-- The output elements of a grid, block by block. -/
def gridCells (p : TiledFwdParams 𝕜) (buf : TiledBuffers 𝕜) (elem : DType) (headDim : ℕ)
    (tile : TileCandidate) (gridX gridY gridZ : ℕ) : List (ℕ × ℕ × ℕ × ℕ) :=
  (List.range gridZ).flatMap fun z => (List.range gridY).flatMap fun y =>
    (List.range gridX).flatMap fun x =>
      (p.cta buf elem headDim tile x y z).blockCells.map fun c => (z, y, c.1, c.2)

end TiledFwdParams

section Grid

variable {𝕜 : Type*} {p : TiledFwdParams 𝕜} {buf : TiledBuffers 𝕜} {elem : DType}
  {headDim : ℕ} {tile : TileCandidate} {gridX gridY gridZ : ℕ}

/-- No element is stored twice. -/
theorem nodup_gridCells (hwarps : 0 < tile.warps) :
    (p.gridCells buf elem headDim tile gridX gridY gridZ).Nodup := by
  have hthreads : ∀ x y z, 0 < (p.cta buf elem headDim tile x y z).threads :=
    fun _ _ _ => Nat.mul_pos hwarps (by decide)
  refine Strided.nodup_flatMap_of_key (fun c => c.1) List.nodup_range ?_ fun z _ =>
    Strided.nodup_flatMap_of_key (fun c => c.2.1) List.nodup_range ?_ fun y _ =>
      Strided.nodup_flatMap_of_key (fun c => c.2.2.1 / tile.blockM) List.nodup_range ?_ fun x _ => ?_
  · intro z _ c hc
    simp only [List.mem_flatMap, List.mem_map] at hc
    obtain ⟨-, -, -, -, -, -, rfl⟩ := hc
    rfl
  · intro y _ c hc
    simp only [List.mem_flatMap, List.mem_map] at hc
    obtain ⟨-, -, -, -, rfl⟩ := hc
    rfl
  · intro x _ c hc
    obtain ⟨cell, hcell, rfl⟩ := List.mem_map.mp hc
    obtain ⟨slot, hslot, hmem⟩ := List.mem_flatMap.mp hcell
    rw [(Strided.threads_perm (hthreads x y z) _).mem_iff, List.mem_range] at hslot
    obtain ⟨-, _, -, rfl⟩ := TiledCta.mem_slotCells.mp hmem
    exact Strided.flat_div x (TiledCta.slotRow_lt hslot)
  · refine (TiledCta.nodup_blockCells (hthreads x y z)).map fun c c' heq => ?_
    simpa [Prod.ext_iff] using heq

/-- Every element is stored. -/
theorem mem_gridCells (hM : 0 < tile.blockM) (hwarps : 0 < tile.warps) (hdvd : 4 ∣ headDim)
    {b h i d : ℕ} :
    (b, h, i, d) ∈ p.gridCells buf elem headDim tile (tiledGridX p tile) gridY gridZ ↔
      b < gridZ ∧ h < gridY ∧ i < p.seqQ ∧ d < headDim := by
  have hthreads : ∀ x y z, 0 < (p.cta buf elem headDim tile x y z).threads :=
    fun _ _ _ => Nat.mul_pos hwarps (by decide)
  simp only [TiledFwdParams.gridCells, List.mem_flatMap, List.mem_map, List.mem_range, Prod.mk.injEq]
  constructor
  · rintro ⟨z, hz, y, hy, x, hx, cell, hcell, rfl, rfl, rfl, rfl⟩
    obtain ⟨-, -, hi, hd⟩ := (TiledCta.mem_blockCells (hthreads x y z) hdvd).mp hcell
    exact ⟨hz, hy, hi, hd⟩
  · rintro ⟨hb, hh, hi, hd⟩
    have hlo := Nat.div_mul_le_self i tile.blockM
    have hhi := Nat.lt_div_mul_add (a := i) hM
    refine ⟨b, hb, h, hh, i / tile.blockM, ?_, (i, d), ?_, rfl, rfl, rfl, rfl⟩
    · rw [tiledGridX, Nat.lt_div_iff_mul_lt hM]
      omega
    · exact (TiledCta.mem_blockCells (hthreads _ h b) hdvd).mpr ⟨hlo, hhi, hi, hd⟩

/-- The output is laid out as `[B, H_q, S_q, D]`, so an element has one address. -/
theorem outOffset_injOn (ho : p.oStride = stridesFor .bhsd p.seqQ p.numHeads headDim)
    {b b' h h' i i' d d' : ℕ} (hh : h < p.numHeads) (hh' : h' < p.numHeads) (hi : i < p.seqQ)
    (hi' : i' < p.seqQ) (hd : d < headDim) (hd' : d' < headDim)
    (heq : p.outOffset b h i d = p.outOffset b' h' i' d') : (b, h, i, d) = (b', h', i', d') := by
  have hflat : ∀ b h i d, p.outOffset b h i d = ((b * p.numHeads + h) * p.seqQ + i) * headDim + d := by
    intro b h i d
    rw [TiledFwdParams.outOffset, ho, stridesFor]
    ring
  rw [hflat, hflat] at heq
  obtain ⟨hrow, rfl⟩ := Strided.mul_add_inj hd hd' heq
  obtain ⟨hhead, rfl⟩ := Strided.mul_add_inj hi hi' hrow
  obtain ⟨rfl, rfl⟩ := Strided.mul_add_inj hh hh' hhead
  rfl

variable [Field 𝕜] [LinearOrder 𝕜] [IsStrictOrderedRing 𝕜] {num : Numerics 𝕜}

/-- The output stores of a grid, element by element. -/
theorem tiledGridStores_fst_eq (hN : 0 < tile.blockN) (hwarps : 0 < tile.warps) :
    (tiledGridStores num p buf elem headDim tile gridX gridY gridZ).1 =
      (p.gridCells buf elem headDim tile gridX gridY gridZ).map fun c =>
        (p.outOffset c.1 c.2.1 c.2.2.1 c.2.2.2,
          fin ((p.problem num buf elem headDim).attention num.E c.1 c.2.1 c.2.2.1 c.2.2.2)) := by
  simp only [tiledGridStores, TiledFwdParams.gridCells, List.map_flatMap, List.flatMap_assoc,
    List.flatMap_map, List.map_map]
  refine Strided.flatMap_congr fun z _ => Strided.flatMap_congr fun y _ =>
    Strided.flatMap_congr fun x _ => ?_
  exact TiledCta.stores_fst_eq hwarps hN

variable (num buf elem) in
/-- The output after the grid. -/
theorem tiledGrid_out (hM : 0 < tile.blockM) (hN : 0 < tile.blockN) (hwarps : 0 < tile.warps)
    (hdvd : 4 ∣ headDim) (ho : p.oStride = stridesFor .bhsd p.seqQ p.numHeads headDim)
    {b h i d : ℕ} (hb : b < p.batch) (hh : h < p.numHeads) (hi : i < p.seqQ) (hd : d < headDim) :
    let stores :=
      (tiledGridStores num p buf elem headDim tile (tiledGridX p tile) p.numHeads p.batch).1
    (stores.map Prod.fst).count (p.outOffset b h i d) = 1 ∧
      Scatter.apply buf.out stores (p.outOffset b h i d) =
        fin ((p.problem num buf elem headDim).attention num.E b h i d) := by
  set cells := p.gridCells buf elem headDim tile (tiledGridX p tile) p.numHeads p.batch with hcells
  have hmem : (b, h, i, d) ∈ cells := (mem_gridCells hM hwarps hdvd).mpr ⟨hb, hh, hi, hd⟩
  have hinj : ∀ c ∈ cells, ∀ c' ∈ cells, p.outOffset c.1 c.2.1 c.2.2.1 c.2.2.2 =
      p.outOffset c'.1 c'.2.1 c'.2.2.1 c'.2.2.2 → c = c' := by
    rintro ⟨b, h, i, d⟩ hc ⟨b', h', i', d'⟩ hc' heq
    obtain ⟨-, hh, hi, hd⟩ := (mem_gridCells hM hwarps hdvd).mp hc
    obtain ⟨-, hh', hi', hd'⟩ := (mem_gridCells hM hwarps hdvd).mp hc'
    exact outOffset_injOn ho hh hh' hi hi' hd hd' heq
  simp only [tiledGridStores_fst_eq hN hwarps, ← hcells, List.map_map]
  constructor
  · refine List.count_eq_one_of_mem ((nodup_gridCells hwarps).map_on hinj) ?_
    exact List.mem_map.mpr ⟨_, hmem, rfl⟩
  · refine Scatter.apply_map_of_mem (f := fun c : ℕ × ℕ × ℕ × ℕ =>
      p.outOffset c.1 c.2.1 c.2.2.1 c.2.2.2) hmem fun c hc heq => ?_
    rw [hinj c hc _ hmem heq]

/-- The LSE buffer after the grid. -/
theorem tiledGrid_lse (hM : 0 < tile.blockM) (hN : 0 < tile.blockN) (hwarps : 0 < tile.warps)
    (hlse : p.returnLse = true ∧ p.lse.isSome) (mem : ℕ → Flt 𝕜) {b h i : ℕ} (hb : b < p.batch)
    (hh : h < p.numHeads) (hi : i < p.seqQ) :
    Scatter.apply mem
        (tiledGridStores num p buf elem headDim tile (tiledGridX p tile) p.numHeads p.batch).2
        (p.lseOffset b h i) =
      ofBot ((p.problem num buf elem headDim).lse num.E num.log b h i) := by
  have hstores : ∀ {w}, w ∈ (tiledGridStores num p buf elem headDim tile (tiledGridX p tile)
      p.numHeads p.batch).2 ↔ ∃ z < p.batch, ∃ y < p.numHeads, ∃ x < tiledGridX p tile,
        w ∈ ((p.cta buf elem headDim tile x y z).stores num).2 := by
    intro w
    simp only [tiledGridStores, List.mem_flatMap, List.mem_map, List.mem_range]
    constructor
    · rintro ⟨_, ⟨z, hz, y, hy, x, hx, rfl⟩, hw⟩
      exact ⟨z, hz, y, hy, x, hx, hw⟩
    · rintro ⟨z, hz, y, hy, x, hx, hw⟩
      exact ⟨_, ⟨z, hz, y, hy, x, hx, rfl⟩, hw⟩
  have hlo := Nat.div_mul_le_self i tile.blockM
  have hhi := Nat.lt_div_mul_add (a := i) hM
  -- row `i` belongs to one block, and no other stores its entry
  refine Scatter.apply_of_agree (hstores.mpr ⟨b, hb, h, hh, i / tile.blockM, ?_,
    (TiledCta.mem_stores_snd hwarps hN).mpr ⟨hlse, i - i / tile.blockM * tile.blockM, ?_, ?_, ?_⟩⟩)
    fun w hw haddr => ?_
  · rw [tiledGridX, Nat.lt_div_iff_mul_lt hM]
    omega
  · change i - i / tile.blockM * tile.blockM < tile.blockM
    omega
  · change i / tile.blockM * tile.blockM + (i - i / tile.blockM * tile.blockM) < p.seqQ
    omega
  · have hrow : (p.cta buf elem headDim tile (i / tile.blockM) h b).i0 +
        (i - i / tile.blockM * tile.blockM) = i := Nat.add_sub_cancel' hlo
    rw [hrow]
    rfl
  · obtain ⟨z, -, y, hy, x, -, hw⟩ := hstores.mp hw
    obtain ⟨-, row, -, hrow, rfl⟩ := (TiledCta.mem_stores_snd hwarps hN).mp hw
    obtain ⟨hhead, hi'⟩ := Strided.mul_add_inj hrow hi haddr
    obtain ⟨hz, hy'⟩ := Strided.mul_add_inj hy hh hhead
    rw [hi', hz, hy']
    rfl

/-! ## Tiled and naive -/

/-- The naive kernels' parameters for the same request. -/
def TiledFwdParams.toNaive (p : TiledFwdParams 𝕜) (scores : Option (ℕ → Flt 𝕜)) :
    NaiveFwdParams 𝕜 :=
  { q := p.q, k := p.k, v := p.v, out := p.out, scores, batch := p.batch, numHeads := p.numHeads
    numKvHeads := p.numKvHeads, seqQ := p.seqQ, seqKv := p.seqKv, headDim := p.headDim
    qStride := p.qStride, kStride := p.kStride, vStride := p.vStride, oStride := p.oStride
    scale := p.scale, causal := p.causal, returnLse := p.returnLse, diagonal := p.diagonal
    lse := p.lse, dtype := p.dtype }

end Grid

/-- Two queries over three keys under the causal mask, in blocks of one query and one key. -/
noncomputable def alignedParams : TiledFwdParams ℝ where
  q := none
  k := none
  v := none
  out := none
  lse := some fun _ => 0
  batch := 1
  numHeads := 1
  numKvHeads := 1
  seqQ := 2
  seqKv := 3
  headDim := 32
  qStride := stridesFor .bhsd 2 1 32
  kStride := stridesFor .bhsd 3 1 32
  vStride := stridesFor .bhsd 3 1 32
  oStride := stridesFor .bhsd 2 1 32
  scale := 1
  causal := true
  returnLse := true
  diagonal := 1
  dtype := .fp16

end SciAttention

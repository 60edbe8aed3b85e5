import SciAttention.Attention.Addressing
import SciAttention.Attention.FlashForward
import SciAttention.Attention.SplitK
import SciAttention.Attention.TiledForward

/-!
# What the dense kernels read

The elements of the queries, keys and values that the naive, tiled, flash and decode kernels load, in the
kernels' own loops. A read has the logical coordinates of the element that the kernel means and the index
that it computes for it. Every index is that of the coordinates under the strides of the launch, the
coordinates lie in the shape of the launch, and the first two tokens of every kv head are among the reads.
-/

namespace SciAttention

/-- An operand of attention. -/
inductive Operand where
  | q | k | v
deriving DecidableEq, Repr

/-- A read: the element that a kernel means, and the index it computes. -/
structure Read where
  operand : Operand
  b : ℕ
  h : ℕ
  t : ℕ
  d : ℕ
  index : ℕ
deriving DecidableEq, Repr

/-- The heads of an operand. -/
def AttentionShape.headsOf (shape : AttentionShape) : Operand → ℕ
  | .q => shape.numHeads
  | _ => shape.numKvHeads

/-- The tokens of an operand. -/
def AttentionShape.seqOf (shape : AttentionShape) : Operand → ℕ
  | .q => shape.seqQ
  | _ => shape.seqKv

/-- The read of an element through strides. -/
def readAt (strides : Operand → Strides) (x : Operand) (b h t d : ℕ) : Read :=
  ⟨x, b, h, t, d, b * (strides x).sB + h * (strides x).sH + t * (strides x).sS + d⟩

/-- The reads of a launch: within the shape and through the strides, with all coordinates of the first two
tokens of the keys. -/
structure ReadsShape (reads : List Read) (shape : AttentionShape) (strides : Operand → Strides) : Prop where
  within : ∀ r ∈ reads, ∃ x, ∃ b < shape.batch, ∃ h < shape.headsOf x, ∃ t < shape.seqOf x,
    ∃ d < shape.headDim, r = readAt strides x b h t d
  keys : ∀ b < shape.batch, ∀ h < shape.numKvHeads, ∀ t < shape.seqKv, t < 2 →
    ∀ d < shape.headDim, readAt strides .k b h t d ∈ reads

/-- The first query head of a kv head. -/
theorem ValidShape.exists_head {shape : AttentionShape} (hvalid : ValidShape shape) {h : ℕ}
    (hh : h < shape.numKvHeads) :
    ∃ head < shape.numHeads, head / (shape.numHeads / shape.numKvHeads) = h := by
  have hpos : 0 < shape.numHeads / shape.numKvHeads :=
    Nat.div_pos (Nat.le_of_dvd hvalid.numHeads_pos hvalid.group_dvd) hvalid.numKvHeads_pos
  refine ⟨h * (shape.numHeads / shape.numKvHeads), ?_, Nat.mul_div_cancel _ hpos⟩
  calc h * (shape.numHeads / shape.numKvHeads)
      < shape.numKvHeads * (shape.numHeads / shape.numKvHeads) := (Nat.mul_lt_mul_right hpos).mpr hh
    _ = shape.numHeads := Nat.mul_div_cancel' hvalid.group_dvd

variable {𝕜 : Type*}

/-! ## Naive -/

section Naive

variable (p : NaiveFwdParams 𝕜)

/-- The reads of `naive_qk_scale_mask_kernel` for index `idx`. -/
def naiveQkReads (idx : ℕ) : List Read :=
  let j := idx % p.seqKv
  let i := p.iOf p.seqKv idx
  let h := p.hOf p.seqKv idx
  let b := p.bOf p.seqKv idx
  (List.range p.headDim).flatMap fun d =>
    [⟨.q, b, h, i, d, p.qRow b h i + d⟩, ⟨.k, b, h / p.group, j, d, p.kRow b h j + d⟩]

/-- The reads of `naive_pv_kernel` for output index `idx`. -/
def naivePvReads (idx : ℕ) : List Read :=
  let d := idx % p.headDim
  let h := p.hOf p.headDim idx
  let b := p.bOf p.headDim idx
  (List.range p.seqKv).map fun j =>
    ⟨.v, b, h / p.group, j, d, p.vCol b h d + j * p.vStride.sS⟩

/-- The reads of the naive kernels. -/
def naiveReads : List Read :=
  let qk := p.batch * p.numHeads * p.seqQ * p.seqKv
  let pv := p.batch * p.numHeads * p.seqQ * p.headDim
  (Strided.gridStride (naiveBlocks qk) naiveThreads qk).flatMap (naiveQkReads p) ++
    (Strided.gridStride (naiveBlocks pv) naiveThreads pv).flatMap (naivePvReads p)

/-- The strides of a naive launch. -/
def NaiveFwdParams.strides : Operand → Strides
  | .q => p.qStride
  | .k => p.kStride
  | .v => p.vStride

/-- The coordinates of a flat index over rows of the given width. -/
theorem NaiveFwdParams.coords_lt {width idx : ℕ} (h : idx < p.batch * p.numHeads * p.seqQ * width) :
    p.bOf width idx < p.batch ∧ p.hOf width idx < p.numHeads ∧ p.iOf width idx < p.seqQ ∧
      idx % width < width := by
  obtain ⟨⟨b, head, i, x⟩, ⟨hb, hh, hi, hx⟩, rfl⟩ := (bijOn_flat _ _ _ _).surjOn h
  obtain ⟨hiOf, hhOf, hbOf⟩ := p.coords_flat (b := b) hh hi hx
  simp only at hiOf hhOf hbOf ⊢
  rw [hiOf, hhOf, hbOf]
  exact ⟨hb, hh, hi, Nat.mod_lt _ (Nat.zero_lt_of_lt hx)⟩

theorem naiveReads_shape (hvalid : ValidShape p.shape) : ReadsShape (naiveReads p) p.shape p.strides := by
  refine ⟨fun r hr => ?_, fun b hb h hh t ht _ d hd => ?_⟩
  · -- every read has the coordinates of its index
    simp only [naiveReads, List.mem_append, List.mem_flatMap,
      Strided.mem_gridStride (naiveBlocks_pos _)] at hr
    rcases hr with ⟨idx, hidx, hr⟩ | ⟨idx, hidx, hr⟩
    · obtain ⟨hb, hh, hi, hj⟩ := p.coords_lt hidx
      simp only [naiveQkReads, List.mem_flatMap, List.mem_range, List.mem_cons, List.not_mem_nil,
        or_false] at hr
      obtain ⟨d, hd, rfl | rfl⟩ := hr
      · exact ⟨.q, _, hb, _, hh, _, hi, d, hd, rfl⟩
      · exact ⟨.k, _, hb, _, hvalid.kvHead_lt hh, _, hj, d, hd, rfl⟩
    · obtain ⟨hb, hh, -, hd⟩ := p.coords_lt hidx
      simp only [naivePvReads, List.mem_map, List.mem_range] at hr
      obtain ⟨j, hj, rfl⟩ := hr
      refine ⟨.v, _, hb, _, hvalid.kvHead_lt hh, j, hj, _, hd, ?_⟩
      simp only [readAt, NaiveFwdParams.vCol, NaiveFwdParams.strides, NaiveFwdParams.group,
        NaiveFwdParams.shape, Read.mk.injEq, true_and]
      omega
  · -- the first row of any query head of the group reads the key
    obtain ⟨head, hhead, rfl⟩ := hvalid.exists_head hh
    have hi : 0 < p.seqQ := hvalid.seqQ_pos
    have ht' : t < p.seqKv := ht
    obtain ⟨hiOf, hhOf, hbOf⟩ := p.coords_flat (b := b) hhead hi ht'
    refine List.mem_append_left _ (List.mem_flatMap.mpr
      ⟨((b * p.numHeads + head) * p.seqQ + 0) * p.seqKv + t, ?_, ?_⟩)
    · exact (Strided.mem_gridStride (naiveBlocks_pos _)).mpr
        (Strided.flat_lt (Strided.flat_lt (Strided.flat_lt hb hhead) hi) ht)
    · refine List.mem_flatMap.mpr ⟨d, List.mem_range.mpr hd, ?_⟩
      rw [hiOf, hhOf, hbOf, Strided.flat_mod _ ht']
      exact List.mem_cons_of_mem _ (List.mem_singleton.mpr rfl)

end Naive

/-! ## Rows of a tile -/

/-- The reads of a loop of threads over rows of `headDim` elements, without the rows behind the tensor. -/
def rowReads (threads rows headDim first len : ℕ) (read : ℕ → ℕ → Read) : List Read :=
  ((Strided.threads threads (rows * headDim)).filter fun idx => decide (first + idx / headDim < len)).map
    fun idx => read (idx / headDim) (idx % headDim)

theorem mem_rowReads {threads rows headDim first len : ℕ} {read : ℕ → ℕ → Read}
    (hthreads : 0 < threads)
    {r : Read} : r ∈ rowReads threads rows headDim first len read ↔
      ∃ row < rows, ∃ col < headDim, first + row < len ∧ r = read row col := by
  simp only [rowReads, List.mem_map, List.mem_filter, (Strided.threads_perm hthreads _).mem_iff,
    List.mem_range, decide_eq_true_iff]
  constructor
  · rintro ⟨idx, ⟨hidx, hlen⟩, rfl⟩
    have hpos : 0 < headDim := Nat.pos_of_mul_pos_left (Nat.zero_lt_of_lt hidx)
    exact ⟨idx / headDim, (Nat.div_lt_iff_lt_mul hpos).mpr hidx, idx % headDim, Nat.mod_lt _ hpos,
      hlen, rfl⟩
  · rintro ⟨row, hrow, col, hcol, hlen, rfl⟩
    refine ⟨row * headDim + col, ⟨Strided.flat_lt hrow hcol, ?_⟩, ?_⟩ <;> rw [Strided.flat_div _ hcol]
    · exact hlen
    · rw [Strided.flat_mod _ hcol]

/-- The blocks of a grid. -/
def gridReads (gridX gridY gridZ : ℕ) (block : ℕ → ℕ → ℕ → List Read) : List Read :=
  (List.range gridZ).flatMap fun z => (List.range gridY).flatMap fun y =>
    (List.range gridX).flatMap fun x => block x y z

theorem mem_gridReads {gridX gridY gridZ : ℕ} {block : ℕ → ℕ → ℕ → List Read} {r : Read} :
    r ∈ gridReads gridX gridY gridZ block ↔
      ∃ z < gridZ, ∃ y < gridY, ∃ x < gridX, r ∈ block x y z := by
  simp only [gridReads, List.mem_flatMap, List.mem_range]

/-! ## Tiled -/

section Tiled

namespace TiledCta

variable (a : TiledCta 𝕜)

/-- The reads of the Q tile. -/
def qReads : List Read :=
  rowReads a.threads a.tile.blockM a.headDim a.i0 a.p.seqQ fun row col =>
    ⟨.q, a.batch, a.head, a.i0 + row, col, a.qBase + (row * a.p.qStride.sS + col)⟩

/-- The reads of a K or V tile. -/
def kvReads (x : Operand) (base tokenStride jBase : ℕ) : List Read :=
  rowReads a.threads a.tile.blockN a.headDim jBase a.p.seqKv fun row col =>
    ⟨x, a.batch, a.hKv, jBase + row, col, base + ((jBase + row) * tokenStride + col)⟩

/-- The reads of one block of `tiled_attn_kernel`. -/
def reads : List Read :=
  a.qReads ++ a.tilesVisited.flatMap fun j0 =>
    a.kvReads .k a.kBase a.p.kStride.sS (j0 * a.tile.blockN) ++
      a.kvReads .v a.vBase a.p.vStride.sS (j0 * a.tile.blockN)

/-- The first tile is visited where the diagonal leaves the first key visible. -/
theorem zero_mem_tilesVisited (hN : 0 < a.tile.blockN) (hM : 0 < a.tile.blockM) (hkv : 0 < a.p.seqKv)
    (hdiag : a.p.causal = true → 0 ≤ a.p.diagonal) : 0 ∈ a.tilesVisited := by
  obtain ⟨m, -, hrange, hstop⟩ := Strided.takeWhile_range (fun j0 => !(a.p.causal &&
    decide ((j0 * a.tile.blockN : ℕ) > (a.i0 : ℤ) + a.tile.blockM - 1 + a.p.diagonal))) a.jTiles
  rw [tilesVisited, hrange, List.mem_range]
  refine Nat.pos_of_ne_zero ?_
  rintro rfl
  rcases hstop with hzero | hmasked
  · have hpos : 0 < a.jTiles := Nat.div_pos (by omega) hN
    omega
  · rw [Bool.not_eq_false', Bool.and_eq_true, decide_eq_true_iff] at hmasked
    have := hdiag hmasked.1
    omega

end TiledCta

variable (p : TiledFwdParams 𝕜)

/-- The shape of a tiled launch. -/
def TiledFwdParams.shape : AttentionShape :=
  { batch := p.batch, seqQ := p.seqQ, seqKv := p.seqKv, numHeads := p.numHeads
    numKvHeads := p.numKvHeads, headDim := p.headDim }

/-- The strides of a tiled launch. -/
def TiledFwdParams.strides : Operand → Strides
  | .q => p.qStride
  | .k => p.kStride
  | .v => p.vStride

variable (buf : TiledBuffers 𝕜) (elem : DType) (tile : TileCandidate)

/-- The reads of a tiled grid. -/
def tiledReads (gridX gridY gridZ : ℕ) : List Read :=
  gridReads gridX gridY gridZ fun x y z => (p.cta buf elem p.headDim tile x y z).reads

theorem tiledReads_shape (hvalid : ValidShape p.shape) (hM : 0 < tile.blockM) (hN : 2 ≤ tile.blockN)
    (hwarps : 0 < tile.warps) (hdiag : p.causal = true → 0 ≤ p.diagonal) :
    ReadsShape (tiledReads p buf elem tile (tiledGridX p tile) p.numHeads p.batch) p.shape p.strides := by
  have hthreads : ∀ {x y z}, 0 < (p.cta buf elem p.headDim tile x y z).threads := by
    intro x y z
    exact Nat.mul_pos hwarps (by decide)
  refine ⟨fun r hr => ?_, fun b hb h hh t ht htwo d hd => ?_⟩
  · obtain ⟨z, hz, y, hy, x, -, hr⟩ := mem_gridReads.mp hr
    simp only [TiledCta.reads, List.mem_append, List.mem_flatMap, TiledCta.qReads, TiledCta.kvReads,
      mem_rowReads hthreads] at hr
    rcases hr with ⟨row, -, col, hcol, hrow, rfl⟩ | ⟨j0, -, ⟨row, -, col, hcol, hrow, rfl⟩ |
      ⟨row, -, col, hcol, hrow, rfl⟩⟩
    · refine ⟨.q, z, hz, y, hy, _, hrow, col, hcol, ?_⟩
      simp only [readAt, TiledCta.qBase, TiledCta.i0, TiledFwdParams.strides, TiledFwdParams.cta,
        Read.mk.injEq, true_and]
      ring
    · refine ⟨.k, z, hz, _, hvalid.kvHead_lt hy, _, hrow, col, hcol, ?_⟩
      simp only [readAt, Read.mk.injEq, true_and]
      exact ⟨rfl, rfl, (Nat.add_assoc _ _ _).symm⟩
    · refine ⟨.v, z, hz, _, hvalid.kvHead_lt hy, _, hrow, col, hcol, ?_⟩
      simp only [readAt, Read.mk.injEq, true_and]
      exact ⟨rfl, rfl, (Nat.add_assoc _ _ _).symm⟩
  · -- the first block of rows visits the first tile, whatever the mask
    obtain ⟨head, hhead, rfl⟩ := hvalid.exists_head hh
    have hgrid : 0 < tiledGridX p tile :=
      Nat.div_pos (by have := hvalid.seqQ_pos; simp only [TiledFwdParams.shape] at this; omega) hM
    refine mem_gridReads.mpr ⟨b, hb, head, hhead, 0, hgrid, List.mem_append_right _ (List.mem_flatMap.mpr
      ⟨0, TiledCta.zero_mem_tilesVisited _ (by exact Nat.lt_of_lt_of_le (by decide) hN) hM
        hvalid.seqKv_pos hdiag, List.mem_append_left _ ?_⟩)⟩
    refine (mem_rowReads hthreads).mpr ⟨t, htwo.trans_le hN, d, hd, ?_, ?_⟩
    · rwa [Nat.zero_mul, Nat.zero_add]
    · simp only [readAt, Read.mk.injEq, Nat.zero_mul, Nat.zero_add, true_and]
      exact ⟨rfl, rfl, Nat.add_assoc _ _ _⟩

end Tiled

/-! ## Flash -/

section Flash

namespace FlashCta

variable (a : FlashCta 𝕜)

/-- The reads of the Q tile. -/
def qReads : List Read :=
  rowReads a.threads a.tile.blockM a.headDim a.i0 a.p.seqQ fun row col =>
    ⟨.q, a.batch, a.head, a.i0 + row, col, a.qRow0 + (row * a.p.qStride.sS + col)⟩

/-- The reads of `FlashLoadTile`. -/
def tileReads (x : Operand) (gmemRow0 gmemRowStride jBase : ℕ) : List Read :=
  (a.tileChunks jBase true).flatMap fun idx => (List.range a.elemsPerChunk).map fun e =>
    ⟨x, a.batch, a.hKv, jBase + idx / a.chunksPerRow, idx % a.chunksPerRow * a.elemsPerChunk + e,
      gmemRow0 + (jBase + idx / a.chunksPerRow) * gmemRowStride +
        idx % a.chunksPerRow * a.elemsPerChunk + e⟩

/-- The K/V tiles that are loaded, by the prologue and by the iterations of the main loop. -/
def tilesIssued : List ℕ :=
  ((List.range (a.tile.stages - 1)).takeWhile fun s => decide (s < a.jTiles)) ++
    (a.tilesVisited.map fun jIdx => jIdx + a.tile.stages - 1).filter fun t => decide (t < a.jTiles)

/-- The reads of one block of `flash_fwd_kernel`. -/
def reads : List Read :=
  a.qReads ++ a.tilesIssued.flatMap fun t =>
    a.tileReads .k a.kRow0 a.p.kStride.sS (t * a.tile.blockN) ++
      a.tileReads .v a.vRow0 a.p.vStride.sS (t * a.tile.blockN)

variable {a}

theorem mem_tileReads (h : a.Compiles) (hthreads : 0 < a.threads) {x : Operand}
    {gmemRow0 gmemRowStride jBase : ℕ} {r : Read} : r ∈ a.tileReads x gmemRow0 gmemRowStride jBase ↔
      ∃ row < a.tile.blockN, ∃ col < a.headDim, jBase + row < a.p.seqKv ∧
        r = ⟨x, a.batch, a.hKv, jBase + row, col, gmemRow0 + (jBase + row) * gmemRowStride + col⟩ := by
  have hchunk := exists_chunk h hthreads jBase true (P := fun row col =>
    r = ⟨x, a.batch, a.hKv, jBase + row, col, gmemRow0 + (jBase + row) * gmemRowStride + col⟩)
  simp only [decide_eq_true_iff] at hchunk
  rw [← hchunk]
  simp only [tileReads, List.mem_flatMap, List.mem_map, List.mem_range, Nat.add_assoc, eq_comm (b := r)]

/-- The prologue loads the first tile. -/
theorem zero_mem_tilesIssued (hstages : 2 ≤ a.tile.stages) (hN : 0 < a.tile.blockN) (hkv : 0 < a.p.seqKv) :
    0 ∈ a.tilesIssued := by
  refine List.mem_append_left _ ?_
  obtain ⟨m, -, hrange, hstop⟩ :=
    Strided.takeWhile_range (fun s => decide (s < a.jTiles)) (a.tile.stages - 1)
  rw [hrange, List.mem_range]
  refine Nat.pos_of_ne_zero ?_
  rintro rfl
  have hpos : 0 < a.jTiles := Nat.div_pos (by omega) hN
  rcases hstop with hzero | hstop
  · omega
  · exact absurd hpos (of_decide_eq_false hstop)

end FlashCta

variable (p : FlashFwdParams 𝕜)

/-- The shape of a flash launch. -/
def FlashFwdParams.shape : AttentionShape :=
  { batch := p.batch, seqQ := p.seqQ, seqKv := p.seqKv, numHeads := p.numHeads
    numKvHeads := p.numKvHeads, headDim := p.headDim }

/-- The strides of a flash launch. -/
def FlashFwdParams.strides : Operand → Strides
  | .q => p.qStride
  | .k => p.kStride
  | .v => p.vStride

variable (buf : FlashBuffers 𝕜) (elem : DType) (tile : FlashTile)

/-- The reads of a flash grid. -/
def flashReads (gridX gridY gridZ : ℕ) : List Read :=
  gridReads gridX gridY gridZ fun x y z => (p.cta buf elem p.headDim tile x y z).reads

theorem flashReads_shape (hvalid : ValidShape p.shape) (hc : tile.Compiles elem p.headDim)
    (hM : 0 < tile.blockM) (hdvd : 16 ∣ tile.blockM) :
    ReadsShape (flashReads p buf elem tile (flashGridX p tile) p.numHeads p.batch) p.shape p.strides := by
  have hthreads : ∀ {x y z}, 0 < (p.cta buf elem p.headDim tile x y z).threads := by
    intro x y z
    have hwarps : 0 < tile.blockM / 16 := Nat.div_pos (Nat.le_of_dvd hM hdvd) (by decide)
    exact Nat.mul_pos (Nat.mul_pos hwarps hc.splitsD_pos) (by decide)
  have hcta : ∀ x y z, (p.cta buf elem p.headDim tile x y z).Compiles := fun _ _ _ => hc
  refine ⟨fun r hr => ?_, fun b hb h hh t ht htwo d hd => ?_⟩
  · obtain ⟨z, hz, y, hy, x, -, hr⟩ := mem_gridReads.mp hr
    simp only [FlashCta.reads, List.mem_append, List.mem_flatMap, FlashCta.qReads, mem_rowReads hthreads,
      FlashCta.mem_tileReads (hcta x y z) hthreads] at hr
    rcases hr with ⟨row, -, col, hcol, hrow, rfl⟩ | ⟨j0, -, ⟨row, -, col, hcol, hrow, rfl⟩ |
      ⟨row, -, col, hcol, hrow, rfl⟩⟩
    · refine ⟨.q, z, hz, y, hy, _, hrow, col, hcol, ?_⟩
      simp only [readAt, FlashCta.qRow0, FlashCta.i0, FlashFwdParams.strides, FlashFwdParams.cta,
        Read.mk.injEq, true_and]
      ring
    · exact ⟨.k, z, hz, _, hvalid.kvHead_lt hy, _, hrow, col, hcol, rfl⟩
    · exact ⟨.v, z, hz, _, hvalid.kvHead_lt hy, _, hrow, col, hcol, rfl⟩
  · -- the prologue of the first block of rows loads the first tile
    obtain ⟨head, hhead, rfl⟩ := hvalid.exists_head hh
    have hN : 16 ≤ tile.blockN := Nat.le_of_dvd hc.blockN_pos hc.blockN_dvd
    have hgrid : 0 < flashGridX p tile :=
      Nat.div_pos (by have := hvalid.seqQ_pos; simp only [FlashFwdParams.shape] at this; omega) hM
    refine mem_gridReads.mpr ⟨b, hb, head, hhead, 0, hgrid, List.mem_append_right _ (List.mem_flatMap.mpr
      ⟨0, FlashCta.zero_mem_tilesIssued hc.stages_ge hc.blockN_pos hvalid.seqKv_pos,
        List.mem_append_left _ ?_⟩)⟩
    refine (FlashCta.mem_tileReads (hcta 0 head b) hthreads).mpr
      ⟨t, show t < tile.blockN by omega, d, hd, ?_, ?_⟩
    · rwa [Nat.zero_mul, Nat.zero_add]
    · simp only [readAt, Read.mk.injEq, Nat.zero_mul, Nat.zero_add, true_and]
      exact ⟨rfl, rfl, rfl⟩

end Flash

/-! ## Decode -/

section Decode

variable (p : DecodeFwdParams 𝕜)

namespace DecodeFwdParams

/-- The reads of the lanes of a warp, each its slice of the head dimension. -/
def laneReads (read : ℕ → Read) : List Read :=
  (List.range 32).flatMap fun lane => (List.range p.laneElems).map fun i => read (lane * p.laneElems + i)

theorem mem_laneReads (hdim : 32 ∣ p.headDim) {read : ℕ → Read} {r : Read} :
    r ∈ p.laneReads read ↔ ∃ d < p.headDim, r = read d := by
  simp only [laneReads, List.mem_flatMap, List.mem_map, List.mem_range]
  constructor
  · rintro ⟨lane, hlane, i, hi, rfl⟩
    exact ⟨_, p.lane_lt hlane hi, rfl⟩
  · rintro ⟨d, hd, rfl⟩
    have heq : 32 * p.laneElems = p.headDim := Nat.mul_div_cancel' hdim
    have hpos : 0 < p.laneElems := by omega
    refine ⟨d / p.laneElems, ?_, d % p.laneElems, Nat.mod_lt _ hpos, ?_⟩
    · rwa [Nat.div_lt_iff_lt_mul hpos, heq]
    · rw [Nat.div_add_mod']

/-- The reads of warp `flat` of `decode_partial_kernel`. -/
def warpReads (flat : ℕ) : List Read :=
  if flat ≥ p.requests then []
  else
    let batch := p.batchOf flat
    let head := p.headOf flat
    p.laneReads (fun d => ⟨.q, batch, head, 0, d, p.qRow batch head + d⟩) ++
      (p.tokens batch (p.splitOf flat)).flatMap fun j =>
        match p.kvRowPtr (p.kBase batch head) j p.kStride.sS batch,
            p.kvRowPtr (p.vBase batch head) j p.vStride.sS batch with
        | some kRow, some vRow =>
          p.laneReads (fun d => ⟨.k, batch, head / p.group, j.toNat, d, (kRow + d).toNat⟩) ++
            p.laneReads (fun d => ⟨.v, batch, head / p.group, j.toNat, d, (vRow + d).toNat⟩)
        | _, _ => []

/-- The shape of a dense decode launch. -/
def shape : AttentionShape :=
  { batch := p.batch, seqQ := 1, seqKv := p.seqKv, numHeads := p.numHeads
    numKvHeads := p.numKvHeads, headDim := p.headDim }

/-- The strides of a decode launch. -/
def strides : Operand → Strides
  | .q => { sB := p.qStride.sB, sH := p.qStride.sH, sS := p.qStride.sS }
  | .k => { sB := p.kStride.sB, sH := p.kStride.sH, sS := p.kStride.sS }
  | .v => { sB := p.vStride.sB, sH := p.vStride.sH, sS := p.vStride.sS }

end DecodeFwdParams

/-- The reads of a grid of `decode_partial_kernel`; the reduction reads only the partials. -/
def decodeReads (blocks : ℕ) : List Read := onWarps blocks p.warpReads

/-- The index of a token that is not negative. -/
theorem toNat_index (base stride d : ℕ) {j : ℤ} (hj : 0 ≤ j) :
    ((base : ℤ) + j * stride + d).toNat = base + j.toNat * stride + d := by
  obtain ⟨n, rfl⟩ := Int.eq_ofNat_of_zero_le hj
  simp only [Int.toNat_natCast]
  omega

/-- The reads of a warp of a dense launch. -/
theorem mem_warpReads (hdim : 32 ∣ p.headDim) (hpage : p.pageTable = none) (hs : 0 < p.numSplits)
    {flat : ℕ} {r : Read} :
    r ∈ p.warpReads flat ↔ flat < p.requests ∧
      ((∃ d < p.headDim, r = readAt p.strides .q (p.batchOf flat) (p.headOf flat) 0 d) ∨
        ∃ j ∈ p.tokens (p.batchOf flat) (p.splitOf flat), ∃ x, ∃ d < p.headDim,
        (x = .k ∨ x = .v) ∧
          r = readAt p.strides x (p.batchOf flat) (p.headOf flat / p.group) j.toNat d) := by
  by_cases hflat : flat < p.requests
  · have htoken : ∀ j ∈ p.tokens (p.batchOf flat) (p.splitOf flat), 0 ≤ j := fun j hj =>
      ((p.exists_mem_tokens hs).mp ⟨_, Nat.mod_lt flat hs, hj⟩).1
    simp only [DecodeFwdParams.warpReads, if_neg (not_le.mpr hflat), DecodeFwdParams.kvRowPtr, hpage,
      List.mem_append, List.mem_flatMap, p.mem_laneReads hdim, hflat, true_and]
    refine or_congr ?_ (exists_congr fun j => and_congr_right fun hj => ?_)
    · simp only [readAt, DecodeFwdParams.strides, DecodeFwdParams.qRow, Nat.zero_mul, Nat.add_zero]
    · simp only [toNat_index _ _ _ (htoken j hj)]
      constructor
      · rintro (⟨d, hd, rfl⟩ | ⟨d, hd, rfl⟩)
        exacts [⟨.k, d, hd, .inl rfl, rfl⟩, ⟨.v, d, hd, .inr rfl, rfl⟩]
      · rintro ⟨x, d, hd, rfl | rfl, rfl⟩
        exacts [.inl ⟨d, hd, rfl⟩, .inr ⟨d, hd, rfl⟩]
  · simp only [DecodeFwdParams.warpReads, if_pos (not_lt.mp hflat), List.not_mem_nil, hflat, false_and]

theorem decodeReads_shape (hvalid : ValidShape p.shape) (hdim : 32 ∣ p.headDim) (hpage : p.pageTable = none)
    (hlens : p.seqLens = none) (hs : 0 < p.numSplits) {blocks : ℕ} (hblocks : p.requests ≤ blocks * 4) :
    ReadsShape (decodeReads p blocks) p.shape p.strides := by
  have hlen : ∀ b, p.seqLen b = p.seqKv := by
    intro b
    simp only [DecodeFwdParams.seqLen, hlens]
  refine ⟨fun r hr => ?_, fun b hb h hh t ht _ d hd => ?_⟩
  · obtain ⟨flat, -, hr⟩ := mem_onWarps.mp hr
    obtain ⟨hflat, hr⟩ := (mem_warpReads p hdim hpage hs).mp hr
    have hheads : 0 < p.numHeads := hvalid.numHeads_pos
    have hb : p.batchOf flat < p.batch := by
      refine Nat.div_lt_of_lt_mul ?_
      rwa [Nat.mul_comm, Nat.mul_comm p.numSplits, ← Nat.mul_assoc]
    have hh : p.headOf flat < p.numHeads := Nat.mod_lt _ hheads
    rcases hr with ⟨d, hd, rfl⟩ | ⟨j, hj, x, d, hd, hx, rfl⟩
    · exact ⟨.q, _, hb, _, hh, 0, one_pos, d, hd, rfl⟩
    · have hj' := (p.exists_mem_tokens hs).mp ⟨_, Nat.mod_lt flat hs, hj⟩
      rw [hlen] at hj'
      rcases hx with rfl | rfl
      · exact ⟨.k, _, hb, _, hvalid.kvHead_lt hh, _, show j.toNat < p.seqKv by omega, d, hd, rfl⟩
      · exact ⟨.v, _, hb, _, hvalid.kvHead_lt hh, _, show j.toNat < p.seqKv by omega, d, hd, rfl⟩
  · -- one of the splits has the token
    obtain ⟨head, hhead, rfl⟩ := hvalid.exists_head hh
    have hhead' : head < p.numHeads := hhead
    have hrange : 0 ≤ (t : ℤ) ∧ (t : ℤ) < p.seqLen b :=
      ⟨Int.natCast_nonneg t, by rw [hlen]; exact Int.ofNat_lt.mpr ht⟩
    obtain ⟨split, hsplit, htoken⟩ := (p.exists_mem_tokens hs).mpr hrange
    have hflat := p.flatOf_lt hb hhead' hsplit
    refine mem_onWarps.mpr ⟨p.flatOf b head split, hflat.trans_le hblocks,
      (mem_warpReads p hdim hpage hs).mpr
      ⟨hflat, .inr ⟨(t : ℤ), ?_, .k, d, hd, .inl rfl, ?_⟩⟩⟩
    · rwa [p.batchOf_flatOf hhead' hsplit, p.splitOf_flatOf hsplit]
    · rw [p.batchOf_flatOf hhead' hsplit, p.headOf_flatOf hhead' hsplit, Int.toNat_natCast]
      rfl

end Decode

end SciAttention

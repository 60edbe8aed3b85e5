import SciAttention.Attention.Flash
import Mathlib.Data.List.TakeWhile
import Mathlib.Data.Nat.ModEq
import Mathlib.Tactic.Linarith
import Mathlib.Tactic.Ring

/-!
# The K/V pipeline of the flash kernel

Before iteration `j` the groups of the tiles `j … j + kStages - 2` are in flight, one group a tile, and
each tile is resident as soon as its own group has landed (`PipeInv`). Waiting until `kStages - 2`
groups are left completes exactly tile `j`; the tile issued then goes to the one buffer that no tile in
flight and not tile `j` uses.
-/

namespace SciAttention

open Flt

/-- The template arguments a kernel is compiled with: 16-bit elements, key tiles of whole mma steps,
a head dimension that splits into pairs of output tiles, and at least two stages. -/
structure FlashTile.Compiles (tile : FlashTile) (elem : DType) (headDim : ℕ) : Prop where
  elem_bytes : dtypeSize elem = 2
  blockN_pos : 0 < tile.blockN
  blockN_dvd : 16 ∣ tile.blockN
  splitsD_pos : 0 < tile.splitsD
  headDim_dvd : 16 * tile.splitsD ∣ headDim
  stages_ge : 2 ≤ tile.stages

namespace FlashCta

variable {𝕜 : Type*} (a : FlashCta 𝕜)

/-- The template arguments of a block. -/
abbrev Compiles : Prop := a.tile.Compiles a.elem a.headDim

variable {a}

namespace Compiles

theorem chunksPerRow_eq (h : a.Compiles) : a.chunksPerRow = a.headDim / 8 := by
  rw [chunksPerRow, h.elem_bytes, vectorAlignBytes]
  omega

theorem elemsPerChunk_eq (h : a.Compiles) : a.elemsPerChunk = 8 := by
  rw [elemsPerChunk, h.elem_bytes, vectorAlignBytes]

theorem headDim_mod (h : a.Compiles) : a.headDim % 16 = 0 :=
  Nat.mod_eq_zero_of_dvd (Dvd.dvd.trans (Nat.dvd_mul_right 16 _) h.headDim_dvd)

theorem headDim_eq (h : a.Compiles) : a.headDim = a.chunksPerRow * 8 := by
  have := h.headDim_mod
  rw [h.chunksPerRow_eq]
  omega

end Compiles

/-! ## Cells of the ring buffers -/

/-- The ring buffer of a side and stage: the K stages come first. -/
def slotOf (a : FlashCta 𝕜) (isKey : Bool) (t : ℕ) : ℕ :=
  (if isKey then 0 else a.tile.stages) + t % a.tile.stages

/-- The cell of entry `(row, col)` of tile `t`. -/
def cell (a : FlashCta 𝕜) (isKey : Bool) (t row col : ℕ) : ℕ :=
  (if isKey then a.kTile t else a.vTile t) + row * a.rowStride + col

theorem cell_eq (isKey : Bool) (t row col : ℕ) :
    a.cell isKey t row col =
      a.kSmem + (a.slotOf isKey t * a.kvTileElems + (row * a.rowStride + col)) := by
  cases isKey
  · simp only [cell, slotOf, vTile, vSmem, Bool.false_eq_true, if_false]
    ring
  · simp only [cell, slotOf, kTile, if_true]
    ring

theorem entry_lt {row col : ℕ} (hrow : row < a.tile.blockN) (hcol : col < a.headDim) :
    row * a.rowStride + col < a.kvTileElems := by
  have hstride : col < a.rowStride := by
    unfold rowStride
    omega
  have hle : (row + 1) * a.rowStride ≤ a.kvTileElems := Nat.mul_le_mul_right _ hrow
  linarith

/-- Entries of different buffers, or different entries, have different cells. -/
theorem cell_inj {isKey isKey' : Bool} {t t' row row' col col' : ℕ} (hrow : row < a.tile.blockN)
    (hrow' : row' < a.tile.blockN) (hcol : col < a.headDim) (hcol' : col' < a.headDim)
    (h : a.cell isKey t row col = a.cell isKey' t' row' col') :
    a.slotOf isKey t = a.slotOf isKey' t' ∧ row = row' ∧ col = col' := by
  rw [cell_eq, cell_eq] at h
  obtain ⟨hslot, hentry⟩ := Strided.mul_add_inj (entry_lt hrow hcol) (entry_lt hrow' hcol')
    (Nat.add_left_cancel h)
  have hstride : ∀ c < a.headDim, c < a.rowStride := fun c hc => by
    unfold rowStride
    omega
  obtain ⟨hr, hc⟩ := Strided.mul_add_inj (hstride col hcol) (hstride col' hcol') hentry
  exact ⟨hslot, hr, hc⟩

/-- Buffers of tiles less than `kStages` apart differ. -/
theorem slotOf_ne (h : a.Compiles) {isKey isKey' : Bool} {t u : ℕ} (hlt : t < u)
    (hnear : u < t + a.tile.stages) : a.slotOf isKey t ≠ a.slotOf isKey' u := by
  have hpos : 0 < a.tile.stages := by
    have := h.stages_ge
    omega
  have ht := Nat.mod_lt t hpos
  have hu := Nat.mod_lt u hpos
  -- equal residues would put the tiles a whole round apart
  have hmod : t % a.tile.stages ≠ u % a.tile.stages := by
    intro heq
    have hdvd : a.tile.stages ∣ u - t := (Nat.modEq_iff_dvd' hlt.le).mp heq
    have := Nat.le_of_dvd (by omega) hdvd
    omega
  unfold slotOf
  cases isKey <;> cases isKey' <;> simp only [Bool.false_eq_true, if_true, if_false] <;> omega

/-! ## One tile -/

section Tile

variable [Field 𝕜] [LinearOrder 𝕜] {num : Numerics 𝕜}

/-- The memory behind one side's pointer, and how its rows lie there. -/
def source (a : FlashCta 𝕜) (isKey : Bool) : Bytes × ℕ × ℕ :=
  if isKey then (a.k, a.kRow0, a.p.kStride.sS) else (a.v, a.vRow0, a.p.vStride.sS)

/-- Element `d` of key or value row `j`, zero behind the tensor. -/
def kvAt (num : Numerics 𝕜) (a : FlashCta 𝕜) (isKey : Bool) (j d : ℕ) : 𝕜 :=
  if j < a.p.seqKv then
    num.load a.elem (a.source isKey).1 ((a.source isKey).2.1 + j * (a.source isKey).2.2 + d)
  else 0

/-- The copies of one side of a tile. -/
def sideCopies (num : Numerics 𝕜) (a : FlashCta 𝕜) (isKey : Bool) (t : ℕ) : List (ℕ × Flt 𝕜) :=
  a.tileCopies num (a.source isKey).1 (a.source isKey).2.1 (a.source isKey).2.2
    (if isKey then a.kTile t else a.vTile t) (t * a.tile.blockN)

/-- The zero fill of one side of a tile. -/
def sideZeros (a : FlashCta 𝕜) (isKey : Bool) (t : ℕ) : List (ℕ × Flt 𝕜) :=
  a.tileZeros (if isKey then a.kTile t else a.vTile t) (t * a.tile.blockN)

theorem copies_eq (t : ℕ) :
    a.copies num t = a.sideCopies num true t ++ a.sideCopies num false t := rfl

omit [LinearOrder 𝕜] in
theorem zeros_eq (t : ℕ) :
    (a.zeros t : List (ℕ × Flt 𝕜)) = a.sideZeros true t ++ a.sideZeros false t := rfl

omit [Field 𝕜] [LinearOrder 𝕜] in
/-- The chunks that the threads copy are those of the rows on their side of the tensor's end. -/
theorem mem_tileChunks (hthreads : 0 < a.threads) {jBase idx : ℕ} {inside : Bool} :
    idx ∈ a.tileChunks jBase inside ↔ idx < a.tile.blockN * a.chunksPerRow ∧
      decide (jBase + idx / a.chunksPerRow < a.p.seqKv) = inside := by
  rw [tileChunks, List.mem_filter, (Strided.threads_perm hthreads _).mem_iff, List.mem_range,
    beq_iff_eq]

omit [Field 𝕜] [LinearOrder 𝕜] in
/-- The chunks of a side cover every entry of its rows once. -/
theorem exists_chunk (h : a.Compiles) (hthreads : 0 < a.threads) (jBase : ℕ) (inside : Bool)
    {P : ℕ → ℕ → Prop} :
    (∃ idx ∈ a.tileChunks jBase inside, ∃ e < a.elemsPerChunk,
      P (idx / a.chunksPerRow) (idx % a.chunksPerRow * a.elemsPerChunk + e)) ↔
    ∃ row < a.tile.blockN, ∃ col < a.headDim,
      decide (jBase + row < a.p.seqKv) = inside ∧ P row col := by
  have hdim := h.headDim_eq
  rw [h.elemsPerChunk_eq]
  constructor
  · rintro ⟨idx, hidx, e, he, hP⟩
    rw [mem_tileChunks hthreads] at hidx
    have hpos : 0 < a.chunksPerRow := by
      rcases Nat.eq_zero_or_pos a.chunksPerRow with hzero | hpos
      · simp [hzero] at hidx
      · exact hpos
    have hrow : idx / a.chunksPerRow < a.tile.blockN := by
      rw [Nat.div_lt_iff_lt_mul hpos]
      exact hidx.1
    have hchunk := Nat.mod_lt idx hpos
    exact ⟨_, hrow, _, by omega, hidx.2, hP⟩
  · rintro ⟨row, hrow, col, hcol, hinside, hP⟩
    have hchunk : col / 8 < a.chunksPerRow := by omega
    have hdiv : (row * a.chunksPerRow + col / 8) / a.chunksPerRow = row := Strided.flat_div row hchunk
    have hmod : (row * a.chunksPerRow + col / 8) % a.chunksPerRow = col / 8 := Strided.flat_mod row hchunk
    have hlt : row * a.chunksPerRow + col / 8 < a.tile.blockN * a.chunksPerRow := by
      have : (row + 1) * a.chunksPerRow ≤ a.tile.blockN * a.chunksPerRow :=
        Nat.mul_le_mul_right _ hrow
      linarith
    refine ⟨row * a.chunksPerRow + col / 8, (mem_tileChunks hthreads).mpr ⟨hlt, ?_⟩, col % 8,
      by omega, ?_⟩
    · rw [hdiv]
      exact hinside
    · rw [hdiv, hmod, Nat.div_add_mod']
      exact hP

/-- The copies of a side put the rows of the tensor where they belong. -/
theorem mem_sideCopies (h : a.Compiles) (hthreads : 0 < a.threads) {isKey : Bool} {t : ℕ}
    {w : ℕ × Flt 𝕜} : w ∈ a.sideCopies num isKey t ↔
      ∃ row < a.tile.blockN, ∃ col < a.headDim, t * a.tile.blockN + row < a.p.seqKv ∧
        w = (a.cell isKey t row col, fin (kvAt num a isKey (t * a.tile.blockN + row) col)) := by
  have hchunk := exists_chunk h hthreads (t * a.tile.blockN) true
    (P := fun row col => w = (a.cell isKey t row col, fin (num.load a.elem (a.source isKey).1
      ((a.source isKey).2.1 + (t * a.tile.blockN + row) * (a.source isKey).2.2 + col))))
  simp only [cell, ← Nat.add_assoc] at hchunk ⊢
  simp only [sideCopies, tileCopies, chunkCell, List.mem_flatMap, List.mem_map, List.mem_range,
    eq_comm (b := w)]
  rw [hchunk]
  refine exists_congr fun row => and_congr_right fun _ => exists_congr fun col =>
    and_congr_right fun _ => ?_
  rw [decide_eq_true_iff]
  refine and_congr_right fun hin => ?_
  rw [kvAt, if_pos hin]

omit [LinearOrder 𝕜] in
/-- The zero fill of a side clears the rows behind the tensor. -/
theorem mem_sideZeros (h : a.Compiles) (hthreads : 0 < a.threads) {isKey : Bool} {t : ℕ}
    {w : ℕ × Flt 𝕜} : w ∈ a.sideZeros isKey t ↔
      ∃ row < a.tile.blockN, ∃ col < a.headDim, ¬ t * a.tile.blockN + row < a.p.seqKv ∧
        w = (a.cell isKey t row col, 0) := by
  have hchunk := exists_chunk h hthreads (t * a.tile.blockN) false
    (P := fun row col => w = (a.cell isKey t row col, 0))
  simp only [cell, ← Nat.add_assoc] at hchunk ⊢
  simp only [sideZeros, tileZeros, chunkCell, List.mem_flatMap, List.mem_map, List.mem_range,
    eq_comm (b := w)]
  rw [hchunk]
  refine exists_congr fun row => and_congr_right fun _ => exists_congr fun col =>
    and_congr_right fun _ => ?_
  rw [decide_eq_false_iff_not]

/-- The stores and copies of a tile stay in its two buffers. -/
theorem write_cell (h : a.Compiles) (hthreads : 0 < a.threads) {t : ℕ} {w : ℕ × Flt 𝕜}
    (hw : w ∈ a.zeros t ∨ w ∈ a.copies num t) :
    ∃ isKey row col, row < a.tile.blockN ∧ col < a.headDim ∧ w.1 = a.cell isKey t row col ∧
      w.2 = fin (kvAt num a isKey (t * a.tile.blockN + row) col) := by
  rw [zeros_eq, copies_eq, List.mem_append, List.mem_append] at hw
  have hzeros : ∀ isKey, w ∈ a.sideZeros isKey t → ∃ isKey row col, row < a.tile.blockN ∧
      col < a.headDim ∧ w.1 = a.cell isKey t row col ∧
      w.2 = fin (kvAt num a isKey (t * a.tile.blockN + row) col) := by
    intro isKey hw
    obtain ⟨row, hrow, col, hcol, hout, rfl⟩ := (mem_sideZeros h hthreads).mp hw
    exact ⟨isKey, row, col, hrow, hcol, rfl, by rw [kvAt, if_neg hout]; rfl⟩
  have hcopies : ∀ isKey, w ∈ a.sideCopies num isKey t → ∃ isKey row col, row < a.tile.blockN ∧
      col < a.headDim ∧ w.1 = a.cell isKey t row col ∧
      w.2 = fin (kvAt num a isKey (t * a.tile.blockN + row) col) := by
    intro isKey hw
    obtain ⟨row, hrow, col, hcol, -, rfl⟩ := (mem_sideCopies h hthreads).mp hw
    exact ⟨isKey, row, col, hrow, hcol, rfl, rfl⟩
  rcases hw with (hw | hw) | (hw | hw)
  · exact hzeros true hw
  · exact hzeros false hw
  · exact hcopies true hw
  · exact hcopies false hw

/-- Tile `t` is in its buffers. -/
def Resident (num : Numerics 𝕜) (a : FlashCta 𝕜) (mem : ℕ → Flt 𝕜) (t : ℕ) : Prop :=
  ∀ isKey, ∀ row < a.tile.blockN, ∀ col < a.headDim,
    mem (a.cell isKey t row col) = fin (kvAt num a isKey (t * a.tile.blockN + row) col)

/-- Its stores and copies make a tile resident. -/
theorem resident_issued (h : a.Compiles) (hthreads : 0 < a.threads) (mem : ℕ → Flt 𝕜) (t : ℕ) :
    Resident num a (Scatter.apply (Scatter.apply mem (a.zeros t)) (a.copies num t)) t := by
  intro isKey row hrow col hcol
  -- whatever is written to the cell is the value of its entry
  have hagree : ∀ w, w ∈ a.zeros t ∨ w ∈ a.copies num t → w.1 = a.cell isKey t row col →
      w.2 = fin (kvAt num a isKey (t * a.tile.blockN + row) col) := by
    intro w hw haddr
    obtain ⟨isKey', row', col', hrow', hcol', hcell, hvalue⟩ := write_cell h hthreads hw
    obtain ⟨hslot, rfl, rfl⟩ := cell_inj hrow' hrow hcol' hcol (hcell.symm.trans haddr)
    have hpos : 0 < a.tile.stages := by
      have := h.stages_ge
      omega
    have hside : isKey' = isKey := by
      have hlt := Nat.mod_lt t hpos
      unfold slotOf at hslot
      cases isKey <;> cases isKey' <;> simp only [Bool.false_eq_true, if_true, if_false] at hslot <;>
        first | rfl | omega
    rw [hvalue, hside]
  by_cases hin : t * a.tile.blockN + row < a.p.seqKv
  · refine Scatter.apply_of_agree ?_ fun w hw => hagree w (.inr hw)
    rw [copies_eq, List.mem_append]
    have hmem : ∀ side, (a.cell side t row col,
        fin (kvAt num a side (t * a.tile.blockN + row) col)) ∈ a.sideCopies num side t :=
      fun side => (mem_sideCopies h hthreads).mpr ⟨row, hrow, col, hcol, hin, rfl⟩
    cases isKey
    · exact .inr (hmem false)
    · exact .inl (hmem true)
  · refine Scatter.apply_of_agree_of_eq ?_ fun w hw => hagree w (.inr hw)
    refine Scatter.apply_of_agree ?_ fun w hw => hagree w (.inl hw)
    rw [zeros_eq, List.mem_append, kvAt, if_neg hin]
    have hmem : ∀ side, (a.cell side t row col, fin 0) ∈ a.sideZeros side t :=
      fun side => (mem_sideZeros h hthreads).mpr ⟨row, hrow, col, hcol, hin, rfl⟩
    cases isKey
    · exact .inr (hmem false)
    · exact .inl (hmem true)

/-- The writes of a tile do not touch the buffers of a tile less than `kStages` away. -/
theorem apply_cell_of_near (num : Numerics 𝕜) (h : a.Compiles) (hthreads : 0 < a.threads)
    {ws : List (ℕ × Flt 𝕜)}
    {u t : ℕ} (hws : ∀ w ∈ ws, w ∈ a.zeros u ∨ w ∈ a.copies num u) (hne : u ≠ t)
    (hut : u < t + a.tile.stages) (htu : t < u + a.tile.stages) (mem : ℕ → Flt 𝕜) {isKey : Bool}
    {row col : ℕ} (hrow : row < a.tile.blockN) (hcol : col < a.headDim) :
    Scatter.apply mem ws (a.cell isKey t row col) = mem (a.cell isKey t row col) := by
  refine Scatter.apply_of_forall_ne fun w hw haddr => ?_
  obtain ⟨isKey', row', col', hrow', hcol', hcell, -⟩ := write_cell h hthreads (hws w hw)
  obtain ⟨hslot, -, -⟩ := cell_inj hrow' hrow hcol' hcol (hcell.symm.trans haddr)
  rcases Nat.lt_or_gt_of_ne hne with hlt | hlt
  · exact slotOf_ne h hlt htu hslot
  · exact slotOf_ne h hlt hut hslot.symm

/-! ## The invariant -/

/-- The group committed for tile `t`: empty behind the last tile. -/
def group (num : Numerics 𝕜) (a : FlashCta 𝕜) (t : ℕ) : List (ℕ × Flt 𝕜) :=
  if t < a.jTiles then a.copies num t else []

/-- Before iteration `j` the next `kStages - 1` groups are in flight, and each of their tiles only
waits for its own group. -/
structure PipeInv (num : Numerics 𝕜) (a : FlashCta 𝕜) (smem : AsyncCopy.State (Flt 𝕜)) (j : ℕ) :
    Prop where
  pending_eq : smem.pending = (List.range (a.tile.stages - 1)).map fun n => group num a (j + n)
  resident : ∀ t, j ≤ t → t < j + (a.tile.stages - 1) → t < a.jTiles →
    Resident num a (Scatter.apply smem.mem (a.copies num t)) t

/-- After issuing the first `n` tiles their groups are in flight, and each tile only waits for its own. -/
theorem foldl_issue (num : Numerics 𝕜) (h : a.Compiles) (hthreads : 0 < a.threads)
    (mem : ℕ → Flt 𝕜) {n : ℕ}
    (hn : n ≤ a.tile.stages - 1) :
    let s := (List.range n).foldl (fun smem s => (smem.store (a.zeros s)).commit (a.copies num s))
      (⟨mem, []⟩ : AsyncCopy.State (Flt 𝕜))
    s.pending = (List.range n).map (a.copies num) ∧
      ∀ t < n, Resident num a (Scatter.apply s.mem (a.copies num t)) t := by
  induction n with
  | zero => exact ⟨rfl, fun t ht => absurd ht (Nat.not_lt_zero t)⟩
  | succ n ih =>
    obtain ⟨hpending, hresident⟩ := ih (by omega)
    simp only [List.range_succ, List.foldl_append, List.foldl_cons, List.foldl_nil] at hpending ⊢
    refine ⟨?_, fun t ht => ?_⟩
    · rw [AsyncCopy.State.commit, AsyncCopy.store_pending, hpending, List.map_append, List.map_singleton]
    · rw [AsyncCopy.commit_mem, AsyncCopy.State.store]
      rcases Nat.lt_succ_iff_lt_or_eq.mp ht with hlt | rfl
      · intro isKey row hrow col hcol
        rw [← hresident t hlt isKey row hrow col hcol]
        refine Scatter.apply_congr ?_ _
        exact apply_cell_of_near num h hthreads (fun w hw => .inl hw) (by omega) (by omega) (by omega)
          _ hrow hcol
      · exact resident_issued h hthreads _ _

/-- The prologue establishes the invariant when there are enough tiles to fill the pipeline. -/
theorem PipeInv.prologue (h : a.Compiles) (hthreads : 0 < a.threads)
    (hfill : a.tile.stages - 1 ≤ a.jTiles) (mem : ℕ → Flt 𝕜) :
    PipeInv num a (a.prologue num ⟨mem, []⟩) 0 := by
  have hall : (List.range (a.tile.stages - 1)).takeWhile (fun s => decide (s < a.jTiles)) =
      List.range (a.tile.stages - 1) := by
    refine List.takeWhile_eq_self_iff.mpr fun s hs => ?_
    rw [List.mem_range] at hs
    exact decide_eq_true (by omega)
  rw [FlashCta.prologue, hall]
  obtain ⟨hpending, hresident⟩ := foldl_issue num h hthreads mem le_rfl
  refine ⟨hpending.trans (List.map_congr_left fun t ht => ?_), fun t _ ht _ => hresident t (by omega)⟩
  have := List.mem_range.mp ht
  rw [Nat.zero_add, group, if_pos (by omega)]

/-- Waiting until `kStages - 2` groups are left completes the group of tile `j` and no other. -/
theorem PipeInv.waitGroup (h : a.Compiles) {smem : AsyncCopy.State (Flt 𝕜)} {j : ℕ}
    (hinv : PipeInv num a smem j) (hj : j < a.jTiles) :
    smem.waitGroup (a.tile.stages - 2) = ⟨Scatter.apply smem.mem (a.copies num j),
      (List.range (a.tile.stages - 2)).map fun n => group num a (j + 1 + n)⟩ := by
  have hstages := h.stages_ge
  -- the oldest group is tile `j`'s
  have hhead : smem.pending = a.copies num j ::
      (List.range (a.tile.stages - 2)).map fun n => group num a (j + 1 + n) := by
    rw [hinv.pending_eq, show a.tile.stages - 1 = a.tile.stages - 2 + 1 by omega,
      List.range_succ_eq_map, List.map_cons, List.map_map, Nat.add_zero, group, if_pos hj]
    congr 2
    funext n
    simp only [Function.comp_apply]
    congr 1
    omega
  have hwait := AsyncCopy.waitGroup_cons hhead
  rwa [List.length_map, List.length_range] at hwait

/-- One iteration: the wait makes tile `j` resident, it stays so while the next tile is issued, and
the invariant moves on. -/
theorem PipeInv.step (h : a.Compiles) (hthreads : 0 < a.threads) {smem : AsyncCopy.State (Flt 𝕜)}
    {j : ℕ} (hinv : PipeInv num a smem j) (hj : j < a.jTiles) :
    let smem' := a.prefetch num (smem.waitGroup (a.tile.stages - 2)) (j + a.tile.stages - 1)
    Resident num a smem'.mem j ∧ PipeInv num a smem' (j + 1) := by
  have hstages := h.stages_ge
  have hwait := hinv.waitGroup h hj
  have hres : Resident num a (Scatter.apply smem.mem (a.copies num j)) j :=
    hinv.resident j le_rfl (by omega) hj
  -- committing the oldest group moves no tile that is still to come
  have hframe : ∀ t, j < t → t < j + (a.tile.stages - 1) → t < a.jTiles →
      Resident num a (Scatter.apply (Scatter.apply smem.mem (a.copies num j)) (a.copies num t)) t := by
    intro t hlt hnear htiles isKey row hrow col hcol
    rw [← hinv.resident t hlt.le hnear htiles isKey row hrow col hcol]
    exact Scatter.apply_congr (apply_cell_of_near num h hthreads (fun w hw => .inr hw) (by omega)
      (by omega) (by omega) _ hrow hcol) _
  -- the new group takes the last place of the queue
  have hpending : ∀ g, (List.range (a.tile.stages - 2)).map (fun n => group num a (j + 1 + n)) ++ [g] =
      (List.range (a.tile.stages - 1)).map (fun n => group num a (j + 1 + n)) ↔
        g = group num a (j + a.tile.stages - 1) := by
    intro g
    rw [show a.tile.stages - 1 = a.tile.stages - 2 + 1 by omega, List.range_succ, List.map_append,
      List.map_singleton, List.append_cancel_left_eq, List.singleton_inj]
    rw [show j + 1 + (a.tile.stages - 2) = j + a.tile.stages - 1 by omega]
  rw [hwait, prefetch]
  by_cases hlast : j + a.tile.stages - 1 < a.jTiles
  · rw [if_pos hlast]
    refine ⟨fun isKey row hrow col hcol => ?_, ?_, fun t hjt ht htiles => ?_⟩
    · rw [← hres isKey row hrow col hcol]
      exact apply_cell_of_near num h hthreads (fun w hw => .inl hw) (by omega) (by omega) (by omega) _
        hrow hcol
    · exact (hpending _).mpr (by rw [group, if_pos hlast])
    · rcases Nat.lt_or_ge t (j + (a.tile.stages - 1)) with hold | hnew
      · intro isKey row hrow col hcol
        rw [← hframe t hjt hold htiles isKey row hrow col hcol]
        exact Scatter.apply_congr (apply_cell_of_near num h hthreads (fun w hw => .inl hw) (by omega)
          (by omega) (by omega) _ hrow hcol) _
      · obtain rfl : t = j + a.tile.stages - 1 := by omega
        exact resident_issued h hthreads _ _
  · rw [if_neg hlast]
    refine ⟨hres, ?_, fun t hjt ht htiles => hframe t hjt (by omega) htiles⟩
    exact (hpending _).mpr (by rw [group, if_neg hlast])

end Tile

end FlashCta

end SciAttention

import SciAttention.Attention.FlashPipeline
import SciAttention.Attention.RealNumerics

/-!
# When every tile has landed before it is read

The wait of an iteration leaves `kStages - 2` groups in flight and counts on `kStages - 1` of them before
it. The prologue commits one group a tile and stops behind the last tile, so a sequence of fewer than
`kStages - 1` tiles starts the main loop with its first tile still in flight.
-/

namespace SciAttention

namespace FlashCta

variable {𝕜 : Type*} [Field 𝕜] [LinearOrder 𝕜]

/-- The wait and the prefetch of one iteration. -/
def pipeStep (num : Numerics 𝕜) (a : FlashCta 𝕜) (smem : AsyncCopy.State (Flt 𝕜)) (j : ℕ) :
    AsyncCopy.State (Flt 𝕜) :=
  a.prefetch num (smem.waitGroup (a.tile.stages - 2)) (j + a.tile.stages - 1)

/-- Shared memory before iteration `j`. -/
def smemBefore (num : Numerics 𝕜) (a : FlashCta 𝕜) (mem : ℕ → Flt 𝕜) (j : ℕ) :
    AsyncCopy.State (Flt 𝕜) :=
  (List.range j).foldl (a.pipeStep num) (a.prologue num ⟨mem, []⟩)

variable {num : Numerics 𝕜} {a : FlashCta 𝕜} {mem : ℕ → Flt 𝕜}

/-- The main loop of the kernel passes through these states, whatever its warps compute. -/
theorem foldl_iteration_smem (qFrag : ℕ → ℕ → ℕ → ℕ → Flt 𝕜 × Flt 𝕜)
    (warps : ℕ → FlashWarp 𝕜) (j : ℕ) :
    ((List.range j).foldl (a.iteration num qFrag) ⟨a.prologue num ⟨mem, []⟩, warps⟩).smem =
      a.smemBefore num mem j := by
  induction j with
  | zero => rfl
  | succ j ih =>
    rw [smemBefore, List.range_succ, List.foldl_append, List.foldl_append, List.foldl_cons, List.foldl_nil,
      List.foldl_cons, List.foldl_nil, ← smemBefore, ← ih]
    rfl

/-- What iteration `j` needs: behind its wait nothing is in flight to the buffers of tile `j`, which hold
the tile, and its prefetch goes to a buffer of no tile from `j` on that is already issued. -/
structure TileReady (num : Numerics 𝕜) (a : FlashCta 𝕜) (mem : ℕ → Flt 𝕜) (j : ℕ) : Prop where
  landed : ∀ g ∈ ((a.smemBefore num mem j).waitGroup (a.tile.stages - 2)).pending, ∀ w ∈ g,
    ∀ isKey, ∀ row < a.tile.blockN, ∀ col < a.headDim, w.1 ≠ a.cell isKey j row col
  resident : Resident num a ((a.smemBefore num mem j).waitGroup (a.tile.stages - 2)).mem j
  prefetch : ∀ isKey isKey' t, j ≤ t → t < j + a.tile.stages - 1 →
    a.slotOf isKey t ≠ a.slotOf isKey' (j + a.tile.stages - 1)

/-- A main loop that leaves after `m` iterations reads no tile that is not there. -/
def PipelineSafe (num : Numerics 𝕜) (a : FlashCta 𝕜) (mem : ℕ → Flt 𝕜) (m : ℕ) : Prop :=
  ∀ j < m, a.TileReady num mem j

omit [Field 𝕜] [LinearOrder 𝕜] in
/-- The kernel leaves the loop behind one of its iterations, early under a causal mask. -/
theorem exists_tilesVisited (a : FlashCta 𝕜) : ∃ m ≤ a.jTiles, a.tilesVisited = List.range m := by
  obtain ⟨m, hm, heq, -⟩ := Strided.takeWhile_range (fun jIdx =>
    !(a.causal && maskTileFullyMasked a.i0 a.tile.blockM (jIdx * a.tile.blockN : ℕ) a.p.diagonal)) a.jTiles
  exact ⟨m, hm, heq⟩

/-! ## Enough tiles -/

section Filled

variable (h : a.Compiles) (hthreads : 0 < a.threads) (hfill : a.tile.stages - 1 ≤ a.jTiles)

include h hthreads hfill

/-- A filled pipeline stays filled. -/
theorem pipeInv_smemBefore (mem : ℕ → Flt 𝕜) {j : ℕ} (hj : j ≤ a.jTiles) :
    PipeInv num a (a.smemBefore num mem j) j := by
  induction j with
  | zero => exact PipeInv.prologue h hthreads hfill mem
  | succ j ih =>
    rw [smemBefore, List.range_succ, List.foldl_append, List.foldl_cons, List.foldl_nil, ← smemBefore]
    exact (PipeInv.step h hthreads (ih (by omega)) (by omega)).2

/-- Every iteration of a filled pipeline finds its tile. -/
theorem tileReady_of_filled (mem : ℕ → Flt 𝕜) {j : ℕ} (hj : j < a.jTiles) :
    a.TileReady num mem j := by
  have hstages := h.stages_ge
  have hinv : PipeInv num a (a.smemBefore num mem j) j := pipeInv_smemBefore h hthreads hfill mem hj.le
  have hwait := hinv.waitGroup h hj
  refine ⟨?_, ?_, fun isKey isKey' t hjt ht => slotOf_ne h ht (by omega)⟩
  · rw [hwait]
    intro g hg w hw isKey row hrow col hcol haddr
    obtain ⟨n, hn, rfl⟩ := List.mem_map.mp hg
    have hn' := List.mem_range.mp hn
    -- the groups in flight are those of later tiles, in other buffers
    rw [group] at hw
    split_ifs at hw with htiles
    · obtain ⟨isKey', row', col', hrow', hcol', hcell, -⟩ := write_cell h hthreads (.inr hw)
      obtain ⟨hslot, -, -⟩ := cell_inj hrow hrow' hcol hcol' (haddr.symm.trans hcell)
      exact slotOf_ne h (by omega) (by omega) hslot
    · exact absurd hw List.not_mem_nil
  · rw [hwait]
    exact hinv.resident j le_rfl (by omega) hj

end Filled

/-! ## Too few tiles -/

/-- With fewer tiles than stages the first wait completes nothing: the copies of tile 0 are in flight. -/
theorem not_tileReady_of_short (h : a.Compiles) (hthreads : 0 < a.threads) (hdim : 0 < a.headDim)
    (hpos : 0 < a.jTiles) (hshort : a.jTiles < a.tile.stages - 1) (mem : ℕ → Flt 𝕜) :
    ¬ a.TileReady num mem 0 := by
  intro hready
  -- the prologue stops with the tiles
  have hall : (List.range (a.tile.stages - 1)).takeWhile (fun s => decide (s < a.jTiles)) =
      List.range a.jTiles := by
    obtain ⟨m, hm, heq, hstop⟩ :=
      Strided.takeWhile_range (fun s => decide (s < a.jTiles)) (a.tile.stages - 1)
    have hall : ∀ s < m, s < a.jTiles := by
      intro s hs
      have hmem : s ∈ (List.range (a.tile.stages - 1)).takeWhile fun s => decide (s < a.jTiles) :=
        heq ▸ List.mem_range.mpr hs
      simpa using List.mem_takeWhile_imp hmem
    have hstop' : ¬ m < a.jTiles := hstop.elim (fun h => by omega) of_decide_eq_false
    have hle : m ≤ a.jTiles := not_lt.mp fun hlt => lt_irrefl _ (hall a.jTiles hlt)
    rw [heq, le_antisymm hle (not_lt.mp hstop')]
  obtain ⟨hpending, -⟩ := foldl_issue num h hthreads mem hshort.le
  -- the wait lets `stages - 2` groups be pending, and there are no more
  have hwait : ((a.smemBefore num mem 0).waitGroup (a.tile.stages - 2)).pending =
      (List.range a.jTiles).map (a.copies num) := by
    change ((a.prologue num ⟨mem, []⟩).waitGroup (a.tile.stages - 2)).pending = _
    rw [FlashCta.prologue, hall, AsyncCopy.State.waitGroup, hpending, List.length_map, List.length_range,
      show a.jTiles - (a.tile.stages - 2) = 0 by omega]
    rfl
  have hkv : 0 < a.p.seqKv := by
    by_contra hzero
    have hblock := h.blockN_pos
    have : a.jTiles = 0 := Nat.div_eq_of_lt (by omega)
    omega
  have hcopy : (a.cell true 0 0 0, Flt.fin (kvAt num a true (0 * a.tile.blockN + 0) 0)) ∈
    a.copies num 0 := by
    rw [copies_eq, List.mem_append]
    exact .inl ((mem_sideCopies h hthreads).mpr
      ⟨0, h.blockN_pos, 0, hdim, by simpa using hkv, rfl⟩)
  refine hready.landed (a.copies num 0) ?_ _ hcopy true 0 h.blockN_pos 0 hdim rfl
  rw [hwait]
  exact List.mem_map.mpr ⟨0, List.mem_range.mpr hpos, rfl⟩

/-- The pipeline of any number of stages is safe, wherever the loop is left, exactly when there are enough
tiles to fill it or the loop is left before its first iteration. -/
theorem pipelineSafe_iff (num : Numerics 𝕜) (a : FlashCta 𝕜) (h : a.Compiles) (hthreads : 0 < a.threads)
    (hdim : 0 < a.headDim) (mem : ℕ → Flt 𝕜) {m : ℕ} (hm : m ≤ a.jTiles) :
    a.PipelineSafe num mem m ↔ m = 0 ∨ a.tile.stages - 1 ≤ a.jTiles := by
  constructor
  · intro hsafe
    by_contra hnot
    obtain ⟨hpos, hshort⟩ := not_or.mp hnot
    exact not_tileReady_of_short h hthreads hdim (by omega) (by omega) mem (hsafe 0 (by omega))
  · rintro (rfl | hfill)
    · exact fun j hj => absurd hj (Nat.not_lt_zero j)
    · exact fun j hj => tileReady_of_filled h hthreads hfill mem (by omega)

/-- One block over tiles of sixteen keys with the given number of stages. -/
noncomputable def stagesCta (stages seqKv : ℕ) : FlashCta ℝ where
  elem := .float16
  headDim := 16
  tile := ⟨16, 16, 1, stages, 1⟩
  causal := false
  p :=
    { q := none, k := none, v := none, out := none, lse := none
      batch := 1, numHeads := 1, numKvHeads := 1, seqQ := 16, seqKv := seqKv, headDim := 16
      qStride := stridesFor .bhsd 16 1 16, kStride := stridesFor .bhsd seqKv 1 16
      vStride := stridesFor .bhsd seqKv 1 16, oStride := stridesFor .bhsd 16 1 16
      scale := 1, causal := false, returnLse := false, diagonal := 0, dtypeId := 1 }
  q := fun _ => 0
  k := fun _ => 0
  v := fun _ => 0
  blockX := 0
  head := 0
  batch := 0

theorem compiles_stagesCta {stages : ℕ} (hstages : 2 ≤ stages) (seqKv : ℕ) :
    (stagesCta stages seqKv).Compiles :=
  ⟨rfl, show 0 < 16 by decide, dvd_refl 16, one_pos, dvd_refl 16, hstages⟩

/-- Three stages over four tiles. -/
theorem pipelineSafe_stages : (stagesCta 3 64).PipelineSafe realNumerics (fun _ => .nan) 4 :=
  (pipelineSafe_iff realNumerics (stagesCta 3 64) (compiles_stagesCta (by decide) 64) (by decide) (by decide)
    (fun _ => .nan) (by decide)).mpr (.inr (by decide))

/-- Three stages over a single tile: the only iteration starts while its tile is in flight. -/
theorem not_pipelineSafe_stages : (stagesCta 3 16).tilesVisited = [0] ∧
    ¬ (stagesCta 3 16).PipelineSafe realNumerics (fun _ => .nan) 1 :=
  ⟨rfl, fun hsafe => not_tileReady_of_short (compiles_stagesCta (by decide) 16) (by decide) (by decide)
    (by decide) (by decide) _ (hsafe 0 one_pos)⟩

end FlashCta

end SciAttention

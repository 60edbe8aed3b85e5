import SciAttention.Attention.BlockReduce
import SciAttention.Attention.TiledForward

/-!
# The tiled kernel, thread by thread

`tiled_attn_kernel` as the program of its threads, over one memory with the shared arrays of all blocks, the
output and the log-sum-exps. A block passes four barriers for each tile; between two of them every cell that
a thread writes is its own (`smemWrite`), and the others may read what was written before. In the row update
a warp works on its rows together: lane 0 writes `m_row` only when all lanes have made their tenth exchange
for the row, and all of them have read it after their fifth.
-/

namespace SciAttention

open Simt Flt Softmax

/-- The arrays in shared memory. -/
inductive TileArray where
  | q | k | v | s | m | l | alpha
deriving DecidableEq

/-- The cells of a launch. -/
inductive TiledCell where
  | smem (block : ℕ) (array : TileArray) (idx : ℕ)
  | out (idx : ℕ)
  | lse (idx : ℕ)
deriving DecidableEq

variable {𝕜 : Type*} [Field 𝕜] [LinearOrder 𝕜]

/-- A program of a thread in a launch of `blocks` blocks of `n` threads. -/
abbrev TiledProg (𝕜 : Type*) (blocks n : ℕ) := Prog (Tid blocks n) TiledCell (Flt 𝕜)

section Programs

variable (num : Numerics 𝕜) (a : TiledCta 𝕜) {blocks n : ℕ} (i : Tid blocks n)

/-- A cell of shared memory. -/
def getSmem (x : TileArray) (idx : ℕ) : TiledProg 𝕜 blocks n (Flt 𝕜) := .get (.smem i.block x idx)

/-- Write a cell of shared memory. -/
def putSmem (x : TileArray) (idx : ℕ) (v : Flt 𝕜) : TiledProg 𝕜 blocks n PUnit :=
  .put (.smem i.block x idx) v

/-- The Q tile and the row vectors. -/
def loadQuery : TiledProg 𝕜 blocks n PUnit := do
  forM (Strided.loop i.tid a.threads (a.tile.blockM * a.headDim)) fun idx =>
    let row := idx / a.headDim
    let col := idx % a.headDim
    putSmem i .q (row * a.rowStride + col)
      (if a.i0 + row < a.p.seqQ then
        fin (num.load a.elem a.q (a.qBase + (row * a.p.qStride.sS + col)))
      else 0)
  forM (Strided.loop i.tid a.threads a.tile.blockM) fun row => do
    putSmem i .m row negInf
    putSmem i .l row 0

/-- The K and V tiles. -/
def loadTile (jBase : ℕ) : TiledProg 𝕜 blocks n PUnit :=
  forM (Strided.loop i.tid a.threads (a.tile.blockN * a.headDim)) fun idx => do
    let row := idx / a.headDim
    let col := idx % a.headDim
    putSmem i .k (row * a.rowStride + col)
      (if jBase + row < a.p.seqKv then
        fin (num.load a.elem a.k (a.kBase + ((jBase + row) * a.p.kStride.sS + col)))
      else 0)
    putSmem i .v (row * a.rowStride + col)
      (if jBase + row < a.p.seqKv then
        fin (num.load a.elem a.v (a.vBase + ((jBase + row) * a.p.vStride.sS + col)))
      else 0)

/-- `S = Q K^T` with scale and causal mask. -/
def scoreTile (jBase : ℕ) : TiledProg 𝕜 blocks n PUnit :=
  forM (Strided.loop i.tid a.threads (a.tile.blockM * a.tile.blockN)) fun idx => do
    let row := idx / a.tile.blockN
    let col := idx % a.tile.blockN
    let dot ← (List.range a.headDim).foldlM (fun dot d => do
      let x ← getSmem i .q (row * a.rowStride + d)
      let y ← getSmem i .k (col * a.rowStride + d)
      return dot + x * y) 0
    putSmem i .s (row * a.sRowStride + col)
      (if jBase + col ≥ a.p.seqKv ∨
          a.p.causal ∧ ((jBase + col : ℕ) : ℤ) > (a.i0 : ℤ) + row + a.p.diagonal then negInf
      else dot * fin a.p.scale)

/-- The maximum of a lane over its columns. -/
def laneMax (row : ℕ) : TiledProg 𝕜 blocks n (Flt 𝕜) :=
  (Strided.loop (i.tid % 32) 32 a.tile.blockN).foldlM (fun m col => do
    return fmaxf m (← getSmem i .s (row * a.sRowStride + col))) negInf

/-- The probabilities of a lane's columns, and their sum. -/
def laneProbs (row : ℕ) (mNew : Flt 𝕜) : TiledProg 𝕜 blocks n (Flt 𝕜) :=
  (Strided.loop (i.tid % 32) 32 a.tile.blockN).foldlM (fun sum col => do
    let value ← getSmem i .s (row * a.sRowStride + col)
    putSmem i .s (row * a.sRowStride + col) (TiledCta.prob num.E mNew value)
    return sum + TiledCta.prob num.E mNew value) 0

/-- The row update of lane 0. -/
def storeRow (row : ℕ) (mNew alpha tileSum : Flt 𝕜) : TiledProg 𝕜 blocks n PUnit :=
  .when (i.tid % 32 = 0) (do
    let l ← getSmem i .l row
    putSmem i .l row (alpha * l + tileSum)
    putSmem i .m row mNew
    putSmem i .alpha row alpha)

/-- `alpha` of a row. -/
def rowAlpha (mOld mNew : Flt 𝕜) : Flt 𝕜 :=
  if mOld = negInf ∨ mNew = negInf then 0 else expf num.E.exp (mOld - mNew)

/-- The online softmax update of a row, by its warp. -/
def updateRow (row : ℕ) : TiledProg 𝕜 blocks n PUnit := do
  let localMax ← laneMax a i row
  let tileMax ← shflReduce fmaxf Butterfly.warp i localMax
  let mOld ← getSmem i .m row
  let localSum ← laneProbs num a i row (fmaxf mOld tileMax)
  let tileSum ← shflReduce (· + ·) Butterfly.warp i localSum
  storeRow i row (fmaxf mOld tileMax) (rowAlpha num mOld (fmaxf mOld tileMax)) tileSum

/-- The partial products of a slot. -/
def slotDot (slot : ℕ) : TiledProg 𝕜 blocks n (ℕ → Flt 𝕜) :=
  let row := slot / a.slotsPerRow
  let d0 := slot % a.slotsPerRow * 4
  (List.range a.tile.blockN).foldlM (fun partials col => do
    let prob ← getSmem i .s (row * a.sRowStride + col)
    -- masked columns contribute exactly nothing
    if prob = 0 then return partials
    else (List.range 4).foldlM (fun partials c => do
      let x ← getSmem i .v (col * a.rowStride + (d0 + c))
      return Function.update partials c (partials c + prob * x)) partials) fun _ => 0

/-- `O = alpha * O + P V` in the registers of a thread. -/
def updateAcc (acc : ℕ → ℕ → Flt 𝕜) : TiledProg 𝕜 blocks n (ℕ → ℕ → Flt 𝕜) :=
  (Strided.loop i.tid a.threads a.totalSlots).foldlM (fun acc slot => do
    let partials ← slotDot a i slot
    let alpha ← getSmem i .alpha (slot / a.slotsPerRow)
    return Function.update acc (slot / a.threads) fun c =>
      alpha * acc (slot / a.threads) c + partials c) acc

/-- An iteration of the tile loop. -/
def tileThread (acc : ℕ → ℕ → Flt 𝕜) (j0 : ℕ) :
    TiledProg 𝕜 blocks n (ℕ → ℕ → Flt 𝕜) := do
  loadTile num a i (j0 * a.tile.blockN)
  .barrier
  scoreTile a i (j0 * a.tile.blockN)
  .barrier
  forM (Strided.loop (i.tid / 32) a.tile.warps a.tile.blockM) (updateRow num a i)
  .barrier
  let acc ← updateAcc a i acc
  .barrier
  return acc

/-- The output stores of a slot. -/
def storeSlot (acc : ℕ → ℕ → Flt 𝕜) (slot : ℕ) : TiledProg 𝕜 blocks n PUnit :=
  let row := slot / a.slotsPerRow
  let d0 := slot % a.slotsPerRow * 4
  if a.i0 + row ≥ a.p.seqQ then return ⟨⟩
  else do
    let sum ← getSmem i .l row
    let inv := if gtZero sum then recip sum else 0
    forM (List.range 4) fun c =>
      .put (.out (a.outBase + (row * a.p.oStride.sS + (d0 + c)))) (acc (slot / a.threads) c * inv)

/-- The log-sum-exp of a row. -/
def storeLse (row : ℕ) : TiledProg 𝕜 blocks n PUnit :=
  if a.i0 + row ≥ a.p.seqQ then return ⟨⟩
  else do
    let m ← getSmem i .m row
    let l ← getSmem i .l row
    .put (.lse ((a.batch * a.p.numHeads + a.head) * a.p.seqQ + (a.i0 + row)))
      (if gtZero l then m + logf num.log l else negInf)

/-- The epilogue. -/
def tiledEpilogue (acc : ℕ → ℕ → Flt 𝕜) : TiledProg 𝕜 blocks n PUnit := do
  forM (Strided.loop i.tid a.threads a.totalSlots) (storeSlot a i acc)
  .when (a.p.returnLse ∧ a.p.lse.isSome)
    (forM (Strided.loop i.tid a.threads a.tile.blockM) (storeLse num a i))

/-- A thread of `tiled_attn_kernel`; `a` is its block. -/
def tiledThread : TiledProg 𝕜 blocks n PUnit := do
  loadQuery num a i
  .barrier
  let acc ← a.tilesVisited.foldlM (tileThread num a i) fun _ _ => 0
  tiledEpilogue num a i acc

end Programs

/-! ## Rights -/

section Rights

variable {a : TiledCta 𝕜}

/-- The cells of a tile that thread `tid` of `n` stores: rows of `width` elements, `stride` apart. -/
def OwnCell (n rows width stride tid idx : ℕ) : Prop :=
  ∃ x ∈ Strided.loop tid n (rows * width), idx = x / width * stride + x % width

omit [Field 𝕜] [LinearOrder 𝕜] in
theorem ownCell_inj {n rows width stride tid tid' idx : ℕ} (hstride : width ≤ stride) (ht : tid < n)
    (ht' : tid' < n) (h : OwnCell n rows width stride tid idx) (h' : OwnCell n rows width stride tid' idx) :
    tid = tid' := by
  obtain ⟨x, hx, hidx⟩ := h
  obtain ⟨x', hx', hidx'⟩ := h'
  obtain ⟨hlt, hmod⟩ := (Strided.mem_loop_of_lt ht).mp hx
  obtain ⟨-, hmod'⟩ := (Strided.mem_loop_of_lt ht').mp hx'
  have hpos : 0 < width := Nat.pos_of_mul_pos_left (Nat.zero_lt_of_lt hlt)
  obtain ⟨hrow, hcol⟩ := Strided.mul_add_inj ((Nat.mod_lt x hpos).trans_le hstride)
    ((Nat.mod_lt x' hpos).trans_le hstride) (hidx.symm.trans hidx')
  rw [← hmod, ← hmod', ← Nat.div_add_mod x width, ← Nat.div_add_mod x' width, hrow, hcol]

/-- The entries of the S tile that a lane updates: its columns of the rows of its warp. -/
def OwnScore (a : TiledCta 𝕜) (tid idx : ℕ) : Prop :=
  ∃ row col, col < a.tile.blockN ∧ row % a.tile.warps = tid / 32 ∧ col % 32 = tid % 32 ∧
    idx = row * a.sRowStride + col

omit [Field 𝕜] [LinearOrder 𝕜] in
theorem ownScore_inj {tid tid' idx : ℕ} (h : OwnScore a tid idx) (h' : OwnScore a tid' idx) :
    tid = tid' := by
  obtain ⟨row, col, hcol, hwarp, hlane, hidx⟩ := h
  obtain ⟨row', col', hcol', hwarp', hlane', hidx'⟩ := h'
  obtain ⟨rfl, rfl⟩ := Strided.mul_add_inj (hcol.trans_le a.blockN_le_sRowStride)
    (hcol'.trans_le a.blockN_le_sRowStride) (hidx.symm.trans hidx')
  rw [← Nat.div_add_mod tid 32, ← Nat.div_add_mod tid' 32, ← hwarp, ← hwarp', ← hlane, ← hlane']

/-- Lane 0 of the row's warp, once all lanes have made their exchanges for the row. -/
def OwnRow (a : TiledCta 𝕜) (tid : ℕ) (t : Clock) (row : ℕ) : Prop :=
  t.barriers % 4 = 3 ∧ t.exchanges % 10 = 0 ∧ tid % 32 = 0 ∧ row % a.tile.warps = tid / 32

/-- The shared cells that thread `tid` may write. -/
def smemWrite (a : TiledCta 𝕜) (tid : ℕ) (t : Clock) : TileArray → ℕ → Prop
  | .q, idx => t.barriers = 0 ∧ OwnCell a.threads a.tile.blockM a.headDim a.rowStride tid idx
  | .k, idx | .v, idx =>
    t.barriers % 4 = 1 ∧ OwnCell a.threads a.tile.blockN a.headDim a.rowStride tid idx
  | .s, idx => t.barriers % 4 = 2 ∧ OwnCell a.threads a.tile.blockM a.tile.blockN a.sRowStride tid idx ∨
    t.barriers % 4 = 3 ∧ OwnScore a tid idx
  | .m, idx | .l, idx => t.barriers = 0 ∧ idx % a.threads = tid ∨ OwnRow a tid t idx
  | .alpha, idx => OwnRow a tid t idx

/-- The shared cells that thread `tid` may read. -/
def smemRead (a : TiledCta 𝕜) (tid : ℕ) (t : Clock) (x : TileArray) (idx : ℕ) : Prop :=
  smemWrite a tid t x idx ∨
    match x with
    | .q | .k => t.barriers % 4 = 2
    | .v | .s | .alpha => t.barriers % 4 = 0 ∧ 0 < t.barriers
    | .m => t.barriers % 4 = 1 ∨
      t.barriers % 4 = 3 ∧ t.exchanges % 10 = 5 ∧ idx % a.tile.warps = tid / 32
    | .l => t.barriers % 4 = 1

omit [Field 𝕜] [LinearOrder 𝕜] in
/-- What a thread may write, no other thread of the block may read. -/
theorem eq_of_smemWrite {tid tid' : ℕ} {t t' : Clock} {x : TileArray} {idx : ℕ} (ht : tid < a.threads)
    (ht' : tid' < a.threads) (hblock : t.barriers = t'.barriers) (hwarp : tid / 32 = tid' / 32 → t = t')
    (h : smemWrite a tid t x idx) (h' : smemRead a tid' t' x idx) : tid = tid' := by
  have hrow : ∀ {row}, OwnRow a tid t row → OwnRow a tid' t' row → tid = tid' := by
    rintro row ⟨-, -, hz, hw⟩ ⟨-, -, hz', hw'⟩
    omega
  cases x with
  | q =>
    rcases h' with h' | h'
    · exact ownCell_inj a.headDim_le_rowStride ht ht' h.2 h'.2
    · have := h.1; omega
  | k =>
    rcases h' with h' | h'
    · exact ownCell_inj a.headDim_le_rowStride ht ht' h.2 h'.2
    · have := h.1; omega
  | v =>
    rcases h' with h' | h'
    · exact ownCell_inj a.headDim_le_rowStride ht ht' h.2 h'.2
    · have := h.1; omega
  | s =>
    rcases h with h | h
    · rcases h' with (h' | h') | h'
      · exact ownCell_inj a.blockN_le_sRowStride ht ht' h.2 h'.2
      · omega
      · omega
    · rcases h' with (h' | h') | h'
      · omega
      · exact ownScore_inj h.2 h'.2
      · omega
  | m =>
    rcases h with h | h
    · rcases h' with (h' | h') | h' | h'
      · exact h.2.symm.trans h'.2
      · have := h'.1; omega
      · omega
      · omega
    · rcases h' with (h' | h') | h' | h'
      · have := h.1; omega
      · exact hrow h h'
      · have := h.1; omega
      · -- the warp of the row: its lanes are at one clock
        obtain ⟨-, hex, -, hw⟩ := h
        have := hwarp (hw.symm.trans h'.2.2)
        rw [this] at hex
        omega
  | l =>
    rcases h with h | h
    · rcases h' with (h' | h') | h'
      · exact h.2.symm.trans h'.2
      · have := h'.1; omega
      · omega
    · rcases h' with (h' | h') | h'
      · have := h.1; omega
      · exact hrow h h'
      · have := h.1; omega
  | alpha =>
    rcases h' with h' | h'
    · exact hrow h h'
    · have := h.1; omega

/-- The output elements that thread `tid` stores. -/
def OwnOutElem (a : TiledCta 𝕜) (tid idx : ℕ) : Prop :=
  ∃ slot ∈ Strided.loop tid a.threads a.totalSlots, ∃ c < 4, a.i0 + slot / a.slotsPerRow < a.p.seqQ ∧
    idx = a.outBase + (slot / a.slotsPerRow * a.p.oStride.sS + (slot % a.slotsPerRow * 4 + c))

/-- The log-sum-exps that thread `tid` stores. -/
def OwnLse (a : TiledCta 𝕜) (tid idx : ℕ) : Prop :=
  ∃ row ∈ Strided.loop tid a.threads a.tile.blockM, a.i0 + row < a.p.seqQ ∧
    idx = (a.batch * a.p.numHeads + a.head) * a.p.seqQ + (a.i0 + row)

/-- A launch of `blocks` blocks of `n` threads whose stores to the output do not meet. -/
structure TiledGrid (cta : ℕ → TiledCta 𝕜) (blocks n : ℕ) : Prop where
  threads_eq : ∀ b < blocks, (cta b).threads = n
  out_inj : ∀ {b b' tid tid' idx}, b < blocks → b' < blocks → tid < n → tid' < n →
    OwnOutElem (cta b) tid idx → OwnOutElem (cta b') tid' idx → b = b' ∧ tid = tid'
  lse_inj : ∀ {b b' tid tid' idx}, b < blocks → b' < blocks → tid < n → tid' < n →
    OwnLse (cta b) tid idx → OwnLse (cta b') tid' idx → b = b' ∧ tid = tid'

/-- The cells of a thread: shared ones by `smem`, and its elements of the output. -/
def tiledCells (smem : TiledCta 𝕜 → ℕ → Clock → TileArray → ℕ → Prop)
    (cta : ℕ → TiledCta 𝕜)
    {blocks n : ℕ} (i : Tid blocks n) (t : Clock) : Set TiledCell :=
  {c | match c with
    | .smem b x idx => b = i.block ∧ smem (cta i.block) i.tid t x idx
    | .out idx => OwnOutElem (cta i.block) i.tid idx
    | .lse idx => OwnLse (cta i.block) i.tid idx}

/-- The rights of the threads. -/
def tiledRights {cta : ℕ → TiledCta 𝕜} {blocks n : ℕ} (h : TiledGrid cta blocks n) :
    TidRights TiledCell blocks n where
  read := tiledCells smemRead cta
  write := tiledCells smemWrite cta
  write_subset i t c hc := by
    cases c with
    | smem b x idx => exact ⟨hc.1, .inl hc.2⟩
    | out idx => exact hc
    | lse idx => exact hc
  apart := by
    intro i j t t' hij hblock hwarp c hc hc'
    have heq : i.block = j.block ∧ i.tid = j.tid := by
      cases c with
      | smem b x idx =>
        have hb : i.block = j.block := Fin.ext (hc.1.symm.trans hc'.1)
        have hthreads := h.threads_eq i.block i.block.isLt
        have hread : smemRead (cta i.block) j.tid t' x idx := by
          rw [hb]
          exact hc'.2
        exact ⟨hb, eq_of_smemWrite (i.tid_lt.trans_eq hthreads.symm) (j.tid_lt.trans_eq hthreads.symm)
          (hblock hb) (fun hw => hwarp hb (Prod.ext hb hw)) hc.2 hread⟩
      | out idx =>
        obtain ⟨hb, ht⟩ := h.out_inj i.block.isLt j.block.isLt i.tid_lt j.tid_lt hc hc'
        exact ⟨Fin.ext hb, ht⟩
      | lse idx =>
        obtain ⟨hb, ht⟩ := h.lse_inj i.block.isLt j.block.isLt i.tid_lt j.tid_lt hc hc'
        exact ⟨Fin.ext hb, ht⟩
    exact hij (Prod.ext heq.1 (Fin.ext heq.2))

end Rights

/-! ## The threads keep to their rights -/

section Keeps

variable {cta : ℕ → TiledCta 𝕜} {blocks n : ℕ} {h : TiledGrid cta blocks n} {i : Tid blocks n}
    {t : Clock}

omit [Field 𝕜] [LinearOrder 𝕜] in
theorem TiledGrid.tid_lt (h : TiledGrid cta blocks n) (i : Tid blocks n) : i.tid < (cta i.block).threads :=
  i.tid_lt.trans_eq (h.threads_eq i.block i.block.isLt).symm

omit [Field 𝕜] [LinearOrder 𝕜] in
theorem TiledGrid.warp_lt (h : TiledGrid cta blocks n) (i : Tid blocks n) :
    i.tid / 32 < (cta i.block).tile.warps :=
  Nat.div_lt_of_lt_mul ((h.tid_lt i).trans_eq (Nat.mul_comm _ _))

omit [Field 𝕜] [LinearOrder 𝕜] in
theorem getSmem_keeps {x : TileArray} {idx : ℕ} {Q : Clock → Flt 𝕜 → Prop}
    (hx : smemRead (cta i.block) i.tid t x idx) (hQ : ∀ v, Q t v) :
    (getSmem i x idx).Keeps (tiledRights h) i t Q := .get ⟨rfl, hx⟩ hQ

omit [Field 𝕜] [LinearOrder 𝕜] in
theorem putSmem_keeps {x : TileArray} {idx : ℕ} {v : Flt 𝕜} {Q : Clock → PUnit → Prop}
    (hx : smemWrite (cta i.block) i.tid t x idx) (hQ : Q t ⟨⟩) :
    (putSmem i x idx v).Keeps (tiledRights h) i t Q := .put ⟨rfl, hx⟩ hQ

theorem loadQuery_keeps {num : Numerics 𝕜} (ht : t.barriers = 0) {Q : Clock → PUnit → Prop}
    (hQ : Q t ⟨⟩) :
    (loadQuery num (cta i.block) i).Keeps (tiledRights h) i t Q := by
  have hrows : Prog.Keeps (tiledRights h) i (forM (Strided.loop i.tid (cta i.block).threads
      (cta i.block).tile.blockM) fun row => (do
        putSmem i .m row negInf
        putSmem i .l row 0 : TiledProg 𝕜 blocks n PUnit)) t Q := by
    refine .forM (fun row hrow => ?_) hQ
    have hmod := ((Strided.mem_loop_of_lt (h.tid_lt i)).mp hrow).2
    exact .bind (putSmem_keeps (.inl ⟨ht, hmod⟩) (putSmem_keeps (.inl ⟨ht, hmod⟩) rfl))
  exact .bind (.forM (fun idx hidx => putSmem_keeps ⟨ht, idx, hidx, rfl⟩ rfl) hrows)

theorem loadTile_keeps {num : Numerics 𝕜} (ht : t.barriers % 4 = 1) {jBase : ℕ}
    {Q : Clock → PUnit → Prop}
    (hQ : Q t ⟨⟩) : (loadTile num (cta i.block) i jBase).Keeps (tiledRights h) i t Q := by
  refine .forM (fun idx hidx => ?_) hQ
  exact .bind (putSmem_keeps ⟨ht, idx, hidx, rfl⟩ (putSmem_keeps ⟨ht, idx, hidx, rfl⟩ rfl))

theorem scoreTile_keeps (ht : t.barriers % 4 = 2) {jBase : ℕ} {Q : Clock → PUnit → Prop}
    (hQ : Q t ⟨⟩) :
    (scoreTile (cta i.block) i jBase).Keeps (tiledRights h) i t Q := by
  refine .forM (fun idx hidx => .bind (.foldlM (fun d _ dot => ?_) (fun dot => ?_) _)) hQ
  · exact .bind (getSmem_keeps (.inr ht) fun x => .bind (getSmem_keeps (.inr ht) fun y => .ret rfl))
  · exact putSmem_keeps (.inl ⟨ht, idx, hidx, rfl⟩) rfl

section Row

variable {row : ℕ} (hrow : row % (cta i.block).tile.warps = i.tid / 32)

include hrow

omit [Field 𝕜] [LinearOrder 𝕜] in
/-- A lane owns its columns of a row of its warp. -/
theorem ownScore_of_mem {col : ℕ} (hcol : col ∈ Strided.loop (i.tid % 32) 32 (cta i.block).tile.blockN) :
    OwnScore (cta i.block) i.tid (row * (cta i.block).sRowStride + col) := by
  obtain ⟨hlt, hmod⟩ := (Strided.mem_loop_of_lt (Nat.mod_lt _ (by decide))).mp hcol
  exact ⟨row, col, hlt, hrow, hmod, rfl⟩

omit [Field 𝕜] in
theorem laneMax_keeps (ht : t.barriers % 4 = 3) {Q : Clock → Flt 𝕜 → Prop} (hQ : ∀ m, Q t m) :
    (laneMax (cta i.block) i row).Keeps (tiledRights h) i t Q := by
  refine .foldlM (fun col hcol m => .bind (getSmem_keeps ?_ fun _ => .ret rfl)) hQ _
  exact .inl (.inr ⟨ht, ownScore_of_mem hrow hcol⟩)

theorem laneProbs_keeps {num : Numerics 𝕜} (ht : t.barriers % 4 = 3) {mNew : Flt 𝕜}
    {Q : Clock → Flt 𝕜 → Prop} (hQ : ∀ s, Q t s) :
    (laneProbs num (cta i.block) i row mNew).Keeps (tiledRights h) i t Q := by
  refine .foldlM (fun col hcol sum => ?_) hQ _
  have hown : smemWrite (cta i.block) i.tid t .s (row * (cta i.block).sRowStride + col) :=
    .inr ⟨ht, ownScore_of_mem hrow hcol⟩
  exact .bind (getSmem_keeps (.inl hown) fun value => .bind (putSmem_keeps hown (.ret rfl)))

theorem storeRow_keeps (ht : t.barriers % 4 = 3) (hex : t.exchanges % 10 = 0) {mNew alpha tileSum : Flt 𝕜}
    {Q : Clock → PUnit → Prop} (hQ : Q t ⟨⟩) :
    (storeRow i row mNew alpha tileSum).Keeps (tiledRights h) i t Q := by
  refine .when (fun hz => ?_) fun _ => hQ
  have hown : OwnRow (cta i.block) i.tid t row := ⟨ht, hex, hz, hrow⟩
  exact .bind (getSmem_keeps (.inl (.inr hown)) fun l => .bind (putSmem_keeps (.inr hown)
    (.bind (putSmem_keeps (.inr hown) (putSmem_keeps hown hQ)))))

/-- The update of a row takes ten exchanges. -/
theorem updateRow_keeps {num : Numerics 𝕜} (ht : t.barriers % 4 = 3) (hex : t.exchanges % 10 = 0)
    {Q : Clock → PUnit → Prop} (hQ : Q (t.exchanged 10) ⟨⟩) :
    (updateRow num (cta i.block) i row).Keeps (tiledRights h) i t Q := by
  refine .bind (laneMax_keeps hrow ht fun localMax => .bind (shflReduce_keeps fun tileMax => ?_))
  have hfive : (t.exchanged 5).exchanges % 10 = 5 := by
    simp only [Clock.exchanged]
    omega
  refine .bind (getSmem_keeps (.inr (.inr ⟨ht, hfive, hrow⟩)) fun mOld => ?_)
  refine .bind (laneProbs_keeps (t := t.exchanged 5) hrow ht fun localSum =>
    .bind (shflReduce_keeps fun tileSum => ?_))
  refine storeRow_keeps (t := (t.exchanged 5).exchanged 5) hrow ht ?_ hQ
  simp only [Clock.exchanged]
  omega

end Row

theorem updateRows_keeps {num : Numerics 𝕜} {b : ℕ} (hb : b % 4 = 3) {Q : Clock → PUnit → Prop}
    (hQ : ∀ e, Q ⟨b, e⟩ ⟨⟩) : Prog.Keeps (tiledRights h) i (forM (Strided.loop (i.tid / 32)
      (cta i.block).tile.warps (cta i.block).tile.blockM) (updateRow num (cta i.block) i)) ⟨b, 0⟩ Q := by
  rw [Prog.forM_eq_foldlM]
  refine .foldlM_of_invariant (fun k t _ => t = ⟨b, 10 * k⟩) (fun k hk t _ ht => ?_)
    (fun t _ ht => ?_) rfl
  · subst ht
    have hrow := ((Strided.mem_loop_of_lt (h.warp_lt i)).mp (List.getElem_mem hk)).2
    exact updateRow_keeps hrow hb (Nat.mul_mod_right 10 k) rfl
  · subst ht
    exact hQ _

theorem updateAcc_keeps (ht : t.barriers % 4 = 0 ∧ 0 < t.barriers) {acc : ℕ → ℕ → Flt 𝕜}
    {Q : Clock → (ℕ → ℕ → Flt 𝕜) → Prop} (hQ : ∀ acc, Q t acc) :
    (updateAcc (cta i.block) i acc).Keeps (tiledRights h) i t Q := by
  refine .foldlM (fun slot _ acc => .bind (.foldlM (fun col _ partials => ?_) (fun partials => ?_) _)) hQ _
  · refine .bind (getSmem_keeps (.inr ht) fun prob => ?_)
    split_ifs
    · exact .ret rfl
    · exact .foldlM (fun c _ partials => .bind (getSmem_keeps (.inr ht) fun x => .ret rfl)) (fun _ => rfl) _
  · exact .bind (getSmem_keeps (.inr ht) fun alpha => .ret rfl)

/-- An iteration of the tile loop passes four barriers. -/
theorem tileThread_keeps {num : Numerics 𝕜} {b : ℕ} (hb : b % 4 = 1) {acc : ℕ → ℕ → Flt 𝕜}
    {j0 : ℕ}
    {Q : Clock → (ℕ → ℕ → Flt 𝕜) → Prop} (hQ : ∀ acc, Q ⟨b + 4, 0⟩ acc) :
    (tileThread num (cta i.block) i acc j0).Keeps (tiledRights h) i ⟨b, 0⟩ Q := by
  have hrows : ∀ e, Prog.Keeps (tiledRights h) i (Prog.barrier.bind fun _ =>
      (updateAcc (cta i.block) i acc).bind fun acc => Prog.barrier.bind fun _ => Prog.ret acc)
      ⟨b + 2, e⟩ Q := by
    intro e
    refine .bind (.barrier (.bind (updateAcc_keeps ?_ fun acc => .bind (.barrier (hQ acc)))))
    exact ⟨by simp only [Clock.sync]; omega, Nat.succ_pos _⟩
  refine .bind (loadTile_keeps hb (.bind (.barrier (.bind (scoreTile_keeps ?_ (.bind (.barrier
    (.bind (updateRows_keeps (b := b + 2) ?_ hrows)))))))))
  · simp only [Clock.sync]
    omega
  · omega

theorem tiledEpilogue_keeps {num : Numerics 𝕜} (ht : t.barriers % 4 = 1) {acc : ℕ → ℕ → Flt 𝕜} :
    (tiledEpilogue num (cta i.block) i acc).Keeps (tiledRights h) i t fun _ _ => True := by
  have hlse :
    Prog.Keeps (tiledRights h) i (Prog.when ((cta i.block).p.returnLse ∧ (cta i.block).p.lse.isSome)
      (forM (Strided.loop i.tid (cta i.block).threads (cta i.block).tile.blockM)
        (storeLse num (cta i.block) i))) t fun _ _ => True := by
    refine .when (fun _ => .forM (fun row hrow => ?_) trivial) fun _ => trivial
    unfold storeLse
    split_ifs with hlt
    · exact .ret rfl
    · refine .bind (getSmem_keeps (.inr (.inl ht)) fun m => .bind (getSmem_keeps (.inr ht) fun l => ?_))
      exact .put ⟨row, hrow, not_le.mp hlt, rfl⟩ rfl
  refine .bind (.forM (fun slot hslot => ?_) hlse)
  unfold storeSlot
  dsimp only
  split_ifs with hlt
  · exact .ret rfl
  · refine .bind (getSmem_keeps (.inr ht) fun sum => .forM (fun c hc => ?_) rfl)
    exact .put ⟨slot, hslot, c, List.mem_range.mp hc, not_le.mp hlt, rfl⟩ rfl

/-- A thread of the kernel keeps to its rights. -/
theorem tiledThread_keeps {num : Numerics 𝕜} :
    (tiledThread num (cta i.block) i).Keeps (tiledRights h) i .start fun _ _ => True := by
  refine .bind (loadQuery_keeps rfl (.bind (.barrier (.bind ?_))))
  refine .foldlM_of_invariant (fun k t _ => t = ⟨1 + 4 * k, 0⟩) (fun k _ t acc ht => ?_)
    (fun t acc ht => ?_) rfl
  · subst ht
    exact tileThread_keeps (by omega) fun _ => rfl
  · subst ht
    exact tiledEpilogue_keeps (by simp only; omega)

end Keeps

end SciAttention

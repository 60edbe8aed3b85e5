import SciAttention.Attention.Config
import SciAttention.Common.AsyncCopy
import SciAttention.Common.Butterfly
import SciAttention.Common.Strided
import SciAttention.Common.TensorCore

/-!
# The flash forward kernel

Model of `src/backends/flash/flash_fwd_impl.cuh`, `flash_online_softmax.cuh`, `flash_causal_mask.cuh`
and `flash_fwd_launch.cu`, down to registers: a warp's fragments are functions of the lane, shared
memory is one flat array with the Q tile and the K and V ring buffers, and K/V tiles arrive through
`cp.async` groups. Narrowing casts are the identity and the fragment products exact. The index
arithmetic of a block is unbounded: a tensor with `2 ^ 31` query rows does not fit the devices the
kernel is built for.
-/

namespace SciAttention

/-! ## Parameters -/

/-- `cuda::FlashFwdParams`; null pointers are `none`. -/
structure FlashFwdParams (𝕜 : Type*) where
  q : Option Bytes
  k : Option Bytes
  v : Option Bytes
  out : Option (ℕ → Flt 𝕜)
  lse : Option (ℕ → Flt 𝕜)
  batch : ℕ
  numHeads : ℕ
  numKvHeads : ℕ
  seqQ : ℕ
  seqKv : ℕ
  headDim : ℕ
  qStride : Strides
  kStride : Strides
  vStride : Strides
  oStride : Strides
  scale : 𝕜
  causal : Bool
  returnLse : Bool
  diagonal : ℤ
  dtypeId : ℕ

/-- `flash::FlashTile`. -/
structure FlashTile where
  blockM : ℕ
  blockN : ℕ
  warps : ℕ
  stages : ℕ
  splitsD : ℕ := 1
deriving DecidableEq, Repr

/-- One block of the grid: the template arguments, the parameters with the memory behind the
pointers, and the block's indices. -/
structure FlashCta (𝕜 : Type*) where
  elem : DType
  headDim : ℕ
  tile : FlashTile
  causal : Bool
  p : FlashFwdParams 𝕜
  q : Bytes
  k : Bytes
  v : Bytes
  blockX : ℕ
  head : ℕ
  batch : ℕ

/-! ## Masks -/

/-- `MaskElementVisible`. -/
def maskElementVisible (row col diagonal : ℤ) : Bool := decide (col ≤ row + diagonal)

/-- `MaskTileFullyMasked`. -/
def maskTileFullyMasked (i0 blockM jBase diagonal : ℤ) : Bool :=
  decide (jBase > i0 + blockM - 1 + diagonal)

/-- `MaskWarpFullyVisible`. -/
def maskWarpFullyVisible (warpRow0 jBase blockN diagonal : ℤ) : Bool :=
  decide (jBase + blockN - 1 ≤ warpRow0 + diagonal)

/-! ## Online softmax -/

section Softmax

variable {𝕜 : Type*} [Field 𝕜] [LinearOrder 𝕜]

open Flt

/-- `OnlineSoftmax` of one lane; entry 0 is row `g` of the warp's tile, entry 1 row `g + 8`. -/
structure OnlineSoftmax (𝕜 : Type*) where
  m : ℕ → Flt 𝕜
  l : ℕ → Flt 𝕜
  alpha : ℕ → Flt 𝕜

/-- Accumulator registers of a warp: a fragment of four registers in every lane, tile by tile. -/
abbrev Frags (𝕜 : Type*) := ℕ → ℕ → ℕ → Flt 𝕜

namespace OnlineSoftmax

/-- `OnlineSoftmax::Init`. -/
def init : OnlineSoftmax 𝕜 := ⟨fun _ => negInf, fun _ => 0, fun _ => 0⟩

/-- `RowReduceMax4`. -/
def rowReduceMax4 (value : ℕ → Flt 𝕜) : ℕ → Flt 𝕜 := Butterfly.reduce fmaxf Butterfly.quad value

/-- `RowReduceSum4`. -/
def rowReduceSum4 (value : ℕ → Flt 𝕜) : ℕ → Flt 𝕜 :=
  Butterfly.reduce (· + ·) Butterfly.quad value

/-- `OnlineSoftmax::UpdateMax`, in all lanes of the warp. -/
def updateMax (E : ExactExp 𝕜) (nTiles : ℕ) (sFrag : Frags 𝕜) (st : ℕ → OnlineSoftmax 𝕜) :
    ℕ → OnlineSoftmax 𝕜 :=
  let tileMax : ℕ → ℕ → Flt 𝕜 := fun e lane => (List.range nTiles).foldl (fun t nt =>
    fmaxf t (fmaxf (sFrag nt lane (2 * e)) (sFrag nt lane (2 * e + 1)))) negInf
  let mNew : ℕ → ℕ → Flt 𝕜 := fun e lane => fmaxf ((st lane).m e) (rowReduceMax4 (tileMax e) lane)
  fun lane =>
    { m := fun e => mNew e lane
      l := (st lane).l
      -- nothing seen yet, or nothing visible: drop the accumulator instead of making a nan
      alpha := fun e =>
        if (st lane).m e = negInf ∨ mNew e lane = negInf then 0
        else expf E.exp ((st lane).m e - mNew e lane) }

/-- The probabilities that `UpdateProbabilities` leaves in the score fragments. -/
def probabilities (E : ExactExp 𝕜) (sFrag : Frags 𝕜) (st : ℕ → OnlineSoftmax 𝕜) : Frags 𝕜 :=
  fun nt lane i =>
    if (st lane).m (i / 2) = negInf then 0
    else expf E.exp (sFrag nt lane i - (st lane).m (i / 2))

/-- The running sums after `UpdateProbabilities`. -/
def updateProbabilities (nTiles : ℕ) (pFrag : Frags 𝕜) (st : ℕ → OnlineSoftmax 𝕜) :
    ℕ → OnlineSoftmax 𝕜 :=
  let sum : ℕ → ℕ → Flt 𝕜 := fun e lane => (List.range nTiles).foldl (fun t nt =>
    t + (pFrag nt lane (2 * e) + pFrag nt lane (2 * e + 1))) 0
  fun lane =>
    { st lane with l := fun e => (st lane).alpha e * (st lane).l e + rowReduceSum4 (sum e) lane }

/-- `OnlineSoftmax::Lse`. -/
def lse (L : 𝕜 → 𝕜) (st : OnlineSoftmax 𝕜) (e : ℕ) : Flt 𝕜 :=
  if gtZero (st.l e) then st.m e + logf L (st.l e) else negInf

end OnlineSoftmax

end Softmax

/-! ## Geometry of a block -/

/-- `kRowPadElems`. -/
def rowPadElems : ℕ := 8

/-- `kVectorAlignBytes`. -/
def vectorAlignBytes : ℕ := 16

namespace FlashCta

variable {𝕜 : Type*} (a : FlashCta 𝕜)

/-- `kWarpsM`. -/
def warpsM : ℕ := a.tile.blockM / 16

/-- `kWarps`. -/
def warps : ℕ := a.warpsM * a.tile.splitsD

/-- `kThreads`. -/
def threads : ℕ := a.warps * 32

/-- `kRowStride`. -/
def rowStride : ℕ := a.headDim + rowPadElems

/-- `kKvTileElems`. -/
def kvTileElems : ℕ := a.tile.blockN * a.rowStride

/-- `kNTiles`. -/
def nTiles : ℕ := a.tile.blockN / 8

/-- `kQKTiles`. -/
def qkTiles : ℕ := a.headDim / 16

/-- `kDTiles`. -/
def dTiles : ℕ := a.headDim / 8

/-- `kDTilesPerWarp`. -/
def dTilesPerWarp : ℕ := a.dTiles / a.tile.splitsD

/-- `k_smem`; the Q tile starts at 0. -/
def kSmem : ℕ := a.tile.blockM * a.rowStride

/-- `v_smem`. -/
def vSmem : ℕ := a.kSmem + a.tile.stages * a.kvTileElems

/-- `i0`. -/
def i0 : ℕ := a.blockX * a.tile.blockM

/-- `h_kv`. -/
def hKv : ℕ := a.head / (a.p.numHeads / a.p.numKvHeads)

/-- `q_row0`, as an element offset. -/
def qRow0 : ℕ := a.batch * a.p.qStride.sB + a.head * a.p.qStride.sH + a.i0 * a.p.qStride.sS

/-- `k_row0`. -/
def kRow0 : ℕ := a.batch * a.p.kStride.sB + a.hKv * a.p.kStride.sH

/-- `v_row0`. -/
def vRow0 : ℕ := a.batch * a.p.vStride.sB + a.hKv * a.p.vStride.sH

/-- `out_row0`. -/
def outRow0 : ℕ := a.batch * a.p.oStride.sB + a.head * a.p.oStride.sH + a.i0 * a.p.oStride.sS

/-- `j_tiles`. -/
def jTiles : ℕ := (a.p.seqKv + a.tile.blockN - 1) / a.tile.blockN

/-- `warp_m`. -/
def warpM (warp : ℕ) : ℕ := warp / a.tile.splitsD

/-- `d_split`. -/
def dSplit (warp : ℕ) : ℕ := warp % a.tile.splitsD

/-- `kChunksPerRow`. -/
def chunksPerRow : ℕ := a.headDim * dtypeSize a.elem / vectorAlignBytes

/-- `kElemsPerChunk`. -/
def elemsPerChunk : ℕ := vectorAlignBytes / dtypeSize a.elem

end FlashCta

/-! ## Loading tiles -/

section Kernel

variable {𝕜 : Type*} [Field 𝕜] [LinearOrder 𝕜] (num : Numerics 𝕜)

open Flt TensorCore

namespace FlashCta

variable (a : FlashCta 𝕜)

/-- The chunks of a K or V tile that the threads copy, thread by thread: those with a row of the
tensor, or those behind it. -/
def tileChunks (jBase : ℕ) (inside : Bool) : List ℕ :=
  (Strided.threads a.threads (a.tile.blockN * a.chunksPerRow)).filter fun idx =>
    decide (jBase + idx / a.chunksPerRow < a.p.seqKv) == inside

/-- The shared-memory cells of chunk `idx` of the tile at `smemTile`. -/
def chunkCell (smemTile idx e : ℕ) : ℕ :=
  smemTile + idx / a.chunksPerRow * a.rowStride + idx % a.chunksPerRow * a.elemsPerChunk + e

/-- The asynchronous copies of `FlashLoadTile`. -/
def tileCopies (gmem : Bytes) (gmemRow0 gmemRowStride smemTile jBase : ℕ) : List (ℕ × Flt 𝕜) :=
  (a.tileChunks jBase true).flatMap fun idx => (List.range a.elemsPerChunk).map fun e =>
    (a.chunkCell smemTile idx e,
      fin (num.load a.elem gmem (gmemRow0 + (jBase + idx / a.chunksPerRow) * gmemRowStride +
        idx % a.chunksPerRow * a.elemsPerChunk + e)))

/-- The zero fill of `FlashLoadTile` for rows behind the tensor. -/
def tileZeros (smemTile jBase : ℕ) : List (ℕ × Flt 𝕜) :=
  (a.tileChunks jBase false).flatMap fun idx => (List.range a.elemsPerChunk).map fun e =>
    (a.chunkCell smemTile idx e, 0)

/-- The buffer of K tile `t`. -/
def kTile (t : ℕ) : ℕ := a.kSmem + t % a.tile.stages * a.kvTileElems

/-- The buffer of V tile `t`. -/
def vTile (t : ℕ) : ℕ := a.vSmem + t % a.tile.stages * a.kvTileElems

/-- The copies issued for K/V tile `t`. -/
def copies (t : ℕ) : List (ℕ × Flt 𝕜) :=
  a.tileCopies num a.k a.kRow0 a.p.kStride.sS (a.kTile t) (t * a.tile.blockN) ++
    a.tileCopies num a.v a.vRow0 a.p.vStride.sS (a.vTile t) (t * a.tile.blockN)

/-- The plain stores for K/V tile `t`. -/
def zeros (t : ℕ) : List (ℕ × Flt 𝕜) :=
  a.tileZeros (a.kTile t) (t * a.tile.blockN) ++ a.tileZeros (a.vTile t) (t * a.tile.blockN)

/-- The stores of the Q tile; rows behind the tensor are zero. -/
def qStores : List (ℕ × Flt 𝕜) :=
  (Strided.threads a.threads (a.tile.blockM * a.headDim)).map fun idx =>
    (idx / a.headDim * a.rowStride + idx % a.headDim,
      if a.i0 + idx / a.headDim < a.p.seqQ then
        fin (num.load a.elem a.q (a.qRow0 + (idx / a.headDim * a.p.qStride.sS + idx % a.headDim)))
      else 0)

/-- `q_frag[kt]` of a warp. -/
def qFrag (smem : ℕ → Flt 𝕜) (warp kt : ℕ) : ℕ → ℕ → Flt 𝕜 × Flt 𝕜 :=
  ldMatrixX4 smem fun lane =>
    (a.warpM warp * 16 + ldRow lane) * a.rowStride + (16 * kt + ldCol lane)

/-! ## One tile -/

/-- One `(kt, np)` step of `S = Q Kᵀ`. -/
def qkStep (smem : ℕ → Flt 𝕜) (kTile : ℕ) (qFrag : ℕ → ℕ → ℕ → Flt 𝕜 × Flt 𝕜)
    (kt : ℕ)
    (sFrag : Frags 𝕜) (np : ℕ) : Frags 𝕜 :=
  let kb := ldMatrixX4 smem fun lane =>
    kTile + (16 * np + ldRow lane) * a.rowStride + (16 * kt + ldCol lane)
  let sFrag := Function.update sFrag (2 * np)
    (mma (sFrag (2 * np)) (qFrag kt) (fun lane => kb lane 0) fun lane => kb lane 2)
  Function.update sFrag (2 * np + 1)
    (mma (sFrag (2 * np + 1)) (qFrag kt) (fun lane => kb lane 1) fun lane => kb lane 3)

/-- `S = Q Kᵀ`. -/
def qkLoop (smem : ℕ → Flt 𝕜) (kTile : ℕ) (qFrag : ℕ → ℕ → ℕ → Flt 𝕜 × Flt 𝕜) :
    Frags 𝕜 :=
  (List.range a.qkTiles).foldl (fun sFrag kt =>
    (List.range (a.nTiles / 2)).foldl (a.qkStep smem kTile qFrag kt) sFrag) fun _ _ _ => 0

/-- `need_mask` of a warp. -/
def needMask (warp jBase : ℕ) : Bool :=
  let tileInRange := decide (jBase + a.tile.blockN ≤ a.p.seqKv)
  let fullyVisible := !a.causal ||
    maskWarpFullyVisible (a.i0 + a.warpM warp * 16) jBase a.tile.blockN a.p.diagonal
  !tileInRange || !fullyVisible

/-- `vis0 … vis3`: register `i` of a lane is visible. -/
def vis (warp jBase nt lane i : ℕ) : Bool :=
  if a.needMask warp jBase then
    decide (jBase + 8 * nt + accCol lane i < a.p.seqKv) &&
      (!a.causal || maskElementVisible (a.i0 + a.warpM warp * 16 + accRow lane i)
        (jBase + 8 * nt + accCol lane i) a.p.diagonal)
  else true

/-- Scale and mask the scores. -/
def scaleMask (warp jBase : ℕ) (sFrag : Frags 𝕜) : Frags 𝕜 :=
  fun nt lane i =>
    if a.vis warp jBase nt lane i then sFrag nt lane i * fin a.p.scale else negInf

/-- One `(kt, dp)` step of `O += P V`. -/
def pvStep (smem : ℕ → Flt 𝕜) (vTile warp : ℕ) (pFrag : Frags 𝕜) (kt : ℕ) (oAcc : Frags 𝕜)
    (dp : ℕ) : Frags 𝕜 :=
  let pa := packAcc (pFrag (2 * kt)) (pFrag (2 * kt + 1))
  let vb := ldMatrixX4Trans smem fun lane =>
    vTile + (16 * kt + ldRow lane) * a.rowStride +
      ((a.dSplit warp * a.dTilesPerWarp + 2 * dp) * 8 + ldCol lane)
  -- registers (0, 1) are the rows 0-7 and 8-15 of the first n-tile, (2, 3) those of the second
  let oAcc := Function.update oAcc (2 * dp)
    (mma (oAcc (2 * dp)) pa (fun lane => vb lane 0) fun lane => vb lane 1)
  Function.update oAcc (2 * dp + 1)
    (mma (oAcc (2 * dp + 1)) pa (fun lane => vb lane 2) fun lane => vb lane 3)

/-- `O += P V`. -/
def pvLoop (smem : ℕ → Flt 𝕜) (vTile warp : ℕ) (pFrag oAcc : Frags 𝕜) : Frags 𝕜 :=
  (List.range (a.tile.blockN / 16)).foldl (fun oAcc kt =>
    (List.range (a.dTilesPerWarp / 2)).foldl (a.pvStep smem vTile warp pFrag kt) oAcc) oAcc

end FlashCta

/-- The registers that a warp keeps across tiles. -/
structure FlashWarp (𝕜 : Type*) where
  softmax : ℕ → OnlineSoftmax 𝕜
  oAcc : Frags 𝕜

/-- A warp before the first tile. -/
def FlashWarp.init : FlashWarp 𝕜 := ⟨fun _ => .init, fun _ _ _ => 0⟩

namespace FlashCta

variable (a : FlashCta 𝕜)

/-- The compute part of one iteration, in one warp. -/
def warpStep (smem : ℕ → Flt 𝕜) (qFrag : ℕ → ℕ → ℕ → Flt 𝕜 × Flt 𝕜)
    (jIdx warp : ℕ)
    (st : FlashWarp 𝕜) : FlashWarp 𝕜 :=
  let sFrag := a.scaleMask warp (jIdx * a.tile.blockN) (a.qkLoop smem (a.kTile jIdx) qFrag)
  let softmax := OnlineSoftmax.updateMax num.E a.nTiles sFrag st.softmax
  let pFrag := OnlineSoftmax.probabilities num.E sFrag softmax
  let softmax := OnlineSoftmax.updateProbabilities a.nTiles pFrag softmax
  let oAcc : Frags 𝕜 := fun dt lane i => st.oAcc dt lane i * (softmax lane).alpha (i / 2)
  ⟨softmax, a.pvLoop smem (a.vTile jIdx) warp pFrag oAcc⟩

end FlashCta

/-! ## The main loop -/

/-- A block between two iterations: shared memory with its copies in flight, and the warps. -/
structure FlashState (𝕜 : Type*) where
  smem : AsyncCopy.State (Flt 𝕜)
  warps : ℕ → FlashWarp 𝕜

namespace FlashCta

variable (a : FlashCta 𝕜)

/-- Issue K/V tile `t`, when there is one, and commit. -/
def prefetch (smem : AsyncCopy.State (Flt 𝕜)) (t : ℕ) : AsyncCopy.State (Flt 𝕜) :=
  if t < a.jTiles then (smem.store (a.zeros t)).commit (a.copies num t) else smem.commit []

/-- One iteration of the main loop. -/
def iteration (qFrag : ℕ → ℕ → ℕ → ℕ → Flt 𝕜 × Flt 𝕜) (st : FlashState 𝕜)
    (jIdx : ℕ) :
    FlashState 𝕜 :=
  let smem := st.smem.waitGroup (a.tile.stages - 2)
  -- refill the buffer of the previous iteration while this tile is computed on
  let smem := a.prefetch num smem (jIdx + a.tile.stages - 1)
  { smem := smem
    warps := fun warp => a.warpStep num smem.mem (qFrag warp) jIdx warp (st.warps warp) }

/-- The tiles the main loop visits before it is done or breaks. -/
def tilesVisited : List ℕ :=
  (List.range a.jTiles).takeWhile fun jIdx =>
    !(a.causal && maskTileFullyMasked a.i0 a.tile.blockM (jIdx * a.tile.blockN : ℕ) a.p.diagonal)

/-- The pipeline prologue: tiles in flight before the main loop. -/
def prologue (smem : AsyncCopy.State (Flt 𝕜)) : AsyncCopy.State (Flt 𝕜) :=
  ((List.range (a.tile.stages - 1)).takeWhile fun s => decide (s < a.jTiles)).foldl
    (fun smem s => (smem.store (a.zeros s)).commit (a.copies num s)) smem

/-- Shared memory with the Q tile. -/
def qSmem (smem : ℕ → Flt 𝕜) : ℕ → Flt 𝕜 := Scatter.apply smem (a.qStores num)

/-- The block after its main loop; shared memory starts with arbitrary contents. -/
def mainLoop (smem : ℕ → Flt 𝕜) : FlashState 𝕜 :=
  let smem := a.qSmem num smem
  a.tilesVisited.foldl (a.iteration num (a.qFrag smem))
    ⟨a.prologue num ⟨smem, []⟩, fun _ => .init⟩

/-! ## Epilogue -/

/-- The output stores of a warp. -/
def outStores (warp : ℕ) (st : FlashWarp 𝕜) : List (ℕ × Flt 𝕜) :=
  (List.range 32).flatMap fun lane => (List.range a.dTilesPerWarp).flatMap fun dt =>
    (List.range 4).flatMap fun i =>
      let row := a.i0 + a.warpM warp * 16 + accRow lane i
      let l := (st.softmax lane).l (i / 2)
      let inv := if gtZero l then recip l else 0
      let dcol := (a.dSplit warp * a.dTilesPerWarp + dt) * 8 + accCol lane i
      if row < a.p.seqQ then
        [(a.outRow0 + (row - a.i0) * a.p.oStride.sS + dcol, st.oAcc dt lane i * inv)]
      else []

/-- The LSE stores of a warp. -/
def lseStores (warp : ℕ) (st : FlashWarp 𝕜) : List (ℕ × Flt 𝕜) :=
  if a.p.returnLse ∧ a.p.lse.isSome then
    (List.range 32).flatMap fun lane => (List.range 2).flatMap fun e =>
      let row := a.i0 + a.warpM warp * 16 + (lane / 4 + 8 * e)
      if lane % 4 = 0 ∧ row < a.p.seqQ then
        [((a.batch * a.p.numHeads + a.head) * a.p.seqQ + row, (st.softmax lane).lse num.log e)]
      else []
  else []

/-- `flash_fwd_kernel`: the output and LSE stores of one block. -/
def stores (smem : ℕ → Flt 𝕜) : List (ℕ × Flt 𝕜) × List (ℕ × Flt 𝕜) :=
  let st := a.mainLoop num smem
  ((List.range a.warps).flatMap fun warp => a.outStores warp (st.warps warp),
    (List.range a.warps).flatMap fun warp => a.lseStores num warp (st.warps warp))

end FlashCta

/-! ## Launches -/

/-- The memory behind the pointers, once none of them is null. -/
structure FlashBuffers (𝕜 : Type*) where
  q : Bytes
  k : Bytes
  v : Bytes
  out : ℕ → Flt 𝕜

variable (p : FlashFwdParams 𝕜) (buf : FlashBuffers 𝕜) (elem : DType) (headDim : ℕ)
  (tile : FlashTile)

/-- Block `(x, y, z)` of the grid. -/
def FlashFwdParams.cta (x y z : ℕ) : FlashCta 𝕜 :=
  { elem, headDim, tile, causal := p.causal, p, q := buf.q, k := buf.k, v := buf.v
    blockX := x, head := y, batch := z }

/-- `grid_x`. -/
def flashGridX : ℕ := (p.seqQ + tile.blockM - 1) / tile.blockM

/-- The output and LSE stores of a grid; `smem` is what the shared memory of each block starts
with. -/
def flashGridStores (smem : ℕ → ℕ → ℕ → ℕ → Flt 𝕜) (gridX gridY gridZ : ℕ) :
    List (ℕ × Flt 𝕜) × List (ℕ × Flt 𝕜) :=
  let blocks : List (List (ℕ × Flt 𝕜) × List (ℕ × Flt 𝕜)) :=
    (List.range gridZ).flatMap fun z => (List.range gridY).flatMap fun y =>
      (List.range gridX).map fun x => (p.cta buf elem headDim tile x y z).stores num (smem x y z)
  (blocks.flatMap Prod.fst, blocks.flatMap Prod.snd)

/-- `LaunchTyped`: the output and, where there is one, the LSE buffer after the kernel. -/
def launchFlashTyped (smem : ℕ → ℕ → ℕ → ℕ → Flt 𝕜) (outcome : LaunchOutcome) :
    Except Status ((ℕ → Flt 𝕜) × Option (ℕ → Flt 𝕜)) :=
  let gridX := int32Cast (flashGridX p tile)
  let gridY := int32Cast p.numHeads
  let gridZ := int32Cast p.batch
  let status := launchRaw gridX gridY gridZ outcome
  if ¬ status.isOk then .error status
  else
    let stores :=
      flashGridStores num p buf elem headDim tile smem gridX.toNat gridY.toNat gridZ.toNat
    .ok (Scatter.apply buf.out stores.1, p.lse.map fun lse => Scatter.apply lse stores.2)

/-- `kFlashTiles`. -/
def flashTiles : List (ℕ × FlashTile) :=
  [(32, ⟨64, 64, 4, 2, 1⟩), (64, ⟨64, 64, 4, 2, 1⟩), (96, ⟨64, 64, 4, 2, 1⟩),
    (128, ⟨64, 64, 4, 2, 1⟩), (160, ⟨64, 32, 8, 2, 2⟩), (192, ⟨64, 32, 8, 2, 2⟩),
    (256, ⟨32, 32, 4, 2, 2⟩)]

/-- `FindFlashTile`. -/
def findFlashTile (headDim : ℕ) : Option FlashTile :=
  (flashTiles.find? fun entry => entry.1 == headDim).map Prod.snd

/-- `FlashTile::ToString`. -/
def FlashTile.toText (t : FlashTile) : String :=
  "bm=" ++ toString t.blockM ++ ",bn=" ++ toString t.blockN ++ ",warps=" ++ toString t.warps ++
    ",stages=" ++ toString t.stages ++ ",splits_d=" ++ toString t.splitsD

/-- `LaunchChecked`, with the instantiation's geometry as an argument. -/
def launchFlashChecked (compiled : FlashTile) (smem : ℕ → ℕ → ℕ → ℕ → Flt 𝕜)
    (outcome : LaunchOutcome) : Except Status ((ℕ → Flt 𝕜) × Option (ℕ → Flt 𝕜)) :=
  if tile.blockM ≠ compiled.blockM ∨ tile.blockN ≠ compiled.blockN ∨
      tile.stages ≠ compiled.stages ∨ tile.splitsD ≠ compiled.splitsD then
    .error (Status.invalidArgument
      ("flash: tile table and compiled instantiation disagree for head_dim=" ++ toString headDim ++
        " (table " ++ tile.toText ++ ")"))
  else launchFlashTyped num p buf elem headDim compiled smem outcome

/-- `LaunchForHeadDim`. -/
def launchForHeadDim (smem : ℕ → ℕ → ℕ → ℕ → Flt 𝕜) (outcome : LaunchOutcome) :
    Except Status ((ℕ → Flt 𝕜) × Option (ℕ → Flt 𝕜)) :=
  match findFlashTile headDim with
  | none =>
    .error (Status.invalidArgument ("flash: no tile entry for head_dim=" ++ toString headDim))
  | some tile =>
    let compiled : FlashTile :=
      if headDim ≤ 128 then { blockM := 64, blockN := 64, warps := 4, stages := 2, splitsD := 1 }
      else if headDim ≤ 192 then
        { blockM := 64, blockN := 32, warps := 8, stages := 2, splitsD := 2 }
      else { blockM := 32, blockN := 32, warps := 4, stages := 2, splitsD := 2 }
    launchFlashChecked num p buf elem headDim tile compiled smem outcome

/-- `LaunchFlashFwd`. -/
def launchFlashFwd (smem : ℕ → ℕ → ℕ → ℕ → Flt 𝕜) (outcome : LaunchOutcome) :
    Except Status ((ℕ → Flt 𝕜) × Option (ℕ → Flt 𝕜)) :=
  match p.q, p.k, p.v, p.out with
  | some q, some k, some v, some out =>
    let elem? : Option DType :=
      match p.dtypeId with
      | 1 => some .float16
      | 2 => some .bfloat16
      | _ => none
    match elem? with
    | none =>
      .error (Status.invalidArgument
        ("flash attention: only fp16/bf16 are instantiated (dtype_id=" ++ toString p.dtypeId ++
          "); use the naive or tiled backend for FP32"))
    | some elem =>
      if (p.headDim : ℤ) ∈ supportedHeadDims then
        launchForHeadDim num p ⟨q, k, v, out⟩ elem p.headDim smem outcome
      else
        .error (Status.invalidArgument
          ("flash attention: head_dim=" ++ toString p.headDim ++ " is not instantiated"))
  | _, _, _, _ => .error (Status.invalidArgument "flash attention: null tensor pointer")

end Kernel

end SciAttention

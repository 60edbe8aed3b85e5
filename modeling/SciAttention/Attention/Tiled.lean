import SciAttention.Attention.Decode

/-!
# The tiled kernel

Model of `src/backends/tiled/attention_tiled.cu`. The arrays in shared memory do not overlap, so each
is a memory of its own; the loops of a block between two barriers are lists of writes over the strided
indices of its threads. The accumulator is `acc[slot / kThreads]` of the thread that owns a slot, as in
the source.
-/

namespace SciAttention

/-! ## Parameters -/

/-- `cuda::TiledDtype`: the same enumeration as the decode kernels'. -/
abbrev TiledDtype := DecodeDtype

/-- `cuda::TiledFwdParams`; null pointers are `none`. -/
structure TiledFwdParams (𝕜 : Type*) where
  q : Option Bytes
  k : Option Bytes
  v : Option Bytes
  out : Option (ℕ → Flt 𝕜)
  lse : Option (ℕ → Flt 𝕜)
  batch : ℕ
  numHeads : ℕ
  numKvHeads : ℕ
  seqQ : ℕ
  seqKv : ℕ
  headDim : ℕ
  qStride : Strides
  kStride : Strides
  vStride : Strides
  oStride : Strides
  scale : 𝕜
  causal : Bool
  returnLse : Bool
  diagonal : ℤ
  dtype : TiledDtype

/-- The geometry of one instantiation: `kBlockM`, `kBlockN` and `kWarps`. -/
structure TileCandidate where
  blockM : ℕ
  blockN : ℕ
  warps : ℕ
deriving DecidableEq, Repr

/-- The memory behind the pointers, once none of them is null. -/
structure TiledBuffers (𝕜 : Type*) where
  q : Bytes
  k : Bytes
  v : Bytes
  out : ℕ → Flt 𝕜

/-- One block of the grid: the template arguments, the parameters with the memory behind the
pointers, and the block's indices. -/
structure TiledCta (𝕜 : Type*) where
  elem : DType
  headDim : ℕ
  tile : TileCandidate
  p : TiledFwdParams 𝕜
  q : Bytes
  k : Bytes
  v : Bytes
  blockX : ℕ
  head : ℕ
  batch : ℕ

/-- `kQSplit`: elements of padding per Q, K or V row. -/
def tiledRowPad : ℕ := 8

/-- `kSPad`: floats of padding per S row. -/
def scorePad : ℕ := 4

/-- `kNumRowVectors`. -/
def numRowVectors : ℕ := 3

namespace TiledCta

variable {𝕜 : Type*} (a : TiledCta 𝕜)

/-- `kRowStride`. -/
def rowStride : ℕ := a.headDim + tiledRowPad

/-- `kSRowStride`. -/
def sRowStride : ℕ := a.tile.blockN + scorePad

/-- `kSlotsPerRow`. -/
def slotsPerRow : ℕ := a.headDim / 4

/-- `kTotalSlots`. -/
def totalSlots : ℕ := a.tile.blockM * a.slotsPerRow

/-- `kThreads`. -/
def threads : ℕ := a.tile.warps * 32

/-- `i0`. -/
def i0 : ℕ := a.blockX * a.tile.blockM

/-- `h_kv`. -/
def hKv : ℕ := a.head / (a.p.numHeads / a.p.numKvHeads)

/-- `q_base`. -/
def qBase : ℕ := a.batch * a.p.qStride.sB + a.head * a.p.qStride.sH + a.i0 * a.p.qStride.sS

/-- `k_base`. -/
def kBase : ℕ := a.batch * a.p.kStride.sB + a.hKv * a.p.kStride.sH

/-- `v_base`. -/
def vBase : ℕ := a.batch * a.p.vStride.sB + a.hKv * a.p.vStride.sH

/-- `out_base`. -/
def outBase : ℕ := a.batch * a.p.oStride.sB + a.head * a.p.oStride.sH + a.i0 * a.p.oStride.sS

/-- `j_tiles`. -/
def jTiles : ℕ := (a.p.seqKv + a.tile.blockN - 1) / a.tile.blockN

/-- The tiles the loop visits before it is done or breaks. -/
def tilesVisited : List ℕ :=
  (List.range a.jTiles).takeWhile fun j0 =>
    !(a.p.causal && decide ((j0 * a.tile.blockN : ℕ) > (a.i0 : ℤ) + a.tile.blockM - 1 + a.p.diagonal))

end TiledCta

section Kernel

variable {𝕜 : Type*} [Field 𝕜] [LinearOrder 𝕜]

open Flt

/-- The registers and the row vectors that live across the tiles: `m_row`, `l_row`, and the
accumulators `acc[n]` of every thread, four components each. -/
structure TiledState (𝕜 : Type*) where
  m : ℕ → Flt 𝕜
  l : ℕ → Flt 𝕜
  acc : ℕ → ℕ → ℕ → Flt 𝕜

namespace TiledCta

variable (num : Numerics 𝕜) (a : TiledCta 𝕜)

/-! ## Loading tiles -/

/-- The stores of the Q tile. -/
def qStores : List (ℕ × Flt 𝕜) :=
  (Strided.threads a.threads (a.tile.blockM * a.headDim)).map fun idx =>
    let row := idx / a.headDim
    let col := idx % a.headDim
    (row * a.rowStride + col,
      if a.i0 + row < a.p.seqQ then
        fin (num.load a.elem a.q (a.qBase + (row * a.p.qStride.sS + col)))
      else 0)

/-- The stores of a K or V tile. -/
def kvStores (mem : Bytes) (base tokenStride jBase : ℕ) : List (ℕ × Flt 𝕜) :=
  (Strided.threads a.threads (a.tile.blockN * a.headDim)).map fun idx =>
    let row := idx / a.headDim
    let col := idx % a.headDim
    (row * a.rowStride + col,
      if jBase + row < a.p.seqKv then
        fin (num.load a.elem mem (base + ((jBase + row) * tokenStride + col)))
      else 0)

/-! ## Scores -/

/-- The stores of the S tile: scale and masks. -/
def scoreStores (qSmem kSmem : ℕ → Flt 𝕜) (jBase : ℕ) : List (ℕ × Flt 𝕜) :=
  (Strided.threads a.threads (a.tile.blockM * a.tile.blockN)).map fun idx =>
    let row := idx / a.tile.blockN
    let col := idx % a.tile.blockN
    let dot := (List.range a.headDim).foldl (fun dot d =>
      dot + qSmem (row * a.rowStride + d) * kSmem (col * a.rowStride + d)) 0
    (row * a.sRowStride + col,
      if jBase + col ≥ a.p.seqKv ∨
          a.p.causal ∧ ((jBase + col : ℕ) : ℤ) > (a.i0 : ℤ) + row + a.p.diagonal then negInf
      else dot * fin a.p.scale)

/-! ## Online softmax -/

/-- `WarpMax`. -/
def warpMax (value : ℕ → Flt 𝕜) : ℕ → Flt 𝕜 := Butterfly.reduce fmaxf Butterfly.warp value

/-- `WarpSum`. -/
def warpSum (value : ℕ → Flt 𝕜) : ℕ → Flt 𝕜 := Butterfly.reduce (· + ·) Butterfly.warp value

/-- `tile_max` of a row. -/
def tileMax (sTile : ℕ → Flt 𝕜) (row : ℕ) : ℕ → Flt 𝕜 :=
  warpMax fun lane => (Strided.loop lane 32 a.tile.blockN).foldl
    (fun m col => fmaxf m (sTile (row * a.sRowStride + col))) negInf

/-- `prob` of an entry of the S tile. -/
def prob (E : ExactExp 𝕜) (mNew value : Flt 𝕜) : Flt 𝕜 :=
  if mNew = negInf then 0 else expf E.exp (value - mNew)

/-- The row update of lane `lane`: `m_new`, `alpha` and `tile_sum`. -/
def rowUpdate (sTile : ℕ → Flt 𝕜) (mOld : Flt 𝕜) (row lane : ℕ) :
    Flt 𝕜 × Flt 𝕜 × Flt 𝕜 :=
  let mNew : ℕ → Flt 𝕜 := fun lane => fmaxf mOld (a.tileMax sTile row lane)
  let alpha :=
    if mOld = negInf ∨ mNew lane = negInf then 0 else expf num.E.exp (mOld - mNew lane)
  let tileSum := warpSum (fun lane => (Strided.loop lane 32 a.tile.blockN).foldl
    (fun s col => s + prob num.E (mNew lane) (sTile (row * a.sRowStride + col))) 0) lane
  (mNew lane, alpha, tileSum)

/-- The rows of the block, warp by warp. -/
def blockRows : List ℕ := Strided.threads a.tile.warps a.tile.blockM

/-- The probabilities that the warps leave in the S tile. -/
def probStores (sTile : ℕ → Flt 𝕜) (m : ℕ → Flt 𝕜) : List (ℕ × Flt 𝕜) :=
  a.blockRows.flatMap fun row => (Strided.threads 32 a.tile.blockN).map fun col =>
    (row * a.sRowStride + col,
      -- column `col` belongs to lane `col % 32`
      prob num.E (a.rowUpdate num sTile (m row) row (col % 32)).1 (sTile (row * a.sRowStride + col)))

/-! ## PV -/

/-- The partial product of one slot: component `c` of `partial`. -/
def partialDot (pTile vSmem : ℕ → Flt 𝕜) (slot c : ℕ) : Flt 𝕜 :=
  let row := slot / a.slotsPerRow
  let d0 := slot % a.slotsPerRow * 4
  (List.range a.tile.blockN).foldl (fun acc col =>
    -- masked columns contribute exactly nothing
    if pTile (row * a.sRowStride + col) = 0 then acc
    else acc + pTile (row * a.sRowStride + col) * vSmem (col * a.rowStride + (d0 + c))) 0

/-- The accumulators of thread `tid` after its loop over its slots. -/
def accUpdate (pTile vSmem alpha : ℕ → Flt 𝕜) (tid : ℕ) (acc : ℕ → ℕ → Flt 𝕜) :
    ℕ → ℕ → Flt 𝕜 :=
  (Strided.loop tid a.threads a.totalSlots).foldl (fun acc slot =>
    Function.update acc (slot / a.threads) fun c =>
      alpha (slot / a.slotsPerRow) * acc (slot / a.threads) c +
        a.partialDot pTile vSmem slot c) acc

/-! ## The tile loop -/

/-- One iteration over a tile. The contents of the arrays that are overwritten do not matter. -/
def tileStep (qSmem : ℕ → Flt 𝕜) (st : TiledState 𝕜) (j0 : ℕ) : TiledState 𝕜 :=
  let jBase := j0 * a.tile.blockN
  let kSmem := Scatter.apply (fun _ => nan) (a.kvStores num a.k a.kBase a.p.kStride.sS jBase)
  let vSmem := Scatter.apply (fun _ => nan) (a.kvStores num a.v a.vBase a.p.vStride.sS jBase)
  let sTile := Scatter.apply (fun _ => nan) (a.scoreStores qSmem kSmem jBase)
  let pTile := Scatter.apply sTile (a.probStores num sTile st.m)
  let m := Scatter.apply st.m (a.blockRows.map fun row =>
    (row, (a.rowUpdate num sTile (st.m row) row 0).1))
  let alpha := Scatter.apply (fun _ => nan) (a.blockRows.map fun row =>
    (row, (a.rowUpdate num sTile (st.m row) row 0).2.1))
  let l := Scatter.apply st.l (a.blockRows.map fun row =>
    (row, alpha row * st.l row + (a.rowUpdate num sTile (st.m row) row 0).2.2))
  ⟨m, l, fun tid => a.accUpdate pTile vSmem alpha tid (st.acc tid)⟩

/-- The state before the tile loop: `m_row` and `l_row` are set for the rows of the block. -/
def initState : TiledState 𝕜 :=
  ⟨Scatter.apply (fun _ => nan)
      ((Strided.threads a.threads a.tile.blockM).map fun row => (row, negInf)),
    Scatter.apply (fun _ => nan) ((Strided.threads a.threads a.tile.blockM).map fun row => (row, 0)),
    fun _ _ _ => 0⟩

/-- The state after the tile loop. -/
def finalState : TiledState 𝕜 :=
  a.tilesVisited.foldl (a.tileStep num (Scatter.apply (fun _ => nan) (a.qStores num))) a.initState

/-! ## Epilogue -/

/-- The output stores of thread `tid`. -/
def outStores (st : TiledState 𝕜) (tid : ℕ) : List (ℕ × Flt 𝕜) :=
  (Strided.loop tid a.threads a.totalSlots).flatMap fun slot =>
    let row := slot / a.slotsPerRow
    let d0 := slot % a.slotsPerRow * 4
    if a.i0 + row ≥ a.p.seqQ then []
    else
      let inv := if gtZero (st.l row) then recip (st.l row) else 0
      (List.range 4).map fun c =>
        (a.outBase + (row * a.p.oStride.sS + (d0 + c)), st.acc tid (slot / a.threads) c * inv)

/-- The LSE stores of the block. -/
def lseStores (st : TiledState 𝕜) : List (ℕ × Flt 𝕜) :=
  if a.p.returnLse ∧ a.p.lse.isSome then
    (Strided.threads a.threads a.tile.blockM).flatMap fun row =>
      if a.i0 + row ≥ a.p.seqQ then []
      else
        [((a.batch * a.p.numHeads + a.head) * a.p.seqQ + (a.i0 + row),
          if gtZero (st.l row) then st.m row + logf num.log (st.l row) else negInf)]
  else []

/-- `tiled_attn_kernel`: the output and LSE stores of one block. -/
def stores : List (ℕ × Flt 𝕜) × List (ℕ × Flt 𝕜) :=
  let st := a.finalState num
  ((List.range a.threads).flatMap (a.outStores st), a.lseStores num st)

end TiledCta

/-! ## Launches -/

variable (num : Numerics 𝕜) (p : TiledFwdParams 𝕜) (buf : TiledBuffers 𝕜) (elem : DType)
  (headDim : ℕ) (tile : TileCandidate)

/-- Block `(x, y, z)` of the grid. -/
def TiledFwdParams.cta (x y z : ℕ) : TiledCta 𝕜 :=
  { elem, headDim, tile, p, q := buf.q, k := buf.k, v := buf.v, blockX := x, head := y, batch := z }

/-- `grid_x`. -/
def tiledGridX : ℕ := (p.seqQ + tile.blockM - 1) / tile.blockM

/-- The output and LSE stores of a grid. -/
def tiledGridStores (gridX gridY gridZ : ℕ) : List (ℕ × Flt 𝕜) × List (ℕ × Flt 𝕜) :=
  let blocks : List (List (ℕ × Flt 𝕜) × List (ℕ × Flt 𝕜)) :=
    (List.range gridZ).flatMap fun z => (List.range gridY).flatMap fun y =>
      (List.range gridX).map fun x => (p.cta buf elem headDim tile x y z).stores num
  (blocks.flatMap Prod.fst, blocks.flatMap Prod.snd)

/-- `LaunchTile`: the output and, where there is one, the LSE buffer after the kernel. -/
def launchTile (outcome : LaunchOutcome) : Except Status ((ℕ → Flt 𝕜) × Option (ℕ → Flt 𝕜)) :=
  let gridX := int32Cast (tiledGridX p tile)
  let gridY := int32Cast p.numHeads
  let gridZ := int32Cast p.batch
  let status := launchRaw gridX gridY gridZ outcome
  if ¬ status.isOk then .error status
  else
    let stores := tiledGridStores num p buf elem headDim tile gridX.toNat gridY.toNat gridZ.toNat
    .ok (Scatter.apply buf.out stores.1, p.lse.map fun lse => Scatter.apply lse stores.2)

/-- The geometries that `LaunchWithDim` instantiates. -/
def tiledInstances : List TileCandidate := [⟨64, 64, 4⟩, ⟨64, 32, 4⟩, ⟨128, 32, 8⟩]

/-- `LaunchWithDim`. -/
def launchWithDim (outcome : LaunchOutcome) :
    Except Status ((ℕ → Flt 𝕜) × Option (ℕ → Flt 𝕜)) :=
  if tile ∈ tiledInstances then launchTile num p buf elem headDim tile outcome
  else
    .error (Status.invalidArgument
      ("tiled: unsupported tile configuration bm=" ++ toString tile.blockM ++ " bn=" ++
        toString tile.blockN ++ " warps=" ++ toString tile.warps))

/-- `LaunchTyped` of the tiled backend: the head dimensions that are instantiated. -/
def launchTiledTyped (outcome : LaunchOutcome) :
    Except Status ((ℕ → Flt 𝕜) × Option (ℕ → Flt 𝕜)) :=
  if p.headDim ∈ [32, 64, 96, 128] then launchWithDim num p buf elem p.headDim tile outcome
  else
    .error (Status.invalidArgument
      ("tiled attention: head_dim=" ++ toString p.headDim ++
        " is not instantiated (tiled covers 32/64/96/128; use flash for 160/192/256)"))

/-- `LaunchTiledForward`. -/
def launchTiledForward (outcome : LaunchOutcome) :
    Except Status ((ℕ → Flt 𝕜) × Option (ℕ → Flt 𝕜)) :=
  match p.q, p.k, p.v, p.out with
  | some q, some k, some v, some out =>
    launchTiledTyped num p ⟨q, k, v, out⟩ p.dtype.elem tile outcome
  | _, _, _, _ => .error (Status.invalidArgument "tiled attention: null tensor pointer")

/-- `TiledSmemBytes`. -/
def tiledSmemBytes (headDim elemBytes blockM blockN : ℕ) : ℤ :=
  if headDim ≤ 0 ∨ blockM ≤ 0 ∨ blockN ≤ 0 then -1
  else
    let q := blockM * (headDim + tiledRowPad) * elemBytes
    let kv := blockN * (headDim + tiledRowPad) * elemBytes
    let s := blockM * (blockN + scorePad) * 4
    let rows := blockM * numRowVectors * 4
    (q + 2 * kv + s + rows : ℕ)

end Kernel

end SciAttention

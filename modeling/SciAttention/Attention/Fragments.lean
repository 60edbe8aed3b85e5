import SciAttention.Attention.Flash

/-!
# The matrix products of the flash kernel, over any ring

The QK and PV loops of `flash_fwd_impl.cuh` with their shared-memory addresses and register
pairings, over any element type. The loops of `FlashCta` are these at extended floats
(`qkLoop_fragShape`, `pvLoop_fragShape`). Every register of the loops is one entry of a matrix
product: `qkLoop_eq` for `Q Kᵀ`, `pvLoop_eq` for `P V`; and the registers that the epilogue stores
cover the output once (`existsUnique_register`).
-/

namespace SciAttention

open TensorCore

/-- The template arguments that the fragments depend on. -/
structure FragShape where
  headDim : ℕ
  blockM : ℕ
  blockN : ℕ
  splitsD : ℕ

namespace FragShape

/-- The `static_assert`s of the kernel, with an even number of output tiles in each warp. -/
structure Valid (g : FragShape) : Prop where
  splitsD_pos : 0 < g.splitsD
  headDim_dvd : 16 * g.splitsD ∣ g.headDim
  blockN_dvd : 16 ∣ g.blockN

variable (g : FragShape)

/-- `kWarps`. -/
def warps : ℕ := g.blockM / 16 * g.splitsD

/-- `kRowStride`. -/
def rowStride : ℕ := g.headDim + rowPadElems

/-- `kNTiles`. -/
def nTiles : ℕ := g.blockN / 8

/-- `kQKTiles`. -/
def qkTiles : ℕ := g.headDim / 16

/-- `kDTilesPerWarp`. -/
def dTilesPerWarp : ℕ := g.headDim / 8 / g.splitsD

/-- `warp_m`. -/
def warpM (warp : ℕ) : ℕ := warp / g.splitsD

/-- `d_split`. -/
def dSplit (warp : ℕ) : ℕ := warp % g.splitsD

section Loops

variable {R : Type*} [AddCommMonoid R] [Mul R]

/-- `q_frag[kt]` of a warp. -/
def qFrag (smem : ℕ → R) (warp kt : ℕ) : ℕ → ℕ → R × R :=
  ldMatrixX4 smem fun lane => (g.warpM warp * 16 + ldRow lane) * g.rowStride + (16 * kt + ldCol lane)

/-- `kb` of step `(kt, np)`. -/
def kRegs (smem : ℕ → R) (kTile kt np : ℕ) : ℕ → ℕ → R × R :=
  ldMatrixX4 smem fun lane => kTile + (16 * np + ldRow lane) * g.rowStride + (16 * kt + ldCol lane)

/-- One `(kt, np)` step of `S = Q Kᵀ`. -/
def qkStep (smem : ℕ → R) (kTile : ℕ) (qFrag : ℕ → ℕ → ℕ → R × R) (kt : ℕ)
    (sFrag : ℕ → ℕ → ℕ → R)
    (np : ℕ) : ℕ → ℕ → ℕ → R :=
  let kb := g.kRegs smem kTile kt np
  let sFrag := Function.update sFrag (2 * np)
    (mma (sFrag (2 * np)) (qFrag kt) (fun lane => kb lane 0) fun lane => kb lane 2)
  Function.update sFrag (2 * np + 1)
    (mma (sFrag (2 * np + 1)) (qFrag kt) (fun lane => kb lane 1) fun lane => kb lane 3)

/-- `S = Q Kᵀ`. -/
def qkLoop (smem : ℕ → R) (kTile : ℕ) (qFrag : ℕ → ℕ → ℕ → R × R) :
    ℕ → ℕ → ℕ → R :=
  (List.range g.qkTiles).foldl (fun sFrag kt =>
    (List.range (g.nTiles / 2)).foldl (g.qkStep smem kTile qFrag kt) sFrag) fun _ _ _ => 0

/-- `vb` of step `(kt, dp)`. -/
def vRegs (smem : ℕ → R) (vTile warp kt dp : ℕ) : ℕ → ℕ → R × R :=
  ldMatrixX4Trans smem fun lane =>
    vTile + (16 * kt + ldRow lane) * g.rowStride +
      ((g.dSplit warp * g.dTilesPerWarp + 2 * dp) * 8 + ldCol lane)

/-- One `(kt, dp)` step of `O += P V`. -/
def pvStep (smem : ℕ → R) (vTile warp : ℕ) (pFrag : ℕ → ℕ → ℕ → R) (kt : ℕ)
    (oAcc : ℕ → ℕ → ℕ → R)
    (dp : ℕ) : ℕ → ℕ → ℕ → R :=
  let pa := packAcc (pFrag (2 * kt)) (pFrag (2 * kt + 1))
  let vb := g.vRegs smem vTile warp kt dp
  let oAcc := Function.update oAcc (2 * dp)
    (mma (oAcc (2 * dp)) pa (fun lane => vb lane 0) fun lane => vb lane 1)
  Function.update oAcc (2 * dp + 1)
    (mma (oAcc (2 * dp + 1)) pa (fun lane => vb lane 2) fun lane => vb lane 3)

/-- `O += P V`. -/
def pvLoop (smem : ℕ → R) (vTile warp : ℕ) (pFrag oAcc : ℕ → ℕ → ℕ → R) :
    ℕ → ℕ → ℕ → R :=
  (List.range (g.blockN / 16)).foldl (fun oAcc kt =>
    (List.range (g.dTilesPerWarp / 2)).foldl (g.pvStep smem vTile warp pFrag kt) oAcc) oAcc

end Loops

/-- The block row that the epilogue stores register `i` of a lane to. -/
def rowOf (warp lane i : ℕ) : ℕ := g.warpM warp * 16 + accRow lane i

/-- The column that the epilogue stores register `i` of output tile `dt` to. -/
def colOf (warp dt lane i : ℕ) : ℕ := (g.dSplit warp * g.dTilesPerWarp + dt) * 8 + accCol lane i

end FragShape

/-! ## The loops of the kernel -/

namespace FlashCta

variable {𝕜 : Type*} (a : FlashCta 𝕜)

/-- The fragments of a block. -/
def fragShape : FragShape := ⟨a.headDim, a.tile.blockM, a.tile.blockN, a.tile.splitsD⟩

theorem qFrag_fragShape [LinearOrder 𝕜] : a.qFrag = a.fragShape.qFrag (R := Flt 𝕜) := rfl

variable [Field 𝕜] [LinearOrder 𝕜]

theorem qkLoop_fragShape : a.qkLoop = a.fragShape.qkLoop (R := Flt 𝕜) := rfl

theorem pvLoop_fragShape : a.pvLoop = a.fragShape.pvLoop (R := Flt 𝕜) := rfl

end FlashCta

namespace FragShape

variable {g : FragShape} {R : Type*}

theorem nTiles_eq (h : g.Valid) : g.nTiles = 2 * (g.nTiles / 2) ∧ 8 * g.nTiles = g.blockN := by
  obtain ⟨n, hn⟩ := h.blockN_dvd
  unfold nTiles
  omega

theorem qkTiles_eq (h : g.Valid) : g.qkTiles * 16 = g.headDim := by
  obtain ⟨n, hn⟩ := Dvd.dvd.trans (Nat.dvd_mul_right 16 _) h.headDim_dvd
  unfold qkTiles
  omega

theorem dTilesPerWarp_eq (h : g.Valid) : g.dTilesPerWarp = 2 * (g.dTilesPerWarp / 2) ∧
    g.splitsD * g.dTilesPerWarp * 8 = g.headDim := by
  obtain ⟨n, hn⟩ := h.headDim_dvd
  have hdim : g.headDim = 8 * (g.splitsD * (2 * n)) := by
    rw [hn]
    ring
  have htiles : g.dTilesPerWarp = 2 * n := by
    rw [dTilesPerWarp, hdim, Nat.mul_div_cancel_left _ (by omega), Nat.mul_div_cancel_left _ h.splitsD_pos]
  rw [htiles, hdim]
  exact ⟨by omega, by ring⟩

/-! ## What the loaded registers hold -/

/-- The Q fragments of a warp hold its 16 rows. -/
theorem fragA_qFrag (mem : ℕ → R) (warp kt : ℕ) {r k : ℕ} (hr : r < 16) :
    fragA (g.qFrag mem warp kt) r k = mem ((g.warpM warp * 16 + r) * g.rowStride + (16 * kt + k)) :=
  fragA_ldMatrix mem (fun row col => (g.warpM warp * 16 + row) * g.rowStride + (16 * kt + col))
    (fun row col c => by simp only [Nat.add_assoc]) hr

/-- The K registers of score tile `nt` hold rows `8 nt … 8 nt + 7` of the tile. -/
theorem fragB_kRegs (mem : ℕ → R) (kTile kt nt : ℕ) {k n : ℕ} (hk : k < 16) (hn : n < 8) :
    fragB (fun lane => g.kRegs mem kTile kt (nt / 2) lane (nt % 2))
        (fun lane => g.kRegs mem kTile kt (nt / 2) lane (nt % 2 + 2)) k n =
      mem (kTile + (8 * nt + n) * g.rowStride + (16 * kt + k)) := by
  refine (fragB_ldMatrix mem
    (fun row col => kTile + (16 * (nt / 2) + row) * g.rowStride + (16 * kt + col))
    (fun row col c => by simp only [Nat.add_assoc]) (by omega) hk hn).trans ?_
  rw [show 16 * (nt / 2) + (8 * (nt % 2) + n) = 8 * nt + n by omega]

/-- The V registers of output tile `dt` hold its columns of the tile. -/
theorem fragB_vRegs (mem : ℕ → R) (vTile warp kt dt lane i : ℕ) {k : ℕ} (hk : k < 16) :
    fragB (fun lane => g.vRegs mem vTile warp kt (dt / 2) lane (2 * (dt % 2)))
        (fun lane => g.vRegs mem vTile warp kt (dt / 2) lane (2 * (dt % 2) + 1)) k (accCol lane i) =
      mem (vTile + (16 * kt + k) * g.rowStride + g.colOf warp dt lane i) := by
  refine (fragB_ldMatrixTrans mem
    (fun row col => vTile + (16 * kt + row) * g.rowStride +
      ((g.dSplit warp * g.dTilesPerWarp + 2 * (dt / 2)) * 8 + col))
    (fun row col c => by simp only [Nat.add_assoc]) hk).trans ?_
  rw [colOf]
  congr 2
  omega

/-- The score registers, repacked, hold the rows of `P`. -/
theorem fragA_packed (h : g.Valid) {pFrag : ℕ → ℕ → ℕ → R} {P : ℕ → ℕ → R}
    (hP : ∀ nt < g.nTiles, ∀ lane < 32, ∀ i < 4,
      pFrag nt lane i = P (accRow lane i) (8 * nt + accCol lane i)) {kt r k : ℕ}
    (hkt : kt < g.blockN / 16) (hr : r < 16) (hk : k < 16) :
    fragA (packAcc (pFrag (2 * kt)) (pFrag (2 * kt + 1))) r k = P r (kt * 16 + k) := by
  have hblock := nTiles_eq h
  refine fragA_packAcc (S := fun r c => P r (kt * 16 + c)) (fun lane hlane i hi => ?_)
    (fun lane hlane i hi => ?_) hr hk
  · rw [hP _ (by omega) lane hlane i hi, show 8 * (2 * kt) = kt * 16 by omega]
  · rw [hP _ (by omega) lane hlane i hi]
    congr 1
    omega

/-! ## `Q Kᵀ` -/

section Products

variable [AddCommMonoid R] [Mul R]

/-- One step of the QK loop, at one score tile. -/
theorem qkStage_apply (h : g.Valid) (mem : ℕ → R) (kTile : ℕ) (qFrag : ℕ → ℕ → ℕ → R × R)
    {nt : ℕ}
    (hnt : nt < g.nTiles) (s : ℕ → ℕ → ℕ → R) (kt : ℕ) :
    (List.range (g.nTiles / 2)).foldl (g.qkStep mem kTile qFrag kt) s nt =
      mma (s nt) (qFrag kt) (fun lane => g.kRegs mem kTile kt (nt / 2) lane (nt % 2))
        fun lane => g.kRegs mem kTile kt (nt / 2) lane (nt % 2 + 2) := by
  have heven := (nTiles_eq h).1
  have hstep : g.qkStep mem kTile qFrag kt = fun s np =>
      let s' := Function.update s (2 * np) (mma (s (2 * np)) (qFrag kt)
        (fun lane => g.kRegs mem kTile kt (2 * np / 2) lane (2 * np % 2))
        fun lane => g.kRegs mem kTile kt (2 * np / 2) lane (2 * np % 2 + 2))
      Function.update s' (2 * np + 1) (mma (s' (2 * np + 1)) (qFrag kt)
        (fun lane => g.kRegs mem kTile kt ((2 * np + 1) / 2) lane ((2 * np + 1) % 2))
        fun lane => g.kRegs mem kTile kt ((2 * np + 1) / 2) lane ((2 * np + 1) % 2 + 2)) := by
    funext s np
    have hodd : (2 * np + 1) / 2 = np ∧ (2 * np + 1) % 2 = 1 ∧ 2 * np / 2 = np ∧ 2 * np % 2 = 0 := by
      omega
    simp only [qkStep, hodd, Nat.reduceAdd]
  rw [hstep, foldl_pairs (fun t acc => mma acc (qFrag kt)
    (fun lane => g.kRegs mem kTile kt (t / 2) lane (t % 2))
    fun lane => g.kRegs mem kTile kt (t / 2) lane (t % 2 + 2)), if_pos (by omega)]

/-- The QK loop, tile by tile. -/
theorem qkLoop_apply (h : g.Valid) (mem : ℕ → R) (kTile : ℕ) (qFrag : ℕ → ℕ → ℕ → R × R)
    {nt : ℕ}
    (hnt : nt < g.nTiles) :
    g.qkLoop mem kTile qFrag nt = (List.range g.qkTiles).foldl (fun acc kt =>
      mma acc (qFrag kt) (fun lane => g.kRegs mem kTile kt (nt / 2) lane (nt % 2))
        fun lane => g.kRegs mem kTile kt (nt / 2) lane (nt % 2 + 2)) fun _ _ => 0 := by
  rw [qkLoop, foldl_stages _ (fun acc kt => mma acc (qFrag kt)
    (fun lane => g.kRegs mem kTile kt (nt / 2) lane (nt % 2))
    fun lane => g.kRegs mem kTile kt (nt / 2) lane (nt % 2 + 2)) (qkStage_apply h mem kTile qFrag hnt)]

/-- After the QK loop every register is an entry of `Q Kᵀ`. -/
theorem qkLoop_eq (h : g.Valid) (mem memQ : ℕ → R) (kTile warp : ℕ) {nt lane i : ℕ}
    (hnt : nt < g.nTiles)
    (hlane : lane < 32) (hi : i < 4) :
    g.qkLoop mem kTile (g.qFrag memQ warp) nt lane i = ∑ d ∈ Finset.range g.headDim,
      memQ (g.rowOf warp lane i * g.rowStride + d) *
        mem (kTile + (8 * nt + accCol lane i) * g.rowStride + d) := by
  have hcol := accCol_lt lane i
  rw [qkLoop_apply h _ _ _ hnt, foldl_mma, zero_add, ← qkTiles_eq h,
    ← Strided.sum_windows (fun d => memQ (g.rowOf warp lane i * g.rowStride + d) *
      mem (kTile + (8 * nt + accCol lane i) * g.rowStride + d))]
  refine Finset.sum_congr rfl fun kt _ => Finset.sum_congr rfl fun k hk => ?_
  rw [Finset.mem_range] at hk
  rw [fragA_qFrag memQ warp kt (accRow_lt hlane hi), fragB_kRegs mem kTile kt nt hk hcol,
    Nat.mul_comm 16 kt, rowOf]

/-! ## `P V` -/

/-- One step of the PV loop, at one output tile. -/
theorem pvStage_apply (h : g.Valid) (mem : ℕ → R) (vTile warp : ℕ) (pFrag : ℕ → ℕ → ℕ → R)
    {dt : ℕ}
    (hdt : dt < g.dTilesPerWarp) (s : ℕ → ℕ → ℕ → R) (kt : ℕ) :
    (List.range (g.dTilesPerWarp / 2)).foldl (g.pvStep mem vTile warp pFrag kt) s dt =
      mma (s dt) (packAcc (pFrag (2 * kt)) (pFrag (2 * kt + 1)))
        (fun lane => g.vRegs mem vTile warp kt (dt / 2) lane (2 * (dt % 2)))
        fun lane => g.vRegs mem vTile warp kt (dt / 2) lane (2 * (dt % 2) + 1) := by
  have heven := (dTilesPerWarp_eq h).1
  have hstep : g.pvStep mem vTile warp pFrag kt = fun s dp =>
      let s' := Function.update s (2 * dp)
        (mma (s (2 * dp)) (packAcc (pFrag (2 * kt)) (pFrag (2 * kt + 1)))
          (fun lane => g.vRegs mem vTile warp kt (2 * dp / 2) lane (2 * (2 * dp % 2)))
          fun lane => g.vRegs mem vTile warp kt (2 * dp / 2) lane (2 * (2 * dp % 2) + 1))
      Function.update s' (2 * dp + 1)
        (mma (s' (2 * dp + 1)) (packAcc (pFrag (2 * kt)) (pFrag (2 * kt + 1)))
          (fun lane => g.vRegs mem vTile warp kt ((2 * dp + 1) / 2) lane (2 * ((2 * dp + 1) % 2)))
          fun lane =>
            g.vRegs mem vTile warp kt ((2 * dp + 1) / 2) lane (2 * ((2 * dp + 1) % 2) + 1)) := by
    funext s dp
    have hodd : (2 * dp + 1) / 2 = dp ∧ (2 * dp + 1) % 2 = 1 ∧ 2 * dp / 2 = dp ∧ 2 * dp % 2 = 0 := by
      omega
    simp only [pvStep, hodd, Nat.reduceAdd, Nat.reduceMul]
  rw [hstep, foldl_pairs (fun t acc => mma acc (packAcc (pFrag (2 * kt)) (pFrag (2 * kt + 1)))
    (fun lane => g.vRegs mem vTile warp kt (t / 2) lane (2 * (t % 2)))
    fun lane => g.vRegs mem vTile warp kt (t / 2) lane (2 * (t % 2) + 1)), if_pos (by omega)]

/-- The PV loop, tile by tile. -/
theorem pvLoop_apply (h : g.Valid) (mem : ℕ → R) (vTile warp : ℕ)
    (pFrag oAcc : ℕ → ℕ → ℕ → R) {dt : ℕ}
    (hdt : dt < g.dTilesPerWarp) :
    g.pvLoop mem vTile warp pFrag oAcc dt = (List.range (g.blockN / 16)).foldl (fun acc kt =>
      mma acc (packAcc (pFrag (2 * kt)) (pFrag (2 * kt + 1)))
        (fun lane => g.vRegs mem vTile warp kt (dt / 2) lane (2 * (dt % 2)))
        fun lane => g.vRegs mem vTile warp kt (dt / 2) lane (2 * (dt % 2) + 1)) (oAcc dt) := by
  rw [pvLoop, foldl_stages _ (fun acc kt => mma acc (packAcc (pFrag (2 * kt)) (pFrag (2 * kt + 1)))
    (fun lane => g.vRegs mem vTile warp kt (dt / 2) lane (2 * (dt % 2)))
    fun lane => g.vRegs mem vTile warp kt (dt / 2) lane (2 * (dt % 2) + 1))
    (pvStage_apply h mem vTile warp pFrag hdt)]

/-- After the PV loop every register has gained an entry of `P V`. -/
theorem pvLoop_eq (h : g.Valid) (mem : ℕ → R) (vTile warp : ℕ) {pFrag : ℕ → ℕ → ℕ → R}
    {P : ℕ → ℕ → R}
    (hP : ∀ nt < g.nTiles, ∀ lane < 32, ∀ i < 4,
      pFrag nt lane i = P (accRow lane i) (8 * nt + accCol lane i)) (oAcc : ℕ → ℕ → ℕ → R)
    {dt lane i : ℕ} (hdt : dt < g.dTilesPerWarp) (hlane : lane < 32) (hi : i < 4) :
    g.pvLoop mem vTile warp pFrag oAcc dt lane i = oAcc dt lane i +
      ∑ n ∈ Finset.range g.blockN, P (accRow lane i) n *
        mem (vTile + n * g.rowStride + g.colOf warp dt lane i) := by
  have hsteps : g.blockN / 16 * 16 = g.blockN := Nat.div_mul_cancel h.blockN_dvd
  rw [pvLoop_apply h _ _ _ _ _ hdt, foldl_mma, ← hsteps,
    ← Strided.sum_windows (fun n => P (accRow lane i) n *
      mem (vTile + n * g.rowStride + g.colOf warp dt lane i)), hsteps]
  refine congrArg _ (Finset.sum_congr rfl fun kt hkt => Finset.sum_congr rfl fun k hk => ?_)
  rw [Finset.mem_range] at hkt hk
  rw [fragA_packed h hP hkt (accRow_lt hlane hi) hk, fragB_vRegs mem vTile warp kt dt lane i hk,
    Nat.mul_comm 16 kt]

end Products

/-! ## The output -/

/-- An accumulator register: register `i` of output tile `dt` in a lane of a warp. -/
structure OutRegister where
  warp : ℕ
  lane : ℕ
  dt : ℕ
  i : ℕ
deriving DecidableEq, Repr

/-- The register is one of the block's. -/
structure OutRegister.Exists (g : FragShape) (x : OutRegister) : Prop where
  warp_lt : x.warp < g.warps
  lane_lt : x.lane < 32
  dt_lt : x.dt < g.dTilesPerWarp
  i_lt : x.i < 4

/-- A register is determined by where it is stored. -/
theorem OutRegister.eq_of_rowOf_colOf {x y : OutRegister} (hx : x.Exists g) (hy : y.Exists g)
    (hrow : g.rowOf x.warp x.lane x.i = g.rowOf y.warp y.lane y.i)
    (hcol : g.colOf x.warp x.dt x.lane x.i = g.colOf y.warp y.dt y.lane y.i) : x = y := by
  obtain ⟨hwarpM, haccRow⟩ := Strided.mul_add_inj (accRow_lt hx.lane_lt hx.i_lt)
    (accRow_lt hy.lane_lt hy.i_lt) hrow
  obtain ⟨htile, haccCol⟩ := Strided.mul_add_inj (accCol_lt x.lane x.i) (accCol_lt y.lane y.i) hcol
  obtain ⟨hsplit, hdt⟩ := Strided.mul_add_inj hx.dt_lt hy.dt_lt htile
  have hwarp : x.warp = y.warp := by
    rw [← Nat.div_add_mod x.warp g.splitsD, ← Nat.div_add_mod y.warp g.splitsD]
    exact congrArg₂ (g.splitsD * · + ·) hwarpM hsplit
  have hxlane := hx.lane_lt
  have hylane := hy.lane_lt
  have hxi := hx.i_lt
  have hyi := hy.i_lt
  unfold accRow at haccRow
  unfold accCol at haccCol
  have hlane : x.lane = y.lane := by omega
  have hi : x.i = y.i := by omega
  obtain ⟨warp, lane, dt, i⟩ := x
  obtain ⟨warp', lane', dt', i'⟩ := y
  obtain rfl : warp = warp' := hwarp
  obtain rfl : lane = lane' := hlane
  obtain rfl : dt = dt' := hdt
  obtain rfl : i = i' := hi
  rfl

/-- Every element of the block's output is stored from one register. -/
theorem existsUnique_register (h : g.Valid) {row col : ℕ} (hrow : row < 16 * (g.blockM / 16))
    (hcol : col < g.headDim) :
    ∃! x : OutRegister, x.Exists g ∧ g.rowOf x.warp x.lane x.i = row ∧
      g.colOf x.warp x.dt x.lane x.i = col := by
  have hdim := (dTilesPerWarp_eq h).2
  have htiles : 0 < g.dTilesPerWarp := by
    refine Nat.pos_of_ne_zero fun hzero => ?_
    rw [hzero] at hdim
    omega
  have hsplit : col / 8 / g.dTilesPerWarp < g.splitsD := by
    rw [Nat.div_lt_iff_lt_mul htiles]
    omega
  have hwarpM : g.warpM (row / 16 * g.splitsD + col / 8 / g.dTilesPerWarp) = row / 16 := by
    rw [warpM, Strided.flat_div _ hsplit]
  have hdSplit : g.dSplit (row / 16 * g.splitsD + col / 8 / g.dTilesPerWarp) =
      col / 8 / g.dTilesPerWarp := by
    rw [dSplit, Strided.flat_mod _ hsplit]
  have hwarp : row / 16 * g.splitsD + col / 8 / g.dTilesPerWarp < g.warps :=
    Strided.flat_lt (by omega) hsplit
  -- the register is read off: rows of 16 by warp, columns of 8 by tile, then the accumulator layout
  refine existsUnique_of_exists_of_unique
    ⟨⟨row / 16 * g.splitsD + col / 8 / g.dTilesPerWarp, row % 8 * 4 + col % 8 / 2,
      col / 8 % g.dTilesPerWarp, 2 * (row % 16 / 8) + col % 2⟩,
      ⟨hwarp, by dsimp only; omega, Nat.mod_lt _ htiles, by dsimp only; omega⟩, ?_, ?_⟩ ?_
  · rw [rowOf, hwarpM, accRow]
    dsimp only
    omega
  · rw [colOf, hdSplit, Nat.div_add_mod', accCol]
    dsimp only
    omega
  · rintro x y ⟨hx, hxrow, hxcol⟩ ⟨hy, hyrow, hycol⟩
    exact OutRegister.eq_of_rowOf_colOf hx hy (hxrow.trans hyrow.symm) (hxcol.trans hycol.symm)

theorem rowOf_registers (warp lane : ℕ) :
    g.rowOf warp lane 0 = 16 * g.warpM warp + lane / 4 ∧ g.rowOf warp lane 1 =
      16 * g.warpM warp + lane / 4 ∧
      g.rowOf warp lane 2 = 16 * g.warpM warp + lane / 4 + 8 ∧
      g.rowOf warp lane 3 = 16 * g.warpM warp + lane / 4 + 8 := by
  unfold rowOf accRow
  omega

theorem accCol_registers (lane : ℕ) : accCol lane 0 = 2 * (lane % 4) ∧
    accCol lane 1 = 2 * (lane % 4) + 1 ∧
    accCol lane 2 = 2 * (lane % 4) ∧ accCol lane 3 = 2 * (lane % 4) + 1 := by
  unfold accCol
  omega

/-- The fragment mapping of the kernel, over shared memory with a Q tile at its start, a K tile and a V
tile. -/
structure MappingCorrect {R : Type*} [CommRing R] (g : FragShape) (smem : ℕ → R) (kTile vTile : ℕ) :
    Prop where
  /-- After the QK loop the four registers of a lane are entries of `S = Q Kᵀ`. -/
  qk : ∀ warp nt lane, nt < g.nTiles → lane < 32 →
    let S := fun r j => ∑ d ∈ Finset.range g.headDim,
      smem (r * g.rowStride + d) * smem (kTile + j * g.rowStride + d)
    let r := 16 * g.warpM warp + lane / 4
    let c := lane % 4
    let sFrag := g.qkLoop smem kTile (g.qFrag smem warp) nt lane
    sFrag 0 = S r (8 * nt + 2 * c) ∧ sFrag 1 = S r (8 * nt + 2 * c + 1) ∧
      sFrag 2 = S (r + 8) (8 * nt + 2 * c) ∧ sFrag 3 = S (r + 8) (8 * nt + 2 * c + 1)
  /-- For every `P` in the registers of `S`, the PV loop leaves entries of `P V` in the accumulators. -/
  pv : ∀ (P : ℕ → ℕ → R) (pFrag : ℕ → ℕ → ℕ → R) (warp : ℕ),
    (∀ nt < g.nTiles, ∀ lane < 32, ∀ i < 4,
      pFrag nt lane i = P (g.rowOf warp lane i) (8 * nt + accCol lane i)) →
    ∀ dt lane, dt < g.dTilesPerWarp → lane < 32 →
    let O := fun r d => ∑ n ∈ Finset.range g.blockN, P r n * smem (vTile + n * g.rowStride + d)
    let r := 16 * g.warpM warp + lane / 4
    let d := (g.dSplit warp * g.dTilesPerWarp + dt) * 8 + 2 * (lane % 4)
    let oAcc := g.pvLoop smem vTile warp pFrag (fun _ _ _ => 0) dt lane
    oAcc 0 = O r d ∧ oAcc 1 = O r (d + 1) ∧ oAcc 2 = O (r + 8) d ∧ oAcc 3 = O (r + 8) (d + 1)
  /-- Every element of the output comes from one register. -/
  once : ∀ row col, row < 16 * (g.blockM / 16) → col < g.headDim →
    ∃! x : OutRegister, x.Exists g ∧ g.rowOf x.warp x.lane x.i = row ∧
      g.colOf x.warp x.dt x.lane x.i = col

/-- For every head dimension and tile shape that the kernel accepts, over every commutative ring: the
fragment mapping is correct. -/
theorem mappingCorrect {R : Type*} [CommRing R] (g : FragShape) (h : g.Valid) (smem : ℕ → R)
    (kTile vTile : ℕ) : MappingCorrect g smem kTile vTile := by
  refine ⟨fun warp nt lane hnt hlane => ?_, fun P pFrag warp hP dt lane hdt hlane => ?_,
    fun row col => existsUnique_register h⟩
  · have hreg {i : ℕ} (hi : i < 4) := qkLoop_eq h smem smem kTile warp hnt hlane hi
    obtain ⟨hr0, hr1, hr2, hr3⟩ := g.rowOf_registers warp lane
    obtain ⟨hc0, hc1, hc2, hc3⟩ := accCol_registers lane
    exact ⟨by rw [hreg (by decide), hr0, hc0], by rw [hreg (by decide), hr1, hc1, ← Nat.add_assoc],
      by rw [hreg (by decide), hr2, hc2], by rw [hreg (by decide), hr3, hc3, ← Nat.add_assoc]⟩
  · have hreg {i : ℕ} (hi : i < 4) : g.pvLoop smem vTile warp pFrag (fun _ _ _ => 0) dt lane i =
        ∑ n ∈ Finset.range g.blockN, P (g.rowOf warp lane i) n *
          smem (vTile + n * g.rowStride + g.colOf warp dt lane i) := by
      rw [pvLoop_eq (P := fun r n => P (g.warpM warp * 16 + r) n) h smem vTile warp hP _ hdt hlane
        hi, zero_add]
      rfl
    obtain ⟨hr0, hr1, hr2, hr3⟩ := g.rowOf_registers warp lane
    obtain ⟨hc0, hc1, hc2, hc3⟩ := accCol_registers lane
    exact ⟨by rw [hreg (by decide), hr0, colOf, hc0],
      by rw [hreg (by decide), hr1, colOf, hc1, ← Nat.add_assoc],
      by rw [hreg (by decide), hr2, colOf, hc2],
      by rw [hreg (by decide), hr3, colOf, hc3, ← Nat.add_assoc]⟩

/-- A head of 64 elements with two splits, and 16 keys, over the integers. -/
theorem mappingCorrect_split : MappingCorrect ⟨64, 16, 16, 2⟩ (fun i => (i : ℤ)) 1152 2304 :=
  mappingCorrect _ ⟨by decide, by decide, by decide⟩ _ 1152 2304

end FragShape

end SciAttention

import SciAttention.Attention.FlashSpec
import SciAttention.Attention.RealNumerics
import SciAttention.Attention.Reference

/-!
# The flash forward pass computes attention

The run of a block: the main loop visits a prefix of the tiles, and the tile it stops at is masked for
every row of the block, as is everything behind it. So the registers at the end hold the sums over all
visible keys, and the epilogue writes their average and log-sum-exp (`flashGrid_attention`).
-/

namespace SciAttention

open Flt Softmax TensorCore

namespace FlashCta

variable {𝕜 : Type*} [Field 𝕜] [LinearOrder 𝕜] {num : Numerics 𝕜} {a : FlashCta 𝕜}

/-! ## The tiles visited -/

omit [Field 𝕜] [LinearOrder 𝕜] in
/-- The main loop visits the first tiles; the rows of the block see no key behind them. -/
theorem tilesVisited_eq (hpos : 0 < a.tile.blockN) : ∃ n ≤ a.jTiles, a.tilesVisited = List.range n ∧
    ∀ i < a.i0 + a.tile.blockM, ∀ j, a.Visible i j → j < n * a.tile.blockN := by
  obtain ⟨n, hn, hrange, hstop⟩ := Strided.takeWhile_range (fun jIdx => !(a.causal &&
    maskTileFullyMasked a.i0 a.tile.blockM (jIdx * a.tile.blockN : ℕ) a.p.diagonal)) a.jTiles
  refine ⟨n, hn, hrange, fun i hi j hvis => ?_⟩
  rcases hstop with rfl | hmasked
  · refine hvis.1.trans_le ?_
    have hceil := Nat.lt_div_mul_add (a := a.p.seqKv + a.tile.blockN - 1) hpos
    unfold jTiles
    omega
  · rw [Bool.not_eq_false', Bool.and_eq_true, maskTileFullyMasked, decide_eq_true_iff] at hmasked
    have hle := hvis.2 hmasked.1
    omega

/-! ## The run of a block -/

omit [Field 𝕜] [LinearOrder 𝕜] in
theorem range_union_tilePositions (n : ℕ) :
    Finset.range (n * a.tile.blockN) ∪ a.tilePositions n = Finset.range ((n + 1) * a.tile.blockN) :=
  Strided.range_union_window _ _

/-- After `n` tiles the pipeline is in order and the warps hold the positions of these tiles. -/
theorem run_holds (h : a.Compiles) (hthreads : 0 < a.threads)
    (hfill : a.tile.stages - 1 ≤ a.jTiles) (smem : ℕ → Flt 𝕜) {n : ℕ} (hn : n ≤ a.jTiles) :
    let st := (List.range n).foldl (a.iteration num (a.qFrag (a.qSmem num smem)))
      ⟨a.prologue num ⟨a.qSmem num smem, []⟩, fun _ => .init⟩
    PipeInv num a st.smem n ∧
      ∀ warp < a.warps, WarpHolds num a warp (Finset.range (n * a.tile.blockN)) (st.warps warp) := by
  induction n with
  | zero =>
    refine ⟨PipeInv.prologue h hthreads hfill _, fun warp _ => ?_⟩
    rw [Nat.zero_mul, Finset.range_zero]
    exact WarpHolds.init warp
  | succ n ih =>
    obtain ⟨hpipe, hwarps⟩ := ih (by omega)
    simp only [List.range_succ, List.foldl_append, List.foldl_cons, List.foldl_nil]
    obtain ⟨hres, hnext⟩ := PipeInv.step h hthreads hpipe (by omega)
    refine ⟨hnext, fun warp hwarp => ?_⟩
    rw [← range_union_tilePositions]
    exact WarpHolds.step h hthreads hres hwarp (Strided.disjoint_window _ _)
      (hwarps warp hwarp)

/-! ## The answer -/

/-- The problem that a block works on. -/
def problem (num : Numerics 𝕜) (a : FlashCta 𝕜) : AttnProblem 𝕜 :=
  .ofMemory num a.elem a.q a.k a.v a.p.qStride a.p.kStride a.p.vStride
    { batch := a.p.batch, numHeads := a.p.numHeads, numKvHeads := a.p.numKvHeads, seqQ := a.p.seqQ
      seqKv := a.p.seqKv, headDim := a.headDim }
    a.p.scale a.causal a.p.diagonal

theorem kvAt_true {j d : ℕ} (hj : j < a.p.seqKv) :
    kvAt num a true j d = (problem num a).k a.batch a.hKv j d := if_pos hj

theorem kvAt_false {j d : ℕ} (hj : j < a.p.seqKv) :
    kvAt num a false j d = (problem num a).v a.batch a.hKv j d := if_pos hj

/-- The scores of a block are those of the problem. -/
theorem score_eq {i : ℕ} (hi : i < a.p.seqQ) (j : ℕ) :
    score num a i j = (problem num a).score a.batch a.head i j := by
  by_cases hvis : a.Visible i j
  · have hdot : dot num a i j = (problem num a).dot a.batch a.head i j := by
      refine Finset.sum_congr rfl fun d _ => ?_
      rw [kvAt_true hvis.1, qAt, if_pos hi]
      rfl
    rw [score, if_pos hvis, hdot, mul_comm]
    exact (if_pos hvis).symm
  · rw [score, if_neg hvis]
    exact (if_neg hvis).symm

/-- Positions that hold every visible key give the output. -/
theorem average_eq {i d : ℕ} (hi : i < a.p.seqQ) {J : Finset ℕ} (hJ : ∀ j, a.Visible i j → j ∈ J) :
    average num.E (score num a i) (fun j => kvAt num a false j d) J =
      (problem num a).attention num.E a.batch a.head i d := by
  have hsub : (problem num a).visible i ⊆ J := fun j hj => hJ j (AttnProblem.mem_visible.mp hj)
  have hscore : score num a i = (problem num a).score a.batch a.head i := funext (score_eq hi)
  rw [hscore, ← average_subset num.E _ _ hsub fun j _ hj => AttnProblem.score_of_not_visible hj,
    ← AttnProblem.average_score subset_rfl]
  refine average_congr num.E (fun _ _ => rfl) fun j hj => ?_
  exact kvAt_false (AttnProblem.mem_visible.mp hj).1

theorem logSumExp_eq {i : ℕ} (hi : i < a.p.seqQ) {J : Finset ℕ} (hJ : ∀ j, a.Visible i j → j ∈ J) :
    logSumExp num.E num.log (score num a i) J =
      (problem num a).lse num.E num.log a.batch a.head i := by
  have hsub : (problem num a).visible i ⊆ J := fun j hj => hJ j (AttnProblem.mem_visible.mp hj)
  rw [show score num a i = (problem num a).score a.batch a.head i from funext (score_eq hi),
    AttnProblem.logSumExp_score hsub]

/-! ## Epilogue -/

/-- The offset of output element `(i, d)`. -/
def outIndex (a : FlashCta 𝕜) (i d : ℕ) : ℕ :=
  a.batch * a.p.oStride.sB + a.head * a.p.oStride.sH + i * a.p.oStride.sS + d

/-- The offset of the log-sum-exp of row `i`. -/
def lseIndex (a : FlashCta 𝕜) (i : ℕ) : ℕ := (a.batch * a.p.numHeads + a.head) * a.p.seqQ + i

/-- The output stores of a warp, register by register. -/
theorem mem_outStores {warp : ℕ} {st : FlashWarp 𝕜} {w : ℕ × Flt 𝕜} :
    w ∈ a.outStores warp st ↔ ∃ lane < 32, ∃ dt < a.dTilesPerWarp, ∃ i < 4,
      a.rowOf warp (accRow lane i) < a.p.seqQ ∧
      w = (a.outIndex (a.rowOf warp (accRow lane i)) (a.colOf warp dt lane i),
        st.oAcc dt lane i * (if gtZero ((st.softmax lane).l (i / 2)) then
          recip ((st.softmax lane).l (i / 2)) else 0)) := by
  simp only [outStores, List.mem_flatMap, List.mem_range]
  refine exists_congr fun lane => and_congr_right fun _ => exists_congr fun dt =>
    and_congr_right fun _ => exists_congr fun i => and_congr_right fun _ => ?_
  have hrow : a.i0 + a.warpM warp * 16 + accRow lane i = a.rowOf warp (accRow lane i) :=
    Nat.add_assoc _ _ _
  have haddr : a.outRow0 + (a.rowOf warp (accRow lane i) - a.i0) * a.p.oStride.sS +
      ((a.dSplit warp * a.dTilesPerWarp + dt) * 8 + accCol lane i) =
      a.outIndex (a.rowOf warp (accRow lane i)) (a.colOf warp dt lane i) := by
    have hsub : a.rowOf warp (accRow lane i) - a.i0 = a.warpM warp * 16 + accRow lane i :=
      Nat.add_sub_cancel_left _ _
    rw [hsub, outIndex, colOf, rowOf, outRow0]
    ring
  rw [hrow]
  by_cases hlt : a.rowOf warp (accRow lane i) < a.p.seqQ
  · rw [if_pos hlt, List.mem_singleton, haddr, and_iff_right hlt]
  · rw [if_neg hlt]
    simp [hlt]

/-- The LSE stores of a warp, row by row. -/
theorem mem_lseStores {warp : ℕ} {st : FlashWarp 𝕜} {w : ℕ × Flt 𝕜} :
    w ∈ a.lseStores num warp st ↔ (a.p.returnLse ∧ a.p.lse.isSome) ∧ ∃ lane < 32, ∃ e < 2,
      lane % 4 = 0 ∧ a.rowOf warp (lane / 4 + 8 * e) < a.p.seqQ ∧
      w = (a.lseIndex (a.rowOf warp (lane / 4 + 8 * e)), (st.softmax lane).lse num.log e) := by
  unfold lseStores
  split_ifs with hlse
  · rw [and_iff_right hlse]
    simp only [List.mem_flatMap, List.mem_range]
    refine exists_congr fun lane => and_congr_right fun _ => exists_congr fun e =>
      and_congr_right fun _ => ?_
    have hrow : a.i0 + a.warpM warp * 16 + (lane / 4 + 8 * e) = a.rowOf warp (lane / 4 + 8 * e) :=
      Nat.add_assoc _ _ _
    rw [hrow, ← and_assoc]
    split_ifs with hlt
    · rw [List.mem_singleton, and_iff_right hlt]
      rfl
    · simp [hlt]
  · simp [hlse]

section Epilogue

variable [IsStrictOrderedRing 𝕜] {warp : ℕ} {st : FlashWarp 𝕜} {J : Finset ℕ}

/-- What the epilogue writes for an accumulator register. -/
theorem WarpHolds.out_eq (hst : WarpHolds num a warp J st) {dt lane i : ℕ}
    (hdt : dt < a.dTilesPerWarp) (hlane : lane < 32) (hi : i < 4) :
    st.oAcc dt lane i * (if gtZero ((st.softmax lane).l (i / 2)) then
        recip ((st.softmax lane).l (i / 2)) else 0) =
      fin (average num.E (score num a (a.rowOf warp (accRow lane i)))
        (fun j => kvAt num a false j (a.colOf warp dt lane i)) J) := by
  have hrow : lane / 4 + 8 * (i / 2) = accRow lane i := rfl
  rw [hst.oAcc_eq dt hdt lane hlane i hi, hst.l_eq lane hlane (i / 2) (by omega), hrow, recip_mass,
    fin_mul_fin, average, div_eq_mul_inv]

/-- What the epilogue writes as log-sum-exp. -/
theorem WarpHolds.lse_eq (hst : WarpHolds num a warp J st) {lane e : ℕ} (hlane : lane < 32)
    (he : e < 2) : (st.softmax lane).lse num.log e =
      ofBot (logSumExp num.E num.log (score num a (a.rowOf warp (lane / 4 + 8 * e))) J) := by
  rw [OnlineSoftmax.lse, hst.m_eq lane hlane e he, hst.l_eq lane hlane e he, lse_mass]

end Epilogue

/-! ## The stores of a block -/

omit [Field 𝕜] [LinearOrder 𝕜] in
theorem threads_pos_of_lt {warp : ℕ} (hwarp : warp < a.warps) : 0 < a.threads := by
  unfold threads
  omega

/-- At the end every warp of the block holds positions that contain all visible keys. -/
theorem mainLoop_holds (num : Numerics 𝕜) (h : a.Compiles)
    (hfill : 0 < a.jTiles → a.tile.stages - 1 ≤ a.jTiles) (smem : ℕ → Flt 𝕜) {warp : ℕ}
    (hwarp : warp < a.warps) : ∃ J : Finset ℕ,
      WarpHolds num a warp J ((a.mainLoop num smem).warps warp) ∧
      ∀ i < a.i0 + a.tile.blockM, ∀ j, a.Visible i j → j ∈ J := by
  obtain ⟨n, hn, hvisited, hvisible⟩ := tilesVisited_eq (a := a) h.blockN_pos
  refine ⟨Finset.range (n * a.tile.blockN), ?_, fun i hi j hvis =>
    Finset.mem_range.mpr (hvisible i hi j hvis)⟩
  rw [mainLoop, hvisited]
  rcases Nat.eq_zero_or_pos n with rfl | hpos
  · -- without a tile the registers are the initial ones
    rw [Nat.zero_mul, Finset.range_zero]
    exact WarpHolds.init warp
  · exact (run_holds h (threads_pos_of_lt hwarp) (hfill (hpos.trans_le hn)) smem hn).2 warp hwarp

omit [Field 𝕜] [LinearOrder 𝕜] in
theorem rowOf_lt {warp r : ℕ} (hwarp : warp < a.warps) (hr : r < 16) :
    a.rowOf warp r < a.i0 + a.tile.blockM := by
  have := warpM_lt hwarp hr
  unfold rowOf
  omega

variable [IsStrictOrderedRing 𝕜]

/-- The output stores of a block, register by register. -/
theorem mem_stores_fst (h : a.Compiles) (hfill : 0 < a.jTiles → a.tile.stages - 1 ≤ a.jTiles)
    {smem : ℕ → Flt 𝕜} {w : ℕ × Flt 𝕜} : w ∈ (a.stores num smem).1 ↔ ∃ warp < a.warps,
    ∃ lane < 32,
      ∃ dt < a.dTilesPerWarp, ∃ i < 4, a.rowOf warp (accRow lane i) < a.p.seqQ ∧
      w = (a.outIndex (a.rowOf warp (accRow lane i)) (a.colOf warp dt lane i),
        fin ((problem num a).attention num.E a.batch a.head (a.rowOf warp (accRow lane i))
          (a.colOf warp dt lane i))) := by
  simp only [stores, List.mem_flatMap, List.mem_range]
  refine exists_congr fun warp => and_congr_right fun hwarp => ?_
  obtain ⟨J, hst, hJ⟩ := mainLoop_holds num h hfill smem hwarp
  rw [mem_outStores]
  refine exists_congr fun lane => and_congr_right fun hlane => exists_congr fun dt =>
    and_congr_right fun hdt => exists_congr fun i => and_congr_right fun hi =>
    and_congr_right fun hrow => ?_
  rw [hst.out_eq hdt hlane hi, average_eq hrow (hJ _ (rowOf_lt hwarp (accRow_lt hlane hi)))]

/-- The LSE stores of a block, row by row. -/
theorem mem_stores_snd (h : a.Compiles) (hfill : 0 < a.jTiles → a.tile.stages - 1 ≤ a.jTiles)
    {smem : ℕ → Flt 𝕜} {w : ℕ × Flt 𝕜} : w ∈ (a.stores num smem).2 ↔ ∃ warp < a.warps,
      (a.p.returnLse ∧ a.p.lse.isSome) ∧ ∃ lane < 32, ∃ e < 2, lane % 4 = 0 ∧
      a.rowOf warp (lane / 4 + 8 * e) < a.p.seqQ ∧
      w = (a.lseIndex (a.rowOf warp (lane / 4 + 8 * e)),
        ofBot ((problem num a).lse num.E num.log a.batch a.head
          (a.rowOf warp (lane / 4 + 8 * e)))) := by
  simp only [stores, List.mem_flatMap, List.mem_range]
  refine exists_congr fun warp => and_congr_right fun hwarp => ?_
  obtain ⟨J, hst, hJ⟩ := mainLoop_holds num h hfill smem hwarp
  rw [mem_lseStores]
  refine and_congr_right fun _ => exists_congr fun lane => and_congr_right fun hlane =>
    exists_congr fun e => and_congr_right fun he => and_congr_right fun _ =>
    and_congr_right fun hrow => ?_
  rw [hst.lse_eq hlane he, logSumExp_eq hrow (hJ _ (rowOf_lt hwarp (by omega)))]

/-! ## Which elements a block stores -/

omit [Field 𝕜] [LinearOrder 𝕜] [IsStrictOrderedRing 𝕜] in
/-- A warp for every 16 rows of the block and every part of the head dimension. -/
theorem exists_warp (hdvd : 16 ∣ a.tile.blockM) {r s : ℕ} (hr : r < a.tile.blockM)
    (hs : s < a.tile.splitsD) :
    ∃ warp < a.warps, a.warpM warp = r / 16 ∧ a.dSplit warp = s := by
  have hrows : r / 16 < a.warpsM := by
    unfold warpsM
    omega
  refine ⟨r / 16 * a.tile.splitsD + s, ?_, ?_, ?_⟩
  · exact Strided.flat_lt hrows hs
  · rw [warpM, Strided.flat_div _ hs]
  · rw [dSplit, Strided.flat_mod _ hs]

omit [Field 𝕜] [LinearOrder 𝕜] [IsStrictOrderedRing 𝕜] in
/-- Every element of the block's rows has a register. -/
theorem exists_register (h : a.Compiles) (hdvd : 16 ∣ a.tile.blockM) {i d : ℕ} (hlo : a.i0 ≤ i)
    (hhi : i < a.i0 + a.tile.blockM) (hd : d < a.headDim) :
    ∃ warp < a.warps, ∃ lane < 32, ∃ dt < a.dTilesPerWarp, ∃ reg < 4,
      a.rowOf warp (accRow lane reg) = i ∧ a.colOf warp dt lane reg = d := by
  obtain ⟨x, ⟨hx, hrow, hcol⟩, -⟩ := FragShape.existsUnique_register h.fragShape
    (show i - a.i0 < 16 * (a.tile.blockM / 16) by omega) hd
  refine ⟨x.warp, hx.warp_lt, x.lane, hx.lane_lt, x.dt, hx.dt_lt, x.i, hx.i_lt, ?_, hcol⟩
  rw [rowOf, show a.warpM x.warp * 16 + accRow x.lane x.i = i - a.i0 from hrow]
  omega

omit [Field 𝕜] [LinearOrder 𝕜] [IsStrictOrderedRing 𝕜] in
/-- Every row of the block has a lane that stores its log-sum-exp. -/
theorem exists_lane (h : a.Compiles) (hdvd : 16 ∣ a.tile.blockM) {i : ℕ} (hlo : a.i0 ≤ i)
    (hhi : i < a.i0 + a.tile.blockM) : ∃ warp < a.warps, ∃ lane < 32, ∃ e < 2,
      lane % 4 = 0 ∧ a.rowOf warp (lane / 4 + 8 * e) = i := by
  obtain ⟨warp, hwarp, hm, -⟩ :=
    exists_warp hdvd (r := i - a.i0) (s := 0) (by omega) h.splitsD_pos
  refine ⟨warp, hwarp, (i - a.i0) % 8 * 4, by omega, (i - a.i0) % 16 / 8, by omega, by omega, ?_⟩
  rw [rowOf, hm]
  omega

end FlashCta

/-! ## The whole grid -/

section Grid

variable {𝕜 : Type*} [Field 𝕜] [LinearOrder 𝕜] {num : Numerics 𝕜} {p : FlashFwdParams 𝕜}
  {buf : FlashBuffers 𝕜} {elem : DType} {headDim : ℕ} {tile : FlashTile}
  {smem : ℕ → ℕ → ℕ → ℕ → Flt 𝕜} {gridX gridY gridZ : ℕ} {w : ℕ × Flt 𝕜}

/-- The problem behind a launch. -/
def FlashFwdParams.problem (num : Numerics 𝕜) (p : FlashFwdParams 𝕜) (buf : FlashBuffers 𝕜)
    (elem : DType) (headDim : ℕ) : AttnProblem 𝕜 :=
  .ofMemory num elem buf.q buf.k buf.v p.qStride p.kStride p.vStride
    { batch := p.batch, numHeads := p.numHeads, numKvHeads := p.numKvHeads, seqQ := p.seqQ
      seqKv := p.seqKv, headDim }
    p.scale p.causal p.diagonal

/-- The offset of an output element. -/
def FlashFwdParams.outOffset (p : FlashFwdParams 𝕜) (b h i d : ℕ) : ℕ :=
  b * p.oStride.sB + h * p.oStride.sH + i * p.oStride.sS + d

/-- The offset of a row's log-sum-exp. -/
def FlashFwdParams.lseOffset (p : FlashFwdParams 𝕜) (b h i : ℕ) : ℕ :=
  (b * p.numHeads + h) * p.seqQ + i

theorem mem_flashGridStores_fst :
    w ∈ (flashGridStores num p buf elem headDim tile smem gridX gridY gridZ).1 ↔
      ∃ z < gridZ, ∃ y < gridY, ∃ x < gridX,
        w ∈ ((p.cta buf elem headDim tile x y z).stores num (smem x y z)).1 := by
  simp only [flashGridStores, List.mem_flatMap, List.mem_map, List.mem_range]
  constructor
  · rintro ⟨_, ⟨z, hz, y, hy, x, hx, rfl⟩, hw⟩
    exact ⟨z, hz, y, hy, x, hx, hw⟩
  · rintro ⟨z, hz, y, hy, x, hx, hw⟩
    exact ⟨_, ⟨z, hz, y, hy, x, hx, rfl⟩, hw⟩

theorem mem_flashGridStores_snd :
    w ∈ (flashGridStores num p buf elem headDim tile smem gridX gridY gridZ).2 ↔
      ∃ z < gridZ, ∃ y < gridY, ∃ x < gridX,
        w ∈ ((p.cta buf elem headDim tile x y z).stores num (smem x y z)).2 := by
  simp only [flashGridStores, List.mem_flatMap, List.mem_map, List.mem_range]
  constructor
  · rintro ⟨_, ⟨z, hz, y, hy, x, hx, rfl⟩, hw⟩
    exact ⟨z, hz, y, hy, x, hx, hw⟩
  · rintro ⟨z, hz, y, hy, x, hx, hw⟩
    exact ⟨_, ⟨z, hz, y, hy, x, hx, rfl⟩, hw⟩

omit [Field 𝕜] [LinearOrder 𝕜] in
/-- Two stages are filled by the first key tile. -/
theorem flashCta_fill (hstages : tile.stages = 2) (x y z : ℕ)
    (htiles : 0 < (p.cta buf elem headDim tile x y z).jTiles) :
    (p.cta buf elem headDim tile x y z).tile.stages - 1 ≤
      (p.cta buf elem headDim tile x y z).jTiles := by
  change tile.stages - 1 ≤ _
  rw [hstages]
  exact htiles

variable [IsStrictOrderedRing 𝕜]

/-- Every output store of a grid is an element of the answer. -/
theorem out_of_mem_flashGridStores (hc : tile.Compiles elem headDim) (hstages : tile.stages = 2)
    (hw : w ∈ (flashGridStores num p buf elem headDim tile smem gridX gridY gridZ).1) :
    ∃ b < gridZ, ∃ h < gridY, ∃ i < p.seqQ, ∃ d < headDim, w = (p.outOffset b h i d,
      fin ((p.problem num buf elem headDim).attention num.E b h i d)) := by
  obtain ⟨z, hz, y, hy, x, -, hw⟩ := mem_flashGridStores_fst.mp hw
  obtain ⟨warp, -, lane, -, dt, hdt, i, -, hrow, rfl⟩ :=
    (FlashCta.mem_stores_fst hc (flashCta_fill hstages x y z)).mp hw
  exact ⟨z, hz, y, hy, _, hrow, _, FlashCta.colOf_lt hc hdt, rfl⟩

/-- Every LSE store of a grid is the log-sum-exp of its row. -/
theorem lse_of_mem_flashGridStores (hc : tile.Compiles elem headDim) (hstages : tile.stages = 2)
    (hw : w ∈ (flashGridStores num p buf elem headDim tile smem gridX gridY gridZ).2) :
    ∃ b < gridZ, ∃ h < gridY, ∃ i < p.seqQ, w = (p.lseOffset b h i,
      ofBot ((p.problem num buf elem headDim).lse num.E num.log b h i)) := by
  obtain ⟨z, hz, y, hy, x, -, hw⟩ := mem_flashGridStores_snd.mp hw
  obtain ⟨warp, -, -, lane, -, e, -, -, hrow, rfl⟩ :=
    (FlashCta.mem_stores_snd hc (flashCta_fill hstages x y z)).mp hw
  exact ⟨z, hz, y, hy, _, hrow, rfl⟩

omit [Field 𝕜] [LinearOrder 𝕜] [IsStrictOrderedRing 𝕜] in
/-- The blocks of a grid cover the query rows. -/
theorem exists_block (hpos : 0 < tile.blockM) {i : ℕ} (hi : i < p.seqQ) :
    i / tile.blockM < flashGridX p tile ∧ i / tile.blockM * tile.blockM ≤ i ∧
      i < i / tile.blockM * tile.blockM + tile.blockM := by
  refine ⟨?_, Nat.div_mul_le_self i _, Nat.lt_div_mul_add hpos⟩
  rw [flashGridX, Nat.lt_div_iff_mul_lt hpos]
  have := Nat.div_mul_le_self i tile.blockM
  omega

/-- A grid with whole warps stores every output element. -/
theorem mem_flashGridStores_out (hc : tile.Compiles elem headDim) (hstages : tile.stages = 2)
    (hpos : 0 < tile.blockM) (hdvd : 16 ∣ tile.blockM)
    (hgrid : gridX = flashGridX p tile) {b h i d : ℕ} (hb : b < gridZ) (hh : h < gridY)
    (hi : i < p.seqQ) (hd : d < headDim) :
    (p.outOffset b h i d, fin ((p.problem num buf elem headDim).attention num.E b h i d)) ∈
      (flashGridStores num p buf elem headDim tile smem gridX gridY gridZ).1 := by
  obtain ⟨hx, hlo, hhi⟩ := exists_block hpos hi
  refine mem_flashGridStores_fst.mpr ⟨b, hb, h, hh, i / tile.blockM, hgrid ▸ hx, ?_⟩
  obtain ⟨warp, hwarp, lane, hlane, dt, hdt, reg, hreg, hrow, hcol⟩ :=
    FlashCta.exists_register (a := p.cta buf elem headDim tile (i / tile.blockM) h b) hc hdvd hlo hhi
      hd
  refine (FlashCta.mem_stores_fst hc (flashCta_fill hstages _ h b)).mpr
    ⟨warp, hwarp, lane, hlane, dt, hdt, reg, hreg, ?_, ?_⟩
  · rw [hrow]
    exact hi
  · rw [hrow, hcol]
    rfl

/-- A grid with whole warps stores the log-sum-exp of every row when it is asked to. -/
theorem mem_flashGridStores_lse (hc : tile.Compiles elem headDim) (hstages : tile.stages = 2)
    (hpos : 0 < tile.blockM) (hdvd : 16 ∣ tile.blockM)
    (hgrid : gridX = flashGridX p tile) (hlse : p.returnLse = true ∧ p.lse.isSome) {b h i : ℕ}
    (hb : b < gridZ) (hh : h < gridY) (hi : i < p.seqQ) :
    (p.lseOffset b h i, ofBot ((p.problem num buf elem headDim).lse num.E num.log b h i)) ∈
      (flashGridStores num p buf elem headDim tile smem gridX gridY gridZ).2 := by
  obtain ⟨hx, hlo, hhi⟩ := exists_block hpos hi
  refine mem_flashGridStores_snd.mpr ⟨b, hb, h, hh, i / tile.blockM, hgrid ▸ hx, ?_⟩
  obtain ⟨warp, hwarp, lane, hlane, e, he, hfirst, hrow⟩ :=
    FlashCta.exists_lane (a := p.cta buf elem headDim tile (i / tile.blockM) h b) hc hdvd hlo hhi
  refine (FlashCta.mem_stores_snd hc (flashCta_fill hstages _ h b)).mpr
    ⟨warp, hwarp, hlse, lane, hlane, e, he, hfirst, ?_, ?_⟩
  · rw [hrow]
    exact hi
  · rw [hrow]
    rfl

omit [Field 𝕜] [LinearOrder 𝕜] [IsStrictOrderedRing 𝕜] in
/-- The output is laid out as `[B, H_q, S_q, D]`. -/
theorem FlashFwdParams.outOffset_eq (ho : p.oStride = stridesFor .bhsd p.seqQ p.numHeads headDim)
    (b h i d : ℕ) : p.outOffset b h i d = p.lseOffset b h i * headDim + d := by
  rw [outOffset, lseOffset, ho, stridesFor]
  ring

omit [Field 𝕜] [LinearOrder 𝕜] [IsStrictOrderedRing 𝕜] in
/-- A row has one place in the LSE buffer. -/
theorem FlashFwdParams.lseOffset_inj {b b' h h' i i' : ℕ} (hh : h < p.numHeads) (hh' : h' < p.numHeads)
    (hi : i < p.seqQ) (hi' : i' < p.seqQ) (heq : p.lseOffset b h i = p.lseOffset b' h' i') :
    b = b' ∧ h = h' ∧ i = i' := by
  obtain ⟨hhead, rfl⟩ := Strided.mul_add_inj hi hi' heq
  obtain ⟨rfl, rfl⟩ := Strided.mul_add_inj hh hh' hhead
  exact ⟨rfl, rfl, rfl⟩

/-- The output after the grid. -/
theorem flashGrid_out (hc : tile.Compiles elem headDim) (hstages : tile.stages = 2)
    (hpos : 0 < tile.blockM) (hdvd : 16 ∣ tile.blockM)
    (ho : p.oStride = stridesFor .bhsd p.seqQ p.numHeads headDim) (mem : ℕ → Flt 𝕜) {b h i d : ℕ}
    (hb : b < p.batch) (hh : h < p.numHeads) (hi : i < p.seqQ) (hd : d < headDim) :
    Scatter.apply mem (flashGridStores num p buf elem headDim tile smem (flashGridX p tile) p.numHeads
        p.batch).1 (p.lseOffset b h i * headDim + d) =
      fin ((p.problem num buf elem headDim).attention num.E b h i d) := by
  rw [← FlashFwdParams.outOffset_eq ho]
  refine Scatter.apply_of_agree
    (mem_flashGridStores_out hc hstages hpos hdvd rfl hb hh hi hd) fun w hw haddr => ?_
  obtain ⟨b', -, h', hh', i', hi', d', hd', rfl⟩ := out_of_mem_flashGridStores hc hstages hw
  simp only [FlashFwdParams.outOffset_eq ho] at haddr
  obtain ⟨hrow, rfl⟩ := Strided.mul_add_inj hd' hd haddr
  obtain ⟨rfl, rfl, rfl⟩ := FlashFwdParams.lseOffset_inj hh' hh hi' hi hrow
  rfl

/-- The LSE buffer after the grid. -/
theorem flashGrid_lse (hc : tile.Compiles elem headDim) (hstages : tile.stages = 2)
    (hpos : 0 < tile.blockM) (hdvd : 16 ∣ tile.blockM)
    (hlse : p.returnLse = true ∧ p.lse.isSome) (mem : ℕ → Flt 𝕜) {b h i : ℕ}
    (hb : b < p.batch) (hh : h < p.numHeads) (hi : i < p.seqQ) :
    Scatter.apply mem (flashGridStores num p buf elem headDim tile smem (flashGridX p tile) p.numHeads
        p.batch).2 (p.lseOffset b h i) =
      ofBot ((p.problem num buf elem headDim).lse num.E num.log b h i) := by
  refine Scatter.apply_of_agree
    (mem_flashGridStores_lse hc hstages hpos hdvd rfl hlse hb hh hi) fun w hw haddr => ?_
  obtain ⟨b', -, h', hh', i', hi', rfl⟩ := lse_of_mem_flashGridStores hc hstages hw
  obtain ⟨rfl, rfl, rfl⟩ := FlashFwdParams.lseOffset_inj hh' hh hi' hi haddr
  rfl

end Grid

/-- Two queries over three keys with the diagonal one below the main one: the first query sees
nothing. -/
noncomputable def shiftedParams : FlashFwdParams ℝ where
  q := none
  k := none
  v := none
  out := none
  lse := some fun _ => 0
  batch := 1
  numHeads := 1
  numKvHeads := 1
  seqQ := 2
  seqKv := 3
  headDim := 16
  qStride := stridesFor .bhsd 2 1 16
  kStride := stridesFor .bhsd 3 1 16
  vStride := stridesFor .bhsd 3 1 16
  oStride := stridesFor .bhsd 2 1 16
  scale := 1
  causal := true
  returnLse := true
  diagonal := -1
  dtypeId := 1

/-- Zero queries and keys, values all one. -/
noncomputable def onesBuffers : FlashBuffers ℝ := ⟨fun _ => 0, fun _ => 0, onesHalf, fun _ => 0⟩

end SciAttention

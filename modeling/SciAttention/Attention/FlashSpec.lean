import SciAttention.Attention.FlashPipeline
import SciAttention.Attention.Fragments

/-!
# What the flash forward kernel computes

The fragments of a warp are windows of matrices: after the QK loop they hold `Q Kᵀ` (`qkLoop_eq`), after
masking the scores of the reference, and the PV loop adds `P V` (`pvLoop_eq`). With the tile resident,
one iteration keeps the registers equal to the maximum and the weighted sums over the positions seen so
far (`WarpHolds`); positions behind the last tile visited are masked for every row of the block.
-/

namespace SciAttention

open Flt Softmax TensorCore

namespace FlashCta

variable {𝕜 : Type*} [Field 𝕜] [LinearOrder 𝕜] (num : Numerics 𝕜) (a : FlashCta 𝕜)

/-! ## The reference -/

/-- Element `d` of query row `i`, zero behind the tensor. -/
def qAt (i d : ℕ) : 𝕜 :=
  if i < a.p.seqQ then
    num.load a.elem a.q (a.batch * a.p.qStride.sB + a.head * a.p.qStride.sH + i * a.p.qStride.sS + d)
  else 0

/-- Query `i` sees key `j`. -/
def Visible (i j : ℕ) : Prop := j < a.p.seqKv ∧ (a.causal = true → (j : ℤ) ≤ i + a.p.diagonal)

instance (i j : ℕ) : Decidable (a.Visible i j) := inferInstanceAs (Decidable (_ ∧ _))

/-- The dot product of query `i` and key `j`. -/
def dot (i j : ℕ) : 𝕜 := ∑ d ∈ Finset.range a.headDim, qAt num a i d * kvAt num a true j d

/-- The score of key `j` for query `i`; a key that is not visible has none. -/
def score (i j : ℕ) : WithBot 𝕜 :=
  if a.Visible i j then ((dot num a i j * a.p.scale : 𝕜) : WithBot 𝕜) else ⊥

variable {num a}

/-! ## Fragments -/

/-- The Q tile in shared memory. -/
theorem qSmem_eq (hthreads : 0 < a.threads) (mem : ℕ → Flt 𝕜) {row col : ℕ}
    (hrow : row < a.tile.blockM) (hcol : col < a.headDim) :
    a.qSmem num mem (row * a.rowStride + col) = fin (qAt num a (a.i0 + row) col) := by
  have hstride : ∀ c < a.headDim, c < a.rowStride := fun c hc => by
    unfold rowStride
    omega
  have hvalue : ∀ r c, (if a.i0 + r < a.p.seqQ then
      fin (num.load a.elem a.q (a.qRow0 + (r * a.p.qStride.sS + c))) else (0 : Flt 𝕜)) =
      fin (qAt num a (a.i0 + r) c) := by
    intro r c
    unfold qAt qRow0
    split_ifs
    · congr 2
      ring
    · rfl
  -- threads that write the same cell write the same row and column
  refine Scatter.apply_of_agree ?_ fun w hw haddr => ?_
  · refine List.mem_map.mpr ⟨row * a.headDim + col, ?_, ?_⟩
    · rw [(Strided.threads_perm hthreads _).mem_iff, List.mem_range]
      exact Strided.flat_lt hrow hcol
    · rw [Strided.flat_div row hcol, Strided.flat_mod row hcol, hvalue]
  · obtain ⟨idx, -, rfl⟩ := List.mem_map.mp hw
    have hpos : 0 < a.headDim := by omega
    obtain ⟨hr, hc⟩ := Strided.mul_add_inj (hstride _ (Nat.mod_lt idx hpos)) (hstride col hcol) haddr
    simp only [hr, hc, hvalue]

omit [Field 𝕜] [LinearOrder 𝕜] in
/-- The rows of a warp lie inside the block. -/
theorem warpM_lt {warp r : ℕ} (hwarp : warp < a.warps) (hr : r < 16) :
    a.warpM warp * 16 + r < a.tile.blockM := by
  have hpos : 0 < a.tile.splitsD := by
    rcases Nat.eq_zero_or_pos a.tile.splitsD with hzero | hpos
    · simp [warps, hzero] at hwarp
    · exact hpos
  have hm : a.warpM warp < a.warpsM := by
    rw [warpM, Nat.div_lt_iff_lt_mul hpos]
    exact hwarp
  unfold warpsM at hm
  omega

omit [LinearOrder 𝕜] [Field 𝕜] in
theorem Compiles.fragShape (h : a.Compiles) : a.fragShape.Valid :=
  ⟨h.splitsD_pos, h.headDim_dvd, h.blockN_dvd⟩

omit [LinearOrder 𝕜] [Field 𝕜] in
theorem nTiles_eq (h : a.Compiles) : a.nTiles = 2 * (a.nTiles / 2) ∧ 8 * a.nTiles = a.tile.blockN :=
  FragShape.nTiles_eq h.fragShape

/-- After the QK loop the fragments hold the dot products of the warp's rows with the tile. -/
theorem qkLoop_eq (h : a.Compiles) (hthreads : 0 < a.threads) {mem mem₀ : ℕ → Flt 𝕜} {j warp : ℕ}
    (hres : Resident num a mem j) (hwarp : warp < a.warps) {nt lane i : ℕ} (hnt : nt < a.nTiles)
    (hlane : lane < 32) (hi : i < 4) :
    a.qkLoop mem (a.kTile j) (a.qFrag (a.qSmem num mem₀) warp) nt lane i =
      fin (dot num a (a.i0 + (a.warpM warp * 16 + accRow lane i))
        (j * a.tile.blockN + (8 * nt + accCol lane i))) := by
  have hblock := (nTiles_eq h).2
  have hcol := accCol_lt lane i
  rw [qkLoop_fragShape, qFrag_fragShape,
    FragShape.qkLoop_eq h.fragShape mem (a.qSmem num mem₀) (a.kTile j) warp hnt hlane hi, dot, ← sum_fin]
  refine Finset.sum_congr rfl fun d hd => ?_
  rw [Finset.mem_range] at hd
  have hq : a.qSmem num mem₀ (a.fragShape.rowOf warp lane i * a.fragShape.rowStride + d) =
      fin (qAt num a (a.i0 + (a.warpM warp * 16 + accRow lane i)) d) :=
    qSmem_eq hthreads mem₀ (warpM_lt hwarp (accRow_lt hlane hi)) hd
  have hk : mem (a.kTile j + (8 * nt + accCol lane i) * a.fragShape.rowStride + d) =
      fin (kvAt num a true (j * a.tile.blockN + (8 * nt + accCol lane i)) d) := by
    rw [← hres true (8 * nt + accCol lane i) (by omega) d hd, cell, if_pos rfl]
    rfl
  rw [hq, hk, fin_mul_fin]

/-! ## Rows of a tile -/

omit [Field 𝕜] in
/-- The quads of a warp hold the columns of a tile's rows. -/
theorem sup_columns (f : ℕ → WithBot 𝕜) (n : ℕ) :
    ((Finset.range 4).sup fun c => (Finset.range n).sup fun nt =>
      f (8 * nt + 2 * c) ⊔ f (8 * nt + (2 * c + 1))) = (Finset.range (8 * n)).sup f := by
  refine le_antisymm (Finset.sup_le fun c hc => Finset.sup_le fun nt hnt => ?_)
    (Finset.sup_le fun j hj => ?_)
  · rw [Finset.mem_range] at hc hnt
    exact sup_le (Finset.le_sup (Finset.mem_range.mpr (by omega)))
      (Finset.le_sup (Finset.mem_range.mpr (by omega)))
  · rw [Finset.mem_range] at hj
    have hpair : f j ≤ f (8 * (j / 8) + 2 * (j % 8 / 2)) ⊔ f (8 * (j / 8) + (2 * (j % 8 / 2) + 1)) := by
      rcases Nat.mod_two_eq_zero_or_one j with heven | hodd
      · rw [show 8 * (j / 8) + 2 * (j % 8 / 2) = j by omega]
        exact le_sup_left
      · rw [show 8 * (j / 8) + (2 * (j % 8 / 2) + 1) = j by omega]
        exact le_sup_right
    refine hpair.trans ?_
    have hquad : j / 8 ∈ Finset.range n := Finset.mem_range.mpr (by omega)
    have hlane : j % 8 / 2 ∈ Finset.range 4 := Finset.mem_range.mpr (by omega)
    exact (Finset.le_sup (f := fun nt => f (8 * nt + 2 * (j % 8 / 2)) ⊔
      f (8 * nt + (2 * (j % 8 / 2) + 1))) hquad).trans (Finset.le_sup (f := fun c =>
        (Finset.range n).sup fun nt => f (8 * nt + 2 * c) ⊔ f (8 * nt + (2 * c + 1))) hlane)

omit [LinearOrder 𝕜] in
theorem sum_columns (f : ℕ → 𝕜) (n : ℕ) :
    (∑ c ∈ Finset.range 4, ∑ nt ∈ Finset.range n,
      (f (8 * nt + 2 * c) + f (8 * nt + (2 * c + 1)))) = ∑ j ∈ Finset.range (8 * n), f j := by
  rw [Finset.sum_comm, Nat.mul_comm 8 n, ← Strided.sum_windows]
  refine Finset.sum_congr rfl fun nt _ => ?_
  simp only [Finset.sum_range_succ, Finset.sum_range_zero, Nat.mul_comm nt 8]
  ring_nf

omit [Field 𝕜] in
/-- The maximum that a quad finds in its row of a tile. -/
theorem rowReduceMax4_eq {n : ℕ} {sFrag : Frags 𝕜} {S : ℕ → ℕ → WithBot 𝕜}
    (hS : ∀ nt < n, ∀ lane < 32, ∀ i < 4,
      sFrag nt lane i = ofBot (S (accRow lane i) (8 * nt + accCol lane i))) {lane e : ℕ}
    (hlane : lane < 32) (he : e < 2) :
    OnlineSoftmax.rowReduceMax4 (fun lane => (List.range n).foldl (fun t nt =>
      fmaxf t (fmaxf (sFrag nt lane (2 * e)) (sFrag nt lane (2 * e + 1)))) negInf) lane =
      ofBot ((Finset.range (8 * n)).sup (S (lane / 4 + 8 * e))) := by
  have hlocal : ∀ lane < 32, (List.range n).foldl (fun t nt =>
      fmaxf t (fmaxf (sFrag nt lane (2 * e)) (sFrag nt lane (2 * e + 1)))) negInf =
      ofBot ((Finset.range n).sup fun nt => S (lane / 4 + 8 * e) (8 * nt + 2 * (lane % 4)) ⊔
        S (lane / 4 + 8 * e) (8 * nt + (2 * (lane % 4) + 1))) := by
    intro lane hlane
    have hfold := foldl_fmaxf_ofBot (fun nt => S (lane / 4 + 8 * e) (8 * nt + 2 * (lane % 4)) ⊔
        S (lane / 4 + 8 * e) (8 * nt + (2 * (lane % 4) + 1))) (List.range n) ⊥
    rw [List.toFinset_range, bot_sup_eq, ofBot_bot] at hfold
    rw [← hfold]
    refine List.foldl_ext _ _ _ fun t nt hnt => ?_
    rw [List.mem_range] at hnt
    rw [hS nt hnt lane hlane _ (by omega), hS nt hnt lane hlane _ (by omega), fmaxf_ofBot]
    simp only [accRow_even, accRow_odd, accCol_even, accCol_odd]
  rw [OnlineSoftmax.rowReduceMax4, Butterfly.reduce_congr (by decide) hlocal hlane,
    Butterfly.reduce_quad_fmaxf, ← sup_columns]
  congr 1
  refine Finset.sup_congr rfl fun c hc => ?_
  rw [Finset.mem_range] at hc
  rw [show (lane / 4 * 4 + c) / 4 = lane / 4 by omega, show (lane / 4 * 4 + c) % 4 = c by omega]

omit [LinearOrder 𝕜] in
/-- The sum that a quad finds in its row of a tile. -/
theorem rowReduceSum4_eq {n : ℕ} {pFrag : Frags 𝕜} {P : ℕ → ℕ → 𝕜}
    (hP : ∀ nt < n, ∀ lane < 32, ∀ i < 4,
      pFrag nt lane i = fin (P (accRow lane i) (8 * nt + accCol lane i))) {lane e : ℕ}
    (hlane : lane < 32) (he : e < 2) :
    OnlineSoftmax.rowReduceSum4 (fun lane => (List.range n).foldl (fun t nt =>
      t + (pFrag nt lane (2 * e) + pFrag nt lane (2 * e + 1))) 0) lane =
      fin (∑ j ∈ Finset.range (8 * n), P (lane / 4 + 8 * e) j) := by
  have hlocal : ∀ lane < 32, (List.range n).foldl (fun t nt =>
      t + (pFrag nt lane (2 * e) + pFrag nt lane (2 * e + 1))) 0 =
      fin (∑ nt ∈ Finset.range n, (P (lane / 4 + 8 * e) (8 * nt + 2 * (lane % 4)) +
        P (lane / 4 + 8 * e) (8 * nt + (2 * (lane % 4) + 1)))) := by
    intro lane hlane
    have hfold := foldl_add_fin (fun nt => P (lane / 4 + 8 * e) (8 * nt + 2 * (lane % 4)) +
        P (lane / 4 + 8 * e) (8 * nt + (2 * (lane % 4) + 1))) (List.range n) 0
    rw [zero_add, ← zero_def] at hfold
    refine Eq.trans ?_ hfold
    refine List.foldl_ext _ _ _ fun t nt hnt => ?_
    rw [List.mem_range] at hnt
    rw [hP nt hnt lane hlane _ (by omega), hP nt hnt lane hlane _ (by omega), fin_add_fin]
    simp only [accRow_even, accRow_odd, accCol_even, accCol_odd]
  rw [OnlineSoftmax.rowReduceSum4, Butterfly.reduce_congr (by decide) hlocal hlane,
    Butterfly.reduce_quad_add, ← sum_columns]
  congr 1
  refine Finset.sum_congr rfl fun c hc => ?_
  rw [Finset.mem_range] at hc
  rw [show (lane / 4 * 4 + c) / 4 = lane / 4 by omega, show (lane / 4 * 4 + c) % 4 = c by omega]

/-! ## Scores and values of a tile -/

/-- The query row of row `r` of a warp. -/
def rowOf (a : FlashCta 𝕜) (warp r : ℕ) : ℕ := a.i0 + (a.warpM warp * 16 + r)

omit [Field 𝕜] [LinearOrder 𝕜] in
/-- The mask lets exactly the visible keys through, also where it is left out. -/
theorem vis_iff (h : a.Compiles) {warp jBase nt lane i : ℕ} (hnt : nt < a.nTiles) :
    a.vis warp jBase nt lane i = true ↔
      a.Visible (a.rowOf warp (accRow lane i)) (jBase + (8 * nt + accCol lane i)) := by
  have hblock := (nTiles_eq h).2
  have hcol := accCol_lt lane i
  unfold vis Visible rowOf
  split
  · rw [Bool.and_eq_true, decide_eq_true_iff, Bool.or_eq_true, Bool.not_eq_true', maskElementVisible,
      decide_eq_true_iff]
    push_cast
    constructor
    · rintro ⟨hin, hcausal⟩
      refine ⟨by omega, fun hc => ?_⟩
      rcases hcausal with hfalse | hle
      · rw [hc] at hfalse
        contradiction
      · linarith
    · rintro ⟨hin, hcausal⟩
      refine ⟨by omega, ?_⟩
      cases hc : a.causal with
      | false => exact .inl rfl
      | true =>
        have := hcausal hc
        exact .inr (by linarith)
  · next hmask =>
    -- the tile ends inside the tensor and below the diagonal of the warp's first row
    simp only [needMask, Bool.or_eq_true, Bool.not_eq_true', decide_eq_false_iff_not, not_or,
      not_not, Bool.or_eq_false_iff, not_and_or, Bool.not_eq_false] at hmask
    obtain ⟨hin, hvisible⟩ := hmask
    simp only [true_iff]
    refine ⟨by omega, fun hc => ?_⟩
    rcases hvisible with hfalse | hle
    · simp [hc] at hfalse
    · rw [maskWarpFullyVisible, decide_eq_true_iff] at hle
      push_cast
      omega

/-- The scores of a tile in the registers of a warp. -/
theorem scaleMask_eq (h : a.Compiles) (hthreads : 0 < a.threads) {mem mem₀ : ℕ → Flt 𝕜}
    {j warp : ℕ}
    (hres : Resident num a mem j) (hwarp : warp < a.warps) {nt lane i : ℕ} (hnt : nt < a.nTiles)
    (hlane : lane < 32) (hi : i < 4) :
    a.scaleMask warp (j * a.tile.blockN)
        (a.qkLoop mem (a.kTile j) (a.qFrag (a.qSmem num mem₀) warp)) nt lane i =
      ofBot (score num a (a.rowOf warp (accRow lane i))
        (j * a.tile.blockN + (8 * nt + accCol lane i))) := by
  rw [scaleMask, score]
  by_cases hvis : a.Visible (a.rowOf warp (accRow lane i))
      (j * a.tile.blockN + (8 * nt + accCol lane i))
  · rw [if_pos hvis, if_pos ((vis_iff h hnt).mpr hvis),
      qkLoop_eq h hthreads hres hwarp hnt hlane hi, fin_mul_fin]
    rfl
  · rw [if_neg hvis, if_neg fun hv => hvis ((vis_iff h hnt).mp hv), ofBot_bot]

omit [LinearOrder 𝕜] [Field 𝕜] in
theorem dTilesPerWarp_eq (h : a.Compiles) : a.dTilesPerWarp = 2 * (a.dTilesPerWarp / 2) ∧
    a.tile.splitsD * a.dTilesPerWarp * 8 = a.headDim :=
  FragShape.dTilesPerWarp_eq h.fragShape

/-- The output column of register `i` of output tile `dt`. -/
def colOf (a : FlashCta 𝕜) (warp dt lane i : ℕ) : ℕ :=
  (a.dSplit warp * a.dTilesPerWarp + dt) * 8 + accCol lane i

omit [LinearOrder 𝕜] [Field 𝕜] in
theorem colOf_lt (h : a.Compiles) {warp dt lane i : ℕ} (hdt : dt < a.dTilesPerWarp) :
    a.colOf warp dt lane i < a.headDim := by
  have hsplit : (a.dSplit warp + 1) * a.dTilesPerWarp ≤ a.tile.splitsD * a.dTilesPerWarp :=
    Nat.mul_le_mul_right _ (Nat.mod_lt warp h.splitsD_pos)
  have hcol := accCol_lt lane i
  have hdim := (dTilesPerWarp_eq h).2
  rw [Nat.succ_mul] at hsplit
  unfold colOf
  omega

/-- The PV loop adds the product of the probabilities and the tile's values. -/
theorem pvLoop_eq (h : a.Compiles) {mem : ℕ → Flt 𝕜} {j : ℕ} (hres : Resident num a mem j)
    {pFrag : Frags 𝕜} {P : ℕ → ℕ → 𝕜} (hP : ∀ nt < a.nTiles, ∀ lane < 32, ∀ i < 4,
      pFrag nt lane i = fin (P (accRow lane i) (8 * nt + accCol lane i))) (oAcc : Frags 𝕜)
    (warp : ℕ) {dt lane i : ℕ} (hdt : dt < a.dTilesPerWarp) (hlane : lane < 32) (hi : i < 4) :
    a.pvLoop mem (a.vTile j) warp pFrag oAcc dt lane i = oAcc dt lane i +
      fin (∑ n ∈ Finset.range a.tile.blockN, P (accRow lane i) n *
        kvAt num a false (j * a.tile.blockN + n) (a.colOf warp dt lane i)) := by
  rw [pvLoop_fragShape, FragShape.pvLoop_eq (P := fun r n => fin (P r n)) h.fragShape mem (a.vTile j) warp hP
    oAcc hdt hlane hi, ← sum_fin]
  refine congrArg _ (Finset.sum_congr rfl fun n hn => ?_)
  rw [Finset.mem_range] at hn
  have hv : mem (a.vTile j + n * a.fragShape.rowStride + a.fragShape.colOf warp dt lane i) =
      fin (kvAt num a false (j * a.tile.blockN + n) (a.colOf warp dt lane i)) := by
    rw [← hres false n hn _ (colOf_lt h hdt), cell, if_neg (by decide)]
    rfl
  rw [hv, fin_mul_fin]

/-! ## One iteration of a warp -/

/-- The registers of a warp after the positions `J`: per row the maximum, the denominator and the
weighted sums of the values. -/
structure WarpHolds (num : Numerics 𝕜) (a : FlashCta 𝕜) (warp : ℕ) (J : Finset ℕ)
    (st : FlashWarp 𝕜) : Prop where
  m_eq : ∀ lane < 32, ∀ e < 2, (st.softmax lane).m e =
    ofBot (J.sup (score num a (a.rowOf warp (lane / 4 + 8 * e))))
  l_eq : ∀ lane < 32, ∀ e < 2, (st.softmax lane).l e =
    fin (mass num.E (score num a (a.rowOf warp (lane / 4 + 8 * e))) 1 J
      (J.sup (score num a (a.rowOf warp (lane / 4 + 8 * e)))))
  oAcc_eq : ∀ dt < a.dTilesPerWarp, ∀ lane < 32, ∀ i < 4, st.oAcc dt lane i =
    fin (mass num.E (score num a (a.rowOf warp (accRow lane i)))
      (fun j => kvAt num a false j (a.colOf warp dt lane i)) J
      (J.sup (score num a (a.rowOf warp (accRow lane i)))))

theorem WarpHolds.init (warp : ℕ) : WarpHolds num a warp ∅ .init :=
  ⟨fun _ _ _ _ => rfl, fun _ _ _ _ => rfl, fun _ _ _ _ _ _ => rfl⟩

/-- The positions of tile `j`. -/
def tilePositions (a : FlashCta 𝕜) (j : ℕ) : Finset ℕ := Strided.window a.tile.blockN j

omit [Field 𝕜] in
theorem sup_tilePositions (s : ℕ → WithBot 𝕜) (j : ℕ) :
    (Finset.range a.tile.blockN).sup (fun n => s (j * a.tile.blockN + n)) =
      (a.tilePositions j).sup s := Strided.sup_window s _ _

theorem mass_tilePositions (s : ℕ → WithBot 𝕜) (w : ℕ → 𝕜) (j : ℕ) (m : WithBot 𝕜) :
    ∑ n ∈ Finset.range a.tile.blockN, weight num.E (s (j * a.tile.blockN + n)) m *
      w (j * a.tile.blockN + n) = mass num.E s w (a.tilePositions j) m :=
  Strided.sum_window (fun n => weight num.E (s n) m * w n) _ _

/-- A warp's iteration on a resident tile adds the tile's positions. -/
theorem WarpHolds.step (h : a.Compiles) (hthreads : 0 < a.threads) {mem mem₀ : ℕ → Flt 𝕜}
    {j warp : ℕ} (hres : Resident num a mem j) (hwarp : warp < a.warps) {J : Finset ℕ}
    (hJ : Disjoint J (a.tilePositions j)) {st : FlashWarp 𝕜} (hst : WarpHolds num a warp J st) :
    WarpHolds num a warp (J ∪ a.tilePositions j)
      (a.warpStep num mem (a.qFrag (a.qSmem num mem₀) warp) j warp st) := by
  have hblock := (nTiles_eq h).2
  set sFrag := a.scaleMask warp (j * a.tile.blockN)
    (a.qkLoop mem (a.kTile j) (a.qFrag (a.qSmem num mem₀) warp)) with hsFrag
  set S : ℕ → ℕ → WithBot 𝕜 := fun r => score num a (a.rowOf warp r) with hS
  set T := a.tilePositions j with hT
  have hscores : ∀ nt < a.nTiles, ∀ lane < 32, ∀ i < 4, sFrag nt lane i =
      ofBot (S (accRow lane i) (j * a.tile.blockN + (8 * nt + accCol lane i))) :=
    fun nt hnt lane hlane i hi => scaleMask_eq h hthreads hres hwarp hnt hlane hi
  -- the new maximum of a row
  have hm : ∀ lane < 32, ∀ e < 2,
      (OnlineSoftmax.updateMax num.E a.nTiles sFrag st.softmax lane).m e =
        ofBot (J.sup (S (lane / 4 + 8 * e)) ⊔ T.sup (S (lane / 4 + 8 * e))) := by
    intro lane hlane e he
    have hmax := rowReduceMax4_eq (S := fun r n => S r (j * a.tile.blockN + n)) hscores hlane he
    rw [hblock, sup_tilePositions] at hmax
    rw [← fmaxf_ofBot, ← hst.m_eq lane hlane e he, ← hmax]
    rfl
  have halpha : ∀ lane < 32, ∀ e < 2,
      (OnlineSoftmax.updateMax num.E a.nTiles sFrag st.softmax lane).alpha e =
        fin (weight num.E (J.sup (S (lane / 4 + 8 * e)))
          (J.sup (S (lane / 4 + 8 * e)) ⊔ T.sup (S (lane / 4 + 8 * e)))) := by
    intro lane hlane e he
    rw [← rescale_ofBot', ← hm lane hlane e he, ← hst.m_eq lane hlane e he]
    rfl
  set P : ℕ → ℕ → 𝕜 := fun r n =>
    weight num.E (S r (j * a.tile.blockN + n)) (J.sup (S r) ⊔ T.sup (S r)) with hPdef
  have hP : ∀ nt < a.nTiles, ∀ lane < 32, ∀ i < 4,
      OnlineSoftmax.probabilities num.E sFrag
        (OnlineSoftmax.updateMax num.E a.nTiles sFrag st.softmax) nt lane i =
        fin (P (accRow lane i) (8 * nt + accCol lane i)) := by
    intro nt hnt lane hlane i hi
    rw [OnlineSoftmax.probabilities, hm lane hlane (i / 2) (by omega), hscores nt hnt lane hlane i hi]
    exact prob_ofBot _ _ _
  have hmass : ∀ r w, ∑ n ∈ Finset.range a.tile.blockN, P r n * w (j * a.tile.blockN + n) =
      mass num.E (S r) w T (J.sup (S r) ⊔ T.sup (S r)) := fun r w => mass_tilePositions ..
  refine ⟨fun lane hlane e he => ?_, fun lane hlane e he => ?_, fun dt hdt lane hlane i hi => ?_⟩
  · rw [Finset.sup_union]
    exact hm lane hlane e he
  · have hsum := rowReduceSum4_eq hP hlane he
    rw [hblock] at hsum
    have hone := hmass (lane / 4 + 8 * e) 1
    simp only [Pi.one_apply, mul_one] at hone
    rw [← rescale_add_tile num.E _ _ hJ, ← fin_add_fin, ← fin_mul_fin, ← hone, ← hsum,
      ← halpha lane hlane e he, ← hst.l_eq lane hlane e he]
    rfl
  · have hpv := pvLoop_eq h hres hP (fun dt lane i => st.oAcc dt lane i *
      (OnlineSoftmax.updateMax num.E a.nTiles sFrag st.softmax lane).alpha (i / 2)) warp
      hdt hlane hi
    have hvalues := hmass (accRow lane i) fun n => kvAt num a false n (a.colOf warp dt lane i)
    rw [hvalues, hst.oAcc_eq dt hdt lane hlane i hi, halpha lane hlane (i / 2) (by omega), fin_mul_fin,
      fin_add_fin, mul_comm] at hpv
    rw [← rescale_add_tile num.E _ _ hJ]
    exact hpv

end FlashCta

end SciAttention

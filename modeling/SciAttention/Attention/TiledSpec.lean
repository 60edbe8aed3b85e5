import SciAttention.Attention.Reference
import SciAttention.Attention.Tiled

/-!
# What the tiled kernel computes

After the tiles that cover the positions `J`, the row vectors hold the maximum and the denominator of every
row of the block over `J`, and accumulator `slot / kThreads` of thread `slot % kThreads` holds four of the
row's weighted sums (`TiledHolds`). The tile at which the loop breaks is masked for every row of the block.
-/

namespace SciAttention

open Flt Softmax

namespace TiledCta

variable {𝕜 : Type*} [Field 𝕜] [LinearOrder 𝕜] (num : Numerics 𝕜) (a : TiledCta 𝕜)

/-! ## The reference -/

/-- Element `d` of query row `i`, zero behind the tensor. -/
def qAt (i d : ℕ) : 𝕜 :=
  if i < a.p.seqQ then
    num.load a.elem a.q (a.batch * a.p.qStride.sB + a.head * a.p.qStride.sH + i * a.p.qStride.sS + d)
  else 0

/-- Element `d` of row `j` of the keys or values, zero behind the tensor. -/
def kvAt (mem : Bytes) (base tokenStride j d : ℕ) : 𝕜 :=
  if j < a.p.seqKv then num.load a.elem mem (base + j * tokenStride + d) else 0

/-- Element `d` of key `j`. -/
def kAt (j d : ℕ) : 𝕜 := a.kvAt num a.k a.kBase a.p.kStride.sS j d

/-- Element `d` of value `j`. -/
def vAt (j d : ℕ) : 𝕜 := a.kvAt num a.v a.vBase a.p.vStride.sS j d

/-- Query `i` sees key `j`. -/
def Visible (i j : ℕ) : Prop := j < a.p.seqKv ∧ (a.p.causal = true → (j : ℤ) ≤ i + a.p.diagonal)

instance (i j : ℕ) : Decidable (a.Visible i j) := inferInstanceAs (Decidable (_ ∧ _))

/-- The dot product of query `i` and key `j`. -/
def dot (i j : ℕ) : 𝕜 := ∑ d ∈ Finset.range a.headDim, a.qAt num i d * a.kAt num j d

/-- The score of key `j` for query `i`; a key that is not visible has none. -/
def score (i j : ℕ) : WithBot 𝕜 :=
  if a.Visible i j then ((a.dot num i j * a.p.scale : 𝕜) : WithBot 𝕜) else ⊥

variable {num a}

/-! ## Tiles in shared memory -/

omit [Field 𝕜] [LinearOrder 𝕜] in
/-- A tile of rows of `width` elements, stored by all threads with padding behind every row. -/
theorem apply_rows {n width stride row col : ℕ} (hn : 0 < n) (hstride : width ≤ stride) {rows : ℕ}
    (hrow : row < rows) (hcol : col < width) (mem : ℕ → Flt 𝕜) (value : ℕ → ℕ → Flt 𝕜) :
    Scatter.apply mem ((Strided.threads n (rows * width)).map fun idx =>
      (idx / width * stride + idx % width, value (idx / width) (idx % width))) (row * stride + col) =
      value row col := by
  have hpos : 0 < width := by omega
  refine Scatter.apply_of_agree ?_ fun w hw haddr => ?_
  · refine List.mem_map.mpr ⟨row * width + col, ?_, ?_⟩
    · rw [(Strided.threads_perm hn _).mem_iff, List.mem_range]
      exact Strided.flat_lt hrow hcol
    · rw [Strided.flat_div _ hcol, Strided.flat_mod _ hcol]
  · obtain ⟨idx, -, rfl⟩ := List.mem_map.mp hw
    obtain ⟨hr, hc⟩ := Strided.mul_add_inj ((Nat.mod_lt idx hpos).trans_le hstride)
      (hcol.trans_le hstride) haddr
    rw [hr, hc]

omit [Field 𝕜] [LinearOrder 𝕜] in
theorem headDim_le_rowStride (a : TiledCta 𝕜) : a.headDim ≤ a.rowStride := Nat.le_add_right _ _

omit [Field 𝕜] [LinearOrder 𝕜] in
theorem blockN_le_sRowStride (a : TiledCta 𝕜) : a.tile.blockN ≤ a.sRowStride := Nat.le_add_right _ _

/-- The Q tile. -/
theorem qSmem_eq (hthreads : 0 < a.threads) (mem : ℕ → Flt 𝕜) {row col : ℕ}
    (hrow : row < a.tile.blockM) (hcol : col < a.headDim) :
    Scatter.apply mem (a.qStores num) (row * a.rowStride + col) =
      fin (a.qAt num (a.i0 + row) col) := by
  refine (apply_rows hthreads a.headDim_le_rowStride hrow hcol mem fun row col =>
    if a.i0 + row < a.p.seqQ then
      fin (num.load a.elem a.q (a.qBase + (row * a.p.qStride.sS + col))) else 0).trans ?_
  unfold qAt qBase
  split_ifs
  · congr 2
    ring
  · rfl

/-- A K or V tile. -/
theorem kvSmem_eq (hthreads : 0 < a.threads) (mem : ℕ → Flt 𝕜) (src : Bytes)
    (base tokenStride jBase : ℕ) {row col : ℕ} (hrow : row < a.tile.blockN) (hcol : col < a.headDim) :
    Scatter.apply mem (a.kvStores num src base tokenStride jBase) (row * a.rowStride + col) =
      fin (a.kvAt num src base tokenStride (jBase + row) col) := by
  refine (apply_rows hthreads a.headDim_le_rowStride hrow hcol mem fun row col =>
    if jBase + row < a.p.seqKv then
      fin (num.load a.elem src (base + ((jBase + row) * tokenStride + col))) else 0).trans ?_
  unfold kvAt
  split_ifs
  · rw [Nat.add_assoc]
  · rfl

/-- The S tile. -/
theorem sTile_eq (hthreads : 0 < a.threads) {qSmem kSmem : ℕ → Flt 𝕜} {jBase : ℕ}
    (hq : ∀ row < a.tile.blockM, ∀ d < a.headDim,
      qSmem (row * a.rowStride + d) = fin (a.qAt num (a.i0 + row) d))
    (hk : ∀ col < a.tile.blockN, ∀ d < a.headDim,
      kSmem (col * a.rowStride + d) = fin (a.kAt num (jBase + col) d))
    (mem : ℕ → Flt 𝕜) {row col : ℕ} (hrow : row < a.tile.blockM) (hcol : col < a.tile.blockN) :
    Scatter.apply mem (a.scoreStores qSmem kSmem jBase) (row * a.sRowStride + col) =
      ofBot (a.score num (a.i0 + row) (jBase + col)) := by
  have hdot : (List.range a.headDim).foldl (fun dot d =>
      dot + qSmem (row * a.rowStride + d) * kSmem (col * a.rowStride + d)) 0 =
      fin (a.dot num (a.i0 + row) (jBase + col)) := by
    rw [List.foldl_ext _ (fun dot d =>
      dot + fin (a.qAt num (a.i0 + row) d * a.kAt num (jBase + col) d)) _ fun dot d hd => by
        rw [hq row hrow d (List.mem_range.mp hd), hk col hcol d (List.mem_range.mp hd), fin_mul_fin]]
    exact (foldl_add_fin _ _ 0).trans (by rw [zero_add]; rfl)
  -- the condition of the kernel says that the position is not visible
  have hmask : (jBase + col ≥ a.p.seqKv ∨
      a.p.causal ∧ ((jBase + col : ℕ) : ℤ) > (a.i0 : ℤ) + row + a.p.diagonal) ↔
      ¬ a.Visible (a.i0 + row) (jBase + col) := by
    unfold Visible
    by_cases hc : a.p.causal = true
    · simp only [hc, true_and, forall_const]
      push_cast
      omega
    · simp [hc]
  refine (apply_rows hthreads a.blockN_le_sRowStride hrow hcol mem fun row col =>
    if jBase + col ≥ a.p.seqKv ∨
        a.p.causal ∧ ((jBase + col : ℕ) : ℤ) > (a.i0 : ℤ) + row + a.p.diagonal then negInf
    else (List.range a.headDim).foldl (fun dot d =>
      dot + qSmem (row * a.rowStride + d) * kSmem (col * a.rowStride + d)) 0 *
        fin a.p.scale).trans ?_
  by_cases hvis : a.Visible (a.i0 + row) (jBase + col)
  · rw [if_neg (by rw [hmask]; exact not_not.mpr hvis), hdot, score, if_pos hvis, fin_mul_fin,
      ofBot_coe]
  · rw [if_pos (hmask.mpr hvis), score, if_neg hvis, ofBot_bot]

/-! ## Online softmax -/

section RowUpdate

variable {sTile : ℕ → Flt 𝕜} {row : ℕ} {s : ℕ → WithBot 𝕜}
  (hs : ∀ col < a.tile.blockN, sTile (row * a.sRowStride + col) = ofBot (s col))

include hs

omit [Field 𝕜] in
/-- The maximum of a row of the tile, in every lane. -/
theorem tileMax_eq {lane : ℕ} (hlane : lane < 32) :
    a.tileMax sTile row lane = ofBot ((Finset.range a.tile.blockN).sup s) := by
  have hlocal : ∀ lane, (Strided.loop lane 32 a.tile.blockN).foldl
      (fun m col => fmaxf m (sTile (row * a.sRowStride + col))) negInf =
        ofBot ((Strided.loop lane 32 a.tile.blockN).toFinset.sup s) := by
    intro lane
    rw [List.foldl_ext _ (fun m col => fmaxf m (ofBot (s col))) _ fun m col hcol => by
      rw [hs col ((Strided.mem_loop (by decide)).mp hcol).2.1]]
    exact (foldl_fmaxf_ofBot s _ ⊥).trans (by rw [bot_sup_eq])
  simp only [tileMax, warpMax, hlocal]
  rw [Butterfly.reduce_warp_fmaxf _ hlane, Strided.sup_threads (by decide)]

/-- The new maximum, the rescale factor and the sum of a row, in every lane. -/
theorem rowUpdate_eq (M : WithBot 𝕜) {lane : ℕ} (hlane : lane < 32) :
    a.rowUpdate num sTile (ofBot M) row lane =
      let m := M ⊔ (Finset.range a.tile.blockN).sup s
      (ofBot m, fin (weight num.E M m),
        fin (∑ col ∈ Finset.range a.tile.blockN, weight num.E (s col) m)) := by
  set m := M ⊔ (Finset.range a.tile.blockN).sup s with hm
  have hnew : ∀ lane < 32, fmaxf (ofBot M) (a.tileMax sTile row lane) = ofBot m := by
    intro lane hlane
    rw [tileMax_eq hs hlane, fmaxf_ofBot]
  have hlocal : ∀ lane < 32, (Strided.loop lane 32 a.tile.blockN).foldl (fun acc col =>
      acc + prob num.E (fmaxf (ofBot M) (a.tileMax sTile row lane))
        (sTile (row * a.sRowStride + col))) 0 =
      fin (((Strided.loop lane 32 a.tile.blockN).map fun col => weight num.E (s col) m).sum) := by
    intro lane hlane
    rw [hnew lane hlane, List.foldl_ext _ (fun acc col => acc + fin (weight num.E (s col) m)) _
      fun acc col hcol => by
        rw [hs col ((Strided.mem_loop (by decide)).mp hcol).2.1, prob, prob_ofBot]]
    exact (foldl_add_fin _ _ 0).trans (by rw [zero_add])
  simp only [rowUpdate, warpSum]
  rw [Butterfly.reduce_congr (by decide) hlocal hlane, Butterfly.reduce_warp_add _ hlane,
    Strided.sum_threads (by decide), hnew lane hlane, rescale_ofBot']

end RowUpdate

omit [Field 𝕜] [LinearOrder 𝕜] in
/-- The warps of a block own all of its rows. -/
theorem mem_blockRows (hwarps : 0 < a.tile.warps) {row : ℕ} :
    row ∈ a.blockRows ↔ row < a.tile.blockM := by
  rw [blockRows, (Strided.threads_perm hwarps _).mem_iff, List.mem_range]

omit [Field 𝕜] [LinearOrder 𝕜] in
/-- A row vector that the warps have written. -/
theorem apply_blockRows (hwarps : 0 < a.tile.warps) {row : ℕ} (hrow : row < a.tile.blockM)
    (mem f : ℕ → Flt 𝕜) : Scatter.apply mem (a.blockRows.map fun row => (row, f row)) row = f row :=
  Scatter.apply_map_of_mem (f := fun row => row) ((mem_blockRows hwarps).mpr hrow)
    fun _ _ heq => by rw [heq]

/-- The probabilities of the tile. -/
theorem pTile_eq (hwarps : 0 < a.tile.warps) {sTile m : ℕ → Flt 𝕜} {s : ℕ → ℕ → WithBot 𝕜}
    {M : ℕ → WithBot 𝕜}
    (hs : ∀ row < a.tile.blockM, ∀ col < a.tile.blockN,
      sTile (row * a.sRowStride + col) = ofBot (s row col))
    (hm : ∀ row < a.tile.blockM, m row = ofBot (M row)) {row col : ℕ} (hrow : row < a.tile.blockM)
    (hcol : col < a.tile.blockN) :
    Scatter.apply sTile (a.probStores num sTile m) (row * a.sRowStride + col) =
      fin (weight num.E (s row col) (M row ⊔ (Finset.range a.tile.blockN).sup (s row))) := by
  have hcols : ∀ {c}, c ∈ Strided.threads 32 a.tile.blockN ↔ c < a.tile.blockN := by
    intro c
    rw [(Strided.threads_perm (by decide) _).mem_iff, List.mem_range]
  have hvalue : prob num.E (a.rowUpdate num sTile (m row) row (col % 32)).1
      (sTile (row * a.sRowStride + col)) =
      fin (weight num.E (s row col) (M row ⊔ (Finset.range a.tile.blockN).sup (s row))) := by
    rw [hm row hrow, rowUpdate_eq (hs row hrow) _ (Nat.mod_lt col (by decide)), hs row hrow col hcol,
      prob, prob_ofBot]
  refine Scatter.apply_of_agree ?_ fun w hw haddr => ?_
  · rw [← hvalue]
    exact List.mem_flatMap.mpr ⟨row, (mem_blockRows hwarps).mpr hrow,
      List.mem_map.mpr ⟨col, hcols.mpr hcol, rfl⟩⟩
  · obtain ⟨row', -, hw⟩ := List.mem_flatMap.mp hw
    obtain ⟨col', hcol', rfl⟩ := List.mem_map.mp hw
    obtain ⟨rfl, rfl⟩ := Strided.mul_add_inj ((hcols.mp hcol').trans_le a.blockN_le_sRowStride)
      (hcol.trans_le a.blockN_le_sRowStride) haddr
    exact hvalue

/-! ## Slots -/

omit [Field 𝕜] [LinearOrder 𝕜] in
/-- The row of a slot. -/
theorem slotRow_lt {slot : ℕ} (h : slot < a.totalSlots) : slot / a.slotsPerRow < a.tile.blockM :=
  Nat.div_lt_of_lt_mul (by rwa [Nat.mul_comm])

omit [Field 𝕜] [LinearOrder 𝕜] in
/-- The elements of a slot. -/
theorem slotCol_lt {slot c : ℕ} (h : slot < a.totalSlots) (hc : c < 4) :
    slot % a.slotsPerRow * 4 + c < a.headDim := by
  have hpos : 0 < a.slotsPerRow := by
    by_contra hzero
    simp [totalSlots, Nat.eq_zero_of_not_pos hzero] at h
  have hlt := Nat.mod_lt slot hpos
  have hdim : a.slotsPerRow * 4 ≤ a.headDim := Nat.div_mul_le_self _ _
  omega

/-- The partial product of a slot: columns without weight are skipped. -/
theorem partialDot_eq {pTile vSmem : ℕ → Flt 𝕜} {slot c : ℕ} {w v : ℕ → 𝕜}
    (hp : ∀ col < a.tile.blockN,
      pTile (slot / a.slotsPerRow * a.sRowStride + col) = fin (w col))
    (hv : ∀ col < a.tile.blockN,
      vSmem (col * a.rowStride + (slot % a.slotsPerRow * 4 + c)) = fin (v col)) :
    a.partialDot pTile vSmem slot c = fin (∑ col ∈ Finset.range a.tile.blockN, w col * v col) := by
  simp only [partialDot]
  rw [List.foldl_ext _ (fun acc col => acc + fin (w col * v col)) _ fun acc col hcol => by
    rw [hp col (List.mem_range.mp hcol), hv col (List.mem_range.mp hcol), fin_mul_fin]
    split_ifs with hzero
    · rw [zero_def, fin.injEq] at hzero
      rw [hzero, zero_mul, ← zero_def, add_zero]
    · rfl]
  exact (foldl_add_fin _ _ 0).trans (by rw [zero_add]; rfl)

/-- The accumulator of a slot: no two slots of a thread share one. -/
theorem accUpdate_apply (hthreads : 0 < a.threads) (pTile vSmem alpha : ℕ → Flt 𝕜)
    (acc : ℕ → ℕ → Flt 𝕜) {slot : ℕ} (hslot : slot < a.totalSlots) (c : ℕ) :
    a.accUpdate pTile vSmem alpha (slot % a.threads) acc (slot / a.threads) c =
      alpha (slot / a.slotsPerRow) * acc (slot / a.threads) c + a.partialDot pTile vSmem slot c := by
  have htid := Nat.mod_lt slot hthreads
  have hmem : slot ∈ Strided.loop (slot % a.threads) a.threads a.totalSlots :=
    (Strided.mem_loop_of_lt htid).mpr ⟨hslot, rfl⟩
  have hinj : ∀ x ∈ Strided.loop (slot % a.threads) a.threads a.totalSlots,
      ∀ y ∈ Strided.loop (slot % a.threads) a.threads a.totalSlots,
        x / a.threads = y / a.threads → x = y := by
    intro x hx y hy hdiv
    have hxmod := ((Strided.mem_loop_of_lt htid).mp hx).2
    have hymod := ((Strided.mem_loop_of_lt htid).mp hy).2
    rw [← Nat.div_add_mod x a.threads, ← Nat.div_add_mod y a.threads, hdiv, hxmod, hymod]
  have hfold := Scatter.foldl_update_of_mem (f := fun slot => slot / a.threads)
    (g := fun slot old c => alpha (slot / a.slotsPerRow) * old c + a.partialDot pTile vSmem slot c)
    (Strided.nodup_loop hthreads) hinj hmem acc
  exact congrFun hfold c

/-! ## The tile loop -/

/-- The block after the positions `J`: per row the maximum and the denominator, per slot four weighted
sums of the values. -/
structure TiledHolds (num : Numerics 𝕜) (a : TiledCta 𝕜) (J : Finset ℕ) (st : TiledState 𝕜) :
    Prop where
  m_eq : ∀ row < a.tile.blockM, st.m row = ofBot (J.sup (a.score num (a.i0 + row)))
  l_eq : ∀ row < a.tile.blockM, st.l row =
    fin (mass num.E (a.score num (a.i0 + row)) 1 J (J.sup (a.score num (a.i0 + row))))
  acc_eq : ∀ slot < a.totalSlots, ∀ c < 4, st.acc (slot % a.threads) (slot / a.threads) c =
    fin (mass num.E (a.score num (a.i0 + slot / a.slotsPerRow))
      (fun j => a.vAt num j (slot % a.slotsPerRow * 4 + c)) J
      (J.sup (a.score num (a.i0 + slot / a.slotsPerRow))))

theorem TiledHolds.init (hthreads : 0 < a.threads) : TiledHolds num a ∅ a.initState := by
  have hrows : ∀ {row}, row < a.tile.blockM → row ∈ Strided.threads a.threads a.tile.blockM := by
    intro row hrow
    rwa [(Strided.threads_perm hthreads _).mem_iff, List.mem_range]
  refine ⟨fun row hrow => ?_, fun row hrow => ?_, fun _ _ _ _ => rfl⟩
  · exact Scatter.apply_map_of_mem (f := fun row => row) (hrows hrow) fun _ _ _ => rfl
  · exact Scatter.apply_map_of_mem (f := fun row => row) (hrows hrow) fun _ _ _ => rfl

/-- An iteration adds the positions of its tile. -/
theorem TiledHolds.step (hwarps : 0 < a.tile.warps) {J : Finset ℕ} {j0 : ℕ}
    (hJ : Disjoint J (Strided.window a.tile.blockN j0)) {st : TiledState 𝕜} (hst : TiledHolds num a J st) :
    TiledHolds num a (J ∪ Strided.window a.tile.blockN j0)
      (a.tileStep num (Scatter.apply (fun _ => nan) (a.qStores num)) st j0) := by
  have hthreads : 0 < a.threads := Nat.mul_pos hwarps (by decide)
  set T := Strided.window a.tile.blockN j0 with hT
  set jBase := j0 * a.tile.blockN with hjBase
  set kSmem := Scatter.apply (fun _ => nan) (a.kvStores num a.k a.kBase a.p.kStride.sS jBase) with hkSmem
  set sTile := Scatter.apply (fun _ => nan)
    (a.scoreStores (Scatter.apply (fun _ => nan) (a.qStores num)) kSmem jBase) with hsTile
  have hs : ∀ row < a.tile.blockM, ∀ col < a.tile.blockN, sTile (row * a.sRowStride + col) =
      ofBot (a.score num (a.i0 + row) (jBase + col)) := fun row hrow col hcol =>
    sTile_eq hthreads (fun r hr d hd => qSmem_eq hthreads _ hr hd)
      (fun c hc d hd => kvSmem_eq hthreads _ _ _ _ _ hc hd) _ hrow hcol
  -- the maximum of a row over the tile is that over its positions
  have hsup : ∀ row, (Finset.range a.tile.blockN).sup
      (fun col => a.score num (a.i0 + row) (jBase + col)) = T.sup (a.score num (a.i0 + row)) :=
    fun row => Strided.sup_window _ _ _
  have hsum : ∀ row (w : ℕ → 𝕜) m, ∑ col ∈ Finset.range a.tile.blockN,
      weight num.E (a.score num (a.i0 + row) (jBase + col)) m * w (jBase + col) =
        mass num.E (a.score num (a.i0 + row)) w T m :=
    fun row w m => Strided.sum_window (fun j => weight num.E (a.score num (a.i0 + row) j) m * w j) _ _
  have hupdate : ∀ row < a.tile.blockM, a.rowUpdate num sTile (st.m row) row 0 =
      (ofBot (J.sup (a.score num (a.i0 + row)) ⊔ T.sup (a.score num (a.i0 + row))),
        fin (weight num.E (J.sup (a.score num (a.i0 + row)))
          (J.sup (a.score num (a.i0 + row)) ⊔ T.sup (a.score num (a.i0 + row)))),
        fin (mass num.E (a.score num (a.i0 + row)) 1 T
          (J.sup (a.score num (a.i0 + row)) ⊔ T.sup (a.score num (a.i0 + row))))) := by
    intro row hrow
    rw [hst.m_eq row hrow, rowUpdate_eq (hs row hrow) _ (by decide), hsup row, ← hsum row 1]
    simp only [Pi.one_apply, mul_one]
  have halpha : ∀ row < a.tile.blockM, Scatter.apply (fun _ => nan) (a.blockRows.map fun row =>
      (row, (a.rowUpdate num sTile (st.m row) row 0).2.1)) row =
        fin (weight num.E (J.sup (a.score num (a.i0 + row)))
          (J.sup (a.score num (a.i0 + row)) ⊔ T.sup (a.score num (a.i0 + row)))) := by
    intro row hrow
    rw [apply_blockRows hwarps hrow _ fun row => (a.rowUpdate num sTile (st.m row) row 0).2.1,
      hupdate row hrow]
  refine ⟨fun row hrow => ?_, fun row hrow => ?_, fun slot hslot c hc => ?_⟩
  · rw [Finset.sup_union]
    refine (apply_blockRows hwarps hrow _ fun row => (a.rowUpdate num sTile (st.m row) row 0).1).trans ?_
    rw [hupdate row hrow]
  · refine (apply_blockRows hwarps hrow _ fun row =>
      Scatter.apply (fun _ => nan) (a.blockRows.map fun row =>
        (row, (a.rowUpdate num sTile (st.m row) row 0).2.1)) row * st.l row +
          (a.rowUpdate num sTile (st.m row) row 0).2.2).trans ?_
    rw [halpha row hrow, hst.l_eq row hrow, hupdate row hrow, fin_mul_fin, fin_add_fin,
      rescale_add_tile num.E _ _ hJ]
  · have hrow := slotRow_lt hslot
    refine (accUpdate_apply hthreads _ _ _ _ hslot c).trans ?_
    rw [halpha _ hrow, hst.acc_eq slot hslot c hc,
      partialDot_eq (fun col hcol => pTile_eq hwarps hs hst.m_eq hrow hcol)
        fun col hcol => kvSmem_eq hthreads _ _ _ _ _ hcol (slotCol_lt hslot hc),
      hsup, fin_mul_fin]
    have hvalues := hsum (slot / a.slotsPerRow)
      (fun j => a.vAt num j (slot % a.slotsPerRow * 4 + c))
      (J.sup (a.score num (a.i0 + slot / a.slotsPerRow)) ⊔
        T.sup (a.score num (a.i0 + slot / a.slotsPerRow)))
    rw [← rescale_add_tile num.E _ _ hJ, ← hvalues, ← fin_add_fin]
    rfl

/-- After the first `n` tiles the block holds their positions. -/
theorem run_holds (hwarps : 0 < a.tile.warps) (n : ℕ) :
    TiledHolds num a (Finset.range (n * a.tile.blockN)) ((List.range n).foldl
      (a.tileStep num (Scatter.apply (fun _ => nan) (a.qStores num))) a.initState) := by
  induction n with
  | zero =>
    rw [Nat.zero_mul, Finset.range_zero]
    exact TiledHolds.init (Nat.mul_pos hwarps (by decide))
  | succ n ih =>
    simp only [List.range_succ, List.foldl_append, List.foldl_cons, List.foldl_nil]
    rw [← Strided.range_union_window]
    exact TiledHolds.step hwarps (Strided.disjoint_window _ _) ih

omit [Field 𝕜] [LinearOrder 𝕜] in
/-- The loop visits the first tiles; the rows of the block see no key behind them. -/
theorem tilesVisited_eq (hpos : 0 < a.tile.blockN) : ∃ n, a.tilesVisited = List.range n ∧
    ∀ i < a.i0 + a.tile.blockM, ∀ j, a.Visible i j → j < n * a.tile.blockN := by
  obtain ⟨n, -, hrange, hstop⟩ := Strided.takeWhile_range (fun j0 => !(a.p.causal &&
    decide ((j0 * a.tile.blockN : ℕ) > (a.i0 : ℤ) + a.tile.blockM - 1 + a.p.diagonal))) a.jTiles
  refine ⟨n, hrange, fun i hi j hvis => ?_⟩
  rcases hstop with rfl | hmasked
  · refine hvis.1.trans_le ?_
    have hceil := Nat.lt_div_mul_add (a := a.p.seqKv + a.tile.blockN - 1) hpos
    unfold jTiles
    omega
  · rw [Bool.not_eq_false', Bool.and_eq_true, decide_eq_true_iff] at hmasked
    have hle := hvis.2 hmasked.1
    omega

/-! ## The answer -/

/-- The problem that a block works on. -/
def problem (num : Numerics 𝕜) (a : TiledCta 𝕜) : AttnProblem 𝕜 :=
  .ofMemory num a.elem a.q a.k a.v a.p.qStride a.p.kStride a.p.vStride
    { batch := a.p.batch, numHeads := a.p.numHeads, numKvHeads := a.p.numKvHeads, seqQ := a.p.seqQ
      seqKv := a.p.seqKv, headDim := a.headDim }
    a.p.scale a.p.causal a.p.diagonal

/-- The scores of a block are those of the problem. -/
theorem score_eq {i : ℕ} (hi : i < a.p.seqQ) :
    a.score num i = (a.problem num).score a.batch a.head i := by
  funext j
  by_cases hvis : a.Visible i j
  · have hdot : a.dot num i j = (a.problem num).dot a.batch a.head i j := by
      refine Finset.sum_congr rfl fun d _ => ?_
      rw [kAt, kvAt, if_pos hvis.1, qAt, if_pos hi]
      rfl
    rw [score, if_pos hvis, hdot, mul_comm]
    exact (if_pos hvis).symm
  · rw [score, if_neg hvis]
    exact (if_neg hvis).symm

/-- Positions that hold every visible key give the output. -/
theorem average_eq {i d : ℕ} (hi : i < a.p.seqQ) {J : Finset ℕ} (hJ : ∀ j, a.Visible i j → j ∈ J) :
    average num.E (a.score num i) (fun j => a.vAt num j d) J =
      (a.problem num).attention num.E a.batch a.head i d := by
  have hsub : (a.problem num).visible i ⊆ J := fun j hj => hJ j (AttnProblem.mem_visible.mp hj)
  rw [score_eq hi, ← average_subset num.E _ _ hsub fun j _ hj => AttnProblem.score_of_not_visible hj,
    ← AttnProblem.average_score subset_rfl]
  refine average_congr num.E (fun _ _ => rfl) fun j hj => ?_
  exact if_pos (AttnProblem.mem_visible.mp hj).1

theorem logSumExp_eq {i : ℕ} (hi : i < a.p.seqQ) {J : Finset ℕ} (hJ : ∀ j, a.Visible i j → j ∈ J) :
    logSumExp num.E num.log (a.score num i) J =
      (a.problem num).lse num.E num.log a.batch a.head i := by
  have hsub : (a.problem num).visible i ⊆ J := fun j hj => hJ j (AttnProblem.mem_visible.mp hj)
  rw [score_eq hi, AttnProblem.logSumExp_score hsub]

/-! ## Epilogue -/

/-- The offset of output element `(i, d)`. -/
def outIndex (a : TiledCta 𝕜) (i d : ℕ) : ℕ :=
  a.batch * a.p.oStride.sB + a.head * a.p.oStride.sH + i * a.p.oStride.sS + d

/-- The offset of the log-sum-exp of row `i`. -/
def lseIndex (a : TiledCta 𝕜) (i : ℕ) : ℕ := (a.batch * a.p.numHeads + a.head) * a.p.seqQ + i

variable (num) in
/-- The block at the end of its loop holds positions that cover every visible key. -/
theorem finalState_holds (hwarps : 0 < a.tile.warps) (hblockN : 0 < a.tile.blockN) :
    ∃ J, TiledHolds num a J (a.finalState num) ∧
      ∀ i < a.i0 + a.tile.blockM, ∀ j, a.Visible i j → j ∈ J := by
  obtain ⟨n, hrange, hvis⟩ := tilesVisited_eq hblockN
  refine ⟨Finset.range (n * a.tile.blockN), ?_, fun i hi j hj => Finset.mem_range.mpr (hvis i hi j hj)⟩
  rw [finalState, hrange]
  exact run_holds hwarps n

variable [IsStrictOrderedRing 𝕜]

variable (num) in
/-- The value that a slot stores. -/
theorem slotValue_eq (hwarps : 0 < a.tile.warps) (hblockN : 0 < a.tile.blockN) {slot c : ℕ}
    (hslot : slot < a.totalSlots) (hc : c < 4) (hrow : a.i0 + slot / a.slotsPerRow < a.p.seqQ) :
    (a.finalState num).acc (slot % a.threads) (slot / a.threads) c *
        (if gtZero ((a.finalState num).l (slot / a.slotsPerRow)) then
          recip ((a.finalState num).l (slot / a.slotsPerRow)) else 0) =
      fin ((a.problem num).attention num.E a.batch a.head (a.i0 + slot / a.slotsPerRow)
        (slot % a.slotsPerRow * 4 + c)) := by
  obtain ⟨J, hst, hvis⟩ := finalState_holds num hwarps hblockN
  have hlt := slotRow_lt hslot
  rw [hst.acc_eq slot hslot c hc, hst.l_eq _ hlt, recip_mass, fin_mul_fin, ← div_eq_mul_inv]
  exact congrArg fin (average_eq hrow (hvis _ (by omega)))

/-- The log-sum-exp that a row stores. -/
theorem rowLseValue_eq (hwarps : 0 < a.tile.warps) (hblockN : 0 < a.tile.blockN) {row : ℕ}
    (hlt : row < a.tile.blockM) (hrow : a.i0 + row < a.p.seqQ) :
    (if gtZero ((a.finalState num).l row) then
        (a.finalState num).m row + logf num.log ((a.finalState num).l row) else negInf) =
      ofBot ((a.problem num).lse num.E num.log a.batch a.head (a.i0 + row)) := by
  obtain ⟨J, hst, hvis⟩ := finalState_holds num hwarps hblockN
  rw [hst.m_eq row hlt, hst.l_eq row hlt, lse_mass]
  exact congrArg ofBot (logSumExp_eq hrow (hvis _ (by omega)))

end TiledCta

end SciAttention

import SciAttention.Attention.TiledThreads

/-!
# A block of the tiled kernel, stage by stage

Between two barriers the threads of a block write cells that are their own, so they may run one after another
(`Stage.threads`); in the row update it is the warps that do (`goes_updateRow`). Each stage is a statement
about the arrays in shared memory alone, and a block runs through its stages by `Stage.trans`.
-/

namespace SciAttention

open Simt Flt Softmax

variable {𝕜 : Type*} [Field 𝕜] [LinearOrder 𝕜]

/-! ## Stages of a block -/

section Stages

variable {cta : ℕ → TiledCta 𝕜} {blocks n : ℕ}

/-- The shared arrays of a block. -/
def smemOf (mem : TiledCell → Flt 𝕜) (b : ℕ) : TileArray → ℕ → Flt 𝕜 :=
  fun x idx => mem (.smem b x idx)

/-- Where a cell lies in an array of a block. -/
def smemIdx (b : ℕ) (x : TileArray) : TiledCell → Option ℕ
  | .smem b' x' idx => if b' = b ∧ x' = x then some idx else none
  | _ => none

/-- The writes to an array of a block. -/
def toArray (b : ℕ) (x : TileArray) (w : TiledCell × Flt 𝕜) : Option (ℕ × Flt 𝕜) :=
  (smemIdx b x w.1).map fun idx => (idx, w.2)

omit [Field 𝕜] [LinearOrder 𝕜] in
@[simp] theorem toArray_smem (b b' : ℕ) (x x' : TileArray) (idx : ℕ) (v : Flt 𝕜) :
    toArray b x (.smem b' x' idx, v) = if b' = b ∧ x' = x then some (idx, v) else none := by
  by_cases h : b' = b ∧ x' = x
  · simp [toArray, smemIdx, h]
  · simp [toArray, smemIdx, h]

omit [Field 𝕜] [LinearOrder 𝕜] in
theorem smemOf_apply (mem : TiledCell → Flt 𝕜) (ws : List (TiledCell × Flt 𝕜)) (b : ℕ)
    (x : TileArray) :
    smemOf (Scatter.apply mem ws) b x = Scatter.apply (smemOf mem b x) (ws.filterMap (toArray b x)) := by
  have hidx : ∀ c idx, smemIdx b x c = some idx ↔ c = .smem b x idx := by
    intro c idx
    cases c with
    | smem b' x' idx' =>
      simp only [smemIdx, TiledCell.smem.injEq]
      split_ifs with h
      · obtain ⟨rfl, rfl⟩ := h
        simp
      · simp only [false_iff]
        rintro ⟨rfl, rfl, -⟩
        exact h ⟨rfl, rfl⟩
    | out idx' => simp [smemIdx]
    | lse idx' => simp [smemIdx]
  exact funext fun idx => Scatter.apply_view hidx mem ws idx

/-- The writes go to shared memory only. -/
def SmemOnly (b : ℕ) (ws : List (TiledCell × Flt 𝕜)) : Prop :=
  ∀ w ∈ ws, ∃ x idx, w.1 = .smem b x idx

/-- The threads of a block get from `f` to `f'` and the shared arrays from `V` to `V'`, whatever lies in the
rest of the memory. -/
def Stage (b : Fin blocks) (f : Tid blocks n → Thread (Tid blocks n) TiledCell (Flt 𝕜))
    (V : TileArray → ℕ → Flt 𝕜) (f' : Tid blocks n → Thread (Tid blocks n) TiledCell (Flt 𝕜))
    (V' : TileArray → ℕ → Flt 𝕜) : Prop :=
  ∃ ws, SmemOnly b ws ∧ ∀ mem, smemOf mem b = V →
    Goes Tid.block Tid.warp {i | i.block = b} mem f (Scatter.apply mem ws) f' ∧
      smemOf (Scatter.apply mem ws) b = V'

variable {b : Fin blocks} {f f' f'' : Tid blocks n → Thread (Tid blocks n) TiledCell (Flt 𝕜)}
  {V V' V'' : TileArray → ℕ → Flt 𝕜}

omit [Field 𝕜] [LinearOrder 𝕜] in
theorem Stage.trans (h : Stage b f V f' V') (h' : Stage b f' V' f'' V'') : Stage b f V f'' V'' := by
  obtain ⟨ws, hws, hgo⟩ := h
  obtain ⟨ws', hws', hgo'⟩ := h'
  refine ⟨ws ++ ws', fun w hw => (List.mem_append.mp hw).elim (hws w) (hws' w), fun mem hmem => ?_⟩
  rw [Scatter.apply_append]
  exact ⟨(hgo mem hmem).1.trans (hgo' _ (hgo mem hmem).2).1, (hgo' _ (hgo mem hmem).2).2⟩

omit [Field 𝕜] [LinearOrder 𝕜] in
theorem Stage.refl (hf : ∀ i : Tid blocks n, i.block = b → f i = f' i) : Stage b f V f' V :=
  ⟨[], fun _ hw => absurd hw List.not_mem_nil, fun _ hmem => ⟨.refl hf, hmem⟩⟩

omit [Field 𝕜] [LinearOrder 𝕜] in
/-- The block passes its barrier. -/
theorem Stage.sync (hpos : 0 < n) {k : Tid blocks n → PUnit → Thread (Tid blocks n) TiledCell (Flt 𝕜)}
    (hf : ∀ i : Tid blocks n, i.block = b → f i = Prog.barrier.bind (k i)) :
    Stage b f V (fun i => k i ⟨⟩) V :=
  ⟨[], fun _ hw => absurd hw List.not_mem_nil,
    fun _ hmem => ⟨.sync ⟨(b, ⟨0, hpos⟩), rfl⟩ hf, hmem⟩⟩

omit [Field 𝕜] [LinearOrder 𝕜] in
/-- The threads run one after another. -/
theorem Stage.threads (h : TiledGrid cta blocks n) {ρ : Type*} {t : Clock}
    {prog : Tid blocks n → TiledProg 𝕜 blocks n ρ}
    {k : Tid blocks n → ρ → Thread (Tid blocks n) TiledCell (Flt 𝕜)}
    {W : ℕ → List (TiledCell × Flt 𝕜)}
    {r : Tid blocks n → ρ} {Q : Tid blocks n → Clock → ρ → Prop}
    (hf : ∀ i : Tid blocks n, i.block = b → f i = (prog i).bind (k i))
    (hsmem : ∀ tid, SmemOnly b (W tid))
    (hlocal : ∀ mem, smemOf mem b = V → ∀ i : Tid blocks n, i.block = b →
      Local (prog i) mem (W i.tid) (r i))
    (hkeeps : ∀ i : Tid blocks n, i.block = b → (prog i).Keeps (tiledRights h) i t (Q i)) :
    Stage b f V (fun i => k i (r i))
      fun x => Scatter.apply (V x) (((List.range n).flatMap W).filterMap (toArray b x)) := by
  refine ⟨(List.range n).flatMap W, fun w hw => ?_, fun mem hmem => ⟨?_, ?_⟩⟩
  · obtain ⟨tid, -, hw⟩ := List.mem_flatMap.mp hw
    exact hsmem tid w hw
  · rw [← Tid.flatMap_ofBlock b W]
    exact .threads (fun _ => Tid.mem_ofBlock) (Tid.nodup_ofBlock b) hf (hlocal mem hmem) hkeeps
  · funext x
    rw [smemOf_apply, hmem]

/-! ## Loading and scoring -/

variable (num : Numerics 𝕜) (a : TiledCta 𝕜)

/-- What thread `tid` writes of the Q tile and the row vectors. -/
def queryWrites (b tid : ℕ) : List (TiledCell × Flt 𝕜) :=
  ((Strided.loop tid a.threads (a.tile.blockM * a.headDim)).map fun idx =>
    (.smem b .q (idx / a.headDim * a.rowStride + idx % a.headDim),
      if a.i0 + idx / a.headDim < a.p.seqQ then
        fin (num.load a.elem a.q (a.qBase + (idx / a.headDim * a.p.qStride.sS + idx % a.headDim)))
      else 0)) ++
  (Strided.loop tid a.threads a.tile.blockM).flatMap fun row =>
    [(.smem b .m row, negInf), (.smem b .l row, 0)]

/-- What thread `tid` writes of the K and V tiles. -/
def tileWrites (jBase b tid : ℕ) : List (TiledCell × Flt 𝕜) :=
  (Strided.loop tid a.threads (a.tile.blockN * a.headDim)).flatMap fun idx =>
    [(.smem b .k (idx / a.headDim * a.rowStride + idx % a.headDim),
      if jBase + idx / a.headDim < a.p.seqKv then
        fin (num.load a.elem a.k
          (a.kBase + ((jBase + idx / a.headDim) * a.p.kStride.sS + idx % a.headDim)))
      else 0),
    (.smem b .v (idx / a.headDim * a.rowStride + idx % a.headDim),
      if jBase + idx / a.headDim < a.p.seqKv then
        fin (num.load a.elem a.v
          (a.vBase + ((jBase + idx / a.headDim) * a.p.vStride.sS + idx % a.headDim)))
      else 0)]

/-- What thread `tid` writes of the S tile. -/
def scoreWrites (V : TileArray → ℕ → Flt 𝕜) (jBase b tid : ℕ) : List (TiledCell × Flt 𝕜) :=
  (Strided.loop tid a.threads (a.tile.blockM * a.tile.blockN)).map fun idx =>
    (.smem b .s (idx / a.tile.blockN * a.sRowStride + idx % a.tile.blockN),
      if jBase + idx % a.tile.blockN ≥ a.p.seqKv ∨ a.p.causal ∧
          ((jBase + idx % a.tile.blockN : ℕ) : ℤ) > (a.i0 : ℤ) + (idx / a.tile.blockN : ℕ) +
            a.p.diagonal
        then negInf
      else (List.range a.headDim).foldl (fun dot d =>
        dot + V .q (idx / a.tile.blockN * a.rowStride + d) * V .k (idx % a.tile.blockN * a.rowStride + d)) 0 *
          fin a.p.scale)

variable {num a} {mem : TiledCell → Flt 𝕜} {i : Tid blocks n}

theorem loadQuery_local : Local (loadQuery num a i) mem (queryWrites num a i.block i.tid) ⟨⟩ := by
  refine .bind (.forM_apart (s := ∅) (fun _ => Set.notMem_empty _) fun _ _ _ _ => .put _ _)
    (.forM_writes (s := fun _ => ∅) (fun row _ _ _ => .bind (.put _ _) (.put _ _)) ?_)
  exact List.pairwise_of_forall fun _ _ _ _ => Set.notMem_empty _

theorem loadTile_local {jBase : ℕ} :
    Local (loadTile num a i jBase) mem (tileWrites num a jBase i.block i.tid) ⟨⟩ :=
  .forM_writes (s := fun _ => ∅) (fun _ _ _ _ => .bind (.put _ _) (.put _ _))
    (List.pairwise_of_forall fun _ _ _ _ => Set.notMem_empty _)

theorem scoreTile_local {jBase : ℕ} {V : TileArray → ℕ → Flt 𝕜} (hmem : smemOf mem i.block = V) :
    Local (scoreTile a i jBase) mem (scoreWrites a V jBase i.block i.tid) ⟨⟩ := by
  subst hmem
  refine .forM_apart (s := {c | ∃ x idx, x ≠ .s ∧ c = .smem i.block x idx}) (fun _ => ?_)
    fun idx _ mem' hmem' => .read_bind (.foldlM_read fun d _ dot => ?_) (.put _ _)
  · rintro ⟨x, idx, hx, heq⟩
    cases heq
    exact hx rfl
  · have hq := hmem' _ ⟨.q, idx / a.tile.blockN * a.rowStride + d, by decide, rfl⟩
    have hk := hmem' _ ⟨.k, idx % a.tile.blockN * a.rowStride + d, by decide, rfl⟩
    simp only [smemOf]
    rw [← hq, ← hk]
    exact .read_bind (.get _) (.read_bind (.get _) .ret)

end Stages

/-! ## The arrays after a stage -/

section Arrays

variable {cta : ℕ → TiledCta 𝕜} {blocks n : ℕ} {b : Fin blocks} {num : Numerics 𝕜}
  {f : Tid blocks n → Thread (Tid blocks n) TiledCell (Flt 𝕜)}
  {k : Tid blocks n → PUnit → Thread (Tid blocks n) TiledCell (Flt 𝕜)}
    {V : TileArray → ℕ → Flt 𝕜}

/-- The Q tile is there. -/
def QueryHeld (num : Numerics 𝕜) (a : TiledCta 𝕜) (V : TileArray → ℕ → Flt 𝕜) : Prop :=
  ∀ row < a.tile.blockM, ∀ d < a.headDim, V .q (row * a.rowStride + d) = fin (a.qAt num (a.i0 + row) d)

theorem queryWrites_q (num : Numerics 𝕜) (a : TiledCta 𝕜) (b : ℕ) :
    ((List.range a.threads).flatMap (queryWrites num a b)).filterMap (toArray b .q) = a.qStores num := by
  rw [TiledCta.qStores, Strided.threads, List.map_flatMap, List.filterMap_flatMap]
  refine Strided.flatMap_congr fun tid _ => ?_
  simp [queryWrites, List.filterMap_flatMap]

theorem queryWrites_m (num : Numerics 𝕜) (a : TiledCta 𝕜) (b : ℕ) :
    ((List.range a.threads).flatMap (queryWrites num a b)).filterMap (toArray b .m) =
      (Strided.threads a.threads a.tile.blockM).map fun row => (row, negInf) := by
  rw [Strided.threads, List.map_flatMap, List.filterMap_flatMap]
  refine Strided.flatMap_congr fun tid _ => ?_
  simp [queryWrites, List.filterMap_flatMap, List.map_eq_flatMap]

theorem queryWrites_l (num : Numerics 𝕜) (a : TiledCta 𝕜) (b : ℕ) :
    ((List.range a.threads).flatMap (queryWrites num a b)).filterMap (toArray b .l) =
      (Strided.threads a.threads a.tile.blockM).map fun row => (row, 0) := by
  rw [Strided.threads, List.map_flatMap, List.filterMap_flatMap]
  refine Strided.flatMap_congr fun tid _ => ?_
  simp [queryWrites, List.filterMap_flatMap, List.map_eq_flatMap]

theorem tileWrites_k (num : Numerics 𝕜) (a : TiledCta 𝕜) (jBase b : ℕ) :
    ((List.range a.threads).flatMap (tileWrites num a jBase b)).filterMap (toArray b .k) =
      a.kvStores num a.k a.kBase a.p.kStride.sS jBase := by
  rw [TiledCta.kvStores, Strided.threads, List.map_flatMap, List.filterMap_flatMap]
  refine Strided.flatMap_congr fun tid _ => ?_
  simp [tileWrites, List.filterMap_flatMap, List.map_eq_flatMap]

theorem tileWrites_v (num : Numerics 𝕜) (a : TiledCta 𝕜) (jBase b : ℕ) :
    ((List.range a.threads).flatMap (tileWrites num a jBase b)).filterMap (toArray b .v) =
      a.kvStores num a.v a.vBase a.p.vStride.sS jBase := by
  rw [TiledCta.kvStores, Strided.threads, List.map_flatMap, List.filterMap_flatMap]
  refine Strided.flatMap_congr fun tid _ => ?_
  simp [tileWrites, List.filterMap_flatMap, List.map_eq_flatMap]

theorem tileWrites_of_ne (num : Numerics 𝕜) (a : TiledCta 𝕜) (jBase b : ℕ) {x : TileArray}
    (hk : x ≠ .k)
    (hv : x ≠ .v) : ((List.range a.threads).flatMap (tileWrites num a jBase b)).filterMap
      (toArray b x) = [] := by
  simp [tileWrites, List.filterMap_flatMap, hk.symm, hv.symm]

theorem scoreWrites_s (a : TiledCta 𝕜) (V : TileArray → ℕ → Flt 𝕜) (jBase b : ℕ) :
    ((List.range a.threads).flatMap (scoreWrites a V jBase b)).filterMap (toArray b .s) =
      a.scoreStores (V .q) (V .k) jBase := by
  rw [TiledCta.scoreStores, Strided.threads, List.map_flatMap, List.filterMap_flatMap]
  refine Strided.flatMap_congr fun tid _ => ?_
  simp [scoreWrites]

theorem scoreWrites_of_ne (a : TiledCta 𝕜) (V : TileArray → ℕ → Flt 𝕜) (jBase b : ℕ)
    {x : TileArray}
    (hs : x ≠ .s) :
    ((List.range a.threads).flatMap (scoreWrites a V jBase b)).filterMap (toArray b x) = [] := by
  simp [scoreWrites, List.filterMap_flatMap, hs.symm]

theorem tiledHolds_init {a : TiledCta 𝕜} (hthreads : 0 < a.threads) (m l : ℕ → Flt 𝕜) :
    TiledCta.TiledHolds num a ∅
      ⟨Scatter.apply m ((Strided.threads a.threads a.tile.blockM).map fun row => (row, negInf)),
        Scatter.apply l ((Strided.threads a.threads a.tile.blockM).map fun row => (row, 0)),
        fun _ _ _ => 0⟩ := by
  have hrows : ∀ {row}, row < a.tile.blockM → row ∈ Strided.threads a.threads a.tile.blockM := by
    intro row hrow
    rwa [(Strided.threads_perm hthreads _).mem_iff, List.mem_range]
  refine ⟨fun row hrow => ?_, fun row hrow => ?_, fun _ _ _ _ => rfl⟩
  · exact Scatter.apply_map_of_mem (f := fun row => row) (hrows hrow) fun _ _ _ => rfl
  · exact Scatter.apply_map_of_mem (f := fun row => row) (hrows hrow) fun _ _ _ => rfl

variable (h : TiledGrid cta blocks n) (hpos : 0 < n)

include h hpos

/-- The block loads its Q tile. -/
theorem stage_query (hf : ∀ i : Tid blocks n, i.block = b →
      f i = (loadQuery num (cta b) i).bind fun _ => Prog.barrier.bind (k i)) :
    ∃ V', Stage b f V (fun i => k i ⟨⟩) V' ∧ QueryHeld num (cta b) V' ∧
      TiledCta.TiledHolds num (cta b) ∅ ⟨V' .m, V' .l, fun _ _ _ => 0⟩ := by
  have hthreads := h.threads_eq b b.isLt
  have hpos' : 0 < (cta b).threads := hthreads.symm ▸ hpos
  have hstage := Stage.threads h (t := .start) (V := V) (W := queryWrites num (cta b) b)
    (r := fun _ => ⟨⟩)
    (k := fun i _ => Prog.barrier.bind (k i)) (Q := fun _ _ _ => True) hf (fun tid w hw => ?_)
    (fun mem _ i hi => ?_) fun i hi => ?_
  · refine ⟨_, hstage.trans (.sync hpos fun _ _ => rfl), fun row hrow d hd => ?_, ?_⟩
    · dsimp only
      rw [← hthreads, queryWrites_q]
      exact TiledCta.qSmem_eq hpos' _ hrow hd
    · rw [← hthreads, queryWrites_m, queryWrites_l]
      exact tiledHolds_init hpos' _ _
  · rcases List.mem_append.mp hw with hw | hw
    · obtain ⟨idx, -, rfl⟩ := List.mem_map.mp hw
      exact ⟨_, _, rfl⟩
    · obtain ⟨row, -, hw⟩ := List.mem_flatMap.mp hw
      simp only [List.mem_cons, List.not_mem_nil, or_false] at hw
      rcases hw with rfl | rfl
      · exact ⟨_, _, rfl⟩
      · exact ⟨_, _, rfl⟩
  · obtain rfl := hi
    exact loadQuery_local
  · obtain rfl := hi
    exact loadQuery_keeps rfl trivial

/-- The block loads the K and V tiles. -/
theorem stage_tile {jBase : ℕ} (hf : ∀ i : Tid blocks n, i.block = b →
      f i = (loadTile num (cta b) i jBase).bind fun _ => Prog.barrier.bind (k i)) :
    ∃ V', Stage b f V (fun i => k i ⟨⟩) V' ∧
      (∀ col < (cta b).tile.blockN, ∀ d < (cta b).headDim,
        V' .k (col * (cta b).rowStride + d) = fin ((cta b).kAt num (jBase + col) d)) ∧
      (∀ col < (cta b).tile.blockN, ∀ d < (cta b).headDim,
        V' .v (col * (cta b).rowStride + d) = fin ((cta b).vAt num (jBase + col) d)) ∧
      ∀ x, x ≠ .k → x ≠ .v → V' x = V x := by
  have hthreads := h.threads_eq b b.isLt
  have hpos' : 0 < (cta b).threads := hthreads.symm ▸ hpos
  have hstage := Stage.threads h (t := ⟨1, 0⟩) (V := V) (W := tileWrites num (cta b) jBase b)
    (r := fun _ => ⟨⟩) (k := fun i _ => Prog.barrier.bind (k i)) (Q := fun _ _ _ => True) hf
    (fun tid w hw => ?_) (fun mem _ i hi => ?_) fun i hi => ?_
  · refine ⟨_, hstage.trans (.sync hpos fun _ _ => rfl), fun col hcol d hd => ?_, fun col hcol d hd => ?_,
      fun x hk hv => ?_⟩
    · rw [← hthreads, tileWrites_k]
      exact TiledCta.kvSmem_eq hpos' _ _ _ _ _ hcol hd
    · rw [← hthreads, tileWrites_v]
      exact TiledCta.kvSmem_eq hpos' _ _ _ _ _ hcol hd
    · rw [← hthreads, tileWrites_of_ne num _ _ _ hk hv, Scatter.apply_nil]
  · obtain ⟨idx, -, hw⟩ := List.mem_flatMap.mp hw
    simp only [List.mem_cons, List.not_mem_nil, or_false] at hw
    rcases hw with rfl | rfl
    · exact ⟨_, _, rfl⟩
    · exact ⟨_, _, rfl⟩
  · obtain rfl := hi
    exact loadTile_local
  · obtain rfl := hi
    exact loadTile_keeps rfl trivial

/-- The block computes the S tile. -/
theorem stage_score {jBase : ℕ} (hq : QueryHeld num (cta b) V)
    (hk : ∀ col < (cta b).tile.blockN, ∀ d < (cta b).headDim,
      V .k (col * (cta b).rowStride + d) = fin ((cta b).kAt num (jBase + col) d))
    (hf : ∀ i : Tid blocks n, i.block = b →
      f i = (scoreTile (cta b) i jBase).bind fun _ => Prog.barrier.bind (k i)) :
    ∃ V', Stage b f V (fun i => k i ⟨⟩) V' ∧
      (∀ row < (cta b).tile.blockM, ∀ col < (cta b).tile.blockN,
        V' .s (row * (cta b).sRowStride + col) =
          ofBot ((cta b).score num ((cta b).i0 + row) (jBase + col))) ∧
      ∀ x, x ≠ .s → V' x = V x := by
  have hthreads := h.threads_eq b b.isLt
  have hpos' : 0 < (cta b).threads := hthreads.symm ▸ hpos
  have hstage := Stage.threads h (t := ⟨2, 0⟩) (V := V) (W := scoreWrites (cta b) V jBase b)
    (r := fun _ => ⟨⟩) (k := fun i _ => Prog.barrier.bind (k i)) (Q := fun _ _ _ => True) hf
    (fun tid w hw => ?_) (fun mem hmem i hi => ?_) fun i hi => ?_
  · refine ⟨_, hstage.trans (.sync hpos fun _ _ => rfl), fun row hrow col hcol => ?_, fun x hs => ?_⟩
    · rw [← hthreads, scoreWrites_s]
      exact TiledCta.sTile_eq hpos' hq hk _ hrow hcol
    · rw [← hthreads, scoreWrites_of_ne _ _ _ _ hs, Scatter.apply_nil]
  · obtain ⟨idx, -, rfl⟩ := List.mem_map.mp hw
    exact ⟨_, _, rfl⟩
  · obtain rfl := hi
    exact scoreTile_local hmem
  · obtain rfl := hi
    exact scoreTile_keeps rfl trivial

end Arrays

/-! ## The row update -/

section Rows

variable {cta : ℕ → TiledCta 𝕜} {blocks n : ℕ} {num : Numerics 𝕜}

/-- The new maximum of a row. -/
def newMax (a : TiledCta 𝕜) (s : ℕ → WithBot 𝕜) (M : WithBot 𝕜) : WithBot 𝕜 :=
  M ⊔ (Finset.range a.tile.blockN).sup s

/-- What a lane writes of a row with scores `s` and maximum `M`. -/
def laneProbWrites (num : Numerics 𝕜) (a : TiledCta 𝕜) (b row : ℕ) (s : ℕ → WithBot 𝕜)
    (M : WithBot 𝕜) (lane : ℕ) :
    List (TiledCell × Flt 𝕜) :=
  (Strided.loop lane 32 a.tile.blockN).map fun col =>
    (.smem b .s (row * a.sRowStride + col), fin (weight num.E (s col) (newMax a s M)))

/-- What lane 0 writes. -/
def vectorWrites (num : Numerics 𝕜) (a : TiledCta 𝕜) (b row : ℕ) (s : ℕ → WithBot 𝕜)
    (M : WithBot 𝕜) (L : Flt 𝕜) :
    List (TiledCell × Flt 𝕜) :=
  [(.smem b .l row, fin (weight num.E M (newMax a s M)) * L +
      fin (∑ col ∈ Finset.range a.tile.blockN, weight num.E (s col) (newMax a s M))),
    (.smem b .m row, ofBot (newMax a s M)),
    (.smem b .alpha row, fin (weight num.E M (newMax a s M)))]

/-- What a warp writes of a row. -/
def rowWrites (num : Numerics 𝕜) (a : TiledCta 𝕜) (b row : ℕ) (s : ℕ → WithBot 𝕜)
    (M : WithBot 𝕜) (L : Flt 𝕜) :
    List (TiledCell × Flt 𝕜) :=
  (List.range 32).flatMap (laneProbWrites num a b row s M) ++ vectorWrites num a b row s M L

section Lane

variable {a : TiledCta 𝕜} {i : Tid blocks n} {mem : TiledCell → Flt 𝕜} {row : ℕ}
    {s : ℕ → WithBot 𝕜}
  {M : WithBot 𝕜}

/-- The maximum of a lane. -/
def localMax (a : TiledCta 𝕜) (s : ℕ → WithBot 𝕜) (lane : ℕ) : Flt 𝕜 :=
  (Strided.loop lane 32 a.tile.blockN).foldl (fun m col => fmaxf m (ofBot (s col))) negInf

/-- The sum of a lane. -/
def localSum (num : Numerics 𝕜) (a : TiledCta 𝕜) (s : ℕ → WithBot 𝕜) (m : WithBot 𝕜)
    (lane : ℕ) : Flt 𝕜 :=
  (Strided.loop lane 32 a.tile.blockN).foldl (fun sum col => sum + fin (weight num.E (s col) m)) 0

omit [Field 𝕜] in
theorem laneMax_local
    (hs : ∀ col < a.tile.blockN, mem (.smem i.block .s (row * a.sRowStride + col)) = ofBot (s col)) :
    Local (laneMax a i row) mem [] (localMax a s (i.tid % 32)) := by
  refine .foldlM_read fun col hcol m => ?_
  rw [← hs col ((Strided.mem_loop_of_lt (Nat.mod_lt _ (by decide))).mp hcol).1]
  exact .read_bind (.get _) .ret

theorem laneProbs_local
    (hs : ∀ col < a.tile.blockN, mem (.smem i.block .s (row * a.sRowStride + col)) = ofBot (s col)) :
    Local (laneProbs num a i row (ofBot (newMax a s M))) mem
      (laneProbWrites num a i.block row s M (i.tid % 32))
      (localSum num a s (newMax a s M) (i.tid % 32)) := by
  have hcell : Function.Injective fun col => TiledCell.smem i.block .s (row * a.sRowStride + col) :=
    fun col col' heq => Nat.add_left_cancel (TiledCell.smem.inj heq).2.2
  refine .foldlM_own (v := fun col => fin (weight num.E (s col) (newMax a s M)))
    (Strided.nodup_loop (by decide)) hcell fun col hcol sum mem' hmem' => ?_
  have hvalue := hs col ((Strided.mem_loop_of_lt (Nat.mod_lt _ (by decide))).mp hcol).1
  have hprob :
    TiledCta.prob num.E (ofBot (newMax a s M))
      (mem' (.smem i.block .s (row * a.sRowStride + col))) =
      fin (weight num.E (s col) (newMax a s M)) := by
    rw [hmem', hvalue, TiledCta.prob, prob_ofBot]
  refine .read_bind (.get _) ?_
  rw [hprob]
  exact .bind (.put _ _) .ret

omit [Field 𝕜] in
/-- The exchanges give every lane the maximum of the row. -/
theorem reduce_localMax (t : ℕ) : Butterfly.reduce fmaxf Butterfly.warp
    (fun lane => localMax a s ((t / 32 * 32 + lane) % 32)) (t % 32) =
      ofBot ((Finset.range a.tile.blockN).sup s) := by
  have hrow : ∀ col < a.tile.blockN, (fun idx => ofBot (s idx)) (0 * a.sRowStride + col) =
    ofBot (s col) := by
    intro col _
    rw [Nat.zero_mul, Nat.zero_add]
  have hmax := @TiledCta.tileMax_eq 𝕜 _ a (fun idx => ofBot (s idx)) 0 s hrow (t % 32)
    (Nat.mod_lt t (by decide))
  rw [← hmax, TiledCta.tileMax, TiledCta.warpMax]
  refine Butterfly.reduce_congr (by decide) (fun lane hlane => ?_) (Nat.mod_lt _ (by decide))
  rw [Strided.flat_mod _ hlane, localMax]
  simp only [Nat.zero_mul, Nat.zero_add]

/-- The exchanges give every lane the sum of the row. -/
theorem reduce_localSum (m : WithBot 𝕜) (t : ℕ) : Butterfly.reduce (· + ·) Butterfly.warp
    (fun lane => localSum num a s m ((t / 32 * 32 + lane) % 32)) (t % 32) =
      fin (∑ col ∈ Finset.range a.tile.blockN, weight num.E (s col) m) := by
  have hlocal : ∀ lane < 32, localSum num a s m ((t / 32 * 32 + lane) % 32) =
      fin (((Strided.loop lane 32 a.tile.blockN).map fun col => weight num.E (s col) m).sum) := by
    intro lane hlane
    rw [Strided.flat_mod _ hlane, localSum]
    exact (foldl_add_fin _ _ 0).trans (by rw [zero_add])
  rw [Butterfly.reduce_congr (by decide) hlocal (Nat.mod_lt _ (by decide)),
    Butterfly.reduce_warp_add _ (Nat.mod_lt _ (by decide)), Strided.sum_threads (by decide)]

theorem storeRow_local {mNew alpha tileSum L : Flt 𝕜} (hl : mem (.smem i.block .l row) = L) :
    Local (storeRow i row mNew alpha tileSum) mem (if i.tid % 32 = 0 then
      [(.smem i.block .l row, alpha * L + tileSum), (.smem i.block .m row, mNew),
        (.smem i.block .alpha row, alpha)] else []) ⟨⟩ := by
  subst hl
  exact .when (.read_bind (.get _) (.bind (.put _ _) (.bind (.put _ _) (.put _ _))))

end Lane

variable {w : Fin blocks × ℕ} {row : ℕ} {s : ℕ → WithBot 𝕜} {M : WithBot 𝕜} {L : Flt 𝕜}
  {mem : TiledCell → Flt 𝕜} {f : Tid blocks n → Thread (Tid blocks n) TiledCell (Flt 𝕜)}
  {k : Tid blocks n → PUnit → Thread (Tid blocks n) TiledCell (Flt 𝕜)}

section Warp

variable (h : TiledGrid cta blocks n) (hfit : w.2 * 32 + 32 ≤ n) {ρ : Type*} {t : Clock}
  {q : Tid blocks n → TiledProg 𝕜 blocks n ρ}
  {K : Tid blocks n → ρ → Thread (Tid blocks n) TiledCell (Flt 𝕜)} {r : Tid blocks n → ρ}
  {Q : Tid blocks n → Clock → ρ → Prop}

include h hfit

omit [Field 𝕜] [LinearOrder 𝕜] in
/-- The lanes of a warp run one after another. -/
theorem goes_warp {W : ℕ → List (TiledCell × Flt 𝕜)}
    (hf : ∀ i : Tid blocks n, i.warp = w → f i = (q i).bind (K i))
    (hlocal : ∀ i : Tid blocks n, i.warp = w → Local (q i) mem (W (i.tid % 32)) (r i))
    (hkeeps : ∀ i : Tid blocks n, i.warp = w → (q i).Keeps (tiledRights h) i t (Q i)) :
    Goes Tid.block Tid.warp {i | i.warp = w} mem f (Scatter.apply mem ((List.range 32).flatMap W))
      fun i => K i (r i) := by
  have hpos : 0 < n := by omega
  rw [← Tid.flatMap_ofWarp hpos hfit W]
  exact .threads (fun _ => Tid.mem_ofWarp hpos hfit) (Tid.nodup_ofWarp hpos hfit) hf hlocal hkeeps

omit [Field 𝕜] [LinearOrder 𝕜] in
/-- The same for lanes that only read. -/
theorem goes_warp_read (hf : ∀ i : Tid blocks n, i.warp = w → f i = (q i).bind (K i))
    (hlocal : ∀ i : Tid blocks n, i.warp = w → Local (q i) mem [] (r i))
    (hkeeps : ∀ i : Tid blocks n, i.warp = w → (q i).Keeps (tiledRights h) i t (Q i)) :
    Goes Tid.block Tid.warp {i | i.warp = w} mem f mem fun i => K i (r i) := by
  have hgo : Goes Tid.block Tid.warp {i | i.warp = w} mem f
      (Scatter.apply mem ((List.range 32).flatMap fun _ => [])) fun i => K i (r i) :=
    goes_warp h hfit hf hlocal hkeeps
  rwa [List.flatMap_eq_nil_iff.mpr fun _ _ => rfl] at hgo

end Warp

/-- A warp updates a row. -/
theorem goes_updateRow (h : TiledGrid cta blocks n) (hw : w.2 < (cta w.1).tile.warps)
    (hrow : row % (cta w.1).tile.warps = w.2)
    (hs : ∀ col < (cta w.1).tile.blockN,
      mem (.smem w.1 .s (row * (cta w.1).sRowStride + col)) = ofBot (s col))
    (hm : mem (.smem w.1 .m row) = ofBot M) (hl : mem (.smem w.1 .l row) = L)
    (hf : ∀ i : Tid blocks n, i.warp = w → f i = (updateRow num (cta w.1) i row).bind (k i)) :
    Goes Tid.block Tid.warp {i | i.warp = w} mem f
      (Scatter.apply mem (rowWrites num (cta w.1) w.1 row s M L)) fun i => k i ⟨⟩ := by
  have hthreads : (cta w.1).tile.warps * 32 = n := h.threads_eq w.1 w.1.isLt
  have hfit : w.2 * 32 + 32 ≤ n := by omega
  have hdvd : 32 ∣ n := ⟨_, hthreads.symm.trans (Nat.mul_comm _ _)⟩
  have hoffsets : ∀ x ∈ Butterfly.warp, x < 32 := by decide
  have hwarp : ∀ i j : Tid blocks n, i.warp = j.warp → i.warp = w → j.warp = w :=
    fun i j hij hi => hij.symm.trans hi
  let m' := newMax (cta w.1) s M
  -- what is left to do at each point
  let store : Tid blocks n → Flt 𝕜 → Thread (Tid blocks n) TiledCell (Flt 𝕜) := fun i tileSum =>
    (storeRow i row (ofBot m') (rowAlpha num (ofBot M) (ofBot m')) tileSum).bind (k i)
  let update : Tid blocks n → Flt 𝕜 → Flt 𝕜 → Thread (Tid blocks n) TiledCell (Flt 𝕜) :=
    fun i tileMax mOld =>
    (laneProbs num (cta w.1) i row (fmaxf mOld tileMax)).bind fun localSum =>
      (shflReduce (· + ·) Butterfly.warp i localSum).bind fun tileSum =>
        (storeRow i row (fmaxf mOld tileMax) (rowAlpha num mOld (fmaxf mOld tileMax)) tileSum).bind (k i)
  let readMax : Tid blocks n → Flt 𝕜 → Thread (Tid blocks n) TiledCell (Flt 𝕜) := fun i tileMax =>
    (getSmem i .m row).bind (update i tileMax)
  have hupdate : ∀ i, update i (ofBot ((Finset.range (cta w.1).tile.blockN).sup s)) (ofBot M) =
      (laneProbs num (cta w.1) i row (ofBot m')).bind fun localSum =>
        (shflReduce (· + ·) Butterfly.warp i localSum).bind (store i) := by
    intro i
    simp only [update, store, m', newMax, fmaxf_ofBot]
  have hmax : Goes Tid.block Tid.warp {i | i.warp = w} mem f mem fun i =>
      (shflReduce fmaxf Butterfly.warp i (localMax (cta w.1) s (i.tid % 32))).bind (readMax i) := by
    refine goes_warp_read h hfit (t := ⟨3, 0⟩) (q := fun i => laneMax (cta w.1) i row)
      (K := fun i localMax => (shflReduce fmaxf Butterfly.warp i localMax).bind (readMax i))
      (Q := fun _ _ _ => True) (fun i hi => ?_) (fun i hi => ?_) fun i hi => ?_
    · rw [hf i hi, updateRow]
      simp only [Prog.bind_eq, Prog.bind_assoc, readMax, update]
    · obtain rfl := hi
      exact laneMax_local hs
    · obtain rfl := hi
      exact laneMax_keeps hrow rfl fun _ => trivial
  have htileMax : Goes Tid.block Tid.warp {i | i.warp = w} mem
      (fun i => (shflReduce fmaxf Butterfly.warp i (localMax (cta w.1) s (i.tid % 32))).bind (readMax i)) mem
      fun i => readMax i (ofBot ((Finset.range (cta w.1).tile.blockN).sup s)) :=
    goes_shflReduce (u := fun t => localMax (cta w.1) s (t % 32)) hdvd hoffsets subset_rfl hwarp
      (fun _ _ => rfl) (fun i _ => by rw [reduce_localMax]) fun i hi hi' => absurd hi hi'
  have hold : Goes Tid.block Tid.warp {i | i.warp = w} mem
      (fun i => readMax i (ofBot ((Finset.range (cta w.1).tile.blockN).sup s))) mem
      fun i => update i (ofBot ((Finset.range (cta w.1).tile.blockN).sup s)) (ofBot M) := by
    refine goes_warp_read h hfit (t := ⟨3, 5⟩) (Q := fun _ _ _ => True) (fun i _ => rfl) (fun i hi => ?_)
      fun i hi => ?_
    · obtain rfl := hi
      rw [← hm]
      exact .get _
    · obtain rfl := hi
      exact getSmem_keeps (.inr (.inr ⟨rfl, rfl, hrow⟩)) fun _ => trivial
  set mem₁ :=
    Scatter.apply mem
      ((List.range 32).flatMap (laneProbWrites num (cta w.1) w.1 row s M)) with hmem₁
  have hprobs : Goes Tid.block Tid.warp {i | i.warp = w} mem
      (fun i => update i (ofBot ((Finset.range (cta w.1).tile.blockN).sup s)) (ofBot M)) mem₁
      fun i => (shflReduce (· + ·) Butterfly.warp i (localSum num (cta w.1) s m' (i.tid % 32))).bind
        (store i) := by
    refine goes_warp h hfit (t := ⟨3, 5⟩) (Q := fun _ _ _ => True)
      (K := fun i localSum => (shflReduce (· + ·) Butterfly.warp i localSum).bind (store i))
      (fun i _ => hupdate i) (fun i hi => ?_) fun i hi => ?_
    · obtain rfl := hi
      exact laneProbs_local hs
    · obtain rfl := hi
      exact laneProbs_keeps hrow rfl fun _ => trivial
  have htileSum : Goes Tid.block Tid.warp {i | i.warp = w} mem₁
      (fun i =>
        (shflReduce (· + ·) Butterfly.warp i (localSum num (cta w.1) s m' (i.tid % 32))).bind
          (store i))
      mem₁ fun i =>
        store i (fin (∑ col ∈ Finset.range (cta w.1).tile.blockN, weight num.E (s col) m')) :=
    goes_shflReduce (u := fun t => localSum num (cta w.1) s m' (t % 32)) hdvd hoffsets subset_rfl hwarp
      (fun _ _ => rfl) (fun i _ => by rw [reduce_localSum]) fun i hi hi' => absurd hi hi'
  -- the probabilities leave `l` alone
  have hl₁ : mem₁ (.smem w.1 .l row) = L := by
    rw [hmem₁, Scatter.apply_of_forall_ne fun v hv heq => ?_, hl]
    obtain ⟨lane, -, hv⟩ := List.mem_flatMap.mp hv
    obtain ⟨col, -, rfl⟩ := List.mem_map.mp hv
    cases heq
  have hvectors : (List.range 32).flatMap (fun lane => if lane = 0 then
      vectorWrites num (cta w.1) w.1 row s M L else []) = vectorWrites num (cta w.1) w.1 row s M L := by
    rw [List.range_succ_eq_map, List.flatMap_cons, List.flatMap_map, if_pos rfl,
      List.flatMap_eq_nil_iff.mpr fun _ _ => if_neg (Nat.succ_ne_zero _), List.append_nil]
  have hstore : Goes Tid.block Tid.warp {i | i.warp = w} mem₁
      (fun i => store i (fin (∑ col ∈ Finset.range (cta w.1).tile.blockN, weight num.E (s col) m')))
      (Scatter.apply mem₁ (vectorWrites num (cta w.1) w.1 row s M L)) fun i => k i ⟨⟩ := by
    rw [← hvectors]
    refine goes_warp h hfit (t := ⟨3, 10⟩) (Q := fun _ _ _ => True) (K := k) (fun i _ => rfl)
      (fun i hi => ?_) fun i hi => ?_
    · obtain rfl := hi
      have halpha : rowAlpha num (ofBot M) (ofBot m') = fin (weight num.E M m') := rescale_ofBot' _ _ _
      rw [halpha]
      exact storeRow_local hl₁
    · obtain rfl := hi
      exact storeRow_keeps hrow rfl rfl trivial
  rw [rowWrites, Scatter.apply_append, ← hmem₁]
  exact hmax.trans (htileMax.trans (hold.trans (hprobs.trans (htileSum.trans hstore))))

end Rows

/-! ## The row updates of a block -/

section BlockRows

variable {cta : ℕ → TiledCta 𝕜} {blocks n : ℕ} {num : Numerics 𝕜} {a : TiledCta 𝕜}

/-- The cells of a row. -/
def rowCells (a : TiledCta 𝕜) (b row : ℕ) : Set TiledCell :=
  {c | (∃ col < a.tile.blockN, c = .smem b .s (row * a.sRowStride + col)) ∨
    ∃ x, (x = .m ∨ x = .l ∨ x = .alpha) ∧ c = .smem b x row}

omit [Field 𝕜] [LinearOrder 𝕜] in
theorem eq_of_mem_rowCells {b row row' : ℕ} {c : TiledCell} (hc : c ∈ rowCells a b row)
    (hc' : c ∈ rowCells a b row') : row = row' := by
  rcases hc with ⟨col, hcol, rfl⟩ | ⟨x, hx, rfl⟩
  · rcases hc' with ⟨col', hcol', heq⟩ | ⟨x', hx', heq⟩
    · exact (Strided.mul_add_inj (hcol.trans_le a.blockN_le_sRowStride)
        (hcol'.trans_le a.blockN_le_sRowStride) (TiledCell.smem.inj heq).2.2).1
    · cases heq
      simp at hx'
  · rcases hc' with ⟨col', hcol', heq⟩ | ⟨x', hx', heq⟩
    · cases heq
      simp at hx
    · exact (TiledCell.smem.inj heq).2.2

variable {b row : ℕ} {s : ℕ → WithBot 𝕜} {M : WithBot 𝕜} {L : Flt 𝕜}
    {mem : TiledCell → Flt 𝕜}

theorem mem_rowWrites {w : TiledCell × Flt 𝕜} (hw : w ∈ rowWrites num a b row s M L) :
    w.1 ∈ rowCells a b row := by
  rcases List.mem_append.mp hw with hw | hw
  · obtain ⟨lane, hlane, hw⟩ := List.mem_flatMap.mp hw
    obtain ⟨col, hcol, rfl⟩ := List.mem_map.mp hw
    exact .inl ⟨col, ((Strided.mem_loop_of_lt (List.mem_range.mp hlane)).mp hcol).1, rfl⟩
  · simp only [vectorWrites, List.mem_cons, List.not_mem_nil, or_false] at hw
    rcases hw with rfl | rfl | rfl
    · exact .inr ⟨.l, .inr (.inl rfl), rfl⟩
    · exact .inr ⟨.m, .inl rfl, rfl⟩
    · exact .inr ⟨.alpha, .inr (.inr rfl), rfl⟩

theorem apply_rowWrites_s {col : ℕ} (hcol : col < a.tile.blockN) :
    Scatter.apply mem (rowWrites num a b row s M L) (.smem b .s (row * a.sRowStride + col)) =
      fin (weight num.E (s col) (newMax a s M)) := by
  refine Scatter.apply_of_agree (List.mem_append.mpr (.inl (List.mem_flatMap.mpr
    ⟨col % 32, List.mem_range.mpr (Nat.mod_lt _ (by decide)), List.mem_map.mpr ⟨col, ?_, rfl⟩⟩)))
    fun w hw heq => ?_
  · exact (Strided.mem_loop_of_lt (Nat.mod_lt _ (by decide))).mpr ⟨hcol, rfl⟩
  · rcases List.mem_append.mp hw with hw | hw
    · obtain ⟨lane, -, hw⟩ := List.mem_flatMap.mp hw
      obtain ⟨col', -, rfl⟩ := List.mem_map.mp hw
      rw [Nat.add_left_cancel (TiledCell.smem.inj heq).2.2]
    · simp only [vectorWrites, List.mem_cons, List.not_mem_nil, or_false] at hw
      rcases hw with rfl | rfl | rfl
      · cases heq
      · cases heq
      · cases heq

theorem apply_rowWrites_m :
    Scatter.apply mem (rowWrites num a b row s M L) (.smem b .m row) = ofBot (newMax a s M) := by
  simp [rowWrites, vectorWrites]

theorem apply_rowWrites_l :
    Scatter.apply mem (rowWrites num a b row s M L) (.smem b .l row) =
      fin (weight num.E M (newMax a s M)) * L +
        fin (∑ col ∈ Finset.range a.tile.blockN, weight num.E (s col) (newMax a s M)) := by
  simp [rowWrites, vectorWrites]

theorem apply_rowWrites_alpha :
    Scatter.apply mem (rowWrites num a b row s M L) (.smem b .alpha row) =
      fin (weight num.E M (newMax a s M)) := by
  simp [rowWrites, vectorWrites]

/-- What the warps of a block write. -/
def blockRowWrites (num : Numerics 𝕜) (a : TiledCta 𝕜) (b : ℕ) (S : ℕ → ℕ → WithBot 𝕜)
    (M : ℕ → WithBot 𝕜)
    (L : ℕ → Flt 𝕜) : List (TiledCell × Flt 𝕜) :=
  a.blockRows.flatMap fun row => rowWrites num a b row (S row) (M row) (L row)

variable {S : ℕ → ℕ → WithBot 𝕜} {Ms : ℕ → WithBot 𝕜} {Ls : ℕ → Flt 𝕜}

/-- A row is as its warp leaves it. -/
theorem apply_blockRowWrites (hwarps : 0 < a.tile.warps) (hrow : row < a.tile.blockM) {c : TiledCell}
    (hc : c ∈ rowCells a b row) : Scatter.apply mem (blockRowWrites num a b S Ms Ls) c =
      Scatter.apply mem (rowWrites num a b row (S row) (Ms row) (Ls row)) c := by
  refine Scatter.apply_flatMap_of_mem ?_ ((TiledCta.mem_blockRows hwarps).mpr hrow)
    (fun row' _ hne w hw heq => ?_) mem
  · exact (Strided.threads_perm hwarps _).nodup_iff.mpr List.nodup_range
  · exact hne (eq_of_mem_rowCells (heq ▸ mem_rowWrites hw) hc)

/-- The other arrays are left alone. -/
theorem apply_blockRowWrites_of_ne {x : TileArray} (hx : x ≠ .s ∧ x ≠ .m ∧ x ≠ .l ∧ x ≠ .alpha)
    (idx : ℕ) :
    Scatter.apply mem (blockRowWrites num a b S Ms Ls) (.smem b x idx) = mem (.smem b x idx) := by
  refine Scatter.apply_of_forall_ne fun w hw heq => ?_
  obtain ⟨row, -, hw⟩ := List.mem_flatMap.mp hw
  rcases heq ▸ mem_rowWrites hw with ⟨col, -, heq⟩ | ⟨x', hx', heq⟩
  · cases heq
    exact hx.1 rfl
  · cases heq
    rcases hx' with rfl | rfl | rfl
    · exact hx.2.1 rfl
    · exact hx.2.2.1 rfl
    · exact hx.2.2.2 rfl

end BlockRows

section RowStage

variable {cta : ℕ → TiledCta 𝕜} {blocks n : ℕ} {num : Numerics 𝕜}
    {S : ℕ → ℕ → WithBot 𝕜} {Ms : ℕ → WithBot 𝕜}
  {Ls : ℕ → Flt 𝕜} {f : Tid blocks n → Thread (Tid blocks n) TiledCell (Flt 𝕜)}
  {k : Tid blocks n → PUnit → Thread (Tid blocks n) TiledCell (Flt 𝕜)}

/-- The shared arrays of a block hold the scores of a tile, and the maxima and sums of the rows so far. -/
structure RowsHeld (a : TiledCta 𝕜) (S : ℕ → ℕ → WithBot 𝕜) (Ms : ℕ → WithBot 𝕜)
    (Ls : ℕ → Flt 𝕜)
    (V : TileArray → ℕ → Flt 𝕜) : Prop where
  s_eq : ∀ row < a.tile.blockM, ∀ col < a.tile.blockN, V .s (row * a.sRowStride + col) = ofBot (S row col)
  m_eq : ∀ row < a.tile.blockM, V .m row = ofBot (Ms row)
  l_eq : ∀ row < a.tile.blockM, V .l row = Ls row

/-- A warp updates its rows. -/
theorem goes_updateRows (h : TiledGrid cta blocks n) {w : Fin blocks × ℕ} (hw : w.2 < (cta w.1).tile.warps)
    {V : TileArray → ℕ → Flt 𝕜} (hV : RowsHeld (cta w.1) S Ms Ls V) {mem : TiledCell → Flt 𝕜}
    (hmem : ∀ row, row % (cta w.1).tile.warps = w.2 → ∀ x idx,
      .smem w.1 x idx ∈ rowCells (cta w.1) w.1 row → mem (.smem w.1 x idx) = V x idx)
    (hf : ∀ i : Tid blocks n, i.warp = w → f i = (forM (Strided.loop (i.tid / 32) (cta w.1).tile.warps
      (cta w.1).tile.blockM) (updateRow num (cta w.1) i)).bind (k i)) :
    Goes Tid.block Tid.warp {i | i.warp = w} mem f (Scatter.apply mem ((Strided.loop w.2 (cta w.1).tile.warps
      (cta w.1).tile.blockM).flatMap fun row => rowWrites num (cta w.1) w.1 row (S row) (Ms row) (Ls row)))
      fun i => k i ⟨⟩ := by
  have hwarps : 0 < (cta w.1).tile.warps := Nat.zero_lt_of_lt hw
  have hloop : ∀ i ∈ {i : Tid blocks n | i.warp = w}, f i = (forM (Strided.loop w.2 (cta w.1).tile.warps
      (cta w.1).tile.blockM) fun row => updateRow num (cta w.1) i row).bind (k i) := by
    intro i hi
    rw [hf i hi]
    obtain rfl := hi
    rfl
  refine Goes.loop (s := fun row => rowCells (cta w.1) w.1 row) ?_
    (fun row hrow mem' f' k' hmem' hf' => ?_) hloop
  · refine (Strided.nodup_loop hwarps).imp fun {row row'} hne w' hw' hc => ?_
    exact hne (eq_of_mem_rowCells (mem_rowWrites hw') hc)
  · obtain ⟨hlt, hmod⟩ := (Strided.mem_loop_of_lt hw).mp hrow
    have hread : ∀ x idx, .smem w.1 x idx ∈ rowCells (cta w.1) w.1 row → mem' (.smem w.1 x idx) =
      V x idx :=
      fun x idx hc => (hmem' _ hc).trans (hmem row hmod x idx hc)
    refine goes_updateRow h hw hmod (fun col hcol => ?_) ?_ ?_ hf'
    · exact (hread _ _ (.inl ⟨col, hcol, rfl⟩)).trans (hV.s_eq row hlt col hcol)
    · exact (hread _ _ (.inr ⟨.m, .inl rfl, rfl⟩)).trans (hV.m_eq row hlt)
    · exact (hread _ _ (.inr ⟨.l, .inr (.inl rfl), rfl⟩)).trans (hV.l_eq row hlt)

variable {b : Fin blocks} {V : TileArray → ℕ → Flt 𝕜}

/-- A memory with these shared arrays. -/
def memoryOf (V : TileArray → ℕ → Flt 𝕜) : TiledCell → Flt 𝕜
  | .smem _ x idx => V x idx
  | _ => 0

variable (num) in
/-- The block updates its rows. -/
theorem stage_rows (h : TiledGrid cta blocks n) (hpos : 0 < n) (hV : RowsHeld (cta b) S Ms Ls V)
    (hf : ∀ i : Tid blocks n, i.block = b → f i = (forM (Strided.loop (i.tid / 32) (cta b).tile.warps
      (cta b).tile.blockM) (updateRow num (cta b) i)).bind fun _ => Prog.barrier.bind (k i)) :
    Stage b f V (fun i => k i ⟨⟩)
      (smemOf (Scatter.apply (memoryOf V) (blockRowWrites num (cta b) b S Ms Ls)) b) := by
  have hthreads : (cta b).tile.warps * 32 = n := h.threads_eq b b.isLt
  let ps : List (Fin blocks × ℕ) := (List.range (cta b).tile.warps).map fun w => (b, w)
  let ws : Fin blocks × ℕ → List (TiledCell × Flt 𝕜) := fun w =>
    (Strided.loop w.2 (cta b).tile.warps (cta b).tile.blockM).flatMap fun row =>
      rowWrites num (cta b) b row (S row) (Ms row) (Ls row)
  have hps : {i : Tid blocks n | i.warp ∈ ps} = {i | i.block = b} := by
    ext i
    simp only [ps, Set.mem_ofPred_eq, List.mem_map, List.mem_range]
    constructor
    · rintro ⟨w, -, heq⟩
      exact (congrArg Prod.fst heq).symm
    · rintro rfl
      exact ⟨i.tid / 32, h.warp_lt i, rfl⟩
  have hws : ps.flatMap ws = blockRowWrites num (cta b) b S Ms Ls := by
    rw [blockRowWrites, TiledCta.blockRows, Strided.threads, List.flatMap_assoc, List.flatMap_map]
  have hcells : ∀ w ∈ ps, ∀ v ∈ ws w, ∃ row, row % (cta b).tile.warps = w.2 ∧
    v.1 ∈ rowCells (cta b) b row := by
    intro w hw v hv
    obtain ⟨x, hx, rfl⟩ := List.mem_map.mp hw
    obtain ⟨row, hrow, hv⟩ := List.mem_flatMap.mp hv
    exact ⟨row, ((Strided.mem_loop_of_lt (List.mem_range.mp hx)).mp hrow).2, mem_rowWrites hv⟩
  have hgo : ∀ mem, smemOf mem b = V → Goes Tid.block Tid.warp {i | i.block = b} mem f
      (Scatter.apply mem (blockRowWrites num (cta b) b S Ms Ls)) fun i => Prog.barrier.bind (k i) := by
    intro mem hmem
    rw [← hws, ← hps]
    refine .parts
      (s := fun w => {c | ∃ row, row % (cta b).tile.warps = w.2 ∧ c ∈ rowCells (cta b) b row})
      (List.nodup_range.map fun x y heq => (Prod.mk.inj heq).2) hcells ?_ fun w hw mem' hmem' => ?_
    · refine List.pairwise_map.mpr (List.nodup_range.imp fun {x y} hne c => ?_)
      rintro ⟨row, hrow, hc⟩ ⟨row', hrow', hc'⟩
      exact hne
        (hrow.symm.trans
          ((congrArg (· % (cta b).tile.warps) (eq_of_mem_rowCells hc hc')).trans hrow'))
    · obtain ⟨x, hx, rfl⟩ := List.mem_map.mp hw
      refine goes_updateRows (w := (b, x)) h (List.mem_range.mp hx) hV (fun row hrow x idx hc => ?_)
        fun i hi =>
        hf i (congrArg Prod.fst hi)
      exact (hmem' _ ⟨row, hrow, hc⟩).trans (congrFun (congrFun hmem x) idx)
  refine ⟨blockRowWrites num (cta b) b S Ms Ls, fun w hw => ?_, fun mem hmem =>
    ⟨(hgo mem hmem).trans (.sync ⟨(b, ⟨0, hpos⟩), rfl⟩ fun _ _ => rfl), ?_⟩⟩
  · obtain ⟨row, -, hw⟩ := List.mem_flatMap.mp hw
    rcases mem_rowWrites hw with ⟨col, -, heq⟩ | ⟨x, -, heq⟩
    · exact ⟨_, _, heq⟩
    · exact ⟨_, _, heq⟩
  · funext x
    rw [smemOf_apply, smemOf_apply, hmem]
    rfl

end RowStage

end SciAttention

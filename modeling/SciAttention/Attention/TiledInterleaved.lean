import SciAttention.Attention.TiledStages

/-!
# The tiled kernel under every interleaving

An iteration of the tile loop takes the arrays and registers of a block from one set of positions to the next
(`stage_tileThread`), as `TiledCta.tileStep` does; so the epilogue stores what the model of the kernel stores,
and blocks share no cell.
-/

namespace SciAttention

open Simt Flt Softmax

variable {𝕜 : Type*} [Field 𝕜] [LinearOrder 𝕜]

/-! ## The tile loop -/

section Tiles

variable {cta : ℕ → TiledCta 𝕜} {blocks n : ℕ} {num : Numerics 𝕜}

/-- The partial products of a slot. -/
def partialsOf (a : TiledCta 𝕜) (V : TileArray → ℕ → Flt 𝕜) (slot : ℕ) : ℕ → Flt 𝕜 :=
  (List.range a.tile.blockN).foldl (fun partials col =>
    if V .s (slot / a.slotsPerRow * a.sRowStride + col) = 0 then partials
    else (List.range 4).foldl (fun partials c => Function.update partials c
      (partials c + V .s (slot / a.slotsPerRow * a.sRowStride + col) *
        V .v (col * a.rowStride + (slot % a.slotsPerRow * 4 + c)))) partials) fun _ => 0

/-- The registers of a thread after its slots. -/
def accAfter (a : TiledCta 𝕜) (V : TileArray → ℕ → Flt 𝕜) (acc : ℕ → ℕ → Flt 𝕜)
    (tid : ℕ) : ℕ → ℕ → Flt 𝕜 :=
  (Strided.loop tid a.threads a.totalSlots).foldl (fun acc slot =>
    Function.update acc (slot / a.threads) fun c =>
      V .alpha (slot / a.slotsPerRow) * acc (slot / a.threads) c + partialsOf a V slot c) acc

theorem updateAcc_local {a : TiledCta 𝕜} {i : Tid blocks n} {mem : TiledCell → Flt 𝕜}
    {acc : ℕ → ℕ → Flt 𝕜} :
    Local (updateAcc a i acc) mem [] (accAfter a (smemOf mem i.block) acc i.tid) := by
  refine .foldlM_read fun slot _ acc => ?_
  have hdot : Local (slotDot a i slot) mem [] (partialsOf a (smemOf mem i.block) slot) := by
    refine .foldlM_read fun col _ partials => .read_bind (.get _) ?_
    by_cases hzero : mem (.smem i.block .s (slot / a.slotsPerRow * a.sRowStride + col)) = 0
    · have hzero' : smemOf mem i.block .s (slot / a.slotsPerRow * a.sRowStride + col) = 0 := hzero
      simp only [if_pos hzero, if_pos hzero']
      exact .ret
    · have hzero' : ¬ smemOf mem i.block .s (slot / a.slotsPerRow * a.sRowStride + col) = 0 := hzero
      simp only [if_neg hzero, if_neg hzero']
      exact .foldlM_read fun c _ partials => .read_bind (.get _) .ret
  exact .read_bind hdot (.read_bind (.get _) .ret)

/-- One component of the partial products. -/
theorem partialsOf_apply (a : TiledCta 𝕜) (V : TileArray → ℕ → Flt 𝕜) (slot : ℕ) {c : ℕ}
    (hc : c < 4) :
    partialsOf a V slot c = a.partialDot (V .s) (V .v) slot c := by
  have hcomponent : ∀ (prob : Flt 𝕜) (v partials : ℕ → Flt 𝕜),
    (List.range 4).foldl (fun partials c =>
      Function.update partials c (partials c + prob * v c)) partials c = partials c + prob * v c :=
    fun prob v partials => Scatter.foldl_update_of_mem (f := id) (g := fun c old => old + prob * v c)
      List.nodup_range (fun _ _ _ _ heq => heq) (List.mem_range.mpr hc) partials
  have hrun : ∀ (l : List ℕ) (partials : ℕ → Flt 𝕜), l.foldl (fun partials col =>
      if V .s (slot / a.slotsPerRow * a.sRowStride + col) = 0 then partials
      else (List.range 4).foldl (fun partials c => Function.update partials c
        (partials c + V .s (slot / a.slotsPerRow * a.sRowStride + col) *
          V .v (col * a.rowStride + (slot % a.slotsPerRow * 4 + c)))) partials) partials c =
      l.foldl (fun acc col =>
        if V .s (slot / a.slotsPerRow * a.sRowStride + col) = 0 then acc
        else acc + V .s (slot / a.slotsPerRow * a.sRowStride + col) *
          V .v (col * a.rowStride + (slot % a.slotsPerRow * 4 + c))) (partials c) := by
    intro l
    induction l with
    | nil => exact fun _ => rfl
    | cons col l ih =>
      intro partials
      rw [List.foldl_cons, List.foldl_cons, ih]
      split_ifs
      · rfl
      · rw [hcomponent _ fun c => V .v (col * a.rowStride + (slot % a.slotsPerRow * 4 + c))]
  exact hrun _ _

/-- The accumulator of a slot: no two slots of a thread share one. -/
theorem accAfter_apply {a : TiledCta 𝕜} (hthreads : 0 < a.threads) (V : TileArray → ℕ → Flt 𝕜)
    (acc : ℕ → ℕ → Flt 𝕜) {slot c : ℕ} (hslot : slot < a.totalSlots) (hc : c < 4) :
    accAfter a V acc (slot % a.threads) (slot / a.threads) c =
      V .alpha (slot / a.slotsPerRow) * acc (slot / a.threads) c + a.partialDot (V .s) (V .v) slot c := by
  have htid := Nat.mod_lt slot hthreads
  have hmem : slot ∈ Strided.loop (slot % a.threads) a.threads a.totalSlots :=
    (Strided.mem_loop_of_lt htid).mpr ⟨hslot, rfl⟩
  have hinj : ∀ x ∈ Strided.loop (slot % a.threads) a.threads a.totalSlots,
      ∀ y ∈ Strided.loop (slot % a.threads) a.threads a.totalSlots,
        x / a.threads = y / a.threads → x = y := by
    intro x hx y hy hdiv
    have hxmod := ((Strided.mem_loop_of_lt htid).mp hx).2
    have hymod := ((Strided.mem_loop_of_lt htid).mp hy).2
    rw [← Nat.div_add_mod x a.threads, ← Nat.div_add_mod y a.threads, hdiv, hxmod, hymod]
  have hfold := Scatter.foldl_update_of_mem (f := fun slot => slot / a.threads)
    (g := fun slot old c => V .alpha (slot / a.slotsPerRow) * old c + partialsOf a V slot c)
    (Strided.nodup_loop hthreads) hinj hmem acc
  rw [← partialsOf_apply a V slot hc]
  exact congrFun hfold c

variable {b : Fin blocks} {f : Tid blocks n → Thread (Tid blocks n) TiledCell (Flt 𝕜)}
    {V : TileArray → ℕ → Flt 𝕜}

/-- The threads of the block update their registers. -/
theorem stage_acc (h : TiledGrid cta blocks n) (hpos : 0 < n) {acc : ℕ → ℕ → ℕ → Flt 𝕜}
    {k : Tid blocks n → (ℕ → ℕ → Flt 𝕜) → Thread (Tid blocks n) TiledCell (Flt 𝕜)}
    (hf : ∀ i : Tid blocks n, i.block = b →
      f i = (updateAcc (cta b) i (acc i.tid)).bind fun acc => Prog.barrier.bind fun _ => k i acc) :
    Stage b f V (fun i => k i (accAfter (cta b) V (acc i.tid) i.tid)) V := by
  have hstage := Stage.threads h (t := ⟨4, 0⟩) (V := V) (W := fun _ => [])
    (r := fun i => accAfter (cta b) V (acc i.tid) i.tid)
    (k := fun i acc => Prog.barrier.bind fun _ => k i acc) (Q := fun _ _ _ => True) hf
    (fun _ _ hw => absurd hw List.not_mem_nil) (fun mem hmem i hi => ?_) fun i hi => ?_
  · have hV : (fun x => Scatter.apply (V x)
        (((List.range n).flatMap fun _ => []).filterMap (toArray b x))) = V := by
      funext x
      rw [List.flatMap_eq_nil_iff.mpr fun _ _ => rfl]
      rfl
    rw [hV] at hstage
    exact hstage.trans (.sync hpos fun _ _ => rfl)
  · obtain rfl := hi
    rw [← hmem]
    exact updateAcc_local
  · obtain rfl := hi
    exact updateAcc_keeps ⟨rfl, by decide⟩ fun _ => trivial

/-- An iteration of the tile loop adds the positions of its tile. -/
theorem stage_tileThread (h : TiledGrid cta blocks n) (hwarps : 0 < (cta b).tile.warps)
    {J : Finset ℕ} {j0 : ℕ}
    (hJ : Disjoint J (Strided.window (cta b).tile.blockN j0)) (hq : QueryHeld num (cta b) V)
    {acc : ℕ → ℕ → ℕ → Flt 𝕜} (hst : TiledCta.TiledHolds num (cta b) J ⟨V .m, V .l, acc⟩)
    {k : Tid blocks n → (ℕ → ℕ → Flt 𝕜) → Thread (Tid blocks n) TiledCell (Flt 𝕜)}
    (hf : ∀ i : Tid blocks n, i.block = b → f i = (tileThread num (cta b) i (acc i.tid) j0).bind (k i)) :
    ∃ V' acc', Stage b f V (fun i => k i (acc' i.tid)) V' ∧ QueryHeld num (cta b) V' ∧
      TiledCta.TiledHolds num (cta b) (J ∪ Strided.window (cta b).tile.blockN j0)
        ⟨V' .m, V' .l, acc'⟩ := by
  have hthreads : 0 < (cta b).threads := Nat.mul_pos hwarps (by decide)
  have hpos : 0 < n := h.threads_eq b b.isLt ▸ hthreads
  set T := Strided.window (cta b).tile.blockN j0 with hT
  -- what is left to do behind each barrier
  let afterRows : Tid blocks n → PUnit → Thread (Tid blocks n) TiledCell (Flt 𝕜) := fun i _ =>
    (updateAcc (cta b) i (acc i.tid)).bind fun acc => Prog.barrier.bind fun _ => k i acc
  let afterScore : Tid blocks n → PUnit → Thread (Tid blocks n) TiledCell (Flt 𝕜) := fun i _ =>
    (forM (Strided.loop (i.tid / 32) (cta b).tile.warps (cta b).tile.blockM)
      (updateRow num (cta b) i)).bind fun _ => Prog.barrier.bind (afterRows i)
  let afterLoad : Tid blocks n → PUnit → Thread (Tid blocks n) TiledCell (Flt 𝕜) := fun i _ =>
    (scoreTile (cta b) i (j0 * (cta b).tile.blockN)).bind fun _ => Prog.barrier.bind (afterScore i)
  have hprog : ∀ i : Tid blocks n, i.block = b → f i =
      (loadTile num (cta b) i (j0 * (cta b).tile.blockN)).bind fun _ => Prog.barrier.bind (afterLoad i) := by
    intro i hi
    rw [hf i hi, tileThread]
    simp only [Prog.bind_eq, Prog.bind_assoc, Prog.pure_eq, Prog.ret_bind, afterLoad, afterScore, afterRows]
  obtain ⟨V₁, hload, hk, hv, hother₁⟩ := stage_tile (V := V) h hpos hprog
  have hq₁ : QueryHeld num (cta b) V₁ := by
    rw [QueryHeld, hother₁ .q (by decide) (by decide)]
    exact hq
  obtain ⟨V₂, hscore, hs, hother₂⟩ := stage_score (k := afterScore) h hpos hq₁ hk fun _ _ => rfl
  let S : ℕ → ℕ → WithBot 𝕜 := fun row col =>
    (cta b).score num ((cta b).i0 + row) (j0 * (cta b).tile.blockN + col)
  let Ms : ℕ → WithBot 𝕜 := fun row => J.sup ((cta b).score num ((cta b).i0 + row))
  have hrows₂ : RowsHeld (cta b) S Ms (V .l) V₂ := by
    refine ⟨hs, fun row hrow => ?_, fun row _ => ?_⟩
    · rw [hother₂ .m (by decide), hother₁ .m (by decide) (by decide)]
      exact hst.m_eq row hrow
    · rw [hother₂ .l (by decide), hother₁ .l (by decide) (by decide)]
  have hrows := stage_rows num (k := afterRows) h hpos hrows₂ fun _ _ => rfl
  set V₃ := smemOf (Scatter.apply (memoryOf V₂) (blockRowWrites num (cta b) b S Ms (V .l))) b with hV₃
  have hacc : Stage b (fun i => afterRows i ⟨⟩) V₃
      (fun i => k i (accAfter (cta b) V₃ (acc i.tid) i.tid)) V₃ := stage_acc h hpos fun _ _ => rfl
  -- the arrays at the end
  have hnew : ∀ row, newMax (cta b) (S row) (Ms row) =
      J.sup ((cta b).score num ((cta b).i0 + row)) ⊔ T.sup ((cta b).score num ((cta b).i0 + row)) :=
    fun row => congrArg (_ ⊔ ·) (Strided.sup_window _ _ _)
  have hsum : ∀ row (w : ℕ → 𝕜) m, ∑ col ∈ Finset.range (cta b).tile.blockN,
      weight num.E (S row col) m * w (j0 * (cta b).tile.blockN + col) =
        mass num.E ((cta b).score num ((cta b).i0 + row)) w T m :=
    fun row w m => Strided.sum_window
      (fun j => weight num.E ((cta b).score num ((cta b).i0 + row) j) m * w j) _ _
  have hm₃ : ∀ row < (cta b).tile.blockM, V₃ .m row = ofBot (newMax (cta b) (S row) (Ms row)) :=
    fun row hrow => (apply_blockRowWrites hwarps hrow (.inr ⟨.m, .inl rfl, rfl⟩)).trans apply_rowWrites_m
  have hl₃ : ∀ row < (cta b).tile.blockM, V₃ .l row =
      fin (weight num.E (Ms row) (newMax (cta b) (S row) (Ms row))) * V .l row +
        fin (∑ col ∈ Finset.range (cta b).tile.blockN,
          weight num.E (S row col) (newMax (cta b) (S row) (Ms row))) :=
    fun row hrow =>
      (apply_blockRowWrites hwarps hrow (.inr ⟨.l, .inr (.inl rfl), rfl⟩)).trans apply_rowWrites_l
  have halpha₃ : ∀ row < (cta b).tile.blockM, V₃ .alpha row =
      fin (weight num.E (Ms row) (newMax (cta b) (S row) (Ms row))) :=
    fun row hrow =>
      (apply_blockRowWrites hwarps hrow (.inr ⟨.alpha, .inr (.inr rfl), rfl⟩)).trans apply_rowWrites_alpha
  have hs₃ : ∀ row < (cta b).tile.blockM, ∀ col < (cta b).tile.blockN,
      V₃ .s (row * (cta b).sRowStride + col) =
        fin (weight num.E (S row col) (newMax (cta b) (S row) (Ms row))) :=
    fun row hrow col hcol =>
      (apply_blockRowWrites hwarps hrow (.inl ⟨col, hcol, rfl⟩)).trans (apply_rowWrites_s hcol)
  have hother₃ : ∀ x idx, x ≠ .s ∧ x ≠ .m ∧ x ≠ .l ∧ x ≠ .alpha →
    V₃ x idx = V₂ x idx :=
    fun x idx hx => apply_blockRowWrites_of_ne hx idx
  refine ⟨V₃, fun tid => accAfter (cta b) V₃ (acc tid) tid,
    hload.trans (hscore.trans (hrows.trans hacc)), fun row hrow d hd => ?_, fun row hrow => ?_,
    fun row hrow => ?_, fun slot hslot c hc => ?_⟩
  · rw [hother₃ .q _ (by decide), hother₂ .q (by decide)]
    exact hq₁ row hrow d hd
  · rw [Finset.sup_union, ← hnew row]
    exact hm₃ row hrow
  · refine (hl₃ row hrow).trans ?_
    have hmass := hsum row 1 (newMax (cta b) (S row) (Ms row))
    simp only [Pi.one_apply, mul_one] at hmass
    have hold : V .l row = _ := hst.l_eq row hrow
    rw [hold, hmass, hnew, fin_mul_fin, fin_add_fin, rescale_add_tile num.E _ _ hJ]
  · have hrow := TiledCta.slotRow_lt hslot
    refine (accAfter_apply hthreads V₃ (acc (slot % (cta b).threads)) hslot hc).trans ?_
    have hold : acc (slot % (cta b).threads) (slot / (cta b).threads) c = _ := hst.acc_eq slot hslot c hc
    rw [halpha₃ _ hrow, hold,
      TiledCta.partialDot_eq (fun col hcol => hs₃ _ hrow col hcol) (fun col hcol => ?_),
      hsum _ fun j => (cta b).vAt num j (slot % (cta b).slotsPerRow * 4 + c), hnew, fin_mul_fin, fin_add_fin,
      rescale_add_tile num.E _ _ hJ]
    rw [hother₃ .v _ (by decide), hother₂ .v (by decide)]
    exact hv col hcol _ (TiledCta.slotCol_lt hslot hc)

/-- The tile loop, from tile `j` on. -/
theorem stage_tiles (h : TiledGrid cta blocks n) (hwarps : 0 < (cta b).tile.warps) {len j : ℕ}
    (hq : QueryHeld num (cta b) V) {acc : ℕ → ℕ → ℕ → Flt 𝕜}
    (hst : TiledCta.TiledHolds num (cta b) (Finset.range (j * (cta b).tile.blockN)) ⟨V .m, V .l, acc⟩)
    {k : Tid blocks n → (ℕ → ℕ → Flt 𝕜) → Thread (Tid blocks n) TiledCell (Flt 𝕜)}
    (hf : ∀ i : Tid blocks n, i.block = b →
      f i = ((List.range' j len).foldlM (tileThread num (cta b) i) (acc i.tid)).bind (k i)) :
    ∃ V' acc', Stage b f V (fun i => k i (acc' i.tid)) V' ∧
      TiledCta.TiledHolds num (cta b)
      (Finset.range ((j + len) * (cta b).tile.blockN)) ⟨V' .m, V' .l, acc'⟩ := by
  induction len generalizing j V acc f with
  | zero => exact ⟨V, acc, .refl hf, hst⟩
  | succ len ih =>
    have hfirst : ∀ i : Tid blocks n, i.block = b → f i =
        (tileThread num (cta b) i (acc i.tid) j).bind fun acc =>
          ((List.range' (j + 1) len).foldlM (tileThread num (cta b) i) acc).bind (k i) := by
      intro i hi
      rw [hf i hi, List.range'_succ, List.foldlM_cons, Prog.bind_eq, Prog.bind_assoc]
    obtain ⟨V₁, acc₁, hstage, hq₁, hst₁⟩ :=
      stage_tileThread h hwarps (Strided.disjoint_window _ _) hq hst hfirst
    rw [Strided.range_union_window] at hst₁
    obtain ⟨V₂, acc₂, hrest, hst₂⟩ := ih hq₁ hst₁ fun _ _ => rfl
    refine ⟨V₂, acc₂, hstage.trans hrest, ?_⟩
    rwa [Nat.add_right_comm, Nat.add_assoc] at hst₂

end Tiles

/-! ## The whole block -/

section Block

variable {cta : ℕ → TiledCta 𝕜} {blocks n : ℕ} {num : Numerics 𝕜}

/-- The output stores of a thread, and the log-sum-exps it stores. -/
def epilogueWrites (num : Numerics 𝕜) (a : TiledCta 𝕜) (st : TiledState 𝕜) (tid : ℕ) :
    List (TiledCell × Flt 𝕜) :=
  ((a.outStores st tid).map fun w => (.out w.1, w.2)) ++
    if a.p.returnLse ∧ a.p.lse.isSome then
      (Strided.loop tid a.threads a.tile.blockM).flatMap fun row =>
        if a.i0 + row ≥ a.p.seqQ then []
        else
          [(.lse ((a.batch * a.p.numHeads + a.head) * a.p.seqQ + (a.i0 + row)),
            if gtZero (st.l row) then st.m row + logf num.log (st.l row) else negInf)]
    else []

/-- What a block stores at its end. -/
def blockWrites (num : Numerics 𝕜) (a : TiledCta 𝕜) : List (TiledCell × Flt 𝕜) :=
  (List.range a.threads).flatMap (epilogueWrites num a (a.finalState num))

/-- The shared cells. -/
def sharedCells (b : ℕ) : Set TiledCell := {c | ∃ x idx, c = .smem b x idx}

theorem tiledEpilogue_local {a : TiledCta 𝕜} {i : Tid blocks n} {mem : TiledCell → Flt 𝕜}
    {V : TileArray → ℕ → Flt 𝕜} (hmem : smemOf mem i.block = V)
    {acc : ℕ → ℕ → ℕ → Flt 𝕜} :
    Local (tiledEpilogue num a i (acc i.tid)) mem (epilogueWrites num a ⟨V .m, V .l, acc⟩ i.tid)
      ⟨⟩ := by
  subst hmem
  have hslots : Local (forM (Strided.loop i.tid a.threads a.totalSlots) (storeSlot a i (acc i.tid))) mem
      ((a.outStores ⟨smemOf mem i.block .m, smemOf mem i.block .l, acc⟩ i.tid).map fun w =>
        (.out w.1, w.2))
      ⟨⟩ := by
    rw [TiledCta.outStores, List.map_flatMap]
    refine .forM_writes (s := fun _ => sharedCells i.block) (fun slot _ mem' hmem' => ?_)
      (List.pairwise_of_forall fun _ _ w hw => ?_)
    · unfold storeSlot
      dsimp only
      by_cases hrow : a.i0 + slot / a.slotsPerRow ≥ a.p.seqQ
      · rw [if_pos hrow, if_pos hrow]
        exact .ret
      · have hl := hmem' _ ⟨.l, slot / a.slotsPerRow, rfl⟩
        have hrowSum : smemOf mem i.block .l (slot / a.slotsPerRow) =
            mem' (.smem i.block .l (slot / a.slotsPerRow)) := hl.symm
        rw [if_neg hrow, if_neg hrow, List.map_map]
        simp only [hrowSum]
        exact .read_bind (.get _) (.forM_apart (s := ∅) (fun _ => Set.notMem_empty _) fun _ _ _ _ =>
          .put _ _)
    · rintro ⟨x, idx, heq⟩
      obtain ⟨v, -, rfl⟩ := List.mem_map.mp hw
      cases heq
  refine .bind hslots (.when (.forM_writes (s := fun _ => sharedCells i.block) (fun row _ mem' hmem' => ?_)
    (List.pairwise_of_forall fun _ _ w hw => ?_)))
  · unfold storeLse
    by_cases hrow : a.i0 + row ≥ a.p.seqQ
    · rw [if_pos hrow, if_pos hrow]
      exact .ret
    · rw [if_neg hrow, if_neg hrow]
      have hout :
        ∀ x idx, Scatter.apply mem ((a.outStores ⟨smemOf mem i.block .m, smemOf mem i.block .l, acc⟩
          i.tid).map fun w => (.out w.1, w.2)) (.smem i.block x idx) = mem (.smem i.block x idx) := by
        refine fun x idx => Scatter.apply_of_forall_ne fun w hw heq => ?_
        obtain ⟨v, -, rfl⟩ := List.mem_map.mp hw
        cases heq
      have hm : smemOf mem i.block .m row = mem' (.smem i.block .m row) :=
        ((hmem' _ ⟨.m, row, rfl⟩).trans (hout .m row)).symm
      have hl : smemOf mem i.block .l row = mem' (.smem i.block .l row) :=
        ((hmem' _ ⟨.l, row, rfl⟩).trans (hout .l row)).symm
      simp only [hm, hl]
      exact .read_bind (.get _) (.read_bind (.get _) (.put _ _))
  · rintro ⟨x, idx, heq⟩
    rename_i row _
    by_cases hrow : a.i0 + row ≥ a.p.seqQ
    · rw [if_pos hrow] at hw
      exact List.not_mem_nil hw
    · rw [if_neg hrow] at hw
      rw [List.mem_singleton.mp hw] at heq
      cases heq

/-- What the kernel stores depends on the rows and slots of the block only. -/
theorem epilogueWrites_congr {a : TiledCta 𝕜} {J : Finset ℕ} {st st' : TiledState 𝕜}
    (hst : TiledCta.TiledHolds num a J st) (hst' : TiledCta.TiledHolds num a J st') {tid : ℕ}
    (htid : tid < a.threads) :
    epilogueWrites num a st tid = epilogueWrites num a st' tid := by
  have hl : ∀ row < a.tile.blockM, st.l row = st'.l row := fun row hrow =>
    (hst.l_eq row hrow).trans (hst'.l_eq row hrow).symm
  have hm : ∀ row < a.tile.blockM, st.m row = st'.m row := fun row hrow =>
    (hst.m_eq row hrow).trans (hst'.m_eq row hrow).symm
  have hout : a.outStores st tid = a.outStores st' tid := by
    refine Strided.flatMap_congr fun slot hslot => ?_
    obtain ⟨hlt, hmod⟩ := (Strided.mem_loop_of_lt htid).mp hslot
    have hacc : ∀ c < 4, st.acc tid (slot / a.threads) c = st'.acc tid (slot / a.threads) c :=
      fun c hc => by
      rw [← hmod, hst.acc_eq slot hlt c hc, hst'.acc_eq slot hlt c hc]
    dsimp only
    rw [hl _ (TiledCta.slotRow_lt hlt)]
    split_ifs
    · rfl
    · exact List.map_congr_left fun c hc => by rw [hacc c (List.mem_range.mp hc)]
    · exact List.map_congr_left fun c hc => by rw [hacc c (List.mem_range.mp hc)]
  rw [epilogueWrites, epilogueWrites, hout]
  refine congrArg _ (if_congr Iff.rfl (Strided.flatMap_congr fun row hrow => ?_) rfl)
  have hlt := ((Strided.mem_loop_of_lt htid).mp hrow).1
  rw [hl row hlt, hm row hlt]

variable (num) in
/-- A block runs to its end: it writes shared memory, and then what the model of the kernel stores. -/
theorem block_run (h : TiledGrid cta blocks n) {b : Fin blocks} (hwarps : 0 < (cta b).tile.warps)
    (hblockN : 0 < (cta b).tile.blockN) (V : TileArray → ℕ → Flt 𝕜)
    {f : Tid blocks n → Thread (Tid blocks n) TiledCell (Flt 𝕜)}
    (hf : ∀ i : Tid blocks n, i.block = b → f i = tiledThread num (cta b) i) :
    ∃ ws, SmemOnly b ws ∧ ∀ mem, smemOf mem b = V → Goes Tid.block Tid.warp {i | i.block = b} mem f
      (Scatter.apply mem (ws ++ blockWrites num (cta b))) fun _ => .ret ⟨⟩ := by
  have hthreads : 0 < (cta b).threads := Nat.mul_pos hwarps (by decide)
  have hn : (cta b).threads = n := h.threads_eq b b.isLt
  have hpos : 0 < n := hn ▸ hthreads
  obtain ⟨len, hrange, -⟩ := TiledCta.tilesVisited_eq (a := cta b) hblockN
  let afterTiles : Tid blocks n → (ℕ → ℕ → Flt 𝕜) →
    Thread (Tid blocks n) TiledCell (Flt 𝕜) := fun i acc =>
    tiledEpilogue num (cta b) i acc
  let afterLoad : Tid blocks n → PUnit → Thread (Tid blocks n) TiledCell (Flt 𝕜) := fun i _ =>
    ((List.range' 0 len).foldlM (tileThread num (cta b) i) fun _ _ => 0).bind (afterTiles i)
  have hprog : ∀ i : Tid blocks n, i.block = b →
      f i = (loadQuery num (cta b) i).bind fun _ => Prog.barrier.bind (afterLoad i) := by
    intro i hi
    rw [hf i hi, tiledThread, hrange, List.range_eq_range']
    rfl
  obtain ⟨V₁, hload, hq, hst⟩ := stage_query (V := V) h hpos hprog
  have hst₀ : TiledCta.TiledHolds num (cta b) (Finset.range (0 * (cta b).tile.blockN))
      ⟨V₁ .m, V₁ .l, fun _ _ _ => 0⟩ := by
    rwa [Nat.zero_mul, Finset.range_zero]
  obtain ⟨V₂, acc, htiles, hst₂⟩ := stage_tiles (k := afterTiles) h hwarps hq hst₀ fun _ _ => rfl
  have hfinal : TiledCta.TiledHolds num (cta b) (Finset.range ((0 + len) * (cta b).tile.blockN))
      ((cta b).finalState num) := by
    rw [TiledCta.finalState, hrange, Nat.zero_add]
    exact TiledCta.run_holds hwarps len
  obtain ⟨ws, hws, hgo⟩ := hload.trans htiles
  refine ⟨ws, hws, fun mem hmem => ?_⟩
  rw [Scatter.apply_append]
  refine (hgo mem hmem).1.trans ?_
  have hwrites : blockWrites num (cta b) =
      (Tid.ofBlock b : List (Tid blocks n)).flatMap fun i =>
        epilogueWrites num (cta b) ⟨V₂ .m, V₂ .l, acc⟩ i.tid := by
    rw [blockWrites, hn, Tid.flatMap_ofBlock]
    exact Strided.flatMap_congr fun tid htid =>
      epilogueWrites_congr hfinal hst₂ (hn.symm ▸ List.mem_range.mp htid)
  rw [hwrites]
  refine Goes.threads (R := tiledRights h) (t := ⟨1, 0⟩) (p := fun i => afterTiles i (acc i.tid))
    (k := fun _ r => .ret r) (Q := fun _ _ _ => True) (fun _ => Tid.mem_ofBlock) (Tid.nodup_ofBlock b)
    (fun i _ => (Prog.bind_ret _).symm) (fun i hi => ?_) fun i hi => ?_
  · obtain rfl := hi
    exact tiledEpilogue_local (hgo mem hmem).2
  · obtain rfl := hi
    exact tiledEpilogue_keeps rfl

end Block

/-! ## The grid -/

section Launch

variable (num : Numerics 𝕜) (p : TiledFwdParams 𝕜) (buf : TiledBuffers 𝕜) (elem : DType)
    (headDim : ℕ)
  (tile : TileCandidate)

/-- Block `b` of a launch, counted along `x` first. -/
def TiledFwdParams.launchCta (b : ℕ) : TiledCta 𝕜 :=
  p.cta buf elem headDim tile (b % tiledGridX p tile) (b / tiledGridX p tile % p.numHeads)
    (b / tiledGridX p tile / p.numHeads)

/-- The blocks of a launch. -/
def TiledFwdParams.launchBlocks : ℕ := p.batch * p.numHeads * tiledGridX p tile

/-- The launch of `tiled_attn_kernel`. -/
def tiledLaunch (mem : TiledCell → Flt 𝕜) :
    Config (Tid (p.launchBlocks tile) (tile.warps * 32)) TiledCell (Flt 𝕜) :=
  ⟨mem, fun i => tiledThread num (p.launchCta buf elem headDim tile i.block) i⟩

variable {num p buf elem headDim tile}

omit [Field 𝕜] [LinearOrder 𝕜] in
/-- The stores of a launch do not meet: the output is laid out as `[B, H_q, S_q, D]`. -/
theorem tiledGrid_launch (ho : p.oStride = stridesFor .bhsd p.seqQ p.numHeads headDim) :
    TiledGrid (p.launchCta buf elem headDim tile) (p.launchBlocks tile) (tile.warps * 32) := by
  set X := tiledGridX p tile with hX
  -- a block is known by its coordinates
  have hblock : ∀ {b b' : ℕ}, b / X / p.numHeads = b' / X / p.numHeads →
    b / X % p.numHeads = b' / X % p.numHeads →
      b % X = b' % X → b = b' := by
    intro b b' hz hy hx
    have hrow : b / X = b' / X := by
      rw [← Nat.div_add_mod (b / X) p.numHeads, ← Nat.div_add_mod (b' / X) p.numHeads, hz, hy]
    rw [← Nat.div_add_mod b X, ← Nat.div_add_mod b' X, hrow, hx]
  have hheads : ∀ {b : ℕ}, b < p.launchBlocks tile → b / X % p.numHeads < p.numHeads := by
    intro b hb
    refine Nat.mod_lt _ (Nat.pos_of_ne_zero fun hzero => ?_)
    rw [TiledFwdParams.launchBlocks, hzero, Nat.mul_zero, Nat.zero_mul] at hb
    exact Nat.not_lt_zero _ hb
  have hrows : ∀ {x x' r r' : ℕ}, r < tile.blockM → r' < tile.blockM →
      x * tile.blockM + r = x' * tile.blockM + r' → x = x' ∧ r = r' :=
    fun hr hr' heq => Strided.mul_add_inj hr hr' heq
  refine ⟨fun _ _ => rfl, ?_, ?_⟩
  · intro b b' tid tid' idx hb hb' htid htid' hown hown'
    obtain ⟨slot, hslot, c, hc, hrow, hidx⟩ := hown
    obtain ⟨slot', hslot', c', hc', hrow', hidx'⟩ := hown'
    obtain ⟨hlt, hmod⟩ := (Strided.mem_loop_of_lt htid).mp hslot
    obtain ⟨hlt', hmod'⟩ := (Strided.mem_loop_of_lt htid').mp hslot'
    set a := p.launchCta buf elem headDim tile b with ha
    set a' := p.launchCta buf elem headDim tile b' with ha'
    have haddr : p.outOffset (b / X / p.numHeads) (b / X % p.numHeads) (a.i0 + slot / a.slotsPerRow)
        (slot % a.slotsPerRow * 4 + c) = p.outOffset (b' / X / p.numHeads) (b' / X % p.numHeads)
          (a'.i0 + slot' / a'.slotsPerRow) (slot' % a'.slotsPerRow * 4 + c') := by
      have hoff : ∀ (a : TiledCta 𝕜) row d, a.outBase + (row * a.p.oStride.sS + d) =
          a.p.outOffset a.batch a.head (a.i0 + row) d := by
        intro a row d
        rw [TiledCta.outBase, TiledFwdParams.outOffset]
        ring
      exact (hoff a _ _).symm.trans ((hidx.symm.trans hidx').trans (hoff a' _ _))
    have hcoords := outOffset_injOn ho (hheads hb) (hheads hb') hrow hrow' (TiledCta.slotCol_lt hlt hc)
      (TiledCta.slotCol_lt hlt' hc') haddr
    simp only [Prod.mk.injEq] at hcoords
    obtain ⟨hz, hy, hi, hd⟩ := hcoords
    obtain ⟨hx, hr⟩ := hrows (TiledCta.slotRow_lt hlt) (TiledCta.slotRow_lt hlt') hi
    have hcol : slot % a.slotsPerRow = slot' % a'.slotsPerRow := by omega
    have hslots : slot = slot' := by
      rw [← Nat.div_add_mod slot a.slotsPerRow, ← Nat.div_add_mod slot' a'.slotsPerRow, hr, hcol]
      rfl
    refine ⟨hblock hz hy hx, ?_⟩
    rw [← hmod, ← hmod', hslots]
  · intro b b' tid tid' idx hb hb' htid htid' hown hown'
    obtain ⟨row, hrow, hlt, hidx⟩ := hown
    obtain ⟨row', hrow', hlt', hidx'⟩ := hown'
    obtain ⟨hM, hmod⟩ := (Strided.mem_loop_of_lt htid).mp hrow
    obtain ⟨hM', hmod'⟩ := (Strided.mem_loop_of_lt htid').mp hrow'
    obtain ⟨hhead, hi⟩ := Strided.mul_add_inj hlt hlt' (hidx.symm.trans hidx')
    obtain ⟨hz, hy⟩ := Strided.mul_add_inj (hheads hb) (hheads hb') hhead
    obtain ⟨hx, hr⟩ := hrows hM hM' hi
    refine ⟨hblock hz hy hx, ?_⟩
    rw [← hmod, ← hmod', hr]

omit [Field 𝕜] [LinearOrder 𝕜] in
/-- Blocks along `x`, heads and batch, counted through. -/
theorem flatMap_launch {γ : Type*} (g : TiledCta 𝕜 → List γ) :
    ((List.range (p.launchBlocks tile)).flatMap fun b => g (p.launchCta buf elem headDim tile b)) =
      (List.range p.batch).flatMap fun z => (List.range p.numHeads).flatMap fun y =>
        (List.range (tiledGridX p tile)).flatMap fun x => g (p.cta buf elem headDim tile x y z) := by
  rw [TiledFwdParams.launchBlocks, ← Strided.range_mul_flatMap, ← Strided.range_mul_flatMap]
  refine Strided.flatMap_congr fun z _ => Strided.flatMap_congr fun y hy => Strided.flatMap_congr
    fun x hx => ?_
  have hx := List.mem_range.mp hx
  have hy := List.mem_range.mp hy
  rw [TiledFwdParams.launchCta, Strided.flat_mod _ hx, Strided.flat_div _ hx, Strided.flat_mod _ hy,
    Strided.flat_div _ hy]

/-- The cells of a block. -/
def tiledBlockCells (cta : ℕ → TiledCta 𝕜) (n b : ℕ) : Set TiledCell :=
  {c | match c with
    | .smem b' _ _ => b' = b
    | .out idx => ∃ tid < n, OwnOutElem (cta b) tid idx
    | .lse idx => ∃ tid < n, OwnLse (cta b) tid idx}

theorem epilogueWrites_mem {cta : ℕ → TiledCta 𝕜} {st : TiledState 𝕜} {n b tid : ℕ}
    (htid : tid < n)
    {w : TiledCell × Flt 𝕜} (hw : w ∈ epilogueWrites num (cta b) st tid) :
    w.1 ∈ tiledBlockCells cta n b := by
  rcases List.mem_append.mp hw with hw | hw
  · obtain ⟨v, hv, rfl⟩ := List.mem_map.mp hw
    obtain ⟨slot, hslot, hv⟩ := List.mem_flatMap.mp hv
    by_cases hrow : (cta b).i0 + slot / (cta b).slotsPerRow ≥ (cta b).p.seqQ
    · dsimp only at hv
      rw [if_pos hrow] at hv
      exact absurd hv List.not_mem_nil
    · dsimp only at hv
      rw [if_neg hrow] at hv
      obtain ⟨c, hc, rfl⟩ := List.mem_map.mp hv
      exact ⟨tid, htid, slot, hslot, c, List.mem_range.mp hc, not_le.mp hrow, rfl⟩
  · split_ifs at hw with hlse
    · obtain ⟨row, hrow, hw⟩ := List.mem_flatMap.mp hw
      by_cases hlt : (cta b).i0 + row ≥ (cta b).p.seqQ
      · rw [if_pos hlt] at hw
        exact absurd hw List.not_mem_nil
      · rw [if_neg hlt] at hw
        rw [List.mem_singleton.mp hw]
        exact ⟨tid, htid, row, hrow, not_le.mp hlt, rfl⟩
    · exact absurd hw List.not_mem_nil

/-- Where a cell lies in the output. -/
def outIdx : TiledCell → Option ℕ
  | .out idx => some idx
  | _ => none

theorem outIdx_eq_some (c : TiledCell) (idx : ℕ) : outIdx c = some idx ↔ c = .out idx := by
  cases c <;> simp [outIdx]

/-- Where a cell lies in the log-sum-exps. -/
def lseIdx : TiledCell → Option ℕ
  | .lse idx => some idx
  | _ => none

theorem lseIdx_eq_some (c : TiledCell) (idx : ℕ) : lseIdx c = some idx ↔ c = .lse idx := by
  cases c <;> simp [lseIdx]

/-- The writes to the array that `pre` sees. -/
def seen (pre : TiledCell → Option ℕ) (w : TiledCell × Flt 𝕜) : Option (ℕ × Flt 𝕜) :=
  (pre w.1).map fun idx => (idx, w.2)

omit [Field 𝕜] [LinearOrder 𝕜] in
theorem filterMap_seen_smemOnly {pre : TiledCell → Option ℕ}
    (hpre : ∀ b x idx, pre (.smem b x idx) = none) {b : ℕ}
    {ws : List (TiledCell × Flt 𝕜)} (hws : SmemOnly b ws) : ws.filterMap (seen pre) = [] := by
  refine List.filterMap_eq_nil_iff.mpr fun w hw => ?_
  obtain ⟨x, idx, hcell⟩ := hws w hw
  rw [seen, hcell, hpre]
  rfl

/-- The output stores of a block. -/
theorem filterMap_blockWrites_out (a : TiledCta 𝕜) :
    (blockWrites num a).filterMap (seen outIdx) = (a.stores num).1 := by
  have hout : (seen outIdx ∘ fun w : ℕ × Flt 𝕜 => (TiledCell.out w.1, w.2)) = some := rfl
  rw [blockWrites, List.filterMap_flatMap]
  refine Strided.flatMap_congr fun tid _ => ?_
  rw [epilogueWrites, List.filterMap_append, List.filterMap_map, hout, List.filterMap_some]
  split_ifs
  · rw [List.filterMap_flatMap, List.flatMap_eq_nil_iff.mpr fun row _ => ?_, List.append_nil]
    split_ifs <;> rfl
  · rw [List.filterMap_nil, List.append_nil]

/-- The log-sum-exps of a block. -/
theorem filterMap_blockWrites_lse (a : TiledCta 𝕜) :
    (blockWrites num a).filterMap (seen lseIdx) = (a.stores num).2 := by
  have hout : ∀ tid, ((a.outStores (a.finalState num) tid).map fun w => (TiledCell.out w.1, w.2)).filterMap
      (seen lseIdx) = [] := by
    intro tid
    rw [List.filterMap_map]
    exact List.filterMap_eq_nil_iff.mpr fun _ _ => rfl
  rw [blockWrites, List.filterMap_flatMap]
  simp only [epilogueWrites, List.filterMap_append, hout, List.nil_append, TiledCta.stores,
    TiledCta.lseStores]
  split_ifs
  · rw [Strided.threads, List.flatMap_assoc]
    refine Strided.flatMap_congr fun tid _ => ?_
    rw [List.filterMap_flatMap]
    refine Strided.flatMap_congr fun row _ => ?_
    split_ifs <;> rfl
  · exact List.flatMap_eq_nil_iff.mpr fun _ _ => rfl

/-- What a launch leaves in the array that `pre` sees, from what its blocks store there. -/
theorem apply_launch {cell : ℕ → TiledCell} {pre : TiledCell → Option ℕ}
    (hpre : ∀ c idx, pre c = some idx ↔ c = cell idx) (hsmem : ∀ b x idx, pre (.smem b x idx) = none)
    {stores : TiledCta 𝕜 → List (ℕ × Flt 𝕜)}
    (hstores : ∀ a : TiledCta 𝕜, (blockWrites num a).filterMap (seen pre) = stores a)
    {ws : Fin (p.launchBlocks tile) → List (TiledCell × Flt 𝕜)}
    (hws : ∀ b : Fin (p.launchBlocks tile), SmemOnly b (ws b)) (mem : TiledCell → Flt 𝕜) (idx : ℕ) :
    Scatter.apply mem ((List.finRange _).flatMap fun b =>
        ws b ++ blockWrites num (p.launchCta buf elem headDim tile b)) (cell idx) =
      Scatter.apply (fun idx => mem (cell idx)) ((List.range p.batch).flatMap fun z =>
        (List.range p.numHeads).flatMap fun y => (List.range (tiledGridX p tile)).flatMap fun x =>
          stores (p.cta buf elem headDim tile x y z)) idx := by
  have hwrites : ((List.finRange _).flatMap fun b =>
      ws b ++ blockWrites num (p.launchCta buf elem headDim tile b)).filterMap (seen pre) =
        (List.range (p.launchBlocks tile)).flatMap fun b => stores (p.launchCta buf elem headDim tile b) := by
    rw [List.filterMap_flatMap, ← List.map_coe_finRange_eq_range, List.flatMap_map]
    refine Strided.flatMap_congr fun b _ => ?_
    rw [List.filterMap_append, filterMap_seen_smemOnly hsmem (hws b), List.nil_append, hstores]
  rw [← flatMap_launch stores, ← hwrites]
  exact Scatter.apply_view hpre mem _ idx

omit [Field 𝕜] [LinearOrder 𝕜] in
/-- Blocks share no cell. -/
theorem TiledGrid.blockCells_disjoint {cta : ℕ → TiledCta 𝕜} {blocks n : ℕ}
    (h : TiledGrid cta blocks n)
    {b b' : ℕ} (hb : b < blocks) (hb' : b' < blocks) (hne : b ≠ b') {c : TiledCell}
    (hc : c ∈ tiledBlockCells cta n b) : c ∉ tiledBlockCells cta n b' := by
  intro hc'
  cases c with
  | smem b₀ x idx => exact hne (hc.symm.trans hc')
  | out idx =>
    obtain ⟨tid, htid, hown⟩ := hc
    obtain ⟨tid', htid', hown'⟩ := hc'
    exact hne (h.out_inj hb hb' htid htid' hown hown').1
  | lse idx =>
    obtain ⟨tid, htid, hown⟩ := hc
    obtain ⟨tid', htid', hown'⟩ := hc'
    exact hne (h.lse_inj hb hb' htid htid' hown hown').1

end Launch

end SciAttention

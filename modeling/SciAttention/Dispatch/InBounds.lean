import SciAttention.Attention.Reads
import SciAttention.Dispatch.Agreement
import SciAttention.Dispatch.Success

/-!
# Dense requests read inside their tensors, or do not

The kernels are given strides of one inferred shape for three tensors. `InferShape` compares every dimension
of the values with that shape and every dimension of the keys but the last, so exactly the requests whose
keys have another head dimension are read wrongly: at another element, or behind the end. A single key row
that is long enough is the one exception.
-/

namespace SciAttention

/-! ## Reads of a tensor -/

/-- A read is that of the element it means, inside the tensor. -/
structure Read.Inside (r : Read) (t : Tensor) (layout : AttnLayout) : Prop where
  b_lt : r.b < t.dim 0
  h_lt : r.h < t.heads layout
  t_lt : r.t < t.seq layout
  d_lt : r.d < t.dim 3
  index_eq : r.index =
    offset (stridesFor layout (t.seq layout) (t.heads layout) (t.dim 3)) r.b r.h r.t r.d
  index_lt : r.index < t.numElements

/-- The tensor of an operand. -/
def operandOf (q k v : Tensor) : Operand → Tensor
  | .q => q
  | .k => k
  | .v => v

/-- The strides that the dense backends hand to their kernels. -/
def operandStrides (layout : AttnLayout) (shape : AttentionShape) (x : Operand) : Strides :=
  stridesFor layout (shape.seqOf x) (shape.headsOf x) shape.headDim

theorem readAt_index (layout : AttnLayout) (shape : AttentionShape) (x : Operand) (b h t d : ℕ) :
    (readAt (operandStrides layout shape) x b h t d).index =
      offset (operandStrides layout shape x) b h t d := by
  cases layout <;> simp only [readAt, offset, operandStrides, stridesFor, Nat.mul_one]

/-- The element of its coordinates is inside a tensor. -/
theorem Read.inside_of_index {r : Read} {t : Tensor} {layout : AttnLayout} (hndims : t.ndims = 4)
    (hb : r.b < t.dim 0) (hh : r.h < t.heads layout) (ht : r.t < t.seq layout) (hd : r.d < t.dim 3)
    (hindex : r.index =
      offset (stridesFor layout (t.seq layout) (t.heads layout) (t.dim 3)) r.b r.h r.t r.d) :
    r.Inside t layout := by
  refine ⟨hb, hh, ht, hd, hindex, ?_⟩
  have hcoords : (r.b, r.h, r.t, r.d) ∈ coords (t.dim 0) (t.heads layout) (t.seq layout) (t.dim 3) :=
    ⟨hb, hh, ht, hd⟩
  have hlt := (offsetBijective_stridesFor layout (t.dim 0) (t.heads layout) (t.seq layout)
    (t.dim 3)).mapsTo hcoords
  rw [Tensor.numElements_eq hndims layout, hindex]
  exact hlt

/-- The keys have the head dimension of the queries, or they are one row that is at least as long. -/
def KeysFit (q k : Tensor) (shape : AttentionShape) : Prop :=
  k.dim 3 = q.dim 3 ∨
    (shape.batch = 1 ∧ shape.numKvHeads = 1 ∧ shape.seqKv = 1) ∧ q.dim 3 ≤ k.dim 3

section Fit

variable {q k v : Tensor} {layout : AttnLayout} {shape : AttentionShape}

/-- Reads of the inferred shape are inside the tensors where the keys fit. -/
theorem Inferred.inside (h : Inferred q k v layout shape) (hfit : KeysFit q k shape) {x : Operand}
    {b hd t d : ℕ} (hb : b < shape.batch) (hh : hd < shape.headsOf x) (ht : t < shape.seqOf x)
    (hdim : d < shape.headDim) :
    (readAt (operandStrides layout shape) x b hd t d).Inside (operandOf q k v x) layout := by
  have hindex := readAt_index layout shape x b hd t d
  have hshape := h.shape_eq
  subst hshape
  cases x with
  | q => exact Read.inside_of_index h.q_accepted.ndims_eq hb hh ht hdim hindex
  | v =>
    rw [operandStrides] at hindex
    have hstrides : stridesFor layout ((shapeOf q k layout).seqOf .v) ((shapeOf q k layout).headsOf .v)
        (shapeOf q k layout).headDim = stridesFor layout (v.seq layout) (v.heads layout) (v.dim 3) := by
      rw [h.v_seq, h.v_heads, h.v_dim]
      rfl
    refine Read.inside_of_index h.v_accepted.ndims_eq ?_ ?_ ?_ ?_ (hindex.trans (by rw [hstrides]; rfl))
    · exact lt_of_lt_of_eq hb h.v_batch.symm
    · exact lt_of_lt_of_eq hh h.v_heads.symm
    · exact lt_of_lt_of_eq ht h.v_seq.symm
    · exact lt_of_lt_of_eq hdim h.v_dim.symm
  | k =>
    have hbatch : b < k.dim 0 := lt_of_lt_of_eq hb h.k_batch.symm
    rcases hfit with heq | ⟨⟨hone, hheads, hseq⟩, hle⟩
    · refine Read.inside_of_index h.k_accepted.ndims_eq hbatch hh ht (lt_of_lt_of_eq hdim heq.symm)
        (hindex.trans ?_)
      rw [operandStrides, ← show k.dim 3 = (shapeOf q k layout).headDim from heq]
      rfl
    · -- the one row starts at the first element under any strides
      obtain rfl : b = 0 := by omega
      obtain rfl : hd = 0 := Nat.lt_one_iff.mp (hheads ▸ hh)
      obtain rfl : t = 0 := Nat.lt_one_iff.mp (hseq ▸ ht)
      refine Read.inside_of_index h.k_accepted.ndims_eq hbatch hh ht (lt_of_lt_of_le hdim hle)
        (hindex.trans ?_)
      cases layout <;> simp only [readAt, offset, operandStrides, stridesFor, Nat.zero_mul]

/-- The row of a key in its layout. -/
def keyRow (layout : AttnLayout) (shape : AttentionShape) (b h t : ℕ) : ℕ :=
  match layout with
  | .bhsd => (b * shape.numKvHeads + h) * shape.seqKv + t
  | .bshd => (b * shape.seqKv + t) * shape.numKvHeads + h

theorem offset_keyRow (layout : AttnLayout) (shape : AttentionShape) (headDim b h t : ℕ) :
    offset (stridesFor layout shape.seqKv shape.numKvHeads headDim) b h t 0 =
      keyRow layout shape b h t * headDim := by
  cases layout <;> simp only [offset, stridesFor, keyRow] <;> ring

/-- The first two keys of every head are where they are meant to be only if the keys fit. -/
theorem keysFit_of_inside (h : Inferred q k v layout shape) (hvalid : ValidShape shape)
    (hkeys : ∀ b < shape.batch, ∀ hd < shape.numKvHeads, ∀ t < shape.seqKv, t < 2 →
      ∀ d < shape.headDim, (readAt (operandStrides layout shape) .k b hd t d).Inside k layout) :
    KeysFit q k shape := by
  have hhead : shape.headDim = q.dim 3 := by rw [h.shape_eq]; rfl
  have hdimPos : 0 < shape.headDim := hvalid.headDim_pos
  have hseq : k.seq layout = shape.seqKv := by rw [h.shape_eq]; rfl
  have hheads : k.heads layout = shape.numKvHeads := by rw [h.shape_eq]; rfl
  have hle : q.dim 3 ≤ k.dim 3 := by
    have hlast := (hkeys 0 hvalid.batch_pos 0 hvalid.numKvHeads_pos 0 hvalid.seqKv_pos (by decide)
      (shape.headDim - 1) (by omega)).d_lt
    simp only [readAt] at hlast
    omega
  -- a second batch, head or token starts at a multiple of the head dimension
  have hsame : ∀ b < shape.batch, ∀ hd < shape.numKvHeads, ∀ t < shape.seqKv, t < 2 →
      offset (stridesFor layout shape.seqKv shape.numKvHeads (q.dim 3)) b hd t 0 =
        offset (stridesFor layout shape.seqKv shape.numKvHeads (k.dim 3)) b hd t 0 := by
    intro b hb hd hh t ht htwo
    have hindex := (hkeys b hb hd hh t ht htwo 0 hdimPos).index_eq
    rw [readAt_index, hseq, hheads] at hindex
    rw [← hhead]
    exact hindex
  have heq : ∀ b < shape.batch, ∀ hd < shape.numKvHeads, ∀ t < shape.seqKv, t < 2 →
      0 < keyRow layout shape b hd t → k.dim 3 = q.dim 3 := by
    intro b hb hd hh t ht htwo hpos
    have hmul := hsame b hb hd hh t ht htwo
    rw [offset_keyRow, offset_keyRow] at hmul
    exact (Nat.eq_of_mul_eq_mul_left hpos hmul).symm
  have hheadsPos := hvalid.numKvHeads_pos
  have hseqPos := hvalid.seqKv_pos
  by_cases hbatch : shape.batch = 1
  · by_cases hone : shape.numKvHeads = 1
    · by_cases hseqOne : shape.seqKv = 1
      · exact .inr ⟨⟨hbatch, hone, hseqOne⟩, hle⟩
      · refine .inl (heq 0 (by omega) 0 hheadsPos 1 (by omega) (by decide) ?_)
        cases layout <;> simp [keyRow, hheadsPos]
    · refine .inl (heq 0 (by omega) 1 (by omega) 0 hseqPos (by decide) ?_)
      cases layout <;> simp [keyRow, hseqPos]
  · have hbatchPos := hvalid.batch_pos
    refine .inl (heq 1 (by omega) 0 hheadsPos 0 hseqPos (by decide) ?_)
    cases layout <;> simp [keyRow, hheadsPos, hseqPos]

end Fit

/-! ## Launches -/

section Launches

variable {𝕜 : Type} [Field 𝕜] [LinearOrder 𝕜] {dev : Device}

/-- The reads of the kernels that a backend launches for a request, with the parameters and the grid of the
launch. What the memory holds does not matter. -/
inductive LaunchReads (num : Numerics 𝕜) (dev : Device) (q k v : Tensor) (cfg : AttentionConfig 𝕜)
    (shape : AttentionShape) : BackendKind → List Read → Prop
  | naive (id : NaiveDtype) (hid : dtypeIdFor q.dtype = some id) (scores out : ℕ → Flt 𝕜)
      (lse : Option (ℕ → Flt 𝕜)) :
    LaunchReads num dev q k v cfg shape .naive
      (naiveReads (naiveParams num q k v cfg shape id scores out lse))
  | tiled (tile : TileCandidate) (htile : selectTile q.dtype shape.headDim dev.smemLimitPerBlock = .ok tile)
      (id : TiledDtype) (hid : dtypeIdFor q.dtype = some id) (buf : TiledBuffers 𝕜)
      (p : TiledFwdParams 𝕜) (out : ℕ → Flt 𝕜) (lse : Option (ℕ → Flt 𝕜))
        (hp : p = tiledParams num q k v cfg shape id out lse) :
    LaunchReads num dev q k v cfg shape .tiled
      (tiledReads p buf id.elem tile (int32Cast (tiledGridX p tile)).toNat (int32Cast p.numHeads).toNat
        (int32Cast p.batch).toNat)
  | flash (tile : FlashTile) (htile : findFlashTile shape.headDim = some tile) (buf : FlashBuffers 𝕜)
      (p : FlashFwdParams 𝕜) (out : ℕ → Flt 𝕜) (lse : Option (ℕ → Flt 𝕜))
      (hp : p = flashParams num q k v cfg shape out lse) :
    LaunchReads num dev q k v cfg shape .flash
      (flashReads p buf q.dtype tile (int32Cast (flashGridX p tile)).toNat (int32Cast p.numHeads).toNat
        (int32Cast p.batch).toNat)
  | decode (id : DecodeDtype) (hid : dtypeIdFor q.dtype = some id) (p : DecodeFwdParams 𝕜)
      (partials out : ℕ → Flt 𝕜)
      (hp : p = decodeParams num q k v cfg shape id (decodeSplits dev cfg shape) partials out) :
    LaunchReads num dev q k v cfg shape .decode (decodeReads p (int32Cast ((p.requests + 3) / 4 : ℕ)).toNat)

variable {num : Numerics 𝕜} {env : ForwardEnv 𝕜 dev} {q k v : Tensor} {cfg : AttentionConfig 𝕜}
  {shape : AttentionShape} {b : BackendKind}

omit [Field 𝕜] [LinearOrder 𝕜] in
/-- The grid of an output that can be allocated fits an `int`. -/
theorem OutFits.rows_lt (hvalid : ValidShape shape) (h : OutFits env cfg.returnLse shape) :
    shape.seqQ < 2 ^ 31 ∧ shape.numHeads < 2 ^ 31 ∧ shape.batch < 2 ^ 31 := by
  obtain ⟨⟨out, hout⟩, -⟩ := h.alloc "allocation of the attention output failed"
  have hrows := rows_lt_of_allocOut hvalid hout
  obtain ⟨hbatch, hheads, hseq⟩ := le_rows hvalid
  exact ⟨hseq.trans_lt hrows, hheads.trans_lt hrows, hbatch.trans_lt hrows⟩

/-- The kernels of the decode backend leave out the last stride, which is one. -/
theorem toDecode_stridesFor (layout : AttnLayout) (seq heads headDim : ℕ) :
    let s := (stridesFor layout seq heads headDim).toDecode
    ({ sB := s.sB, sH := s.sH, sS := s.sS } : Strides) = stridesFor layout seq heads headDim := by
  cases layout <;> rfl

/-- The launches of a valid request that starts read its shape through the strides of its layout. -/
theorem LaunchReads.readsShape (hreq : ValidRequest cfg shape) (hstarts : Starts env q k v cfg shape b)
    {l : List Read} (h : LaunchReads num dev q k v cfg shape b l) :
    ReadsShape l shape (operandStrides cfg.layout shape) := by
  have hvalid := hreq.validShape
  -- a causal request has at least as many keys as queries
  have hdiag : cfg.causal = true → 0 ≤ diagonalOf cfg shape := by
    intro hc
    have hle := hreq.causal_le hc
    rw [diagonalOf, if_pos hc]
    omega
  cases h with
  | naive id hid scores out lse =>
    have hreads := naiveReads_shape (naiveParams num q k v cfg shape id scores out lse) hvalid
    have hstrides : (naiveParams num q k v cfg shape id scores out lse).strides =
        operandStrides cfg.layout shape := by
      funext x
      cases x <;> rfl
    rwa [hstrides] at hreads
  | tiled tile htile id hid buf p out lse hp =>
    subst hp
    obtain ⟨hM, hN, hwarps⟩ := selectTile_pos htile
    obtain ⟨hseq, hheads, hbatch⟩ := hstarts.2.1.rows_lt hvalid
    have hgrid : tiledGridX (tiledParams num q k v cfg shape id out lse) tile < 2 ^ 31 :=
      (rowBlocks_le hM).trans_lt hseq
    have hreads := tiledReads_shape (tiledParams num q k v cfg shape id out lse) buf id.elem tile hvalid hM
      hN hwarps hdiag
    have hstrides : (tiledParams num q k v cfg shape id out lse).strides =
        operandStrides cfg.layout shape := by
      funext x
      cases x <;> rfl
    rw [int32Cast_toNat hgrid,
      int32Cast_toNat (show (tiledParams num q k v cfg shape id out lse).numHeads <
        2 ^ 31 from hheads),
      int32Cast_toNat (show (tiledParams num q k v cfg shape id out lse).batch <
        2 ^ 31 from hbatch), ← hstrides]
    exact hreads
  | flash tile htile buf p out lse hp =>
    subst hp
    have hsize : dtypeSize q.dtype = 2 := (flashDtype_cases hstarts.1.2.1).2
    obtain ⟨hc, -, hM, hdvd⟩ := flashTile_compiles hvalid htile hsize
    obtain ⟨hseq, hheads, hbatch⟩ := hstarts.2.1.rows_lt hvalid
    have hgrid : flashGridX (flashParams num q k v cfg shape out lse) tile < 2 ^ 31 :=
      (rowBlocks_le hM).trans_lt hseq
    have hreads :=
      flashReads_shape (flashParams num q k v cfg shape out lse) buf q.dtype tile hvalid hc hM hdvd
    have hstrides : (flashParams num q k v cfg shape out lse).strides =
        operandStrides cfg.layout shape := by
      funext x
      cases x <;> rfl
    rw [int32Cast_toNat hgrid,
      int32Cast_toNat (show (flashParams num q k v cfg shape out lse).numHeads <
        2 ^ 31 from hheads),
      int32Cast_toNat (show (flashParams num q k v cfg shape out lse).batch < 2 ^ 31 from hbatch),
        ← hstrides]
    exact hreads
  | decode id hid p partials out hp =>
    subst hp
    obtain ⟨hseq, ⟨mem, hscratch⟩, halloc, -⟩ := hstarts
    obtain ⟨output, halloc⟩ := Option.isSome_iff_exists.mp halloc
    have halloc : allocOut env shape "allocation of the decode output failed" = .ok output :=
      allocOut_eq_ok_iff.mpr halloc
    set p := decodeParams num q k v cfg shape id (decodeSplits dev cfg shape) partials out with hp
    have hshape : p.shape = shape := by
      rw [hp, DecodeFwdParams.shape, decodeParams, ← hseq]
    have hstrides : p.strides = operandStrides cfg.layout shape := by
      funext x
      cases x <;> exact toDecode_stridesFor _ _ _ _
    have hdvd : 32 ∣ p.headDim := hvalid.dvd_headDim
    have hgrid : p.requests + 3 < 2 ^ 33 := decodeParams_requests_lt hvalid halloc hscratch
    have hreads := decodeReads_shape p (hshape ▸ hvalid) hdvd rfl rfl (resolveSplits_pos cfg _ _)
      (show p.requests ≤ (p.requests + 3) / 4 * 4 by omega)
    rwa [hshape, hstrides, ← Int.toNat_natCast ((p.requests + 3) / 4), ← int32Cast_grid hgrid] at hreads

/-- A request that starts has a launch. -/
theorem Starts.exists_reads (hstarts : Starts env q k v cfg shape b)
    (hshape : inferShape q k v cfg.layout = .ok shape) (hreq : ValidRequest cfg shape) :
    ∃ l, LaunchReads num dev q k v cfg shape b l := by
  obtain ⟨id, -, hid⟩ := requireDtype_of_compute (computeDtype_of_inferShape hshape)
  have hzero : ℕ → Flt 𝕜 := fun _ => 0
  cases b with
  | naive => exact ⟨_, .naive id hid hzero hzero none⟩
  | tiled =>
    exact ⟨_, .tiled _ (selectTile_of_le hreq.validShape.headDim_pos hstarts.1.2) id hid
      ⟨fun _ => 0, fun _ => 0, fun _ => 0, hzero⟩ _ hzero none rfl⟩
  | flash =>
    obtain ⟨tile, htile, -⟩ := hstarts.1.2.2
    exact ⟨_, .flash tile htile ⟨fun _ => 0, fun _ => 0, fun _ => 0, hzero⟩ _ hzero none rfl⟩
  | decode => exact ⟨_, .decode id hid _ hzero hzero rfl⟩
  | auto => exact hstarts.elim
  | paged => exact hstarts.elim

variable (num env q k v cfg b) in
/-- Every element that the kernels of an accepted request read is the intended one, inside its tensor. -/
def ReadsInside : Prop :=
  ∀ shape, inferShape q k v cfg.layout = .ok shape → (validate num cfg shape).isOk →
    Starts env q k v cfg shape b → ∀ l, LaunchReads num dev q k v cfg shape b l →
      ∀ r ∈ l, r.Inside (operandOf q k v r.operand) cfg.layout

/-- A request that starts is read inside its tensors exactly when its keys fit. -/
theorem reads_inside_iff_keysFit (hshape : inferShape q k v cfg.layout = .ok shape)
    (hreq : ValidRequest cfg shape) (hstarts : Starts env q k v cfg shape b) {l : List Read}
    (h : LaunchReads num dev q k v cfg shape b l) :
    (∀ r ∈ l, r.Inside (operandOf q k v r.operand) cfg.layout) ↔ KeysFit q k shape := by
  have hinf := inferShape_eq_ok_iff.mp hshape
  have hreads := h.readsShape hreq hstarts
  constructor
  · intro hin
    refine keysFit_of_inside hinf hreq.validShape fun b hb hd hh t ht htwo d hd' => ?_
    exact hin _ (hreads.keys b hb hd hh t ht htwo d hd')
  · intro hfit r hr
    obtain ⟨x, b, hb, hd, hh, t, ht, d, hdim, rfl⟩ := hreads.within r hr
    exact hinf.inside hfit hb hh ht hdim

end Launches

/-! ## A short key -/

/-- One token of one head, zeroed. -/
def keyTensor (headDim : ℕ) : Tensor :=
  { dims := [1, 1, 1, headDim], dtype := .float16, data := some fun _ => 0 }

end SciAttention

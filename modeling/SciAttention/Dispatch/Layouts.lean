import SciAttention.Dispatch.InBounds

/-!
# Layout independence

A BSHD tensor with the elements of a BHSD one gives the same inferred shape, and `StridesFor` leads the
kernels to the same logical elements, so the two calls succeed together with the same results. `InferShape`
never compares the head dimension of the keys with that of the queries; where they differ the strides of
the keys are those of another tensor, which shows in every request that starts unless it has one key row.
-/

namespace SciAttention

open Flt Results

/-! ## Transposed tensors -/

/-- `t'` is the BSHD tensor with the logical elements of the BHSD tensor `t`. -/
structure Transposed (t t' : Tensor) : Prop where
  ndims_eq : t.ndims = 4
  dims_eq : t'.dims = [t.dim 0, t.dim 2, t.dim 1, t.dim 3]
  dtype_eq : t'.dtype = t.dtype
  deviceType_eq : t'.deviceType = t.deviceType
  isContiguous_eq : t'.isContiguous = t.isContiguous
  data_eq : t'.data.isSome = t.data.isSome
  elems : ∀ b < t.dim 0, ∀ h < t.dim 1, ∀ s < t.dim 2, ∀ d < t.dim 3, ∀ byte < dtypeSize t.dtype,
    t'.bytes (offsetBshd b s h d (t.dim 2) (t.dim 1) (t.dim 3) * dtypeSize t.dtype + byte) =
      t.bytes (offsetBhsd b h s d (t.dim 2) (t.dim 1) (t.dim 3) * dtypeSize t.dtype + byte)

namespace Transposed

variable {t t' : Tensor} (h : Transposed t t')

include h

theorem dim_zero : t'.dim 0 = t.dim 0 := by rw [Tensor.dim, h.dims_eq]; rfl

theorem dim_three : t'.dim 3 = t.dim 3 := by rw [Tensor.dim, h.dims_eq]; rfl

theorem heads_eq : t'.heads .bshd = t.heads .bhsd := by
  change t'.dim 2 = t.dim 1
  rw [Tensor.dim, h.dims_eq]
  rfl

theorem seq_eq : t'.seq .bshd = t.seq .bhsd := by
  change t'.dim 1 = t.dim 2
  rw [Tensor.dim, h.dims_eq]
  rfl

theorem ndims_eq' : t'.ndims = 4 := by rw [Tensor.ndims, h.dims_eq]; rfl

theorem accepted_iff : t'.Accepted ↔ t.Accepted := by
  constructor
  · rintro ⟨-, hc, hd, hv⟩
    exact ⟨h.ndims_eq, h.isContiguous_eq ▸ hc, h.dtype_eq ▸ hd, h.deviceType_eq ▸ hv⟩
  · rintro ⟨-, hc, hd, hv⟩
    exact ⟨h.ndims_eq', h.isContiguous_eq ▸ hc, h.dtype_eq ▸ hd, h.deviceType_eq ▸ hv⟩

/-- The element `(b, h, s, d)` has the same value in both tensors. -/
theorem load_eq {𝕜 : Type*} [Field 𝕜] [LinearOrder 𝕜] (num : Numerics 𝕜) {dtype : DType}
    {batch heads seq headDim : ℕ} (hdtype : t.dtype = dtype) (hbatch : t.dim 0 = batch)
    (hheads : t.heads .bhsd = heads) (hseq : t.seq .bhsd = seq) (hdim : t.dim 3 = headDim)
    {b head s d : ℕ} (hb : b < batch) (hh : head < heads) (hs : s < seq) (hd : d < headDim) :
    num.load dtype t'.bytes (offset (stridesFor .bshd seq heads headDim) b head s d) =
      num.load dtype t.bytes (offset (stridesFor .bhsd seq heads headDim) b head s d) := by
  subst hdtype hbatch hheads hseq hdim
  rw [offset_bhsd, offset_bshd, Numerics.load, Numerics.load]
  refine congrArg (num.toFloat t.dtype) (List.map_congr_left fun byte hbyte => ?_)
  exact h.elems b hb head hh s hs d hd byte (List.mem_range.mp hbyte)

/-- A single row starts at the first element, in either layout and with any strides. -/
theorem load_row {𝕜 : Type*} [Field 𝕜] [LinearOrder 𝕜] (num : Numerics 𝕜) {dtype : DType}
    (hdtype : t.dtype = dtype) (hbatch : t.dim 0 = 1) (hheads : t.heads .bhsd = 1)
    (hseq : t.seq .bhsd = 1) {d : ℕ} (hd : d < t.dim 3) :
    num.load dtype t'.bytes d = num.load dtype t.bytes d := by
  have hload := h.load_eq num hdtype hbatch hheads hseq rfl (show 0 < 1 by decide) (show 0 < 1 by decide)
    (show 0 < 1 by decide) hd
  simpa only [offset, stridesFor, Nat.zero_mul, Nat.zero_add, Nat.mul_one] using hload

end Transposed

/-- Both triples give the same shape, or neither gives one. -/
theorem inferred_transposed {q k v q' k' v' : Tensor} (hq : Transposed q q') (hk : Transposed k k')
    (hv : Transposed v v') {shape : AttentionShape} :
    Inferred q' k' v' .bshd shape ↔ Inferred q k v .bhsd shape := by
  have hshape : shapeOf q' k' .bshd = shapeOf q k .bhsd := by
    simp only [shapeOf, hq.dim_zero, hq.seq_eq, hk.seq_eq, hq.heads_eq, hk.heads_eq, hq.dim_three]
  simp only [inferred_iff, hq.accepted_iff, hk.accepted_iff, hv.accepted_iff, hq.dtype_eq, hk.dtype_eq,
    hv.dtype_eq, hshape, hv.heads_eq, hk.heads_eq, hv.seq_eq, hk.seq_eq, hv.dim_three, hq.dim_three,
    hv.dim_zero, hk.dim_zero, hq.dim_zero]

section Layouts

variable {𝕜 : Type} [Field 𝕜] [LinearOrder 𝕜] {dev : Device} {num : Numerics 𝕜}
  {env : ForwardEnv 𝕜 dev} {q k v q' k' v' : Tensor} {cfg : AttentionConfig 𝕜} {shape : AttentionShape}

/-- The configuration with the given layout. -/
def AttentionConfig.withLayout (cfg : AttentionConfig 𝕜) (layout : AttnLayout) : AttentionConfig 𝕜 :=
  { cfg with layout }

/-- The attention problems of the two requests agree where the keys fit the queries. -/
theorem requestProblem_agree (hq : Transposed q q') (hk : Transposed k k') (hv : Transposed v v')
    (hinf : Inferred q k v .bhsd shape) (hfit : KeysFit q k shape) :
    AttnProblem.Agree shape (requestProblem num q k v (cfg.withLayout .bhsd) shape)
      (requestProblem num q' k' v' (cfg.withLayout .bshd) shape) := by
  obtain rfl := hinf.shape_eq
  have hload : ∀ {t t' : Tensor} {heads seq : ℕ}, Transposed t t' → t.dtype = q.dtype →
      t.dim 0 = q.dim 0 → t.heads .bhsd = heads → t.seq .bhsd = seq → t.dim 3 = q.dim 3 →
      ∀ b < q.dim 0, ∀ h < heads, ∀ s < seq, ∀ d < q.dim 3,
        num.load q'.dtype t'.bytes (b * (stridesFor .bshd seq heads (q.dim 3)).sB +
            h * (stridesFor .bshd seq heads (q.dim 3)).sH +
            s * (stridesFor .bshd seq heads (q.dim 3)).sS + d) =
          num.load q.dtype t.bytes (b * (stridesFor .bhsd seq heads (q.dim 3)).sB +
            h * (stridesFor .bhsd seq heads (q.dim 3)).sH +
            s * (stridesFor .bhsd seq heads (q.dim 3)).sS + d) := by
    intro t t' heads seq ht hdtype hbatch hheads hseq hdim b hb h hh s hs d hd
    rw [offset_stridesFor, offset_stridesFor, hq.dtype_eq]
    exact ht.load_eq num hdtype hbatch hheads hseq hdim hb hh hs hd
  refine ⟨rfl, rfl, rfl, rfl, rfl, rfl, hload hq rfl rfl rfl rfl rfl, ?_,
    hload hv hinf.v_dtype.symm hinf.v_batch hinf.v_heads hinf.v_seq hinf.v_dim⟩
  rcases hfit with hdim | ⟨⟨hone, hheads, hseq⟩, hle⟩
  · exact hload hk hinf.k_dtype.symm hinf.k_batch rfl rfl hdim
  · intro b hb h hh s hs d hd
    obtain rfl : b = 0 := Nat.lt_one_iff.mp (lt_of_lt_of_eq hb hone)
    obtain rfl : h = 0 := Nat.lt_one_iff.mp (lt_of_lt_of_eq hh hheads)
    obtain rfl : s = 0 := Nat.lt_one_iff.mp (lt_of_lt_of_eq hs hseq)
    have hrow := hk.load_row num hinf.k_dtype.symm (hinf.k_batch.trans hone) hheads hseq
      (lt_of_lt_of_le hd hle)
    change num.load q'.dtype k'.bytes _ = num.load q.dtype k.bytes _
    simpa only [Nat.zero_mul, Nat.zero_add, hq.dtype_eq] using hrow

/-! ## Answers -/

/-- Two LSE tensors with the same elements. -/
def SameLse : Option (FloatTensor 𝕜) → Option (FloatTensor 𝕜) → Prop
  | some t, some t' => t.dims = t'.dims ∧ ∀ n < t.dims.prod, t.data n = t'.data n
  | none, none => True
  | _, _ => False

/-- Both calls fail, or both succeed with the same output and LSE tensors. -/
def SameAnswer : Except Status (AttentionResult 𝕜) → Except Status (AttentionResult 𝕜) → Prop
  | .ok r, .ok r' => (r.outDims = r'.outDims ∧ r.outDtype = r'.outDtype ∧
      ∀ n < r.outDims.prod, r.out n = r'.out n) ∧ SameLse r.lse r'.lse
  | .error _, .error _ => True
  | _, _ => False

/-- The dimensions and the dtype of an output. -/
theorem forward_dims (hshape : inferShape q k v cfg.layout = .ok shape)
    (hvalid : (validate num cfg shape).isOk) {b : BackendKind} {r : AttentionResult 𝕜}
    (hr : forward num env q k v cfg b = .ok r) : r.outDims = outDims shape ∧ r.outDtype = q.dtype := by
  have hinfer := inferValid_of_valid hshape hvalid
  have hnaive : naiveForward num env q k v cfg = .ok r → r.outDims = outDims shape ∧
    r.outDtype = q.dtype := by
    intro hr
    simp only [naiveForward, hinfer, ok_bind, bind_eq_ok, pure_eq_ok] at hr
    obtain ⟨_, -, _, -, _, -, _, -, _, -, hr⟩ := hr
    cases hr
    exact ⟨rfl, rfl⟩
  cases b with
  | auto => exact hnaive hr
  | naive => exact hnaive hr
  | tiled =>
    simp only [forward, tiledForward, hinfer, ok_bind, bind_eq_ok, pure_eq_ok] at hr
    obtain ⟨_, -, _, -, _, -, _, -, hr⟩ := hr
    cases hr
    exact ⟨rfl, rfl⟩
  | flash =>
    simp only [forward, flashForward, hinfer, ok_bind, bind_eq_ok, pure_eq_ok] at hr
    obtain ⟨_, -, _, -, _, -, _, -, hr⟩ := hr
    cases hr
    exact ⟨rfl, rfl⟩
  | decode =>
    simp only [forward, decodeForward, hinfer, ok_bind, bind_eq_ok, pure_eq_ok] at hr
    obtain ⟨_, -, _, -, _, -, _, -, hr⟩ := hr
    cases hr
    exact ⟨rfl, rfl⟩
  | paged => cases hr

/-- Without a request for it a tiled or flash call returns no LSE tensor. -/
theorem forward_lse_none (hshape : inferShape q k v cfg.layout = .ok shape)
    (hvalid : (validate num cfg shape).isOk) {b : BackendKind} (hb : b = .tiled ∨ b = .flash)
    {r : AttentionResult 𝕜} (hr : forward num env q k v cfg b = .ok r) (hret : cfg.returnLse = false) :
    r.lse = none := by
  have hnone : ∀ {lse : Option (ℕ → Flt 𝕜)}, allocLse env cfg shape = .ok lse → lse = none := by
    intro lse hlse
    rw [allocLse, if_neg (by simp [hret])] at hlse
    exact (Except.ok.inj hlse).symm
  rcases hb with rfl | rfl
  · obtain ⟨tile, id, out, lse, res, -, -, -, -, hlse, hlaunch, -, hres, -⟩ :=
      tiledForward_eq_ok hshape hvalid hr
    obtain ⟨buf, -, -, hrun⟩ := launchTiledForward_eq_ok hlaunch
    obtain rfl := hnone hlse
    rw [hres, launchTile_eq_ok hrun]
    rfl
  · obtain ⟨tile, out, lse, res, -, -, htile, -, -, hlse, hlaunch, -, hres, -⟩ :=
      flashForward_eq_ok hshape hvalid hr
    obtain ⟨buf, elem, -, -, hrun⟩ := launchFlashFwd_eq_ok hlaunch
    obtain rfl := hnone hlse
    rw [show (flashParams num q k v cfg shape out none).headDim = shape.headDim from rfl,
      launchForHeadDim_eq (validate_isOk hvalid).1 htile] at hrun
    rw [hres, launchFlashTyped_eq_ok hrun]
    rfl

/-- Answers to problems that agree are the same output. -/
theorem out_eq_of_answers (hvalid : ValidShape shape) {P P' : AttnProblem 𝕜} {out out' : ℕ → Flt 𝕜}
    (hdim : P.headDim = shape.headDim) (hgroup : P.group = shape.numHeads / shape.numKvHeads)
    (hA : AttnProblem.Agree shape P P')
    (h : ∀ b < shape.batch, ∀ h < shape.numHeads, ∀ i < shape.seqQ, OutAnswers num P shape out b h i)
    (h' : ∀ b < shape.batch, ∀ h < shape.numHeads, ∀ i < shape.seqQ,
      OutAnswers num P' shape out' b h i) :
    ∀ n < (outDims shape).prod, out n = out' n := by
  intro n hn
  have hprod : (outDims shape).prod = shape.batch * shape.numHeads * shape.seqQ * shape.headDim := by
    simp only [outDims, List.prod_cons, List.prod_nil]
    ring
  rw [hprod] at hn
  obtain ⟨⟨b, head, i, d⟩, ⟨hb, hh, hi, hd⟩, rfl⟩ := (bijOn_flat _ _ _ _).surjOn hn
  exact (h b hb head hh i hi d hd).trans ((congrArg fin (hA.attention_eq hb hh
    (hgroup ▸ hvalid.kvHead_lt hh) hi (hdim ▸ hd)).symm).trans (h' b hb head hh i hi d hd).symm)

/-- Answers to problems that agree are the same LSE tensor. -/
theorem sameLse_of_answers (hvalid : ValidShape shape) {P P' : AttnProblem 𝕜}
    {lse lse' : Option (FloatTensor 𝕜)} (hgroup : P.group = shape.numHeads / shape.numKvHeads)
    (hA : AttnProblem.Agree shape P P')
    (h : ∀ b < shape.batch, ∀ h < shape.numHeads, ∀ i < shape.seqQ, LseAnswers num P shape lse b h i)
    (h' : ∀ b < shape.batch, ∀ h < shape.numHeads, ∀ i < shape.seqQ,
      LseAnswers num P' shape lse' b h i) :
    SameLse lse lse' := by
  obtain ⟨mem, rfl, -⟩ := h 0 hvalid.batch_pos 0 hvalid.numHeads_pos 0 hvalid.seqQ_pos
  obtain ⟨mem', rfl, -⟩ := h' 0 hvalid.batch_pos 0 hvalid.numHeads_pos 0 hvalid.seqQ_pos
  refine ⟨rfl, fun n hn => ?_⟩
  have hprod : (lseDims shape).prod = shape.rows := by
    simp only [lseDims, List.prod_cons, List.prod_nil, AttentionShape.rows]
    ring
  obtain ⟨b, hb, head, hh, i, hi, rfl⟩ := AttentionShape.exists_rowIndex (hprod ▸ hn)
  obtain ⟨m, hm, hvalue⟩ := h b hb head hh i hi
  obtain ⟨m', hm', hvalue'⟩ := h' b hb head hh i hi
  cases hm
  cases hm'
  exact hvalue.trans ((congrArg ofBot
    (hA.lse_eq hb hh (hgroup ▸ hvalid.kvHead_lt hh) hi).symm).trans hvalue'.symm)

omit [Field 𝕜] [LinearOrder 𝕜] in
/-- The same checks and the same memory. -/
theorem starts_transposed (hq : Transposed q q') (hk : Transposed k k') (hv : Transposed v v')
    (b : BackendKind) :
    Starts env q' k' v' (cfg.withLayout .bshd) shape b ↔
      Starts env q k v (cfg.withLayout .bhsd) shape b := by
  have hdata : HasData q' k' v' ↔ HasData q k v := by
    rw [HasData, HasData, hq.data_eq, hk.data_eq, hv.data_eq]
  cases b <;> simp only [Starts, hdata, hq.dtype_eq] <;> rfl

/-- The naive pipelines of the two requests leave the same memory, rows without a block included. -/
theorem naiveForward_transposed (hq : Transposed q q') (hk : Transposed k k') (hv : Transposed v v')
    (hshape : inferShape q k v .bhsd = .ok shape) (hfit : KeysFit q k shape)
    (hvalid : (validate num cfg shape).isOk) {r r' : AttentionResult 𝕜}
    (hr : naiveForward num env q k v (cfg.withLayout .bhsd) = .ok r)
    (hr' : naiveForward num env q' k' v' (cfg.withLayout .bshd) = .ok r') :
    r'.out = r.out ∧ r'.lse = r.lse := by
  have hinf := inferShape_eq_ok_iff.mp hshape
  have hshape' : inferShape q' k' v' (cfg.withLayout .bshd).layout = .ok shape :=
    inferShape_eq_ok_iff.mpr ((inferred_transposed hq hk hv).mpr hinf)
  replace hshape : inferShape q k v (cfg.withLayout .bhsd).layout = .ok shape := hshape
  have hvalid' : (validate num (cfg.withLayout .bhsd) shape).isOk := hvalid
  obtain ⟨id, scores, out, lse, res, hid, -, hscores, hout, hlse, hlaunch, hrout, hrlse, -⟩ :=
    naiveForward_eq_ok hshape hvalid' hr
  obtain ⟨id', scores', out', lse', res', hid', -, hscores', hout', hlse', hlaunch', hrout', hrlse', -⟩ :=
    naiveForward_eq_ok hshape' hvalid hr'
  obtain rfl : id' = id := Option.some.inj (hid'.symm.trans (hq.dtype_eq ▸ hid))
  obtain rfl : scores' = scores := Except.ok.inj (hscores'.symm.trans hscores)
  obtain rfl : out' = out := Except.ok.inj (hout'.symm.trans hout)
  obtain rfl : lse' = lse := Except.ok.inj (hlse'.symm.trans hlse)
  obtain ⟨buf, ⟨bq, bk, bv, bo, bs⟩, -, rfl⟩ := launchNaiveForward_eq_ok hlaunch
  obtain ⟨buf', ⟨bq', bk', bv', bo', bs'⟩, -, rfl⟩ := launchNaiveForward_eq_ok hlaunch'
  set p := naiveParams num q k v (cfg.withLayout .bhsd) shape id' scores' out' lse' with hp
  have hover : naiveParams num q' k' v' (cfg.withLayout .bshd) shape id' scores' out' lse' =
      p.over q'.data k'.data v'.data (stridesFor .bshd shape.seqQ shape.numHeads shape.headDim)
        (stridesFor .bshd shape.seqKv shape.numKvHeads shape.headDim)
        (stridesFor .bshd shape.seqKv shape.numKvHeads shape.headDim) := rfl
  have hbuf : buf' = buf.over buf'.q buf'.k buf'.v := by
    cases buf
    cases buf'
    cases bo.symm.trans bo'
    cases bs.symm.trans bs'
    rfl
  have hproblem : p.problem num buf = requestProblem num q k v (cfg.withLayout .bhsd) shape :=
    naiveParams_problem (elem_of_dtypeIdFor hid) bq bk bv
  have hproblem' : (naiveParams num q' k' v' (cfg.withLayout .bshd) shape id' scores' out' lse').problem num
      buf' = requestProblem num q' k' v' (cfg.withLayout .bshd) shape :=
    naiveParams_problem (elem_of_dtypeIdFor hid') bq' bk' bv'
  have hA : AttnProblem.Agree shape (requestProblem num q k v (cfg.withLayout .bhsd) shape)
      (requestProblem num q' k' v' (cfg.withLayout .bshd) shape) :=
    requestProblem_agree hq hk hv hinf hfit
  rw [← hproblem, ← hproblem', hover, hbuf] at hA
  have hsame := naivePipeline_over (p := p) (validate_isOk hvalid).1 hA (softmaxBlocks p)
  rw [hrout, hrout', hrlse, hrlse', hover, hbuf]
  exact ⟨congrArg Prod.fst hsame, congrArg (fun x => lseTensor shape x.2) hsame⟩

/-- Answers to problems that agree, with the LSE tensor where it was asked for. -/
theorem sameAnswer_of_answers (hvalid : ValidShape shape) {P P' : AttnProblem 𝕜}
    {r r' : AttentionResult 𝕜}
    (hdim : P.headDim = shape.headDim) (hgroup : P.group = shape.numHeads / shape.numKvHeads)
    (hA : AttnProblem.Agree shape P P') {ret : Bool}
    (h : ∀ b < shape.batch, ∀ h < shape.numHeads, ∀ i < shape.seqQ,
      OutAnswers num P shape r.out b h i ∧
      (ret = true → LseAnswers num P shape r.lse b h i))
    (h' : ∀ b < shape.batch, ∀ h < shape.numHeads, ∀ i < shape.seqQ,
      OutAnswers num P' shape r'.out b h i ∧
      (ret = true → LseAnswers num P' shape r'.lse b h i))
    (hdims : r.outDims = outDims shape) (hdims' : r'.outDims = outDims shape)
    (hdtype : r.outDtype = r'.outDtype) (hnone : ret = false → r.lse = none)
    (hnone' : ret = false → r'.lse = none) : SameAnswer (.ok r) (.ok r') := by
  refine ⟨⟨hdims.trans hdims'.symm, hdtype, hdims ▸ out_eq_of_answers hvalid hdim hgroup hA
    (fun b hb head hh i hi => (h b hb head hh i hi).1)
    fun b hb head hh i hi => (h' b hb head hh i hi).1⟩, ?_⟩
  cases ret with
  | false =>
    rw [hnone rfl, hnone' rfl]
    trivial
  | true =>
    exact sameLse_of_answers hvalid hgroup hA (fun b hb head hh i hi => (h b hb head hh i hi).2 rfl)
      fun b hb head hh i hi => (h' b hb head hh i hi).2 rfl

variable [IsStrictOrderedRing 𝕜] in
/-- Where both calls are accepted, the same elements are read and the same results are returned. -/
theorem forward_transposed (hq : Transposed q q') (hk : Transposed k k') (hv : Transposed v v')
    (hshape : inferShape q k v (cfg.withLayout .bhsd).layout = .ok shape) (hfit : KeysFit q k shape)
    (hvalid : (validate num cfg shape).isOk) {b : BackendKind} (hb : b ∈ denseBackends)
    {r r' : AttentionResult 𝕜} (hr : forward num env q k v (cfg.withLayout .bhsd) b = .ok r)
    (hr' : forward num env q' k' v' (cfg.withLayout .bshd) b = .ok r') : SameAnswer (.ok r) (.ok r') := by
  have hinf := inferShape_eq_ok_iff.mp hshape
  have hshape' : inferShape q' k' v' (cfg.withLayout .bshd).layout = .ok shape :=
    inferShape_eq_ok_iff.mpr ((inferred_transposed hq hk hv).mpr hinf)
  have hval : (validate num (cfg.withLayout .bhsd) shape).isOk := hvalid
  have hval' : (validate num (cfg.withLayout .bshd) shape).isOk := hvalid
  obtain ⟨hdims, hdtype⟩ := forward_dims hshape hval hr
  obtain ⟨hdims', hdtype'⟩ := forward_dims hshape' hval' hr'
  have hty : r.outDtype = r'.outDtype := hdtype.trans (hq.dtype_eq.symm.trans hdtype'.symm)
  have hA : AttnProblem.Agree shape (requestProblem num q k v (cfg.withLayout .bhsd) shape)
      (requestProblem num q' k' v' (cfg.withLayout .bshd) shape) :=
    requestProblem_agree hq hk hv hinf hfit
  have hvs := (validate_isOk hvalid).1
  cases b with
  | auto => exact absurd hb (by decide)
  | naive =>
    obtain ⟨hout, hlse⟩ := naiveForward_transposed hq hk hv hshape hfit hvalid hr hr'
    refine ⟨⟨hdims.trans hdims'.symm, hty, fun n _ => (congrFun hout n).symm⟩, ?_⟩
    rw [hlse]
    cases r.lse with
    | none => trivial
    | some t => exact ⟨rfl, fun _ _ => rfl⟩
  | tiled =>
    exact sameAnswer_of_answers hvs rfl rfl hA
      (fun b hb h hh i hi => tiledForward_answers hshape hval hb hh hi hr)
      (fun b hb h hh i hi => tiledForward_answers hshape' hval' hb hh hi hr') hdims hdims' hty
      (forward_lse_none hshape hval (.inl rfl) hr) (forward_lse_none hshape' hval' (.inl rfl) hr')
  | flash =>
    exact sameAnswer_of_answers hvs rfl rfl hA
      (fun b hb h hh i hi => flashForward_answers hshape hval hb hh hi hr)
      (fun b hb h hh i hi => flashForward_answers hshape' hval' hb hh hi hr') hdims hdims' hty
      (forward_lse_none hshape hval (.inr rfl) hr) (forward_lse_none hshape' hval' (.inr rfl) hr')
  | decode =>
    obtain ⟨-, -, -, -, -, hseq, -⟩ := decodeForward_eq_ok hshape hval hr
    -- one query row, and no LSE tensor
    have hlse := (decodeForward_answers hshape hval hvs.batch_pos hvs.numHeads_pos hr).2
    have hlse' := (decodeForward_answers hshape' hval' hvs.batch_pos hvs.numHeads_pos hr').2
    have hzero : ∀ i < shape.seqQ, i = 0 := fun i hi => by omega
    have hout : ∀ n < (outDims shape).prod, r.out n = r'.out n :=
      out_eq_of_answers hvs rfl rfl hA
        (fun b hb h hh i hi => hzero i hi ▸ (decodeForward_answers hshape hval hb hh hr).1)
        fun b hb h hh i hi => hzero i hi ▸ (decodeForward_answers hshape' hval' hb hh hr').1
    refine ⟨⟨hdims.trans hdims'.symm, hty, hdims ▸ hout⟩, ?_⟩
    rw [hlse, hlse']
    trivial
  | paged => exact absurd hb (by decide)

/-- The calls answer alike, one failing only where the other does. -/
theorem sameAnswer_transposed [IsStrictOrderedRing 𝕜] (hq : Transposed q q') (hk : Transposed k k')
    (hv : Transposed v v') {b : BackendKind} (hb : b ∈ denseBackends)
    (hfit : ∀ shape, inferShape q k v .bhsd = .ok shape → (validate num cfg shape).isOk →
      Starts env q k v (cfg.withLayout .bhsd) shape b → KeysFit q k shape) :
    SameAnswer (forward num env q k v (cfg.withLayout .bhsd) b)
      (forward num env q' k' v' (cfg.withLayout .bshd) b) := by
  have hinfer : ∀ {shape}, inferShape q' k' v' .bshd = .ok shape ↔
    inferShape q k v .bhsd = .ok shape := by
    intro shape
    rw [inferShape_eq_ok_iff, inferShape_eq_ok_iff, inferred_transposed hq hk hv]
  by_cases hgood : ∃ shape, inferShape q k v .bhsd = .ok shape ∧ (validate num cfg shape).isOk
  · obtain ⟨shape, hshape, hvalid⟩ := hgood
    have hshape' : inferShape q k v (cfg.withLayout .bhsd).layout = .ok shape := hshape
    have htrans : inferShape q' k' v' (cfg.withLayout .bshd).layout = .ok shape := hinfer.mpr hshape
    have hval : (validate num (cfg.withLayout .bhsd) shape).isOk := hvalid
    have hval' : (validate num (cfg.withLayout .bshd) shape).isOk := hvalid
    have hiff : (∃ r, forward num env q k v (cfg.withLayout .bhsd) b = .ok r) ↔
        ∃ r, forward num env q' k' v' (cfg.withLayout .bshd) b = .ok r := by
      rw [forward_isOk_iff hshape' hval hb, forward_isOk_iff htrans hval' hb,
        starts_transposed hq hk hv]
    cases hr : forward num env q k v (cfg.withLayout .bhsd) b with
    | ok r =>
      obtain ⟨r', hr'⟩ := hiff.mp ⟨r, hr⟩
      have hstarts := ((forward_isOk_iff hshape' hval hb).mp ⟨r, hr⟩).1
      rw [hr']
      exact forward_transposed hq hk hv hshape' (hfit shape hshape hvalid hstarts) hvalid hb hr hr'
    | error e =>
      cases hr' : forward num env q' k' v' (cfg.withLayout .bshd) b with
      | ok r' =>
        obtain ⟨r, hok⟩ := hiff.mpr ⟨r', hr'⟩
        rw [hr] at hok
        cases hok
      | error e' => trivial
  · -- neither layout is accepted, with whatever error
    have herror : ∀ {q k v : Tensor} {cfg' : AttentionConfig 𝕜},
        (¬ ∃ shape, inferShape q k v cfg'.layout = .ok shape ∧ (validate num cfg' shape).isOk) →
        ∃ e, inferValid num q k v cfg' = .error e := by
      intro q k v cfg' hnot
      cases hr : inferValid num q k v cfg' with
      | error e => exact ⟨e, rfl⟩
      | ok shape => exact absurd ⟨shape, valid_of_inferValid hr⟩ hnot
    have hbad' : ¬ ∃ shape, inferShape q k v (cfg.withLayout .bhsd).layout = .ok shape ∧
        (validate num (cfg.withLayout .bhsd) shape).isOk := hgood
    obtain ⟨e, he⟩ := herror hbad'
    have hbad : ¬ ∃ shape, inferShape q' k' v' (cfg.withLayout .bshd).layout = .ok shape ∧
        (validate num (cfg.withLayout .bshd) shape).isOk := by
      rintro ⟨shape, hs, hval⟩
      exact hgood ⟨shape, hinfer.mp hs, hval⟩
    obtain ⟨e', he'⟩ := herror hbad
    rw [forward_of_inferValid_error he hb, forward_of_inferValid_error he' hb]
    trivial

/-! ## Addressing -/

/-- The layout of the tensors makes no difference: the calls answer alike, in either layout every element that
the kernels read is the tensor's own at the coordinates that are meant, and the offsets of a layout reach each
element of a shape once. -/
structure LayoutIndependent (num : Numerics 𝕜) (env : ForwardEnv 𝕜 dev) (q k v q' k' v' : Tensor)
    (cfg : AttentionConfig 𝕜) (b : BackendKind) : Prop where
  answers : SameAnswer (forward num env q k v (cfg.withLayout .bhsd) b)
    (forward num env q' k' v' (cfg.withLayout .bshd) b)
  bhsd : ReadsInside num env q k v (cfg.withLayout .bhsd) b
  bshd : ReadsInside num env q' k' v' (cfg.withLayout .bshd) b
  bijective : ∀ layout shape x, OffsetBijective (operandStrides layout shape x) shape.batch
    (shape.headsOf x) (shape.seqOf x) shape.headDim
    (shape.batch * shape.headsOf x * shape.seqOf x * shape.headDim)

omit [Field 𝕜] [LinearOrder 𝕜] in
theorem keysFit_transposed (hq : Transposed q q') (hk : Transposed k k') :
    KeysFit q' k' shape ↔ KeysFit q k shape := by
  rw [KeysFit, KeysFit, hq.dim_three, hk.dim_three]

end Layouts

/-! ## Keys of another head dimension -/

/-- Half-precision tensors with a one as the given element. -/
def unitTensor (dims : List ℕ) (n : ℕ) : Tensor := { dims, dtype := .float16, data := some (oneAt n) }

/-- One query for two heads of dimension 32, two tokens. -/
def unitShape : AttentionShape :=
  { batch := 1, seqQ := 1, seqKv := 2, numHeads := 2, numKvHeads := 2, headDim := 32 }

/-- The flash backend with unit scale. -/
noncomputable def unitConfig : AttentionConfig ℝ := { sampleConfig .flash false with scale := 1 }

theorem validate_unit (layout : AttnLayout) :
    (validate realNumerics (unitConfig.withLayout layout) unitShape).isOk :=
  validate_isOk_iff.mpr
    { validShape := ⟨by decide, by decide, by decide, by decide, by decide, by decide, by decide⟩
      causal_le := fun h => nomatch h
      slidingWindow_le := le_rfl
      softcap_nonneg := le_rfl
      softcap_backend := fun h => absurd h (lt_irrefl 0)
      scale_nonneg := zero_le_one
      numSplits_nonneg := le_rfl
      cuSeqlens := fun h => nomatch h }

/-- The queries with a one as the first element, in either layout. -/
theorem transposed_unit_query : Transposed (unitTensor [1, 2, 1, 32] 0) (unitTensor [1, 1, 2, 32] 0) where
  ndims_eq := rfl
  dims_eq := rfl
  dtype_eq := rfl
  deviceType_eq := rfl
  isContiguous_eq := rfl
  data_eq := rfl
  elems := by
    intro b hb h hh s hs d hd byte hbyte
    have hb' : b < 1 := hb
    have hs' : s < 1 := hs
    obtain rfl : b = 0 := by omega
    obtain rfl : s = 0 := by omega
    change oneAt 0 _ = oneAt 0 _
    congr 1
    simp [offsetBshd, offsetBhsd, unitTensor, Tensor.dim]

/-- Keys or values with a one in the first row of the first head, in either layout. -/
theorem transposed_unit {headDim n : ℕ} (hn : n < headDim) :
    Transposed (unitTensor [1, 2, 2, headDim] n) (unitTensor [1, 2, 2, headDim] n) where
  ndims_eq := rfl
  dims_eq := rfl
  dtype_eq := rfl
  deviceType_eq := rfl
  isContiguous_eq := rfl
  data_eq := rfl
  elems := by
    intro b hb h hh s hs d hd byte hbyte
    have hb' : b < 1 := hb
    have hh' : h < 2 := hh
    have hs' : s < 2 := hs
    have hbyte' : byte < 2 := hbyte
    have hd' : d < headDim := hd
    change oneAt n (offsetBshd b s h d 2 2 headDim * 2 + byte) =
      oneAt n (offsetBhsd b h s d 2 2 headDim * 2 + byte)
    simp only [oneAt, offsetBshd, offsetBhsd]
    obtain rfl : b = 0 := by omega
    -- off the first row both offsets are past the one
    rcases (by omega : h = 0 ∨ h = 1) with rfl |
      rfl <;> rcases (by omega : s = 0 ∨ s = 1) with rfl | rfl <;>
      simp only [Nat.zero_mul, Nat.zero_add, Nat.one_mul, Nat.add_zero] <;>
      first
        | rfl
        | rw [if_neg (by omega), if_neg (by omega)]

/-- The first of two keys, with logits `0` and `x`. -/
theorem attention_pair {P : AttnProblem ℝ} {x : ℝ} (hx : 0 ≤ x) (hvis : P.visible 0 = {0, 1})
    (hfirst : P.logit 0 0 0 0 = 0) (hsecond : P.logit 0 0 0 1 = x)
    (hv : P.v 0 (0 / P.group) 0 0 = 1) (hv' : P.v 0 (0 / P.group) 1 0 = 0) :
    P.attention realNumerics.E 0 0 0 0 = Real.exp (-x) / (Real.exp (-x) + 1) := by
  have hne : (0 : ℕ) ∉ ({1} : Finset ℕ) := by decide
  have hsup : ((0 : ℝ) : WithBot ℝ) ⊔ ((x : ℝ) : WithBot ℝ) = (x : ℝ) :=
    sup_eq_right.mpr (WithBot.coe_le_coe.mpr hx)
  have hexp : realNumerics.E.exp = Real.exp := rfl
  rw [AttnProblem.attention, hvis, Softmax.average, Softmax.mass, Softmax.mass, Finset.sum_insert hne,
    Finset.sum_insert hne, Finset.sum_singleton, Finset.sum_singleton, Finset.sup_insert,
    Finset.sup_singleton, hfirst, hsecond, hsup, hv, hv', Softmax.weight_coe, Softmax.weight_coe, hexp,
    zero_sub, sub_self, Real.exp_zero]
  simp

/-- The output of the request on these tensors, the second key at the given element. -/
theorem attention_unit {layout : AttnLayout} {dims : List ℕ} {x : ℝ} (hx : 0 ≤ x)
    (hkey : (if (kvStrides (unitConfig.withLayout layout) unitShape).sS = 32 then (1 : ℝ) else 0) = x)
    (hsS : 32 ≤ (kvStrides (unitConfig.withLayout layout) unitShape).sS) :
    (requestProblem realNumerics (unitTensor dims 0) (unitTensor [1, 2, 2, 64] 32)
      (unitTensor [1, 2, 2, 32] 0) (unitConfig.withLayout layout) unitShape).attention
        realNumerics.E 0 0 0 0 =
      Real.exp (-x) / (Real.exp (-x) + 1) := by
  set P := requestProblem realNumerics (unitTensor dims 0) (unitTensor [1, 2, 2, 64] 32)
    (unitTensor [1, 2, 2, 32] 0) (unitConfig.withLayout layout) unitShape with hP
  set sS := (kvStrides (unitConfig.withLayout layout) unitShape).sS with hs
  have hq : ∀ d, P.q 0 0 0 d = if d = 0 then 1 else 0 := by
    intro d
    refine (load_oneAt 0 _).trans ?_
    simp
  have hk : ∀ j, P.k 0 0 j 0 = if j * sS = 32 then 1 else 0 := by
    intro j
    refine (load_oneAt 32 _).trans ?_
    simp [hs]
  have hv : ∀ j, P.v 0 0 j 0 = if j * sS = 0 then 1 else 0 := by
    intro j
    refine (load_oneAt 0 _).trans ?_
    simp [hs]
  have hscale : P.scale = 1 := if_pos one_pos
  -- the one of the keys is met by the second key exactly when the token stride is 32
  have hlogit : ∀ j, P.logit 0 0 0 j = if j * sS = 32 then 1 else 0 := by
    intro j
    have hdot : P.dot 0 0 0 j = P.q 0 0 0 0 * P.k 0 0 j 0 := by
      rw [AttnProblem.dot, show P.headDim = 32 from rfl, show 0 / P.group = 0 from Nat.zero_div _]
      refine Finset.sum_eq_single_of_mem 0 (by decide) fun d _ hd => ?_
      rw [hq, if_neg hd, zero_mul]
    rw [AttnProblem.logit, hscale, one_mul, hdot, hq, if_pos rfl, one_mul, hk]
  have hvis : P.visible 0 = {0, 1} := by
    ext j
    rw [AttnProblem.mem_visible, AttnProblem.Sees, show P.seqKv = 2 from rfl,
      show P.causal = false from rfl]
    simp only [Bool.false_eq_true, false_implies, and_true, Finset.mem_insert, Finset.mem_singleton]
    omega
  have hhead : 0 / P.group = 0 := Nat.zero_div _
  refine attention_pair hx hvis ?_ ?_ ?_ ?_
  · rw [hlogit, if_neg (by omega)]
  · rw [hlogit, one_mul, hkey]
  · rw [hhead, hv, if_pos (Nat.zero_mul _)]
  · rw [hhead, hv, if_neg (by omega)]

/-- The flash backend answers the request, in either layout. -/
theorem flashForward_unit {layout : AttnLayout} (dims : List ℕ) {x : ℝ} (hx : 0 ≤ x)
    (hkey : (if (kvStrides (unitConfig.withLayout layout) unitShape).sS = 32 then (1 : ℝ) else 0) = x)
    (hsS : 32 ≤ (kvStrides (unitConfig.withLayout layout) unitShape).sS)
    (hshape : inferShape (unitTensor dims 0) (unitTensor [1, 2, 2, 64] 32) (unitTensor [1, 2, 2, 32] 0)
      (unitConfig.withLayout layout).layout = .ok unitShape) :
    ∃ r, forward realNumerics sampleEnv (unitTensor dims 0) (unitTensor [1, 2, 2, 64] 32)
        (unitTensor [1, 2, 2, 32] 0) (unitConfig.withLayout layout) .flash = .ok r ∧
      0 < r.outDims.prod ∧ r.out 0 = .fin (Real.exp (-x) / (Real.exp (-x) + 1)) := by
  have hvalid := validate_unit layout
  have htile : findFlashTile unitShape.headDim = some ⟨64, 64, 4, 2, 1⟩ := rfl
  have hex : ∃ r, flashForward realNumerics sampleEnv (unitTensor dims 0) (unitTensor [1, 2, 2, 64] 32)
      (unitTensor [1, 2, 2, 32] 0) (unitConfig.withLayout layout) = .ok r :=
    (flashForward_isOk_iff hshape hvalid htile).mpr
      ⟨⟨rfl, show flashDtypeIdFor .float16 ≠ 0 by decide,
        show flashTileSmemBytes ⟨64, 64, 4, 2, 1⟩ 32 2 ≤ sampleDevice.smemLimitPerBlock by decide⟩,
        ⟨rfl, fun h => nomatch h⟩, ⟨rfl, rfl, rfl⟩, rfl⟩
  obtain ⟨r, hr⟩ := hex
  have hout := (flashForward_answers hshape hvalid (show 0 < 1 by decide) (show 0 < 2 by decide)
    (show 0 < 1 by decide) hr).1 0 (by decide)
  rw [attention_unit hx hkey hsS] at hout
  have hforward : forward realNumerics sampleEnv (unitTensor dims 0) (unitTensor [1, 2, 2, 64] 32)
      (unitTensor [1, 2, 2, 32] 0) (unitConfig.withLayout layout) .flash = .ok r := hr
  refine ⟨r, hforward, ?_, hout⟩
  rw [(forward_dims hshape hvalid hforward).1]
  decide

end SciAttention

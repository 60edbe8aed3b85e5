import SciAttention.Attention.Reference
import SciAttention.Common.Strided

/-!
# Addresses of logical elements

A contiguous tensor holds the element `(b, h, t, d)` at its row-major offset, with heads outside tokens in
the BHSD layout and inside them in the BSHD one. `StridesFor` with the tensor's own dimensions gives these
offsets, and they are the numbers below the element count, each once.
-/

namespace SciAttention

/-- `OffsetBHSD`. -/
def offsetBhsd (b h t d seq heads headDim : ℕ) : ℕ := ((b * heads + h) * seq + t) * headDim + d

/-- `OffsetBSHD`. -/
def offsetBshd (b t h d seq heads headDim : ℕ) : ℕ := ((b * seq + t) * heads + h) * headDim + d

theorem offset_bhsd (seq heads headDim b h t d : ℕ) :
    offset (stridesFor .bhsd seq heads headDim) b h t d = offsetBhsd b h t d seq heads headDim := by
  simp only [offset, stridesFor, offsetBhsd]
  ring

theorem offset_bshd (seq heads headDim b h t d : ℕ) :
    offset (stridesFor .bshd seq heads headDim) b h t d = offsetBshd b t h d seq heads headDim := by
  simp only [offset, stridesFor, offsetBshd]
  ring

/-- The kernels write the innermost stride out. -/
theorem offset_stridesFor (layout : AttnLayout) (seq heads headDim b h t d : ℕ) :
    b * (stridesFor layout seq heads headDim).sB + h * (stridesFor layout seq heads headDim).sH +
        t * (stridesFor layout seq heads headDim).sS + d =
      offset (stridesFor layout seq heads headDim) b h t d := by
  cases layout <;> simp only [offset, stridesFor, Nat.mul_one]

/-- The kv head of a query head. -/
theorem ValidShape.kvHead_lt {shape : AttentionShape} (hvalid : ValidShape shape) {h : ℕ}
    (hh : h < shape.numHeads) : h / (shape.numHeads / shape.numKvHeads) < shape.numKvHeads := by
  have hpos : 0 < shape.numHeads / shape.numKvHeads :=
    Nat.div_pos (Nat.le_of_dvd hvalid.numHeads_pos hvalid.group_dvd) hvalid.numKvHeads_pos
  rwa [Nat.div_lt_iff_lt_mul hpos, Nat.mul_div_cancel' hvalid.group_dvd]

/-! ## Bijections -/

/-- The logical coordinates `(b, h, t, d)` of a tensor. -/
def coords (batch heads seq headDim : ℕ) : Set (ℕ × ℕ × ℕ × ℕ) :=
  {c | c.1 < batch ∧ c.2.1 < heads ∧ c.2.2.1 < seq ∧ c.2.2.2 < headDim}

/-- The strides address the coordinates one to one onto the first `numel` elements. -/
def OffsetBijective (s : Strides) (batch heads seq headDim numel : ℕ) : Prop :=
  Set.BijOn (fun c : ℕ × ℕ × ℕ × ℕ => offset s c.1 c.2.1 c.2.2.1 c.2.2.2)
    (coords batch heads seq headDim) (Set.Iio numel)

/-- Row-major offsets are a bijection. -/
theorem bijOn_flat (n₀ n₁ n₂ n₃ : ℕ) :
    Set.BijOn (fun c : ℕ × ℕ × ℕ × ℕ => ((c.1 * n₁ + c.2.1) * n₂ + c.2.2.1) * n₃ + c.2.2.2)
      (coords n₀ n₁ n₂ n₃) (Set.Iio (n₀ * n₁ * n₂ * n₃)) := by
  refine ⟨?_, ?_, ?_⟩
  · rintro ⟨a, b, c, d⟩ ⟨ha, hb, hc, hd⟩
    exact Strided.flat_lt (Strided.flat_lt (Strided.flat_lt ha hb) hc) hd
  · rintro ⟨a, b, c, d⟩ ⟨-, hb, hc, hd⟩ ⟨a', b', c', d'⟩ ⟨-, hb', hc', hd'⟩ heq
    obtain ⟨hrow, rfl⟩ := Strided.mul_add_inj hd hd' heq
    obtain ⟨hcol, rfl⟩ := Strided.mul_add_inj hc hc' hrow
    obtain ⟨rfl, rfl⟩ := Strided.mul_add_inj hb hb' hcol
    rfl
  · intro x hx
    have hlt : x < n₀ * n₁ * n₂ * n₃ := hx
    have h₃ : 0 < n₃ := Nat.pos_of_mul_pos_left (Nat.zero_lt_of_lt hlt)
    have hlt₂ : x / n₃ < n₀ * n₁ * n₂ := (Nat.div_lt_iff_lt_mul h₃).mpr hlt
    have h₂ : 0 < n₂ := Nat.pos_of_mul_pos_left (Nat.zero_lt_of_lt hlt₂)
    have hlt₁ : x / n₃ / n₂ < n₀ * n₁ := (Nat.div_lt_iff_lt_mul h₂).mpr hlt₂
    have h₁ : 0 < n₁ := Nat.pos_of_mul_pos_left (Nat.zero_lt_of_lt hlt₁)
    refine ⟨(x / n₃ / n₂ / n₁, x / n₃ / n₂ % n₁, x / n₃ % n₂, x % n₃), ?_, ?_⟩
    · exact ⟨(Nat.div_lt_iff_lt_mul h₁).mpr hlt₁, Nat.mod_lt _ h₁, Nat.mod_lt _ h₂,
        Nat.mod_lt _ h₃⟩
    · simp only [Nat.div_add_mod']

/-- The strides of either layout address a tensor of their dimensions. -/
theorem offsetBijective_stridesFor (layout : AttnLayout) (batch heads seq headDim : ℕ) :
    OffsetBijective (stridesFor layout seq heads headDim) batch heads seq headDim
      (batch * heads * seq * headDim) := by
  cases layout with
  | bhsd =>
    refine (bijOn_flat batch heads seq headDim).congr fun c _ => ?_
    exact (offset_bhsd _ _ _ _ _ _ _).symm
  | bshd =>
    -- the same offsets with the two middle coordinates exchanged
    have hswap : Set.BijOn (fun c : ℕ × ℕ × ℕ × ℕ => (c.1, c.2.2.1, c.2.1, c.2.2.2))
        (coords batch heads seq headDim) (coords batch seq heads headDim) := by
      refine ⟨fun c hc => ⟨hc.1, hc.2.2.1, hc.2.1, hc.2.2.2⟩, ?_, ?_⟩
      · rintro ⟨a, b, c, d⟩ - ⟨a', b', c', d'⟩ - heq
        simp only [Prod.mk.injEq] at heq ⊢
        tauto
      · rintro ⟨a, b, c, d⟩ ⟨ha, hb, hc, hd⟩
        exact ⟨(a, c, b, d), ⟨ha, hc, hb, hd⟩, rfl⟩
    have hflat := (bijOn_flat batch seq heads headDim).comp hswap
    rw [Nat.mul_right_comm batch seq heads] at hflat
    refine hflat.congr fun c _ => ?_
    exact (offset_bshd _ _ _ _ _ _ _).symm

/-- Strides that address a tensor one to one have its number of elements. -/
theorem OffsetBijective.numel_eq {layout : AttnLayout} {batch heads seq headDim numel : ℕ}
    (h : OffsetBijective (stridesFor layout seq heads headDim) batch heads seq headDim numel) :
    numel = batch * heads * seq * headDim := by
  have himage := h.image_eq.symm.trans
    (offsetBijective_stridesFor layout batch heads seq headDim).image_eq
  exact Set.Iio_injective himage

/-! ## Tensors -/

/-- The number of heads of a tensor in a layout. -/
def Tensor.heads (t : Tensor) : AttnLayout → ℕ
  | .bhsd => t.dim 1
  | .bshd => t.dim 2

/-- The number of tokens of a tensor in a layout. -/
def Tensor.seq (t : Tensor) : AttnLayout → ℕ
  | .bhsd => t.dim 2
  | .bshd => t.dim 1

/-- A four-dimensional tensor has the product of its dimensions as elements. -/
theorem Tensor.numElements_eq {t : Tensor} (h : t.ndims = 4) (layout : AttnLayout) :
    t.numElements = t.dim 0 * t.heads layout * t.seq layout * t.dim 3 := by
  obtain ⟨d₀, d₁, d₂, d₃, hdims⟩ := List.length_eq_four.mp h
  cases layout <;>
    simp [numElements, hdims, dim, heads, seq] <;> ring

/-- What `InferShape` asks of each tensor. -/
structure Tensor.Accepted (t : Tensor) : Prop where
  ndims_eq : t.ndims = 4
  isContiguous : t.isContiguous = true
  dtype : isSupportedComputeDtype t.dtype = true
  deviceType : t.deviceType = .cuda

theorem checkTensor_isOk_iff {t : Tensor} : (checkTensor t).isOk ↔ t.Accepted := by
  simp only [checkTensor, isOk_check, not_not]
  exact ⟨fun h => ⟨h.1, h.2.1, h.2.2.1, h.2.2.2.1⟩,
    fun h => ⟨h.ndims_eq, h.isContiguous, h.dtype, h.deviceType, rfl⟩⟩

/-- The shape that `InferShape` reads off the queries and keys. -/
def shapeOf (q k : Tensor) (layout : AttnLayout) : AttentionShape where
  batch := q.dim 0
  seqQ := q.seq layout
  seqKv := k.seq layout
  numHeads := q.heads layout
  numKvHeads := k.heads layout
  headDim := q.dim 3

/-- The tensors from which a shape is inferred. The head dimension of the keys is not among the
comparisons. -/
@[mk_iff]
structure Inferred (q k v : Tensor) (layout : AttnLayout) (shape : AttentionShape) : Prop where
  q_accepted : q.Accepted
  k_accepted : k.Accepted
  v_accepted : v.Accepted
  k_dtype : q.dtype = k.dtype
  v_dtype : q.dtype = v.dtype
  shape_eq : shape = shapeOf q k layout
  v_heads : v.heads layout = k.heads layout
  v_seq : v.seq layout = k.seq layout
  v_dim : v.dim 3 = q.dim 3
  k_batch : k.dim 0 = q.dim 0
  v_batch : v.dim 0 = q.dim 0

theorem inferShape_eq_ok_iff {q k v : Tensor} {layout : AttnLayout} {shape : AttentionShape} :
    inferShape q k v layout = .ok shape ↔ Inferred q k v layout shape := by
  constructor
  · intro h
    unfold inferShape at h
    split_ifs at h with hq hk hv hdtype
    rw [checkTensor_isOk_iff] at hq hk hv
    rw [not_or, not_not, not_not] at hdtype
    cases layout <;> simp only at h <;> split_ifs at h with hdims hbatch <;>
      rw [not_or, not_or, not_not, not_not, not_not] at hdims <;>
      rw [not_or, not_not, not_not] at hbatch <;> cases h
    · exact ⟨hq, hk, hv, hdtype.1, hdtype.2, rfl, hdims.1, hdims.2.1, hdims.2.2, hbatch.1, hbatch.2⟩
    · exact ⟨hq, hk, hv, hdtype.1, hdtype.2, rfl, hdims.2.1, hdims.1, hdims.2.2, hbatch.1, hbatch.2⟩
  · rintro ⟨hq, hk, hv, hkd, hvd, rfl, hheads, hseq, hdim, hkb, hvb⟩
    rw [← checkTensor_isOk_iff] at hq hk hv
    have hdtype : ¬ (q.dtype ≠ k.dtype ∨ q.dtype ≠ v.dtype) := by simp [← hkd, ← hvd]
    unfold inferShape
    rw [if_neg (not_not.mpr hq), if_neg (not_not.mpr hk), if_neg (not_not.mpr hv), if_neg hdtype]
    cases layout <;> simp only [Tensor.heads, Tensor.seq] at hheads hseq <;>
      simp [hheads, hseq, hdim, hkb, hvb, shapeOf, Tensor.heads, Tensor.seq]

end SciAttention

import SciAttention.Attention.Paged
import SciAttention.Attention.RealNumerics

/-!
# Split-K decode under every number of splits

The output of the two decode kernels is the softmax average over all positions of the request, whatever the
number of splits is, also when some of them are empty. The chunks of the splits cut the positions without
gap or overlap, and each request of the partial kernel has scratch cells of its own.
-/

namespace SciAttention

open Flt Softmax

section Splits

variable {𝕜 : Type*}

/-- The parameters with another split count and the scratch pointers that the host derives from it. -/
def DecodeFwdParams.withSplits (p : DecodeFwdParams 𝕜) (n : ℕ) : DecodeFwdParams 𝕜 :=
  let base := p.batch * p.numHeads * n
  { p with numSplits := n, partialM := 0, partialL := base, partialO := base + base }

theorem DecodeFwdParams.partialLayout_withSplits (p : DecodeFwdParams 𝕜) (n : ℕ) :
    PartialLayout (p.withSplits n) :=
  ⟨(Nat.zero_add _).symm, by
    change p.batch * p.numHeads * n + p.batch * p.numHeads * n = 0 + 2 * (p.batch * p.numHeads * n)
    omega⟩

/-! ## Chunks -/

/-- The chunks of the splits hold every position below the length once. -/
theorem chunks_perm (p : DecodeFwdParams 𝕜) (hs : 0 < p.numSplits) (b : ℕ) :
    ((List.range p.numSplits).flatMap (p.tokens b)).Perm
      ((List.range (p.seqLen b).toNat).map fun j : ℕ => (j : ℤ)) := by
  have hnodup : ((List.range p.numSplits).flatMap (p.tokens b)).Nodup := by
    refine List.nodup_flatMap.mpr ⟨fun s _ => p.nodup_tokens b s,
      List.nodup_range.imp fun {s t} hst => ?_⟩
    exact List.disjoint_left.mpr fun j hj hj' => hst (p.tokens_disjoint hj hj')
  have hcast : ((List.range (p.seqLen b).toNat).map fun j : ℕ => (j : ℤ)).Nodup :=
    List.nodup_range.map Nat.cast_injective
  refine (List.perm_ext_iff_of_nodup hnodup hcast).mpr fun j => ?_
  have hmem : (∃ split < p.numSplits, j ∈ p.tokens b split) ↔ 0 ≤ j ∧ j < p.seqLen b :=
    p.exists_mem_tokens hs
  simp only [List.mem_flatMap, List.mem_range, List.mem_map] at hmem ⊢
  rw [hmem]
  constructor
  · rintro ⟨hj, hlen⟩
    exact ⟨j.toNat, by omega, by omega⟩
  · rintro ⟨n, hn, rfl⟩
    omega

/-! ## Scratch cells -/

namespace DecodeFwdParams

/-- The cells of the partials of one split of `(b, h)`: `partial_m`, `partial_l` and `partial_o`. -/
def partialCells (p : DecodeFwdParams 𝕜) (b h s : ℕ) : List ℕ :=
  (p.partialM + p.flatOf b h s) :: (p.partialL + p.flatOf b h s) ::
    (List.range p.headDim).map fun d => p.partialO + (p.flatOf b h s * p.headDim + d)

variable {p : DecodeFwdParams 𝕜} {b h s b' h' s' c : ℕ}

theorem mem_partialCells : c ∈ p.partialCells b h s ↔
    c = p.partialM + p.flatOf b h s ∨ c = p.partialL + p.flatOf b h s ∨
      ∃ d < p.headDim, c = p.partialO + (p.flatOf b h s * p.headDim + d) := by
  simp only [partialCells, List.mem_cons, List.mem_map, List.mem_range, eq_comm (b := c)]

/-- The flat index determines the request. -/
theorem flatOf_inj (hh : h < p.numHeads) (hs : s < p.numSplits) (hh' : h' < p.numHeads)
    (hs' : s' < p.numSplits) (heq : p.flatOf b h s = p.flatOf b' h' s') : b = b' ∧ h = h' ∧ s = s' := by
  obtain ⟨hrow, rfl⟩ := Strided.mul_add_inj hs hs' heq
  obtain ⟨rfl, rfl⟩ := Strided.mul_add_inj hh hh' hrow
  exact ⟨rfl, rfl, rfl⟩

/-- Different requests use different cells. -/
theorem partialCells_disjoint (hlay : PartialLayout p) (hb : b < p.batch) (hh : h < p.numHeads)
    (hs : s < p.numSplits) (hb' : b' < p.batch) (hh' : h' < p.numHeads) (hs' : s' < p.numSplits)
    (hc : c ∈ p.partialCells b h s) (hc' : c ∈ p.partialCells b' h' s') :
    b = b' ∧ h = h' ∧ s = s' := by
  have hflat := p.flatOf_lt hb hh hs
  have hflat' := p.flatOf_lt hb' hh' hs'
  have hl := hlay.l_eq
  have ho := hlay.o_eq
  refine flatOf_inj hh hs hh' hs' ?_
  obtain hc | hc | ⟨d, hd, hc⟩ := mem_partialCells.mp hc <;>
    obtain hc' | hc' | ⟨d', hd', hc'⟩ := mem_partialCells.mp hc'
  all_goals first | omega | skip
  -- both are cells of `partial_o`
  exact (Strided.mul_add_inj hd hd' (Nat.add_left_cancel (hc.symm.trans hc'))).1

/-- A request uses each of its cells for one value. -/
theorem nodup_partialCells (hlay : PartialLayout p) (hb : b < p.batch) (hh : h < p.numHeads)
    (hs : s < p.numSplits) : (p.partialCells b h s).Nodup := by
  have hflat := p.flatOf_lt hb hh hs
  have hl := hlay.l_eq
  have ho := hlay.o_eq
  refine List.nodup_cons.mpr ⟨?_, List.nodup_cons.mpr ⟨?_, List.nodup_range.map ?_⟩⟩
  · simp only [List.mem_cons, List.mem_map, not_or, not_exists]
    exact ⟨by omega, fun d hd => by omega⟩
  · simp only [List.mem_map, not_exists]
    exact fun d hd => by omega
  · intro d d' heq
    simpa using heq

/-- The cells lie inside the floats that `PartialElements` counts. -/
theorem partialCells_lt (hlay : PartialLayout p) (hzero : p.partialM = 0) (hb : b < p.batch)
    (hh : h < p.numHeads) (hs : s < p.numSplits) (hc : c ∈ p.partialCells b h s) :
    c < partialElements p.batch p.numHeads p.numSplits p.headDim := by
  have hflat := p.flatOf_lt hb hh hs
  have hl := hlay.l_eq
  have ho := hlay.o_eq
  have htotal : partialElements p.batch p.numHeads p.numSplits p.headDim =
      2 * p.requests + p.requests * p.headDim := by
    rw [partialElements, requests]
    ring
  obtain hc | hc | ⟨d, hd, hc⟩ := mem_partialCells.mp hc
  · omega
  · omega
  · have := Strided.flat_lt hflat hd
    omega

end DecodeFwdParams

/-! ## The kernels -/

variable [Field 𝕜] [LinearOrder 𝕜] {num : Numerics 𝕜} {p : DecodeFwdParams 𝕜}
    {buf : DecodeBuffers 𝕜}
  {b h s : ℕ}

/-- A warp of the partial kernel writes the cells of its request. -/
theorem decodePartialKernel_cells {w : ℕ × Flt 𝕜}
    (hw : w ∈ decodePartialKernel num p buf (p.flatOf b h s)) : w.1 ∈ p.partialCells b h s := by
  obtain ⟨-, rfl | rfl | ⟨lane, hlane, i, hi, rfl⟩⟩ := mem_decodePartialKernel.mp hw
  · exact DecodeFwdParams.mem_partialCells.mpr (.inl rfl)
  · exact DecodeFwdParams.mem_partialCells.mpr (.inr (.inl rfl))
  · exact DecodeFwdParams.mem_partialCells.mpr (.inr (.inr ⟨_, p.lane_lt hlane hi, rfl⟩))

/-- A sum over the splits reads `partial_m` and its terms at the splits only. -/
theorem sumOfSplits_congr {partials partials' : ℕ → Flt 𝕜} {base : ℕ} {term term' : ℕ → Flt 𝕜}
    (hm : ∀ s < p.numSplits, partials (p.partialM + (base + s)) = partials' (p.partialM + (base + s)))
    (hterm : ∀ s < p.numSplits, term s = term' s) :
    sumOfSplits num p partials base term = sumOfSplits num p partials' base term' := by
  have hmax : maxOfSplits p partials base = maxOfSplits p partials' base :=
    List.foldl_ext _ _ _ fun m s hs => by rw [hm s (List.mem_range.mp hs)]
  refine List.foldl_ext _ _ _ fun total s hs => ?_
  rw [hmax, hm s (List.mem_range.mp hs), hterm s (List.mem_range.mp hs)]

/-- A warp of the reduce kernel reads the cells of the splits of its `(b, h)` and no others. -/
theorem decodeReduceKernel_congr {partials partials' : ℕ → Flt 𝕜}
    (hcells : ∀ s < p.numSplits, ∀ c ∈ p.partialCells b h s, partials c = partials' c) :
    decodeReduceKernel num p partials (b * p.numHeads + h) =
      decodeReduceKernel num p partials' (b * p.numHeads + h) := by
  have hm : ∀ s < p.numSplits, partials (p.partialM + ((b * p.numHeads + h) * p.numSplits + s)) =
      partials' (p.partialM + ((b * p.numHeads + h) * p.numSplits + s)) := fun s hs =>
    hcells s hs _ (DecodeFwdParams.mem_partialCells.mpr (.inl rfl))
  have hl : ∀ s < p.numSplits, partials (p.partialL + ((b * p.numHeads + h) * p.numSplits + s)) =
      partials' (p.partialL + ((b * p.numHeads + h) * p.numSplits + s)) := fun s hs =>
    hcells s hs _ (DecodeFwdParams.mem_partialCells.mpr (.inr (.inl rfl)))
  unfold decodeReduceKernel
  refine if_congr Iff.rfl rfl ?_
  simp only
  refine Strided.flatMap_congr fun lane hlane => List.map_congr_left fun i hi => ?_
  have hd := p.lane_lt (List.mem_range.mp hlane) (List.mem_range.mp hi)
  have ho : sumOfSplits num p partials _ _ = sumOfSplits num p partials' _ _ :=
    sumOfSplits_congr hm fun s hs =>
      hcells s hs _ (DecodeFwdParams.mem_partialCells.mpr (.inr (.inr ⟨_, hd, rfl⟩)))
  rw [sumOfSplits_congr hm hl]
  exact congrArg (fun x => (_, x * _)) ho

/-- `decode_partial_kernel` over all requests, then `decode_reduce_kernel`. -/
def splitK (num : Numerics 𝕜) (p : DecodeFwdParams 𝕜) (buf : DecodeBuffers 𝕜) : ℕ → Flt 𝕜 :=
  let partials :=
    Scatter.apply buf.partials (onWarps ((p.requests + 3) / 4) (decodePartialKernel num p buf))
  Scatter.apply buf.out (onWarps ((p.batch * p.numHeads + 3) / 4) (decodeReduceKernel num p partials))

/-- The output of `n` splits and the memory they work in. -/
structure SplitKExact (num : Numerics 𝕜) (p : DecodeFwdParams 𝕜) (buf : DecodeBuffers 𝕜) (n : ℕ) :
    Prop where
  out : ∀ b < p.batch, ∀ h < p.numHeads, ∀ d < p.headDim,
    splitK num (p.withSplits n) buf (outIndex p b h d) =
      fin (average num.E (scores num p buf b h) (fun j => valueAt num p buf b h j d)
        (Finset.Ico 0 (p.seqLen b)))
  empty : ∀ b < p.batch, p.seqLen b = 0 → ∀ h < p.numHeads, ∀ d < p.headDim,
    splitK num (p.withSplits n) buf (outIndex p b h d) = 0
  chunks : ∀ b, ((List.range n).flatMap ((p.withSplits n).tokens b)).Perm
    ((List.range (p.seqLen b).toNat).map fun j : ℕ => (j : ℤ))
  written : ∀ b h s, ∀ w ∈ decodePartialKernel num (p.withSplits n) buf ((p.withSplits n).flatOf b h s),
    w.1 ∈ (p.withSplits n).partialCells b h s
  read : ∀ b h, ∀ partials partials' : ℕ → Flt 𝕜,
    (∀ s < n, ∀ c ∈ (p.withSplits n).partialCells b h s, partials c = partials' c) →
      decodeReduceKernel num (p.withSplits n) partials (b * p.numHeads + h) =
        decodeReduceKernel num (p.withSplits n) partials' (b * p.numHeads + h)
  disjoint : ∀ b < p.batch, ∀ h < p.numHeads, ∀ s < n, ∀ b' < p.batch, ∀ h' < p.numHeads,
    ∀ s' < n,
    (b, h, s) ≠ (b', h', s') →
      ((p.withSplits n).partialCells b h s).Disjoint ((p.withSplits n).partialCells b' h' s')
  nodup : ∀ b < p.batch, ∀ h < p.numHeads, ∀ s < n, ((p.withSplits n).partialCells b h s).Nodup
  inside : ∀ b < p.batch, ∀ h < p.numHeads, ∀ s < n, ∀ c ∈ (p.withSplits n).partialCells b h s,
    c < partialElements p.batch p.numHeads n p.headDim

/-- Split-K decode of a contiguous request is exact, whatever the number of splits is. -/
theorem splitK_exact [IsStrictOrderedRing 𝕜] (num : Numerics 𝕜) (p : DecodeFwdParams 𝕜)
    (buf : DecodeBuffers 𝕜) (hpage : p.pageTable = none) (hdim : 32 ∣ p.headDim)
    (ho : p.oStride.sB = p.numHeads * p.headDim ∧ p.oStride.sH = p.headDim) {n : ℕ} (hn : 0 < n) :
    SplitKExact num p buf n := by
  have hlay := p.partialLayout_withSplits n
  have hinj : OutInjective (p.withSplits n) := by
    intro b h d b' h' d' hh hh' hd hd' heq
    have hindex : ∀ b h d, outIndex (p.withSplits n) b h d = (b * p.numHeads + h) * p.headDim + d := by
      intro b h d
      change b * p.oStride.sB + h * p.oStride.sH + d = _
      rw [ho.1, ho.2]
      ring
    rw [hindex, hindex] at heq
    obtain ⟨hrow, hcol⟩ := Strided.mul_add_inj hd hd' heq
    obtain ⟨hb, hhead⟩ := Strided.mul_add_inj hh hh' hrow
    exact ⟨hb, hhead, hcol⟩
  -- a dense request maps every position
  have hvisible : ∀ b, (p.withSplits n).visible b = Finset.Ico 0 (p.seqLen b) := by
    intro b
    refine Finset.filter_true_of_mem fun j _ hsome => ?_
    change p.pageTable.isSome at hsome
    rw [hpage] at hsome
    cases hsome
  have hout : ∀ b < p.batch, ∀ h < p.numHeads, ∀ d < p.headDim,
      splitK num (p.withSplits n) buf (outIndex p b h d) =
        fin (average num.E (scores num p buf b h) (fun j => valueAt num p buf b h j d)
          (Finset.Ico 0 (p.seqLen b))) := by
    intro b hb h hh d hd
    rw [← hvisible]
    exact (reduce_cell num _ _ hinj hdim (by omega) hb hh hd).trans
      ((SplitsHeld.of_partialKernel hlay (by omega) hdim hb hh).reducedAt_eq hn hd)
  refine ⟨hout, fun b hb hzero h hh d hd => ?_, fun b => chunks_perm (p.withSplits n) hn b,
    fun b h s w hw => decodePartialKernel_cells hw, fun b h partials partials' hcells =>
    decodeReduceKernel_congr hcells, fun b hb h hh s hs b' hb' h' hh' s' hs' hne => ?_,
    fun b hb h hh s hs => DecodeFwdParams.nodup_partialCells hlay hb hh hs,
    fun b hb h hh s hs c hc => DecodeFwdParams.partialCells_lt hlay rfl hb hh hs hc⟩
  · rw [hout b hb h hh d hd, hzero, Finset.Ico_self, average, mass_empty, zero_div]
    rfl
  · refine List.disjoint_left.mpr fun c hc hc' => hne ?_
    obtain ⟨rfl, rfl, rfl⟩ := DecodeFwdParams.partialCells_disjoint hlay hb hh hs hb' hh' hs' hc hc'
    rfl

end Splits

/-- Two heads with three tokens. -/
noncomputable def shortParams : DecodeFwdParams ℝ where
  q := some fun _ => 0
  k := some fun _ => 0
  v := some onesHalf
  out := some fun _ => 0
  partials := some fun _ => 0
  partialM := 0
  partialL := 0
  partialO := 0
  batch := 1
  numHeads := 2
  numKvHeads := 1
  seqKv := 3
  headDim := 32
  numSplits := 1
  qStride := ⟨64, 32, 32⟩
  kStride := ⟨96, 96, 32⟩
  vStride := ⟨96, 96, 32⟩
  oStride := ⟨64, 32, 32⟩
  scale := 1
  dtype := .fp16

/-- More splits than tokens. -/
theorem splitK_exact_short : SplitKExact realNumerics shortParams
    ⟨fun _ => 0, fun _ => 0, onesHalf, fun _ => 0, fun _ => 0⟩ 5 :=
  splitK_exact realNumerics shortParams _ rfl (by decide) ⟨rfl, rfl⟩ (by decide)

end SciAttention

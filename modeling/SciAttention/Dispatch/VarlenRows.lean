import SciAttention.Dispatch.VarlenSafety

/-!
# Packed batches and their sequences

`flash_attention_varlen` on a packed batch against `flash_attention` on each of its sequences. The packed
entry point validates with the greatest lengths only and skips most of `Validate`, so that it also serves
batches that hold a sequence the other entry point refuses. Where it serves no such batch, the two succeed
together and the packed output holds the sequences' outputs row by row.
-/

namespace SciAttention

open Flt Softmax Results

/-! ## Sequences -/

/-- The `seq` tokens of a packed tensor from token `first` on, as a tensor `[1, seq, H, D]`. -/
def Tensor.slice (t : Tensor) (first seq : ℕ) : Tensor :=
  { t with
    dims := [1, seq, t.dim 1, t.dim 2]
    data := t.data.map (·.advance (first * (t.dim 1 * t.dim 2 * dtypeSize t.dtype))) }

/-- A packed batch of `n` sequences: `q` is `[T_q, H_q, D]`, `k` and `v` are `[T_kv, H_kv, D]`, of one half
precision, and the offsets increase from zero to the number of tokens. -/
structure PackedBatch (q k v : Tensor) (cuQ cuKv : ℕ → Int32) (n : ℕ) (maxSeqQ maxSeqKv : ℤ) :
    Prop where
  num_pos : 1 ≤ n
  q_ndims : q.ndims = 3
  k_dims : k.dims = [k.dim 0, k.dim 1, q.dim 2]
  v_dims : v.dims = k.dims
  half : q.dtype = .float16 ∨ q.dtype = .bfloat16
  k_dtype : k.dtype = q.dtype
  v_dtype : v.dtype = q.dtype
  q_offsets : Offsets cuQ n
  kv_offsets : Offsets cuKv n
  q_tokens : (cuQ n).toInt = q.dim 0
  kv_tokens : (cuKv n).toInt = k.dim 0
  q_max : IsGreatest (lengths cuQ n) maxSeqQ
  kv_max : IsGreatest (lengths cuKv n) maxSeqKv

section Rows

variable {𝕜 : Type} [Field 𝕜] [LinearOrder 𝕜] {dev : Device}

/-- The configuration of the calls on single sequences. -/
def seqConfig (cfg : AttentionConfig 𝕜) : AttentionConfig 𝕜 := { cfg with layout := .bshd }

/-- `flash_attention` on sequence `s` of a packed batch. -/
def seqForward (num : Numerics 𝕜) (env : ForwardEnv 𝕜 dev) (q k v : Tensor) (cfg : AttentionConfig 𝕜)
    (seq : VarlenSeq) : Except Status (AttentionResult 𝕜) :=
  flashForward num env (q.slice seq.qToken.toNat seq.seqQ.toNat)
    (k.slice seq.kvToken.toNat seq.seqKv.toNat) (v.slice seq.kvToken.toNat seq.seqKv.toNat) (seqConfig cfg)

variable {num : Numerics 𝕜} {env : VarlenEnv 𝕜 dev} {envs : ℕ → ForwardEnv 𝕜 dev}
    {q k v : Tensor}
  {cfg : AttentionConfig 𝕜} {cuQ cuKv : ℕ → Int32} {n : ℕ} {maxSeqQ maxSeqKv : ℤ}

namespace PackedBatch

variable (hb : PackedBatch q k v cuQ cuKv n maxSeqQ maxSeqKv)

include hb

theorem k_dim : k.ndims = 3 ∧ k.dim 2 = q.dim 2 := by
  have hdims := hb.k_dims
  refine ⟨by rw [Tensor.ndims, hdims]; rfl, ?_⟩
  conv_lhs => rw [Tensor.dim, hdims]
  rfl

theorem v_dim (i : ℕ) : v.dim i = k.dim i := by rw [Tensor.dim, hb.v_dims, Tensor.dim]

theorem v_ndims : v.ndims = 3 := by
  rw [Tensor.ndims, hb.v_dims]
  exact hb.k_dim.1

theorem flashDtypeIdFor_ne : flashDtypeIdFor q.dtype ≠ 0 := by
  rcases hb.half with h | h <;> rw [h] <;> decide

/-- The shape of a sequence is inferred where the tensors are contiguous and on the device. -/
theorem inferShape_slice (seq : VarlenSeq) {shape : AttentionShape} :
    inferShape (q.slice seq.qToken.toNat seq.seqQ.toNat) (k.slice seq.kvToken.toNat seq.seqKv.toNat)
        (v.slice seq.kvToken.toNat seq.seqKv.toNat) .bshd = .ok shape ↔
      (∀ t ∈ [q, k, v], t.isContiguous = true ∧ t.deviceType = .cuda) ∧
        shape = varlenShape q k seq.seqQ seq.seqKv := by
  have hcompute : isSupportedComputeDtype q.dtype = true := by
    rcases hb.half with h | h <;> rw [h] <;> decide
  -- a slice passes the checks of its tensor; its dimensions are right by construction
  have haccepted : ∀ t ∈ [q, k, v], ∀ first len,
      (t.slice first len).Accepted ↔ t.isContiguous = true ∧ t.deviceType = .cuda := by
    intro t ht first len
    have hdt : t.dtype = q.dtype := by
      simp only [List.mem_cons, List.not_mem_nil, or_false] at ht
      rcases ht with rfl | rfl | rfl
      exacts [rfl, hb.k_dtype, hb.v_dtype]
    constructor
    · exact fun h => ⟨h.isContiguous, h.deviceType⟩
    · exact fun h => ⟨rfl, h.1, by rw [← hcompute, ← hdt]; rfl, h.2⟩
  rw [inferShape_eq_ok_iff, inferred_iff, haccepted q (by simp), haccepted k (by simp),
    haccepted v (by simp)]
  have hlast : v.dim 2 = q.dim 2 := by rw [hb.v_dim, hb.k_dim.2]
  constructor
  · rintro ⟨hq, hk, hv, -, -, rfl, -⟩
    exact ⟨by simp [hq, hk, hv], rfl⟩
  · rintro ⟨hall, rfl⟩
    refine ⟨hall q (by simp), hall k (by simp), hall v (by simp), hb.k_dtype.symm, hb.v_dtype.symm, rfl,
      ?_, rfl, hlast, rfl, rfl⟩
    exact hb.v_dim 1

/-- A call on one sequence succeeds. -/
theorem seqForward_isOk_iff {env : ForwardEnv 𝕜 dev} {seq : VarlenSeq} :
    (∃ r, seqForward num env q k v cfg seq = .ok r) ↔
      (∀ t ∈ [q, k, v], t.isContiguous = true ∧ t.deviceType = .cuda) ∧
        ValidRequest (seqConfig cfg) (varlenShape q k seq.seqQ seq.seqKv) ∧
        (dev.cudaAvailable = true ∧ ∃ tile, FlashTileFits dev q.dtype (q.dim 2) tile) ∧
        OutFits env cfg.returnLse (varlenShape q k seq.seqQ seq.seqKv) ∧ HasData q k v ∧
          env.launch 0 = .ok := by
  have hdata : HasData (q.slice seq.qToken.toNat seq.seqQ.toNat) (k.slice seq.kvToken.toNat seq.seqKv.toNat)
      (v.slice seq.kvToken.toNat seq.seqKv.toNat) ↔ HasData q k v := by
    simp only [HasData, Tensor.slice, Option.isSome_map]
  constructor
  · rintro ⟨r, hr⟩
    obtain ⟨shape, hinfer, -⟩ := bind_eq_ok.mp hr
    obtain ⟨hshape, hvalid⟩ := valid_of_inferValid hinfer
    obtain ⟨hall, rfl⟩ := (hb.inferShape_slice seq).mp hshape
    have hreq := validate_isOk_iff.mp hvalid
    obtain ⟨tile, htile, -⟩ := exists_flashTile hreq.validShape
    obtain ⟨⟨hcuda, -, hsmem⟩, hfits, hsome, hok⟩ :=
      (flashForward_isOk_iff hshape hvalid htile).mp ⟨r, hr⟩
    exact ⟨hall, hreq, ⟨hcuda, tile, htile, hsmem⟩, hfits, hdata.mp hsome, hok⟩
  · rintro ⟨hall, hreq, ⟨hcuda, tile, htile, hsmem⟩, hfits, hsome, hok⟩
    have hshape := (hb.inferShape_slice seq).mpr ⟨hall, rfl⟩
    exact (flashForward_isOk_iff hshape (validate_isOk_iff.mpr hreq) htile).mpr
      ⟨⟨hcuda, hb.flashDtypeIdFor_ne, hsmem⟩, hfits, hdata.mpr hsome, hok⟩

end PackedBatch

/-! ## Batches -/

omit [Field 𝕜] [LinearOrder 𝕜] in
theorem exists_of_map_eq_ok {α β : Type} {x : Except Status α} {f : α → β} {b : β}
    (h : x.map f = .ok b) : ∃ a, x = .ok a := by
  cases x with
  | error e => cases h
  | ok a => exact ⟨a, rfl⟩

variable (num env q k v cfg cuQ cuKv) in
/-- The loop gets to its end when every iteration succeeds. -/
theorem varlenLoop_isOk_iff {l : List ℕ} {scale : 𝕜} (good : ℕ → Prop)
    (hstep : ∀ s ∈ l, ∀ out,
      (∃ out', varlenStep num env q k v cfg scale cuQ cuKv s out = .ok out') ↔
      good s) (out : ℕ → Flt 𝕜) :
    (∃ out', (varlenLoop num env q k v cfg scale cuQ cuKv l out).2 = .ok out') ↔ ∀ s ∈ l, good s := by
  induction l generalizing out with
  | nil => simp [varlenLoop]
  | cons s l ih =>
    have hs := hstep s List.mem_cons_self out
    have hrest := fun out' => ih (fun t ht => hstep t (List.mem_cons_of_mem _ ht)) out'
    rw [List.forall_mem_cons, ← hs]
    cases hrun : varlenStep num env q k v cfg scale cuQ cuKv s out with
    | error e => simp [varlenLoop, hrun]
    | ok out' =>
      simp only [varlenLoop, hrun, hrest, Except.ok.injEq, exists_eq', true_and]

/-- A packed call succeeds when its request is served and the device runs every kernel. -/
theorem forwardVarlen_isOk_iff {numSeqs : ℤ} (hseqs : 1 ≤ numSeqs) (hq : Offsets cuQ numSeqs.toNat)
    (hkv : Offsets cuKv numSeqs.toNat) :
    (∃ r, (forwardVarlen num env q k v cfg numSeqs (some cuQ) (some cuKv) maxSeqQ maxSeqKv).outcome =
        .ok r) ↔
      VarlenForm q k v cfg maxSeqQ maxSeqKv ∧ k.dim 1 ≠ 0 ∧ VarlenServed env q k v cfg ∧
        ∀ s < numSeqs.toNat, env.launch s = .ok := by
  -- the preparation fixes the tile for all sequences
  have hloop : ∀ {tile out}, varlenPrepare env q k v cfg numSeqs maxSeqQ maxSeqKv = .ok (tile, out) →
      ((∃ out', (varlenLoop num env q k v cfg (effectiveScale num cfg (varlenShape q k maxSeqQ maxSeqKv))
        cuQ cuKv (List.range numSeqs.toNat) out).2 = .ok out') ↔
        ∀ s < numSeqs.toNat, VarlenLaunchable q k v ∧ env.launch s = .ok) := by
    intro tile out hprep
    obtain ⟨hform, -, ⟨-, htile, -⟩, -⟩ := (varlenPrepare_eq_ok hseqs).mp hprep
    rw [varlenLoop_isOk_iff num env q k v cfg cuQ cuKv (fun s => VarlenLaunchable q k v ∧
      env.launch s = .ok) fun s hs out' =>
        varlenStep_isOk_iff hq hkv (List.mem_range.mp hs) hform.half htile.1 _ out']
    simp only [List.mem_range]
  constructor
  · rintro ⟨r, hr⟩
    cases hprep : varlenPrepare env q k v cfg numSeqs maxSeqQ maxSeqKv with
    | error e => simp [forwardVarlen, hprep] at hr
    | ok res =>
      obtain ⟨tile, out⟩ := res
      obtain ⟨hform, ⟨hne, hdvd⟩, ⟨hcuda, htile, hwindow⟩, hout⟩ :=
        (varlenPrepare_eq_ok hseqs).mp hprep
      simp only [forwardVarlen, hprep, orAbort_eq_ok] at hr
      have hall := (hloop hprep).mp (exists_of_map_eq_ok hr)
      exact ⟨hform, hne, ⟨hdvd, hcuda, ⟨tile, htile⟩, hwindow, Option.isSome_of_eq_some hout,
        (hall 0 (by omega)).1⟩, fun s hs => (hall s hs).2⟩
  · rintro ⟨hform, hne, hserved, hok⟩
    obtain ⟨tile, htile⟩ := hserved.tile_fits
    obtain ⟨out, hout⟩ := Option.isSome_iff_exists.mp hserved.alloc
    have hprep := (varlenPrepare_eq_ok hseqs).mpr ⟨hform, ⟨hne, hserved.group_dvd⟩,
      ⟨hserved.cudaAvailable, htile, hserved.slidingWindow_le⟩, hout⟩
    obtain ⟨out', hout'⟩ := (hloop hprep).mpr fun s hs => ⟨hserved.launchable, hok s hs⟩
    simp only [forwardVarlen, hprep, orAbort_eq_ok, hout']
    exact ⟨_, rfl⟩

/-! ## Rows -/

/-- The attention problem of one sequence. -/
def seqProblem (num : Numerics 𝕜) (q k v : Tensor) (cfg : AttentionConfig 𝕜) (seq : VarlenSeq) :
    AttnProblem 𝕜 :=
  requestProblem num (q.slice seq.qToken.toNat seq.seqQ.toNat) (k.slice seq.kvToken.toNat seq.seqKv.toNat)
    (v.slice seq.kvToken.toNat seq.seqKv.toNat) (seqConfig cfg) (varlenShape q k seq.seqQ seq.seqKv)

/-- The element of the packed output with the given token, head and coordinate. -/
def packedIndex (q : Tensor) (token h d : ℕ) : ℕ := (token * q.dim 1 + h) * q.dim 2 + d

omit [Field 𝕜] [LinearOrder 𝕜] in
theorem packedIndex_add (q : Tensor) (token i h d : ℕ) :
    packedIndex q (token + i) h d = token * qTokenElems q + packedIndex q i h d := by
  unfold packedIndex qTokenElems
  ring

omit [Field 𝕜] [LinearOrder 𝕜] in
theorem packedIndex_lt {q : Tensor} {i h d len : ℕ} (hi : i < len) (hh : h < q.dim 1) (hd : d < q.dim 2) :
    packedIndex q i h d < len * qTokenElems q := by
  have := Strided.flat_lt (Strided.flat_lt hi hh) hd
  rwa [Nat.mul_assoc] at this

variable (num cfg) in
/-- A launch of a packed sequence works on the problem of its slices. -/
theorem varlenParams_problem (hb : PackedBatch q k v cuQ cuKv n maxSeqQ maxSeqKv) {seq : VarlenSeq}
    (hpos : 0 ≤ seq.seqQ ∧ 0 ≤ seq.seqKv) {out : ℕ → Flt 𝕜} {buf : FlashBuffers 𝕜} :
    let p := varlenParams q k v cfg (effectiveScale num cfg (varlenShape q k maxSeqQ maxSeqKv)) seq out
    p.q = some buf.q → p.k = some buf.k → p.v = some buf.v →
      p.problem num buf q.dtype p.headDim = seqProblem num q k v cfg seq := by
  intro p hq hk hv
  have hkslice : (k.slice seq.kvToken.toNat seq.seqKv.toNat).data = p.k := by
    simp only [p, varlenParams, Tensor.slice, kvTokenElems, hb.k_dim.2, hb.k_dtype]
  have hvslice : (v.slice seq.kvToken.toNat seq.seqKv.toNat).data = p.v := by
    simp only [p, varlenParams, Tensor.slice, kvTokenElems, hb.v_dim, hb.k_dim.2, hb.v_dtype]
  rw [seqProblem, requestProblem, Tensor.bytes_eq (show (q.slice _ _).data = some buf.q from hq),
    Tensor.bytes_eq (hkslice.trans hk), Tensor.bytes_eq (hvslice.trans hv)]
  have hdiag : diagonalOf (seqConfig cfg) (varlenShape q k seq.seqQ seq.seqKv) = p.diagonal := by
    simp only [diagonalOf, seqConfig, varlenShape, p, varlenParams, Int.toNat_of_nonneg hpos.1,
      Int.toNat_of_nonneg hpos.2]
  rw [hdiag]
  simp only [FlashFwdParams.problem, AttnProblem.ofMemory, p, varlenParams, qStrides, kvStrides, seqConfig,
    stridesFor, varlenShape, Nat.mul_assoc, effectiveScale, Tensor.slice]
  rfl

variable [IsStrictOrderedRing 𝕜]

/-- The store of one output element of a sequence, relative to its first token. -/
def rowStore (num : Numerics 𝕜) (q k v : Tensor) (cfg : AttentionConfig 𝕜) (seq : VarlenSeq)
    (i h d : ℕ) : ℕ × Flt 𝕜 :=
  (packedIndex q i h d, fin ((seqProblem num q k v cfg seq).attention num.E 0 h i d))

/-- What one iteration stores behind the first token of its sequence: the rows of the sequence, and nothing
else. -/
theorem varlenStep_eq_ok (hb : PackedBatch q k v cuQ cuKv n maxSeqQ maxSeqKv) {s : ℕ} (hs : s < n)
    {tile : FlashTile} (htile : findFlashTile (q.dim 2) = some tile) (hheads : q.dim 1 < 2 ^ 31)
    {out out' : ℕ → Flt 𝕜}
    (hrun : varlenStep num env q k v cfg (effectiveScale num cfg (varlenShape q k maxSeqQ maxSeqKv)) cuQ cuKv
      s out = .ok out') :
    let seq := varlenSeq cuQ cuKv s
    let base := seq.qToken.toNat * qTokenElems q
    ∃ stores, out' = writeBack base out (Scatter.apply (fun a => out (base + a)) stores) ∧
      ∀ w, w ∈ stores ↔ ∃ i < seq.seqQ.toNat, ∃ h < q.dim 1, ∃ d < q.dim 2,
        w = rowStore num q k v cfg seq i h d := by
  intro seq base
  obtain ⟨hposq, hposkv, hlt⟩ : 0 < seq.seqQ ∧ 0 < seq.seqKv ∧ seq.seqQ < 2 ^ 31 :=
    varlenSeq_pos hb.q_offsets hb.kv_offsets hs
  simp only [varlenStep, bind_eq_ok, failIf_eq_ok, pure_eq_ok, Except.ok.injEq] at hrun
  obtain ⟨-, -, res, hlaunch, rfl⟩ := hrun
  set p := varlenParams q k v cfg (effectiveScale num cfg (varlenShape q k maxSeqQ maxSeqKv)) seq out with hp
  have hseqQ : p.seqQ = seq.seqQ.toNat := rfl
  have hseqKv : p.seqKv = seq.seqKv.toNat := rfl
  obtain ⟨buf, tile, ⟨hq, hk, hv, ho⟩, ⟨hc, hstages, hM, hdvd⟩, rfl⟩ :=
    launchFlashFwd_grid hlaunch (validShape_of_tile htile) rfl (show p.dtypeId = _ from rfl)
      (by omega) hheads (show 1 < 2 ^ 31 by decide)
  have hproblem : p.problem num buf q.dtype p.headDim = seqProblem num q k v cfg seq :=
    varlenParams_problem num cfg hb ⟨hposq.le, hposkv.le⟩ hq hk hv
  have hout : buf.out = fun a => out (base + a) := (Option.some.inj ho).symm
  -- the offset of the launch is relative to the first token of the sequence
  have hstore : ∀ i h d, (p.outOffset 0 h i d,
      fin ((p.problem num buf q.dtype p.headDim).attention num.E 0 h i d)) =
        rowStore num q k v cfg seq i h d := by
    intro i h d
    rw [hproblem, rowStore]
    refine congrArg (·, _) ?_
    simp only [FlashFwdParams.outOffset, hp, varlenParams, varlenShape, packedIndex]
    ring
  refine ⟨_, by rw [← hout], fun w => ⟨fun hw => ?_, ?_⟩⟩
  · obtain ⟨b, hb', h, hh, i, hi, d, hd, rfl⟩ := out_of_mem_flashGridStores hc hstages hw
    obtain rfl : b = 0 := Nat.lt_one_iff.mp hb'
    exact ⟨i, hi, h, hh, d, hd, hstore i h d⟩
  · rintro ⟨i, hi, h, hh, d, hd, rfl⟩
    rw [← hstore]
    exact mem_flashGridStores_out hc hstages hM hdvd rfl one_pos hh hi hd

/-- The elements of the packed output that belong to a sequence. -/
def VarlenSeq.Owns (q : Tensor) (seq : VarlenSeq) (a : ℕ) : Prop :=
  seq.qToken.toNat * qTokenElems q ≤ a ∧ a < (seq.qToken.toNat + seq.seqQ.toNat) * qTokenElems q

/-- The packed output holds the rows of a sequence. -/
def RowsAnswered (num : Numerics 𝕜) (q k v : Tensor) (cfg : AttentionConfig 𝕜) (seq : VarlenSeq)
    (out : ℕ → Flt 𝕜) : Prop :=
  ∀ i < seq.seqQ.toNat, ∀ h < q.dim 1, ∀ d < q.dim 2,
    out (packedIndex q (seq.qToken.toNat + i) h d) =
      fin ((seqProblem num q k v cfg seq).attention num.E 0 h i d)

omit [Field 𝕜] [LinearOrder 𝕜] [IsStrictOrderedRing 𝕜] in
theorem owns_packedIndex {seq : VarlenSeq} {i h d : ℕ} (hi : i < seq.seqQ.toNat) (hh : h < q.dim 1)
    (hd : d < q.dim 2) : seq.Owns q (packedIndex q (seq.qToken.toNat + i) h d) := by
  rw [packedIndex_add]
  have hlt := packedIndex_lt hi hh hd
  refine ⟨Nat.le_add_right _ _, ?_⟩
  rw [Nat.add_mul]
  omega

omit [Field 𝕜] [LinearOrder 𝕜] [IsStrictOrderedRing 𝕜] in
/-- An element belongs to one sequence. -/
theorem PackedBatch.owns_inj (hb : PackedBatch q k v cuQ cuKv n maxSeqQ maxSeqKv) {s t a : ℕ} (hs : s < n)
    (ht : t < n) (hown : (varlenSeq cuQ cuKv s).Owns q a) (hown' : (varlenSeq cuQ cuKv t).Owns q a) :
    s = t := by
  -- a later sequence starts behind the last token of an earlier one
  have hbehind : ∀ {s t}, s < t → t < n → (varlenSeq cuQ cuKv s).Owns q a →
      ¬ (varlenSeq cuQ cuKv t).Owns q a := by
    intro s t hst ht hs' ht'
    have hmono := hb.q_offsets.mono (show s + 1 ≤ t from hst) ht.le
    have hlen := hb.q_offsets.toInt_sub (hst.trans ht)
    have hpos := hb.q_offsets.nonneg (hst.trans ht).le
    have hlt := hb.q_offsets.lt_succ s (hst.trans ht)
    have hle : (varlenSeq cuQ cuKv s).qToken.toNat + (varlenSeq cuQ cuKv s).seqQ.toNat ≤
        (varlenSeq cuQ cuKv t).qToken.toNat := by
      simp only [varlenSeq, hlen]
      omega
    have := Nat.mul_le_mul_right (qTokenElems q) hle
    exact absurd (this.trans ht'.1) (not_le.mpr hs'.2)
  rcases Nat.lt_trichotomy s t with h | h | h
  · exact absurd hown' (hbehind h ht hown)
  · exact h
  · exact absurd hown (hbehind h hs hown')

section Loop

variable (hb : PackedBatch q k v cuQ cuKv n maxSeqQ maxSeqKv) {tile : FlashTile}
  (htile : findFlashTile (q.dim 2) = some tile) (hheads : q.dim 1 < 2 ^ 31)

include hb htile hheads

/-- One iteration answers the rows of its sequence. -/
theorem varlenStep_rows {s : ℕ} (hs : s < n) {out out' : ℕ → Flt 𝕜}
    (hrun : varlenStep num env q k v cfg (effectiveScale num cfg (varlenShape q k maxSeqQ maxSeqKv)) cuQ cuKv
      s out = .ok out') : RowsAnswered num q k v cfg (varlenSeq cuQ cuKv s) out' := by
  obtain ⟨stores, rfl, hstores⟩ := varlenStep_eq_ok hb hs htile hheads hrun
  intro i hi h hh d hd
  rw [packedIndex_add, writeBack, if_pos (Nat.le_add_right _ _), Nat.add_sub_cancel_left]
  refine Scatter.apply_of_agree ((hstores _).mpr ⟨i, hi, h, hh, d, hd, rfl⟩) fun w hw haddr => ?_
  obtain ⟨i', hi', h', hh', d', hd', rfl⟩ := (hstores w).mp hw
  obtain ⟨hrow, rfl⟩ := Strided.mul_add_inj hd' hd haddr
  obtain ⟨rfl, rfl⟩ := Strided.mul_add_inj hh' hh hrow
  rfl

/-- One iteration leaves the elements of the other sequences alone. -/
theorem varlenStep_frame {s : ℕ} (hs : s < n) {out out' : ℕ → Flt 𝕜}
    (hrun : varlenStep num env q k v cfg (effectiveScale num cfg (varlenShape q k maxSeqQ maxSeqKv)) cuQ cuKv
      s out = .ok out') {a : ℕ} (ha : ¬ (varlenSeq cuQ cuKv s).Owns q a) : out' a = out a := by
  obtain ⟨stores, rfl, hstores⟩ := varlenStep_eq_ok hb hs htile hheads hrun
  unfold writeBack
  split_ifs with hle
  · rw [Scatter.apply_of_forall_ne, Nat.add_sub_cancel' hle]
    intro w hw haddr
    obtain ⟨i, hi, h, hh, d, hd, rfl⟩ := (hstores w).mp hw
    refine ha ?_
    rw [← Nat.add_sub_cancel' hle, ← haddr]
    exact packedIndex_add q _ i h d ▸ owns_packedIndex hi hh hd
  · rfl

/-- The loop leaves the elements of sequences that it does not visit alone. -/
theorem varlenLoop_frame {l : List ℕ} (hl : ∀ s ∈ l, s < n) {out out' : ℕ → Flt 𝕜}
    (hrun : (varlenLoop num env q k v cfg (effectiveScale num cfg (varlenShape q k maxSeqQ maxSeqKv)) cuQ cuKv
      l out).2 = .ok out') {a : ℕ} (ha : ∀ s ∈ l, ¬ (varlenSeq cuQ cuKv s).Owns q a) :
        out' a = out a := by
  induction l generalizing out with
  | nil =>
    cases hrun
    rfl
  | cons s l ih =>
    simp only [varlenLoop] at hrun
    split at hrun
    · cases hrun
    · next out₁ hstep =>
      rw [ih (fun t ht => hl t (List.mem_cons_of_mem _ ht)) hrun fun t ht => ha t (List.mem_cons_of_mem _ ht)]
      exact varlenStep_frame hb htile hheads (hl s List.mem_cons_self) hstep (ha s List.mem_cons_self)

/-- The loop answers the rows of the sequences that it visits. -/
theorem varlenLoop_rows {l : List ℕ} (hl : ∀ s ∈ l, s < n) (hnodup : l.Nodup)
    {out out' : ℕ → Flt 𝕜}
    (hrun : (varlenLoop num env q k v cfg (effectiveScale num cfg (varlenShape q k maxSeqQ maxSeqKv)) cuQ cuKv
      l out).2 = .ok out') {s : ℕ} (hs : s ∈ l) :
    RowsAnswered num q k v cfg (varlenSeq cuQ cuKv s) out' := by
  induction l generalizing out with
  | nil => exact absurd hs List.not_mem_nil
  | cons t l ih =>
    obtain ⟨hnot, hnodup⟩ := List.nodup_cons.mp hnodup
    have hl' : ∀ s ∈ l, s < n := fun s hs => hl s (List.mem_cons_of_mem _ hs)
    simp only [varlenLoop] at hrun
    split at hrun
    · cases hrun
    · next out₁ hstep =>
      rcases List.mem_cons.mp hs with rfl | hs
      · -- the rest of the loop does not touch these rows
        intro i hi h hh d hd
        rw [varlenLoop_frame hb htile hheads hl' hrun fun t ht hown => hnot (hb.owns_inj
          (hl s List.mem_cons_self) (hl' t ht) (owns_packedIndex hi hh hd) hown ▸ ht)]
        exact varlenStep_rows hb htile hheads (hl s List.mem_cons_self) hstep i hi h hh d hd
      · exact ih hl' hnodup hrun hs

end Loop

/-! ## The two entry points -/

/-- The device has the memory that the calls ask for, and where there is one it runs their kernels. -/
structure DeviceServes (env : VarlenEnv 𝕜 dev) (envs : ℕ → ForwardEnv 𝕜 dev) (q k : Tensor)
    (cuQ cuKv : ℕ → Int32) (n : ℕ) : Prop where
  launch : dev.cudaAvailable = true → ∀ s < n, env.launch s = .ok ∧ (envs s).launch 0 = .ok
  alloc : (env.outAlloc (varlenOutDims q).prod).isSome
  seqAlloc : ∀ s < n, ((envs s).outAlloc (outDims (varlenShape q k (varlenSeq cuQ cuKv s).seqQ
    (varlenSeq cuQ cuKv s).seqKv)).prod).isSome

/-- What `flash_attention` asks of every sequence of a batch and `flash_attention_varlen` of none. -/
structure SeqsValid (q k v : Tensor) (cfg : AttentionConfig 𝕜) (cuQ cuKv : ℕ → Int32) (n : ℕ) :
    Prop where
  contiguous : ∀ t ∈ [q, k, v], t.isContiguous = true
  causal_le : cfg.causal = true → ∀ s < n, (varlenSeq cuQ cuKv s).seqQ ≤ (varlenSeq cuQ cuKv s).seqKv
  softcap_nonneg : 0 ≤ cfg.softcap
  softcap_backend : 0 < cfg.softcap → isReferenceOnlyBackend cfg.backend = false
  scale_nonneg : 0 ≤ cfg.scale
  numSplits_nonneg : 0 ≤ cfg.numSplits
  cuSeqlens : cfg.hasCuSeqlensQ = true → cfg.hasCuSeqlensKv = true

/-- The packed call succeeds exactly when the call on every sequence does, and its output then holds the
rows of their outputs. -/
structure VarlenMatches (num : Numerics 𝕜) (env : VarlenEnv 𝕜 dev) (envs : ℕ → ForwardEnv 𝕜 dev)
    (q k v : Tensor) (cfg : AttentionConfig 𝕜) (cuQ cuKv : ℕ → Int32) (n : ℕ)
    (maxSeqQ maxSeqKv : ℤ) :
    Prop where
  succeeds_iff :
    (∃ r, (forwardVarlen num env q k v cfg n (some cuQ) (some cuKv) maxSeqQ maxSeqKv).outcome = .ok r) ↔
      ∀ s < n, ∃ r, seqForward num (envs s) q k v cfg (varlenSeq cuQ cuKv s) = .ok r
  rows_eq : ∀ r r', (forwardVarlen num env q k v cfg n (some cuQ) (some cuKv) maxSeqQ maxSeqKv).outcome =
      .ok r → ∀ s < n, seqForward num (envs s) q k v cfg (varlenSeq cuQ cuKv s) = .ok r' →
    ∀ i < (varlenSeq cuQ cuKv s).seqQ.toNat, ∀ h < q.dim 1, ∀ d < q.dim 2,
      r.out (packedIndex q ((cuQ s).toInt.toNat + i) h d) =
        r'.out ((h * (varlenSeq cuQ cuKv s).seqQ.toNat + i) * q.dim 2 + d)

omit [IsStrictOrderedRing 𝕜] in
/-- A packed call that succeeds went through its checks and its loop. -/
theorem forwardVarlen_eq_ok {numSeqs : ℤ} {r : AttentionResult 𝕜}
    (h : (forwardVarlen num env q k v cfg numSeqs (some cuQ) (some cuKv) maxSeqQ maxSeqKv).outcome = .ok r) :
    ∃ tile out, varlenPrepare env q k v cfg numSeqs maxSeqQ maxSeqKv = .ok (tile, out) ∧
      (varlenLoop num env q k v cfg (effectiveScale num cfg (varlenShape q k maxSeqQ maxSeqKv)) cuQ cuKv
        (List.range numSeqs.toNat) out).2 = .ok r.out := by
  cases hprep : varlenPrepare env q k v cfg numSeqs maxSeqQ maxSeqKv with
  | error e => simp [forwardVarlen, hprep] at h
  | ok res =>
    obtain ⟨tile, out⟩ := res
    simp only [forwardVarlen, hprep, orAbort_eq_ok] at h
    obtain ⟨out', hout'⟩ := exists_of_map_eq_ok h
    rw [hout'] at h
    cases h
    exact ⟨tile, out, rfl, hout'⟩

omit [Field 𝕜] [LinearOrder 𝕜] [IsStrictOrderedRing 𝕜] in
/-- The heads of an output that was allocated. -/
theorem PackedBatch.heads_lt (hb : PackedBatch q k v cuQ cuKv n maxSeqQ maxSeqKv) {tile : FlashTile}
    (htile : findFlashTile (q.dim 2) = some tile) (halloc : (env.outAlloc (varlenOutDims q).prod).isSome) :
    q.dim 1 < 2 ^ 31 := by
  have hlt := env.outAlloc_lt _ halloc
  have hdim : 32 ≤ q.dim 2 := (validShape_of_tile htile).le_headDim
  have htokens : 1 ≤ q.dim 0 := by
    have hend := hb.q_tokens
    have hfirst := hb.q_offsets.lt_succ 0 hb.num_pos
    have hmono := hb.q_offsets.mono (show 0 + 1 ≤ n from hb.num_pos) le_rfl
    have hzero := hb.q_offsets.nonneg (Nat.zero_le n)
    omega
  have hprod : (varlenOutDims q).prod = q.dim 0 * (q.dim 1 * q.dim 2) := by
    simp only [varlenOutDims, List.prod_cons, List.prod_nil, Nat.mul_one]
  have hrow : q.dim 1 * 32 ≤ q.dim 1 * q.dim 2 := Nat.mul_le_mul_left _ hdim
  have hall : q.dim 1 * q.dim 2 ≤ q.dim 0 * (q.dim 1 * q.dim 2) := Nat.le_mul_of_pos_left _ htokens
  omega

section Entry

variable (hb : PackedBatch q k v cuQ cuKv n maxSeqQ maxSeqKv)
  (hdev : DeviceServes env envs q k cuQ cuKv n) (hlse : cfg.returnLse = false)

include hb hdev

omit [IsStrictOrderedRing 𝕜]

/-- A packed call on a device that serves it succeeds when its request is served. -/
theorem varlen_succeeds_iff :
    (∃ r, (forwardVarlen num env q k v cfg n (some cuQ) (some cuKv) maxSeqQ maxSeqKv).outcome = .ok r) ↔
      VarlenForm q k v cfg maxSeqQ maxSeqKv ∧ k.dim 1 ≠ 0 ∧ VarlenServed env q k v cfg := by
  have hone : (1 : ℤ) ≤ n := by exact_mod_cast hb.num_pos
  rw [forwardVarlen_isOk_iff hone hb.q_offsets hb.kv_offsets]
  refine and_congr_right fun _ => and_congr_right fun _ => and_iff_left_of_imp fun hserved s hs => ?_
  exact (hdev.launch hserved.cudaAvailable s hs).1

include hlse

/-- A batch that is served has its sequences served, where they are valid one by one. -/
theorem seqs_succeed (hform : VarlenForm q k v cfg maxSeqQ maxSeqKv) (hne : k.dim 1 ≠ 0)
    (hserved : VarlenServed env q k v cfg) (hvalid : SeqsValid q k v cfg cuQ cuKv n) {s : ℕ} (hs : s < n) :
    ∃ r, seqForward num (envs s) q k v cfg (varlenSeq cuQ cuKv s) = .ok r := by
  obtain ⟨tile, htile⟩ := hserved.tile_fits
  obtain ⟨hposq, hposkv, -⟩ := varlenSeq_pos hb.q_offsets hb.kv_offsets hs
  have hheads : 0 < q.dim 1 := by
    refine Nat.pos_of_ne_zero fun h => ?_
    have hpos := hserved.launchable.2
    rw [h] at hpos
    exact absurd hpos (by decide)
  have hshape : ValidShape (varlenShape q k (varlenSeq cuQ cuKv s).seqQ (varlenSeq cuQ cuKv s).seqKv) :=
    { batch_pos := one_pos
      seqQ_pos := Int.lt_toNat.mpr hposq
      seqKv_pos := Int.lt_toNat.mpr hposkv
      numHeads_pos := hheads
      numKvHeads_pos := Nat.pos_of_ne_zero hne
      headDim_supported := (validShape_of_tile htile.1).headDim_supported
      group_dvd := hserved.group_dvd }
  refine hb.seqForward_isOk_iff.mpr ⟨fun t ht => ⟨hvalid.contiguous t ht, (hform.packed t ht).2⟩,
    { validShape := hshape
      causal_le := fun hc => Int.toNat_le_toNat (hvalid.causal_le hc s hs)
      slidingWindow_le := hserved.slidingWindow_le
      softcap_nonneg := hvalid.softcap_nonneg
      softcap_backend := hvalid.softcap_backend
      scale_nonneg := hvalid.scale_nonneg
      numSplits_nonneg := hvalid.numSplits_nonneg
      cuSeqlens := hvalid.cuSeqlens }, ⟨hserved.cudaAvailable, tile, htile⟩,
    ⟨hdev.seqAlloc s hs, fun h => absurd h (by simp [hlse])⟩, hserved.launchable.1,
    (hdev.launch hserved.cudaAvailable s hs).2⟩

/-- A batch whose sequences are served is served, and its sequences are valid one by one. -/
theorem served_of_seqs_succeed
    (h : ∀ s < n, ∃ r, seqForward num (envs s) q k v cfg (varlenSeq cuQ cuKv s) = .ok r) :
    (VarlenForm q k v cfg maxSeqQ maxSeqKv ∧ k.dim 1 ≠ 0 ∧ VarlenServed env q k v cfg) ∧
      SeqsValid q k v cfg cuQ cuKv n := by
  have hseq := fun s hs => hb.seqForward_isOk_iff.mp (h s hs)
  obtain ⟨hall, hreq, ⟨hcuda, tile, htile⟩, -, hdata, -⟩ := hseq 0 hb.num_pos
  have hcausal : cfg.causal = true → ∀ s < n,
      (varlenSeq cuQ cuKv s).seqQ ≤ (varlenSeq cuQ cuKv s).seqKv := by
    intro hc s hs
    have hle : (varlenSeq cuQ cuKv s).seqQ.toNat ≤ (varlenSeq cuQ cuKv s).seqKv.toNat :=
      (hseq s hs).2.1.causal_le hc
    obtain ⟨-, hposkv, -⟩ := varlenSeq_pos hb.q_offsets hb.kv_offsets hs
    omega
  -- the longest query sequence has no more tokens than the keys of the same sequence
  have hmax : cfg.causal = true → maxSeqQ ≤ maxSeqKv := by
    intro hc
    obtain ⟨s, hs, rfl⟩ := hb.q_max.1
    have hle := hcausal hc s hs
    simp only [varlenSeq, hb.q_offsets.toInt_sub hs, hb.kv_offsets.toInt_sub hs] at hle
    exact hle.trans (hb.kv_max.2 ⟨s, hs, rfl⟩)
  have hndims : ∀ t ∈ [q, k, v], t.ndims = 3 := by
    simp only [List.mem_cons, List.not_mem_nil, or_false]
    rintro t (rfl | rfl | rfl)
    exacts [hb.q_ndims, hb.k_dim.1, hb.v_ndims]
  have hheads := hb.heads_lt htile.1 hdev.alloc
  have hpos : 0 < q.dim 1 := hreq.validShape.numHeads_pos
  have hlast : v.dim 2 = q.dim 2 := by rw [hb.v_dim, hb.k_dim.2]
  refine ⟨⟨⟨hlse, hmax, fun t ht => ⟨hndims t ht, (hall t ht).2⟩, hb.flashDtypeIdFor_ne,
      ⟨hb.k_dtype.symm, hb.v_dtype.symm⟩, ⟨hb.k_dim.2, hlast, hb.v_dim 1⟩⟩,
      hreq.validShape.numKvHeads_pos.ne',
      ⟨hreq.validShape.group_dvd, hcuda, ⟨tile, htile⟩, hreq.slidingWindow_le, hdev.alloc, hdata,
        ?_⟩⟩,
    ⟨fun t ht => (hall t ht).1, hcausal, hreq.softcap_nonneg, hreq.softcap_backend, hreq.scale_nonneg,
      hreq.numSplits_nonneg, hreq.cuSeqlens⟩⟩
  rw [int32Cast_of_lt (by omega) (by omega)]
  omega

end Entry

variable (num cfg) in
/-- The rows of the two entry points agree. -/
theorem varlen_rows_eq (hb : PackedBatch q k v cuQ cuKv n maxSeqQ maxSeqKv) {env' : ForwardEnv 𝕜 dev}
    {r r' : AttentionResult 𝕜}
    (hr : (forwardVarlen num env q k v cfg n (some cuQ) (some cuKv) maxSeqQ maxSeqKv).outcome = .ok r)
    {s : ℕ} (hs : s < n) (hr' : seqForward num env' q k v cfg (varlenSeq cuQ cuKv s) = .ok r')
    {i h d : ℕ} (hi : i < (varlenSeq cuQ cuKv s).seqQ.toNat) (hh : h < q.dim 1) (hd : d < q.dim 2) :
    r.out (packedIndex q ((cuQ s).toInt.toNat + i) h d) =
      r'.out ((h * (varlenSeq cuQ cuKv s).seqQ.toNat + i) * q.dim 2 + d) := by
  obtain ⟨tile, out, hprep, hloop⟩ := forwardVarlen_eq_ok hr
  have hone : (1 : ℤ) ≤ n := by exact_mod_cast hb.num_pos
  obtain ⟨-, -, ⟨-, htile, -⟩, halloc⟩ := (varlenPrepare_eq_ok hone).mp hprep
  have hheads := hb.heads_lt htile.1 (Option.isSome_of_eq_some halloc)
  have hrow := varlenLoop_rows hb htile.1 hheads (by simp) List.nodup_range hloop
    (List.mem_range.mpr (by simpa using hs)) i hi h hh d hd
  obtain ⟨shape, hinfer, -⟩ := bind_eq_ok.mp hr'
  obtain ⟨hshape, hvalid⟩ := valid_of_inferValid hinfer
  obtain ⟨-, rfl⟩ := (hb.inferShape_slice _).mp hshape
  have hanswer := (flashForward_answers hshape hvalid one_pos hh hi hr').1 d hd
  have hindex : (varlenShape q k (varlenSeq cuQ cuKv s).seqQ (varlenSeq cuQ cuKv s).seqKv).rowIndex 0 h i =
      h * (varlenSeq cuQ cuKv s).seqQ.toNat + i := by
    simp only [AttentionShape.rowIndex, varlenShape, Nat.zero_mul, Nat.zero_add]
  rw [hindex] at hanswer
  exact hrow.trans hanswer.symm

variable (num) in
/-- Packed calls match the calls on their sequences exactly when every batch that is served has sequences
that are valid one by one. -/
theorem varlenMatches_iff (hb : PackedBatch q k v cuQ cuKv n maxSeqQ maxSeqKv)
    (hdev : DeviceServes env envs q k cuQ cuKv n) (hlse : cfg.returnLse = false) :
    VarlenMatches num env envs q k v cfg cuQ cuKv n maxSeqQ maxSeqKv ↔
      (VarlenForm q k v cfg maxSeqQ maxSeqKv → k.dim 1 ≠ 0 → VarlenServed env q k v cfg →
        SeqsValid q k v cfg cuQ cuKv n) := by
  constructor
  · intro hmatch hform hne hserved
    have hseqs := hmatch.succeeds_iff.mp ((varlen_succeeds_iff hb hdev).mpr ⟨hform, hne, hserved⟩)
    exact (served_of_seqs_succeed hb hdev hlse hseqs).2
  · intro hvalid
    refine ⟨⟨fun hok s hs => ?_, fun hseqs => ?_⟩, fun r r' hr s hs hr' i hi h hh d hd =>
      varlen_rows_eq num cfg hb hr hs hr' hi hh hd⟩
    · obtain ⟨hform, hne, hserved⟩ := (varlen_succeeds_iff hb hdev).mp hok
      exact seqs_succeed hb hdev hlse hform hne hserved (hvalid hform hne hserved) hs
    · exact (varlen_succeeds_iff hb hdev).mpr (served_of_seqs_succeed hb hdev hlse hseqs).1

end Rows

/-! ## A batch of two sequences -/

theorem packedBatch_two : PackedBatch (packedTensor 3 1) (packedTensor 4 1) (packedTensor 4 1) shortOffsets
    longOffsets 2 2 3 where
  num_pos := by decide
  q_ndims := rfl
  k_dims := rfl
  v_dims := rfl
  half := .inl rfl
  k_dtype := rfl
  v_dtype := rfl
  q_offsets := ⟨rfl, by decide⟩
  kv_offsets := ⟨rfl, by decide⟩
  q_tokens := by decide
  kv_tokens := by decide
  q_max := ⟨⟨0, by decide⟩, by
    rintro len ⟨s, hs, rfl⟩
    revert s
    decide⟩
  kv_max := ⟨⟨1, by decide⟩, by
    rintro len ⟨s, hs, rfl⟩
    revert s
    decide⟩

theorem deviceServes_two : DeviceServes sampleVarlenEnv (fun _ => sampleEnv) (packedTensor 3 1)
    (packedTensor 4 1) shortOffsets longOffsets 2 where
  launch _ _ _ := ⟨rfl, rfl⟩
  alloc := by simp [sampleVarlenEnv, sampleEnv, varlenOutDims, packedTensor, Tensor.dim]
  seqAlloc s hs := by
    have hlt : (outDims (varlenShape (packedTensor 3 1) (packedTensor 4 1)
        (varlenSeq shortOffsets longOffsets s).seqQ
        (varlenSeq shortOffsets longOffsets s).seqKv)).prod < 2 ^ 36 := by
      revert s
      decide
    simp only [sampleEnv, if_pos hlt, Option.isSome_some]

/-- The default configuration with the given mask. -/
noncomputable def maskConfig (causal : Bool) : AttentionConfig ℝ :=
  { sampleConfig .flash false with causal }

theorem varlenMatches_two :
    VarlenMatches realNumerics sampleVarlenEnv (fun _ => sampleEnv) (packedTensor 3 1) (packedTensor 4 1)
      (packedTensor 4 1) (maskConfig false) shortOffsets longOffsets 2 2 3 :=
  (varlenMatches_iff realNumerics packedBatch_two deviceServes_two rfl).mpr fun _ _ _ =>
    { contiguous := by simp [packedTensor]
      causal_le := fun h => by cases h
      softcap_nonneg := le_rfl
      softcap_backend := fun _ => rfl
      scale_nonneg := le_rfl
      numSplits_nonneg := le_rfl
      cuSeqlens := fun h => by cases h }

/-- Under a causal mask the packed call serves a sequence of two queries on one key, which the call on the
sequence refuses. -/
theorem not_varlenMatches_causal : PackedBatch (packedTensor 3 1) (packedTensor 4 1) (packedTensor 4 1)
      shortOffsets longOffsets 2 2 3 ∧
    ¬ VarlenMatches realNumerics sampleVarlenEnv (fun _ => sampleEnv) (packedTensor 3 1) (packedTensor 4 1)
      (packedTensor 4 1) (maskConfig true) shortOffsets longOffsets 2 2 3 := by
  refine ⟨packedBatch_two, fun hmatch => ?_⟩
  have hform : VarlenForm (packedTensor 3 1) (packedTensor 4 1) (packedTensor 4 1) (maskConfig true) 2 3 :=
    { noLse := rfl
      causal_le := fun _ => by decide
      packed := by simp [packedTensor, Tensor.ndims]
      half := by simp [packedTensor, flashDtypeIdFor]
      dtype_eq := ⟨rfl, rfl⟩
      dims_eq := ⟨rfl, rfl, rfl⟩ }
  have hserved : VarlenServed sampleVarlenEnv (packedTensor 3 1) (packedTensor 4 1) (packedTensor 4 1)
      (maskConfig true) :=
    { group_dvd := one_dvd 1
      cudaAvailable := rfl
      tile_fits := ⟨⟨64, 64, 4, 2, 1⟩, rfl, by decide⟩
      slidingWindow_le := le_rfl
      alloc := deviceServes_two.alloc
      launchable := ⟨⟨rfl, rfl, rfl⟩, by decide⟩ }
  have hseqs := hmatch.succeeds_iff.mp
    ((varlen_succeeds_iff packedBatch_two deviceServes_two).mpr ⟨hform, by decide, hserved⟩)
  have hvalid := (served_of_seqs_succeed packedBatch_two deviceServes_two rfl hseqs).2
  exact absurd (hvalid.causal_le rfl 0 (by decide)) (by decide)

end SciAttention

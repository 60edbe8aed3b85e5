import SciAttention.Core.ScratchPool
import SciAttention.Dispatch.Refusal

/-!
# Workspace sizes in machine arithmetic

`ScoreBytes` of the naive backend and `PartialBytes` of the decode backend are products of caller-chosen
64-bit dimensions, and they gate and size the scratch buffers. `naiveScratch` and `decodeScratch` are the two
`Forward` methods from `Validate` to the acquired buffer, with the sizes as the machine computes them and the
pool of `scratch_pool.cpp`.
-/

namespace SciAttention

open Results

/-! ## Sizes -/

/-- Below `2 ^ 39` bytes the tensors of a request of half-precision elements are too small for a wrap: queries
and output take `4 * B * H_q * S_q * D` bytes, keys and values `4 * B * H_kv * S_kv * D`. -/
theorem scoreBytes_lt_of_tensors {shape : AttentionShape} (hvalid : ValidShape shape)
    (hfit : 4 * (shape.batch * shape.numHeads * shape.seqQ * shape.headDim) +
      4 * (shape.batch * shape.numKvHeads * shape.seqKv * shape.headDim) < 2 ^ 39) :
    trueScoreBytes shape < 2 ^ 64 := by
  have hdim : 32 ≤ shape.headDim := hvalid.le_headDim
  have hquery : shape.batch * shape.numHeads * shape.seqQ * 32 ≤
      shape.batch * shape.numHeads * shape.seqQ * shape.headDim := Nat.mul_le_mul_left _ hdim
  have hkey : 1 * shape.seqKv * 32 ≤ shape.batch * shape.numKvHeads * shape.seqKv * shape.headDim :=
    Nat.mul_le_mul (Nat.mul_le_mul_right _ (Nat.mul_pos hvalid.batch_pos hvalid.numKvHeads_pos)) hdim
  have hsum : shape.batch * shape.numHeads * shape.seqQ + shape.seqKv < 2 ^ 32 := by omega
  rw [trueScoreBytes]
  generalize shape.batch * shape.numHeads * shape.seqQ = rows at hsum
  -- two numbers with a sum below `2 ^ 32` have a product below `2 ^ 62`
  have hsquare : 4 * (rows * shape.seqKv) ≤ (rows + shape.seqKv) ^ 2 := by
    have := four_mul_le_sq_add (rows : ℤ) (shape.seqKv : ℤ)
    rw [mul_assoc] at this
    exact_mod_cast this
  have hpow : (rows + shape.seqKv) ^ 2 < (2 ^ 32) ^ 2 := Nat.pow_lt_pow_left hsum (by decide)
  omega

/-! ## From validation to the scratch buffer -/

section Scratch

variable {𝕜 : Type} [Field 𝕜] [LinearOrder 𝕜]

variable (num : Numerics 𝕜) (cfg : AttentionConfig 𝕜) (dev : Device) (dtype : DType)
  (shape : AttentionShape) (p : ScratchPool) (deviceId : ℤ) (alloc : Bool)

/-- `NaiveBackend::Forward` from `Validate` to the score buffer. -/
def naiveScratch : Except Status ScratchBuffer := do
  (validate num cfg shape).require
  let need := scoreBytes shape
  let limit := effectiveWorkspaceLimit dev cfg
  failIf (limit ≠ 0 ∧ need > limit) .workspaceExceeded
    ("naive score matrix requires " ++ toString need ++ " B but the workspace limit is " ++
      toString limit ++ " B; switch to tiled/flash or raise workspace_limit_bytes")
  failIf (cfg.causal ∧ shape.seqKv < shape.seqQ) .shapeMismatch "causal requires seq_kv >= seq_q"
  let _ ← requireDtype dtype
  (p.acquire .scoresFp32 (need / 4) deviceId alloc).2

/-- `DecodeBackend::Forward` from `Validate` to the partials. -/
def decodeScratch : Except Status ScratchBuffer := do
  (validate num cfg shape).require
  failIf (shape.seqQ ≠ nativeSeqQ) .unsupportedFeature
    ("decode backend requires seq_q=" ++ toString nativeSeqQ ++ "; seq_q=" ++ toString shape.seqQ ++
      " belongs to the flash backend")
  failIf (shape.headDim % 32 ≠ 0) .unsupportedHeadDim
    ("decode requires head_dim % 32 == 0; head_dim=" ++ toString shape.headDim)
  let _ ← requireDtype dtype
  let splits := decodeSplits dev cfg shape
  (p.acquire .decodePartials (partialBytes shape splits / 4) deviceId alloc).2

/-- The score buffer was sized and admitted by its true size, and every score lies inside it. -/
structure NaiveSized (buffer : ScratchBuffer) : Prop where
  exact : scoreBytes shape = trueScoreBytes shape
  within : effectiveWorkspaceLimit dev cfg ≠ 0 → trueScoreBytes shape ≤ effectiveWorkspaceLimit dev cfg
  inside : ∀ b < shape.batch, ∀ h < shape.numHeads, ∀ i < shape.seqQ, ∀ j < shape.seqKv,
    ((b * shape.numHeads + h) * shape.seqQ + i) * shape.seqKv + j < buffer.floats

/-- The partials were sized by their true size, and the maxima, the sums and the partial outputs lie one after
the other inside the buffer. -/
structure DecodeSized (buffer : ScratchBuffer) : Prop where
  exact : partialBytes shape (decodeSplits dev cfg shape) =
    truePartialBytes shape (decodeSplits dev cfg shape)
  inside : ∀ b < shape.batch, ∀ h < shape.numHeads, ∀ s < decodeSplits dev cfg shape,
    let base := shape.batch * shape.numHeads * decodeSplits dev cfg shape
    let cell := (b * shape.numHeads + h) * decodeSplits dev cfg shape + s
    cell < buffer.floats ∧ base + cell < buffer.floats ∧
      ∀ d < shape.headDim, 2 * base + (cell * shape.headDim + d) < buffer.floats

/-- The pool does not give out `bytes`: there are none to give, or its buffer is too small and the device has
no memory for a larger one. -/
def PoolRefuses (kind : ScratchKind) (bytes : ℕ) : Prop :=
  bytes = 0 ∨ ScratchPool.NeedsGrowth (p.entries (ScratchPool.keyOf deviceId kind)) (bytes / 4) ∧
    alloc = false

/-- The buffer that the pool gives for `elements` has room for them: a new one when its byte count does not
wrap, the one at hand when it was not allocated with a wrapped count. -/
def PoolHolds (kind : ScratchKind) (elements : ℕ) : Prop :=
  let entry := p.entries (ScratchPool.keyOf deviceId kind)
  if ScratchPool.NeedsGrowth entry elements then ScratchPool.grownElements elements < 2 ^ 62
  else ∀ buffer, entry.tensor = some buffer → elements ≤ buffer.floats

/-- The requests that the naive backend rejects, by what is left of the product modulo `2 ^ 64`. -/
def NaiveRejects : Prop :=
  ¬ (validate num cfg shape).isOk ∨
    (effectiveWorkspaceLimit dev cfg ≠ 0 ∧ effectiveWorkspaceLimit dev cfg <
      trueScoreBytes shape % 2 ^ 64) ∨
    ¬ isSupportedComputeDtype dtype ∨
    PoolRefuses p deviceId alloc .scoresFp32 (trueScoreBytes shape % 2 ^ 64)

/-- The requests that the decode backend rejects. -/
def DecodeRejects : Prop :=
  ¬ (validate num cfg shape).isOk ∨ shape.seqQ ≠ 1 ∨ ¬ isSupportedComputeDtype dtype ∨
    shape.headDim % 32 ≠ 0 ∨
    PoolRefuses p deviceId alloc .decodePartials
      (truePartialBytes shape (decodeSplits dev cfg shape) % 2 ^ 64)

/-! ## When a buffer is given -/

/-- The pool gives out a buffer unless it refuses. -/
theorem acquire_isOk_iff {kind : ScratchKind} {bytes : ℕ} (hbytes : 4 ∣ bytes) :
    (∃ buffer, (p.acquire kind (bytes / 4) deviceId alloc).2 = .ok buffer) ↔
      ¬ PoolRefuses p deviceId alloc kind bytes := by
  obtain ⟨n, rfl⟩ := hbytes
  simp only [PoolRefuses, Nat.mul_div_cancel_left n (show 0 < 4 by decide)]
  by_cases hzero : n = 0
  · simp [ScratchPool.acquire, hzero]
  · obtain ⟨hneeds, heq⟩ | ⟨buffer, hlive, hle, heq⟩ := p.acquire_cases kind hzero deviceId alloc
    · rw [heq, ScratchPool.grow]
      cases alloc <;> simp [hneeds, hzero]
    · rw [heq]
      have hnot : ¬ ScratchPool.NeedsGrowth (p.entries (ScratchPool.keyOf deviceId kind)) n := by
        rintro (hnone | hlt)
        · rw [ScratchPool.live, hnone] at hlive
          cases hlive
        · omega
      simp [hnot, hzero]

theorem requireDtype_isOk_iff : (∃ id, requireDtype dtype = .ok id) ↔ isSupportedComputeDtype dtype := by
  cases dtype <;> simp [requireDtype, dtypeIdFor, isSupportedComputeDtype]

theorem four_dvd_scoreBytes : 4 ∣ trueScoreBytes shape % 2 ^ 64 := by
  unfold trueScoreBytes
  omega

theorem four_dvd_partialBytes (splits : ℕ) : 4 ∣ truePartialBytes shape splits % 2 ^ 64 := by
  unfold truePartialBytes
  omega

variable {num cfg dev dtype shape p deviceId alloc}

/-- What the naive backend checked of a request that got its buffer. -/
theorem naiveScratch_eq_ok {buffer : ScratchBuffer} :
    naiveScratch num cfg dev dtype shape p deviceId alloc = .ok buffer ↔
      (validate num cfg shape).isOk ∧
      ¬ (effectiveWorkspaceLimit dev cfg ≠ 0 ∧
        effectiveWorkspaceLimit dev cfg < trueScoreBytes shape % 2 ^ 64) ∧
      isSupportedComputeDtype dtype ∧
      (p.acquire .scoresFp32 (trueScoreBytes shape % 2 ^ 64 / 4) deviceId alloc).2 = .ok buffer := by
  simp only [naiveScratch, scoreBytes_eq, bind_eq_ok, failIf_eq_ok, Status.require,
    ← requireDtype_isOk_iff]
  by_cases hvalid : (validate num cfg shape).isOk
  · have hcausal : ¬ (cfg.causal = true ∧ shape.seqKv < shape.seqQ) := by
      rintro ⟨hcausal, hlt⟩
      exact absurd ((validate_isOk hvalid).2 hcausal) hlt.not_ge
    simp [hvalid, hcausal]
  · simp [hvalid]

/-- What the decode backend checked of a request that got its buffer. -/
theorem decodeScratch_eq_ok {buffer : ScratchBuffer} :
    decodeScratch num cfg dev dtype shape p deviceId alloc = .ok buffer ↔
      (validate num cfg shape).isOk ∧ shape.seqQ = 1 ∧ shape.headDim % 32 = 0 ∧
      isSupportedComputeDtype dtype ∧
      (p.acquire .decodePartials (truePartialBytes shape (decodeSplits dev cfg shape) % 2 ^ 64 / 4) deviceId
        alloc).2 = .ok buffer := by
  simp only [decodeScratch, partialBytes_eq, bind_eq_ok, failIf_eq_ok, Status.require,
    ← requireDtype_isOk_iff]
  by_cases hvalid : (validate num cfg shape).isOk
  · simp [hvalid, nativeSeqQ]
  · simp [hvalid]

/-- These are the checks of `naiveForward` and its request to the pool. -/
theorem naiveScratch_eq (q : Tensor) :
    naiveScratch num cfg dev q.dtype shape p deviceId alloc = (do
      (validate num cfg shape).require
      let _ ← naiveChecks q cfg dev shape
      (p.acquire .scoresFp32 (scoreBytes shape / 4) deviceId alloc).2) := by
  simp only [naiveScratch, naiveChecks, bind_assoc]

omit [Field 𝕜] [LinearOrder 𝕜] in
/-- One call on the pool as `acquireScratchFp32` has it, which looks at one entry only. -/
theorem acquire_eq_acquireScratchFp32 (hp : ScratchPool.Inv p) {kind : ScratchKind}
    {scratch : ScratchEnv 𝕜} {elements : ℕ}
    (hpooled : scratch.pooled = (p.entries (ScratchPool.keyOf deviceId kind)).elements)
    (halloc : scratch.alloc (ScratchPool.grownElements elements) = alloc) :
    (p.acquire kind elements deviceId alloc).2.map (fun _ => scratch.contents) =
      acquireScratchFp32 scratch elements := by
  by_cases hzero : elements = 0
  · rw [acquireScratchFp32, if_pos hzero, ScratchPool.acquire, if_pos hzero]
    rfl
  rw [acquireScratchFp32, if_neg hzero, hpooled]
  obtain ⟨hneeds, heq⟩ | ⟨buffer, -, hle, heq⟩ := p.acquire_cases kind hzero deviceId alloc
  · have hsmall : (p.entries (ScratchPool.keyOf deviceId kind)).elements < elements := by
      rcases hneeds with hnone | hlt
      · rw [(hp.entry _).none hnone]
        omega
      · exact hlt
    rw [heq, if_pos hsmall, ScratchPool.grow]
    change _ = if scratch.alloc (ScratchPool.grownElements elements) then _ else _
    rw [halloc]
    cases alloc <;> rfl
  · rw [heq, if_neg hle.not_gt]
    rfl

/-- The naive backend answers exactly what it does not reject. -/
theorem naiveScratch_isOk_iff :
    (∃ buffer, naiveScratch num cfg dev dtype shape p deviceId alloc = .ok buffer) ↔
      ¬ NaiveRejects num cfg dev dtype shape p deviceId alloc := by
  simp only [naiveScratch_eq_ok, exists_and_left,
    acquire_isOk_iff p deviceId alloc (four_dvd_scoreBytes shape),
    NaiveRejects]
  tauto

theorem decodeScratch_isOk_iff :
    (∃ buffer, decodeScratch num cfg dev dtype shape p deviceId alloc = .ok buffer) ↔
      ¬ DecodeRejects num cfg dev dtype shape p deviceId alloc := by
  simp only [decodeScratch_eq_ok, exists_and_left,
    acquire_isOk_iff p deviceId alloc (four_dvd_partialBytes shape _), DecodeRejects]
  tauto

/-! ## Cells of a buffer -/

omit [Field 𝕜] [LinearOrder 𝕜] in
/-- The buffer for fewer than `2 ^ 62` elements is large enough exactly when the pool holds them. -/
theorem le_floats_iff {kind : ScratchKind} {elements : ℕ} (hlt : elements < 2 ^ 62) {buffer : ScratchBuffer}
    (hok : (p.acquire kind elements deviceId alloc).2 = .ok buffer) :
    elements ≤ buffer.floats ↔ PoolHolds p deviceId kind elements := by
  have hpos : elements ≠ 0 := by
    rintro rfl
    cases hok
  obtain ⟨hneeds, heq⟩ | ⟨old, hlive, hle, heq⟩ := p.acquire_cases kind hpos deviceId alloc
  · rw [heq, ScratchPool.grow] at hok
    split_ifs at hok
    obtain rfl := Except.ok.inj hok
    rw [ScratchBuffer.floats, ScratchPool.tensorBytes_div, PoolHolds, if_pos hneeds]
    constructor
    · intro hfits
      by_contra hgrown
      exact (ScratchPool.grownElements_mod_lt hlt (not_lt.1 hgrown)).not_ge hfits
    · intro hgrown
      rw [Nat.mod_eq_of_lt hgrown]
      exact ScratchPool.le_grownElements elements
  · have hsame : (p.entries (ScratchPool.keyOf deviceId kind)).tensor = some old := hlive
    have hkept : ¬ ScratchPool.NeedsGrowth (p.entries (ScratchPool.keyOf deviceId kind)) elements := by
      rintro (hnone | hlt)
      · rw [hsame] at hnone
        cases hnone
      · exact hlt.not_ge hle
    rw [heq] at hok
    obtain rfl := Except.ok.inj hok
    rw [PoolHolds, if_neg hkept, hsame]
    simp

omit [Field 𝕜] [LinearOrder 𝕜] in
/-- The same for a byte count that does not wrap. -/
theorem bytes_le_floats_iff {kind : ScratchKind} {bytes : ℕ} (hlt : bytes < 2 ^ 64)
    {buffer : ScratchBuffer} (hok : (p.acquire kind (bytes % 2 ^ 64 / 4) deviceId alloc).2 = .ok buffer) :
    bytes / 4 ≤ buffer.floats ↔ PoolHolds p deviceId kind (bytes / 4) := by
  rw [Nat.mod_eq_of_lt hlt] at hok
  exact le_floats_iff (by omega) hok

/-- All cells of the score matrix are inside exactly when there is a float for each. -/
theorem naiveCells_iff (hvalid : ValidShape shape) (floats : ℕ) :
    (∀ b < shape.batch, ∀ h < shape.numHeads, ∀ i < shape.seqQ, ∀ j < shape.seqKv,
      ((b * shape.numHeads + h) * shape.seqQ + i) * shape.seqKv + j < floats) ↔
      trueScoreBytes shape / 4 ≤ floats := by
  rw [trueScoreBytes, Nat.mul_div_cancel _ (by decide)]
  constructor
  · intro hinside
    have hlast := hinside _ (Nat.sub_one_lt hvalid.batch_pos.ne') _ (Nat.sub_one_lt hvalid.numHeads_pos.ne')
      _ (Nat.sub_one_lt hvalid.seqQ_pos.ne') _ (Nat.sub_one_lt hvalid.seqKv_pos.ne')
    rwa [← Nat.succ_le_iff, Nat.succ_eq_add_one, Strided.flat_last _ hvalid.seqKv_pos,
      Strided.flat_last _ hvalid.seqQ_pos, Strided.flat_last _ hvalid.numHeads_pos,
      Nat.sub_add_cancel hvalid.batch_pos] at hlast
  · intro hfits b hb h hh i hi j hj
    exact (Strided.flat_lt (Strided.flat_lt (Strided.flat_lt hb hh) hi) hj).trans_le hfits

/-- The maxima, the sums and the partial outputs are inside exactly when there is a float for each. -/
theorem decodeCells_iff (hvalid : ValidShape shape) {splits : ℕ} (hsplits : 0 < splits) (floats : ℕ) :
    (∀ b < shape.batch, ∀ h < shape.numHeads, ∀ s < splits,
      let base := shape.batch * shape.numHeads * splits
      let cell := (b * shape.numHeads + h) * splits + s
      cell < floats ∧ base + cell < floats ∧
        ∀ d < shape.headDim, 2 * base + (cell * shape.headDim + d) < floats) ↔
      truePartialBytes shape splits / 4 ≤ floats := by
  rw [truePartialBytes, Nat.mul_div_cancel _ (by decide), partialElements, Nat.mul_add]
  constructor
  · intro hinside
    have hlast := (hinside _ (Nat.sub_one_lt hvalid.batch_pos.ne') _ (Nat.sub_one_lt hvalid.numHeads_pos.ne')
      _ (Nat.sub_one_lt hsplits.ne')).2.2 _ (Nat.sub_one_lt hvalid.headDim_pos.ne')
    rwa [← Nat.succ_le_iff, Nat.succ_eq_add_one, Nat.add_assoc, Strided.flat_last _ hvalid.headDim_pos,
      Strided.flat_last _ hsplits, Strided.flat_last _ hvalid.numHeads_pos,
      Nat.sub_add_cancel hvalid.batch_pos, Nat.mul_comm 2] at hlast
  · intro hfits b hb h hh s hs
    intro base cell
    have hcell : cell < base := Strided.flat_lt (Strided.flat_lt hb hh) hs
    change base * 2 + base * shape.headDim ≤ floats at hfits
    refine ⟨by omega, by omega, fun d hd => ?_⟩
    have hlast : cell * shape.headDim + d < base * shape.headDim := Strided.flat_lt hcell hd
    omega

/-! ## When the sizes are right -/

/-- Of a request that got its buffer, the sizes are right exactly when the product fits and the
pool holds it. -/
theorem naiveSized_iff {buffer : ScratchBuffer}
    (hok : naiveScratch num cfg dev dtype shape p deviceId alloc = .ok buffer) :
    NaiveSized cfg dev shape buffer ↔ trueScoreBytes shape < 2 ^ 64 ∧
      PoolHolds p deviceId .scoresFp32 (trueScoreBytes shape / 4) := by
  obtain ⟨hvalid, hlimit, -, hacquire⟩ := naiveScratch_eq_ok.1 hok
  have hcells := naiveCells_iff (validate_isOk hvalid).1 buffer.floats
  constructor
  · intro hsized
    have hlt : trueScoreBytes shape < 2 ^ 64 := by
      rw [← hsized.exact, scoreBytes_eq]
      exact Nat.mod_lt _ (Nat.two_pow_pos 64)
    exact ⟨hlt, (bytes_le_floats_iff hlt hacquire).1 (hcells.1 hsized.inside)⟩
  · rintro ⟨hlt, hholds⟩
    rw [Nat.mod_eq_of_lt hlt] at hlimit
    refine ⟨by rw [scoreBytes_eq, Nat.mod_eq_of_lt hlt], fun hne => ?_,
      hcells.2 ((bytes_le_floats_iff hlt hacquire).2 hholds)⟩
    by_contra hgt
    exact hlimit ⟨hne, not_le.1 hgt⟩

theorem decodeSized_iff {buffer : ScratchBuffer}
    (hok : decodeScratch num cfg dev dtype shape p deviceId alloc = .ok buffer) :
    DecodeSized cfg dev shape buffer ↔ truePartialBytes shape (decodeSplits dev cfg shape) < 2 ^ 64 ∧
      PoolHolds p deviceId .decodePartials (truePartialBytes shape (decodeSplits dev cfg shape) / 4) := by
  obtain ⟨hvalid, -, -, -, hacquire⟩ := decodeScratch_eq_ok.1 hok
  have hcells := decodeCells_iff (validate_isOk hvalid).1 (resolveSplits_pos cfg shape.seqKv dev.cap.smCount)
    buffer.floats
  constructor
  · intro hsized
    have hlt : truePartialBytes shape (decodeSplits dev cfg shape) < 2 ^ 64 := by
      rw [← hsized.exact, partialBytes_eq]
      exact Nat.mod_lt _ (Nat.two_pow_pos 64)
    exact ⟨hlt, (bytes_le_floats_iff hlt hacquire).1 (hcells.1 hsized.inside)⟩
  · rintro ⟨hlt, hholds⟩
    exact ⟨by rw [partialBytes_eq, Nat.mod_eq_of_lt hlt],
      hcells.2 ((bytes_le_floats_iff hlt hacquire).2 hholds)⟩

omit [Field 𝕜] [LinearOrder 𝕜] in
/-- Where a granted buffer is right exactly when `fits`, no wrong one is granted exactly when `fits` or the
request is rejected. -/
theorem sized_iff_fits_or_rejects {granted : Except Status ScratchBuffer} {sized : ScratchBuffer → Prop}
    {fits rejects : Prop} (hgranted : (∃ buffer, granted = .ok buffer) ↔ ¬ rejects)
    (hsized : ∀ buffer, granted = .ok buffer → (sized buffer ↔ fits)) :
    (∀ buffer, granted = .ok buffer → sized buffer) ↔ fits ∨ rejects := by
  constructor
  · intro h
    by_contra! hnot
    obtain ⟨buffer, hok⟩ := hgranted.2 hnot.2
    exact hnot.1 ((hsized buffer hok).1 (h buffer hok))
  · rintro (hfits | hrejects) buffer hok
    · exact (hsized buffer hok).2 hfits
    · exact absurd hrejects (hgranted.1 ⟨buffer, hok⟩)

/-- The sizes are right, for every request and in every state of the pool, exactly when the product fits
`size_t` and the buffer that the pool gives holds it, or the request is rejected for another reason. -/
theorem workspaceSizing_iff (num : Numerics 𝕜) (cfg : AttentionConfig 𝕜) (dev : Device) (dtype : DType)
    (shape : AttentionShape) (calls : List ScratchPool.Call) (deviceId : ℤ) (alloc : Bool) :
    ((∀ buffer, naiveScratch num cfg dev dtype shape (.run calls) deviceId alloc = .ok buffer →
        NaiveSized cfg dev shape buffer) ↔
      (trueScoreBytes shape < 2 ^ 64 ∧
        PoolHolds (.run calls) deviceId .scoresFp32 (trueScoreBytes shape / 4)) ∨
        NaiveRejects num cfg dev dtype shape (.run calls) deviceId alloc) ∧
    ((∀ buffer, decodeScratch num cfg dev dtype shape (.run calls) deviceId alloc = .ok buffer →
        DecodeSized cfg dev shape buffer) ↔
      (truePartialBytes shape (decodeSplits dev cfg shape) < 2 ^ 64 ∧
        PoolHolds (.run calls) deviceId .decodePartials
          (truePartialBytes shape (decodeSplits dev cfg shape) / 4)) ∨
        DecodeRejects num cfg dev dtype shape (.run calls) deviceId alloc) := by
  constructor
  · exact sized_iff_fits_or_rejects naiveScratch_isOk_iff fun _ => naiveSized_iff
  · exact sized_iff_fits_or_rejects decodeScratch_isOk_iff fun _ => decodeSized_iff

end Scratch

/-- With `2 ^ 30` queries and `2 ^ 32 + 1` keys the score matrix of `2 ^ 64 + 2 ^ 32` bytes counts as `2 ^ 32`
bytes: it passes the default limit of `2 ^ 32` and gets a buffer of fewer than `2 ^ 31` floats. -/
theorem not_naiveSized_wrapped :
    ∃ buffer, naiveScratch realNumerics (sampleConfig .naive false) sampleDevice .float16
        (sampleShape (2 ^ 30) (2 ^ 32 + 1) 32) (.run []) 0 true = .ok buffer ∧
      ¬ NaiveSized (sampleConfig .naive false) sampleDevice
        (sampleShape (2 ^ 30) (2 ^ 32 + 1) 32) buffer := by
  have hbytes : trueScoreBytes (sampleShape (2 ^ 30) (2 ^ 32 + 1) 32) = 2 ^ 64 + 2 ^ 32 := by decide
  have hlimit : effectiveWorkspaceLimit sampleDevice (sampleConfig .naive false) = 2 ^ 32 := by
    simp [effectiveWorkspaceLimit, sampleConfig, sampleDevice]
  refine ⟨⟨0, 2 ^ 30 * 5 + 4096⟩, naiveScratch_eq_ok.2 ⟨?_, ?_, rfl, ?_⟩, fun hsized => ?_⟩
  · exact validate_sample (by decide) (by decide) (by decide)
  · rw [hlimit, hbytes]
    decide
  · rw [hbytes]
    decide
  · have hwithin := hsized.within (by rw [hlimit]; decide)
    rw [hlimit, hbytes] at hwithin
    omega

end SciAttention

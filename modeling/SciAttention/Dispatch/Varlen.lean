import SciAttention.Dispatch.Success

/-!
# Packed batches

Model of `ValidateVarlenHost` in `src/api/api_validate.cpp` and of `FlashBackend::ForwardVarlen`: the
checks, the one modulus that the host evaluates, the output and one launch for each sequence, with the
launches that were made as the trace of a run. A launched sequence is named by its first tokens and its
lengths. Lengths are differences of `int32` offsets and wrap as those do.
-/

namespace SciAttention

open Results

/-! ## Offsets -/

/-- One iteration of `ValidateVarlenHost`. -/
def varlenHostStep (cu : ℕ → Int32) (maxSeq : ℤ) (i : ℕ) : Except Status ℤ := do
  let lo := cu i
  let hi := cu (i + 1)
  failIf (hi.toInt ≤ lo.toInt) .shapeMismatch
    ("cu_seqlens not strictly increasing at index " ++ toString i ++ ": [" ++ toString lo.toInt ++ ", " ++
      toString hi.toInt ++ "]")
  return max maxSeq (hi - lo).toInt

/-- `ValidateVarlenHost`; the result is `max_seq_out`. -/
def validateVarlenHost (hostCuSeqlens : Option (ℕ → Int32)) (batch : ℤ) : Except Status ℤ :=
  match hostCuSeqlens with
  | none => .error (makeStatus .shapeMismatch "cu_seqlens is null")
  | some cu => do
    failIf (batch < 1) .shapeMismatch ("varlen batch=" ++ toString batch ++ " (must be >= 1)")
    failIf (cu 0 ≠ 0) .shapeMismatch
      ("cu_seqlens[0]=" ++ toString (cu 0).toInt ++ " (must start at 0)")
    (List.range batch.toNat).foldlM (varlenHostStep cu) 0

/-- Offsets of `n` sequences: they start at zero and increase. -/
structure Offsets (cu : ℕ → Int32) (n : ℕ) : Prop where
  zero : cu 0 = 0
  lt_succ : ∀ s < n, (cu s).toInt < (cu (s + 1)).toInt

namespace Offsets

variable {cu : ℕ → Int32} {n : ℕ}

theorem mono (h : Offsets cu n) {s t : ℕ} (hst : s ≤ t) (ht : t ≤ n) :
    (cu s).toInt ≤ (cu t).toInt := by
  induction t, hst using Nat.le_induction with
  | base => exact le_rfl
  | succ t _ ih => exact (ih (by omega)).trans (h.lt_succ t (by omega)).le

theorem nonneg (h : Offsets cu n) {s : ℕ} (hs : s ≤ n) : 0 ≤ (cu s).toInt := by
  have hle := h.mono (Nat.zero_le s) hs
  rwa [h.zero, Int32.toInt_zero] at hle

/-- A length does not wrap. -/
theorem toInt_sub (h : Offsets cu n) {s : ℕ} (hs : s < n) :
    (cu (s + 1) - cu s).toInt = (cu (s + 1)).toInt - (cu s).toInt := by
  have hlo := h.nonneg hs.le
  have hlt := h.lt_succ s hs
  have hhi := (cu (s + 1)).toInt_lt
  rw [Int32.toInt_sub, Int.bmod_eq_of_le] <;> omega

end Offsets

/-- The lengths of `n` sequences. -/
def lengths (cu : ℕ → Int32) (n : ℕ) : Set ℤ :=
  {len | ∃ s < n, len = (cu (s + 1)).toInt - (cu s).toInt}

/-- One iteration accepts two offsets that increase. -/
theorem varlenHostStep_eq_ok_iff {cu : ℕ → Int32} {maxSeq m : ℤ} {i : ℕ} :
    varlenHostStep cu maxSeq i = .ok m ↔
      (cu i).toInt < (cu (i + 1)).toInt ∧ max maxSeq (cu (i + 1) - cu i).toInt = m := by
  by_cases h : (cu (i + 1)).toInt ≤ (cu i).toInt
  · simp only [varlenHostStep, failIf, if_pos h, error_bind, reduceCtorEq, not_lt.mpr h, false_and]
  · simp only [varlenHostStep, failIf, if_neg h, ok_bind, pure_eq_ok, Except.ok.injEq, not_le.mp h,
      true_and]

/-- What the loop accepts increases, and its accumulator is the greatest length or zero. -/
theorem foldlM_varlenHostStep_eq_ok {cu : ℕ → Int32} (hzero : cu 0 = 0) {n : ℕ} {m : ℤ}
    (h : (List.range n).foldlM (varlenHostStep cu) 0 = .ok m) :
    Offsets cu n ∧ IsGreatest (insert 0 (lengths cu n)) m := by
  induction n generalizing m with
  | zero =>
    obtain rfl : 0 = m := Except.ok.inj h
    refine ⟨⟨hzero, fun s hs => absurd hs (Nat.not_lt_zero s)⟩, Set.mem_insert _ _, ?_⟩
    rintro len (rfl | ⟨s, hs, -⟩)
    exacts [le_rfl, absurd hs (Nat.not_lt_zero s)]
  | succ n ih =>
    simp only [List.range_succ, List.foldlM_append, bind_eq_ok, List.foldlM_cons, List.foldlM_nil,
      varlenHostStep_eq_ok_iff, pure_eq_ok, Except.ok.injEq] at h
    obtain ⟨m', hm', m'', ⟨hlt, rfl⟩, rfl⟩ := h
    obtain ⟨hoff, hmem, hup⟩ := ih hm'
    have hoff' : Offsets cu (n + 1) := ⟨hzero, fun s hs => by
      rcases Nat.lt_succ_iff_lt_or_eq.mp hs with h | rfl
      exacts [hoff.lt_succ s h, hlt]⟩
    have hlast : (cu (n + 1)).toInt - (cu n).toInt ∈ lengths cu (n + 1) := ⟨n, n.lt_succ_self, rfl⟩
    -- the maximum so far is over the earlier lengths and the zero it starts with
    have hsub : insert 0 (lengths cu n) ⊆ insert 0 (lengths cu (n + 1)) :=
      Set.insert_subset_insert fun len ⟨s, hs, hlen⟩ => ⟨s, by omega, hlen⟩
    rw [hoff'.toInt_sub n.lt_succ_self]
    refine ⟨hoff', ?_, ?_⟩
    · rcases max_choice m' ((cu (n + 1)).toInt - (cu n).toInt) with hmax | hmax <;> rw [hmax]
      exacts [hsub hmem, Set.mem_insert_of_mem _ hlast]
    · rintro len (rfl | ⟨s, hs, rfl⟩)
      · exact le_max_of_le_left (hup (Set.mem_insert _ _))
      · rcases Nat.lt_succ_iff_lt_or_eq.mp hs with hs | rfl
        · exact le_max_of_le_left (hup (Set.mem_insert_of_mem _ ⟨s, hs, rfl⟩))
        · exact le_max_right _ _

/-- The loop accepts every list of increasing offsets. -/
theorem Offsets.foldlM_isOk {cu : ℕ → Int32} {n : ℕ} (h : Offsets cu n) :
    ∃ m, (List.range n).foldlM (varlenHostStep cu) 0 = .ok m := by
  induction n with
  | zero => exact ⟨0, rfl⟩
  | succ n ih =>
    obtain ⟨m, hm⟩ := ih ⟨h.zero, fun s hs => h.lt_succ s (by omega)⟩
    refine ⟨max m (cu (n + 1) - cu n).toInt, ?_⟩
    simp only [List.range_succ, List.foldlM_append, hm, ok_bind, List.foldlM_cons, List.foldlM_nil,
      bind_eq_ok, varlenHostStep_eq_ok_iff]
    exact ⟨_, ⟨h.lt_succ n n.lt_succ_self, rfl⟩, rfl⟩

/-- `ValidateVarlenHost` accepts the offsets of at least one sequence and no others, and returns the greatest
length. -/
theorem validateVarlenHost_eq_ok_iff {cu : ℕ → Int32} {batch m : ℤ} :
    validateVarlenHost (some cu) batch = .ok m ↔
      1 ≤ batch ∧ Offsets cu batch.toNat ∧ IsGreatest (lengths cu batch.toNat) m := by
  have hsound : ∀ {m : ℤ}, validateVarlenHost (some cu) batch = .ok m →
      1 ≤ batch ∧ Offsets cu batch.toNat ∧ IsGreatest (lengths cu batch.toNat) m := by
    intro m h
    simp only [validateVarlenHost, bind_eq_ok, failIf_eq_ok] at h
    obtain ⟨-, hbatch, -, hzero, hloop⟩ := h
    obtain ⟨hoff, hmem, hup⟩ := foldlM_varlenHostStep_eq_ok (not_not.mp hzero) hloop
    have hfirst : (cu (0 + 1)).toInt - (cu 0).toInt ∈ lengths cu batch.toNat := ⟨0, by omega, rfl⟩
    have hpos := hoff.lt_succ 0 (by omega)
    refine ⟨by omega, hoff, ?_, fun len hlen => hup (Set.mem_insert_of_mem _ hlen)⟩
    -- the lengths are positive, so that the zero the loop starts with is not the greatest
    refine hmem.resolve_left fun hm => ?_
    have := hup (Set.mem_insert_of_mem _ hfirst)
    omega
  refine ⟨hsound, fun ⟨hbatch, hoff, hgreatest⟩ => ?_⟩
  obtain ⟨m', hm'⟩ := hoff.foldlM_isOk
  have hok : validateVarlenHost (some cu) batch = .ok m' := by
    simp only [validateVarlenHost, failIf, if_neg (not_lt.mpr hbatch), hoff.zero, ne_eq, not_true_eq_false,
      if_false, ok_bind, hm']
  rw [hok, (hsound hok).2.2.unique hgreatest]

/-! ## `ForwardVarlen` -/

/-- How a call ends without a result: with an error, or with the host trapping on a division by zero. -/
inductive Abort where
  | status (s : Status)
  | divisionByZero

/-- The integer `%` of the host. -/
def hostMod (a b : ℕ) : Except Abort ℕ := if b = 0 then .error .divisionByZero else .ok (a % b)

/-- One sequence of a packed batch: its first tokens and its lengths. -/
structure VarlenSeq where
  qToken : ℤ
  kvToken : ℤ
  seqQ : ℤ
  seqKv : ℤ

/-- Sequence `s` of the offsets. -/
def varlenSeq (cuQ cuKv : ℕ → Int32) (s : ℕ) : VarlenSeq :=
  { qToken := (cuQ s).toInt, kvToken := (cuKv s).toInt
    seqQ := (cuQ (s + 1) - cuQ s).toInt, seqKv := (cuKv (s + 1) - cuKv s).toInt }

/-- Memory from `n` bytes on. -/
def Bytes.advance (mem : Bytes) (n : ℕ) : Bytes := fun a => mem (n + a)

/-- What the device answers during one `ForwardVarlen`: every launch has shared memory of its own. -/
structure VarlenEnv (𝕜 : Type) (dev : Device) extends ForwardEnv 𝕜 dev where
  launchSmem : ℕ → ℕ → ℕ → ℕ → ℕ → Flt 𝕜

/-- A run of `ForwardVarlen`: the sequences whose kernel the device ran, in order, and how it ended. -/
structure VarlenRun (𝕜 : Type) where
  launched : List VarlenSeq
  outcome : Except Abort (AttentionResult 𝕜)

section Varlen

variable {𝕜 : Type} [Field 𝕜] [LinearOrder 𝕜] {dev : Device}

variable (num : Numerics 𝕜) (env : VarlenEnv 𝕜 dev) (q k v : Tensor) (cfg : AttentionConfig 𝕜)

/-- The checks on one packed tensor. -/
def varlenTensorChecks (t : Tensor) : Except Status Unit := do
  failIf (t.ndims ≠ 3) .shapeMismatch
    ("varlen expects packed [T, H, D] tensors; got ndims=" ++ toString t.ndims)
  failIf (t.deviceType ≠ .cuda) .unsupportedFeature "varlen requires CUDA tensors"

/-- The checks of `ForwardVarlen` up to its modulus, once no offset pointer is null. -/
def varlenChecks (numSeqs maxSeqQ maxSeqKv : ℤ) : Except Status Unit := do
  failIf (numSeqs < 1) .shapeMismatch ("varlen num_seqs=" ++ toString numSeqs ++ " (must be >= 1)")
  failIf (cfg.returnLse = true) .unsupportedFeature
    "varlen does not expose LSE yet; call the per-sequence entry point if it is needed"
  failIf (cfg.causal = true ∧ maxSeqKv < maxSeqQ) .shapeMismatch
    "varlen causal requires max_seq_kv >= max_seq_q"
  varlenTensorChecks q
  varlenTensorChecks k
  varlenTensorChecks v
  failIf (flashDtypeIdFor q.dtype = 0) .unsupportedDtype "flash varlen supports fp16/bf16 only"
  failIf (q.dtype ≠ k.dtype ∨ q.dtype ≠ v.dtype) .unsupportedDtype
    "varlen requires q/k/v to share one dtype"
  failIf (k.dim 2 ≠ q.dim 2 ∨ v.dim 2 ≠ q.dim 2 ∨ v.dim 1 ≠ k.dim 1) .shapeMismatch
    ("varlen expects k/v head dims to match q; got D=" ++ toString (q.dim 2))

/-- The shape of one sequence, and of the probe. -/
def varlenShape (seqQ seqKv : ℤ) : AttentionShape :=
  { batch := 1, seqQ := seqQ.toNat, seqKv := seqKv.toNat
    numHeads := q.dim 1, numKvHeads := k.dim 1, headDim := q.dim 2 }

/-- The dimensions of the packed output. -/
def varlenOutDims : List ℕ := [q.dim 0, q.dim 1, q.dim 2]

/-- `q_token_bytes` in elements. -/
def qTokenElems : ℕ := q.dim 1 * q.dim 2

/-- `kv_token_bytes` in elements. -/
def kvTokenElems : ℕ := k.dim 1 * q.dim 2

/-- The kernel parameters of one sequence. The pointers are advanced to its first tokens, which lie behind
the start of the tensors for offsets that start at zero and increase. -/
def varlenParams (scale : 𝕜) (seq : VarlenSeq) (out : ℕ → Flt 𝕜) : FlashFwdParams 𝕜 :=
  let shape := varlenShape q k seq.seqQ seq.seqKv
  let kvStride : Strides :=
    { sB := shape.seqKv * shape.numKvHeads * shape.headDim, sH := shape.headDim
      sS := shape.numKvHeads * shape.headDim }
  let qStride : Strides :=
    { sB := shape.seqQ * shape.numHeads * shape.headDim, sH := shape.headDim
      sS := shape.numHeads * shape.headDim }
  { q := q.data.map (·.advance (seq.qToken.toNat * (qTokenElems q * dtypeSize q.dtype)))
    k := k.data.map (·.advance (seq.kvToken.toNat * (kvTokenElems q k * dtypeSize q.dtype)))
    v := v.data.map (·.advance (seq.kvToken.toNat * (kvTokenElems q k * dtypeSize q.dtype)))
    out := some fun a => out (seq.qToken.toNat * qTokenElems q + a)
    lse := none, batch := 1, numHeads := shape.numHeads, numKvHeads := shape.numKvHeads
    seqQ := shape.seqQ, seqKv := shape.seqKv, headDim := shape.headDim
    qStride := qStride, kStride := kvStride, vStride := kvStride, oStride := qStride
    scale := scale, causal := cfg.causal, returnLse := false
    diagonal := if cfg.causal then seq.seqKv - seq.seqQ else 0
    dtypeId := flashDtypeIdFor q.dtype }

/-- The output once a launch wrote through a pointer to element `base` of it. -/
def writeBack (base : ℕ) (out res : ℕ → Flt 𝕜) : ℕ → Flt 𝕜 :=
  fun a => if base ≤ a then res (a - base) else out a

/-- One iteration of the loop over the sequences: the output after it. -/
def varlenStep (scale : 𝕜) (cuQ cuKv : ℕ → Int32) (s : ℕ) (out : ℕ → Flt 𝕜) :
    Except Status (ℕ → Flt 𝕜) := do
  let seq := varlenSeq cuQ cuKv s
  failIf (seq.seqQ ≤ 0 ∨ seq.seqKv ≤ 0) .shapeMismatch
    ("varlen sequence " ++ toString s ++ " has S_q=" ++ toString seq.seqQ ++ ", S_kv=" ++
      toString seq.seqKv ++ " (both must be > 0)")
  let (res, _) ←
    launchFlashFwd num (varlenParams q k v cfg scale seq out) (env.launchSmem s) (env.launch s)
  return writeBack (seq.qToken.toNat * qTokenElems q) out res

/-- The loop over the sequences: those launched, and the output or the error it returns with. -/
def varlenLoop (scale : 𝕜) (cuQ cuKv : ℕ → Int32) :
    List ℕ → (ℕ → Flt 𝕜) → List VarlenSeq × Except Status (ℕ → Flt 𝕜)
  | [], out => ([], .ok out)
  | s :: rest, out =>
    match varlenStep num env q k v cfg scale cuQ cuKv s out with
    | .error e => ([], .error e)
    | .ok out' =>
      let (launched, result) := varlenLoop scale cuQ cuKv rest out'
      (varlenSeq cuQ cuKv s :: launched, result)

/-- Allocate the packed output. -/
def allocVarlenOut : Except Status (ℕ → Flt 𝕜) :=
  match env.outAlloc (varlenOutDims q).prod with
  | none => .error (makeStatus .workspaceExceeded "allocation of the varlen output failed")
  | some out => .ok out

/-- An error status ends a call. -/
def orAbort {α : Type} (x : Except Status α) : Except Abort α := x.mapError Abort.status

/-- `ForwardVarlen` up to its loop: the tile of the request and the memory of the output. -/
def varlenPrepare (numSeqs : ℤ) (maxSeqQ maxSeqKv : ℤ) :
    Except Abort (FlashTile × (ℕ → Flt 𝕜)) := do
  orAbort (varlenChecks q k v cfg numSeqs maxSeqQ maxSeqKv)
  let rem ← hostMod (q.dim 1) (k.dim 1)
  orAbort (failIf (rem ≠ 0) .shapeMismatch "varlen requires H_q % H_kv == 0")
  let tile ← orAbort (validateFlashRequest cfg dev q.dtype (varlenShape q k maxSeqQ maxSeqKv).headDim)
  let out ← orAbort (allocVarlenOut env q)
  return (tile, out)

/-- The result of a batch whose sequences were all launched. -/
def varlenResult (numSeqs : ℤ) (tile : FlashTile) (out : ℕ → Flt 𝕜) : AttentionResult 𝕜 :=
  { outDims := varlenOutDims q
    outDtype := q.dtype
    out := out
    stats := {
      usedBackend := .flash
      tile := tile.toConfig
      note := "varlen: " ++ toString numSeqs ++ " per-sequence launches over packed buffers (tile " ++
        tile.toText ++ ")" } }

/-- `FlashBackend::ForwardVarlen` and `flash_attention_varlen`. -/
def forwardVarlen (numSeqs : ℤ) (cuSeqlensQ cuSeqlensKv : Option (ℕ → Int32)) (maxSeqQ maxSeqKv : ℤ) :
    VarlenRun 𝕜 :=
  match cuSeqlensQ, cuSeqlensKv with
  | some cuQ, some cuKv =>
    match varlenPrepare env q k v cfg numSeqs maxSeqQ maxSeqKv with
    | .error e => ⟨[], .error e⟩
    | .ok (tile, out) =>
      let scale := effectiveScale num cfg (varlenShape q k maxSeqQ maxSeqKv)
      let (launched, result) := varlenLoop num env q k v cfg scale cuQ cuKv (List.range numSeqs.toNat) out
      ⟨launched, orAbort (result.map (varlenResult q numSeqs tile))⟩
  | _, _ =>
    ⟨[], .error (.status (makeStatus .shapeMismatch "varlen requires host-resident cu_seqlens_q/kv"))⟩

end Varlen

end SciAttention

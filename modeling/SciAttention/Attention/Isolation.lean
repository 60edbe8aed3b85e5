import SciAttention.Attention.PagedRows
import SciAttention.KvCache.History
import SciAttention.KvCache.Failure
import SciAttention.KvCache.RevisionGate

/-!
# Sequences do not influence each other

The answer to a paged request for one sequence is a function of that sequence's own history: the rows of its
successful appends since its last reset. Two answers from different caches, with other block sizes and pools,
other sequences between the calls, calls that failed, and the sequence under another index, agree as soon as
the histories, the queries and the lengths do.
-/

namespace SciAttention

open Flt Softmax PagedKVCache

/-- The elements of a row depend on the row's format only. -/
structure SameFormat (kv kv' : ValidConfig) : Prop where
  numKvHeads_eq : kv'.numKvHeads = kv.numKvHeads
  headDim_eq : kv'.headDim = kv.headDim
  dtype_eq : kv'.dtype = kv.dtype

section Isolation

variable {𝕜 : Type*} [Field 𝕜] [LinearOrder 𝕜]

/-- A paged request that was answered: a run on a new cache over zeroed memory whose launches succeed, the
synchronisation after it, the request with its explicit lengths, and the result. -/
structure PagedAnswer (num : Numerics 𝕜) where
  kvCfg : KVCacheConfig
  kvEnv : PagedEnv
  start : PagedKVCache
  calls : List Call
  q : Tensor
  qData : Bytes
  lens : ℕ → ℕ
  numSeqs : ℤ
  layer : ℕ
  env : AttentionEnv 𝕜
  cfg : AttentionConfig 𝕜
  result : AttentionResult 𝕜
  created : PagedKVCache.create kvCfg kvEnv = .ok start
  small : kvCfg.numBlocks ≤ 2 ^ 31
  zeroed : ∀ layer, (∀ k, kvEnv.kFresh layer = some k → k = fun _ => 0) ∧
    ∀ v, kvEnv.vFresh layer = some v → v = fun _ => 0
  assumed : Along (fun c call => LaunchesSucceed call ∧ ReadsOwnedIds c call) start calls
  sound : Along AppendSound start calls
  query : q.data = some qData
  fits : FitsCache q (start.run calls).syncPageTable.1
  layer_lt : layer < start.cfg.numLayers
  lens_le : ∀ s, lens s ≤ (start.run calls).seqLengths s
  answered : pagedAttention num env q (start.run calls).syncPageTable.1
    (explicitParams (start.run calls).syncPageTable.1 (fun i => lens i) numSeqs layer) cfg = .ok result

namespace PagedAnswer

variable {num : Numerics 𝕜}

/-- The successful calls on sequence `s`. -/
def history (A : PagedAnswer num) (s : ℕ) : List SeqOp := PagedKVCache.history s A.start A.calls

/-- The output element of row `(i, h)`. -/
def out (A : PagedAnswer num) (i h d : ℕ) : Flt 𝕜 := outElem A.q A.result i h d

/-- The query element of row `(i, h)`. -/
def queryAt (A : PagedAnswer num) (i h d : ℕ) : 𝕜 := queryElem num A.q A.qData i h d

/-- The rows that a history leaves in a layer, blank where it left none. -/
def historyRows (A : PagedAnswer num) (ops : List SeqOp) (isKey : Bool) (x : ℕ) : List UInt8 :=
  ((replay ops).row () (isKey, A.layer) x).getD A.start.blankRow

theorem inv (A : PagedAnswer num) : Inv A.start := Inv.create A.small A.created

theorem cfg_eq (A : PagedAnswer num) : (A.start.run A.calls).syncPageTable.1.cfg = A.start.cfg := by
  rw [← A.inv.run_cfg A.calls]
  exact (A.inv.run A.calls).step_cfg .syncPageTable

/-- A synchronisation shows the rows and lengths of the run. -/
theorem refines (A : PagedAnswer num) :
    Refines (A.start.run A.calls).syncPageTable.1 (spec A.start A.calls SeqStore.empty) := by
  have hrun : Refines (A.start.run A.calls) (spec A.start A.calls SeqStore.empty) :=
    (Refines.create A.created A.zeroed).run A.inv A.calls
      ((A.assumed.and A.sound).imp fun _ _ h => ⟨h.1.1, h.1.2, h.2⟩)
  obtain ⟨device, synced, heq⟩ := (A.start.run A.calls).syncPageTable_eq
  rw [heq]
  exact hrun.withMirror device synced

variable [IsStrictOrderedRing 𝕜]

/-- Every answer is attention over the rows of the sequence's own history. -/
theorem out_eq (A : PagedAnswer num) {i h d : ℕ} (hi : i < A.q.dim 0) (hh : h < A.q.dim 1)
    (hd : d < A.q.dim 3) :
    A.out i h d = fin (attentionOverRows num A.start.cfg A.cfg A.q A.qData
      (A.historyRows (A.history i)) (A.lens i) i h d) := by
  obtain ⟨table, hsynced⟩ := synced_run A.small A.created A.calls
    (((MirrorInv.create A.created).run A.inv A.calls).syncPageTable_isOk)
  have hlens : (A.start.run A.calls).syncPageTable.1.seqLengths = (A.start.run A.calls).seqLengths := by
    obtain ⟨device, synced, heq⟩ := (A.start.run A.calls).syncPageTable_eq
    rw [heq]
  have hlayer : A.layer < (A.start.run A.calls).syncPageTable.1.cfg.numLayers := by
    rw [A.cfg_eq]
    exact A.layer_lt
  have hle : ∀ s, A.lens s ≤ (A.start.run A.calls).syncPageTable.1.seqLengths s := by
    rw [hlens]
    exact A.lens_le
  obtain ⟨qData, hq, hrows⟩ :=
    hsynced.prefix_rows A.fits hlayer hle (fun _ _ => rfl) A.numSeqs A.answered
  obtain rfl : A.qData = qData := Option.some.inj (A.query.symm.trans hq)
  rw [out, hrows i hi (A.historyRows (A.history i)) ?_ h hh d hd, A.cfg_eq]
  intro isKey x hx
  rw [A.refines.rowAt_slotOf hsynced.inv hlayer (hx.trans_le (hle i)),
    (A.inv.spec_eq_replay A.calls i).2]
  simp only [historyRows, history, blankRow, A.cfg_eq]

/-- What two answers must share besides the sequence's history. -/
structure SameRequest (A B : PagedAnswer num) (i j : ℕ) : Prop where
  format : SameFormat A.start.cfg B.start.cfg
  heads_eq : B.q.dim 1 = A.q.dim 1
  scale_eq : B.cfg.scale = A.cfg.scale
  layer_eq : B.layer = A.layer
  lens_eq : B.lens j = A.lens i
  query_eq : ∀ h < A.q.dim 1, ∀ d < A.q.dim 3, B.queryAt j h d = A.queryAt i h d

omit [IsStrictOrderedRing 𝕜] in
/-- Attention over rows depends on their format, the scale, the query and the rows only. -/
theorem attentionOverRows_congr {A B : PagedAnswer num} {i j : ℕ} (hsame : SameRequest A B i j)
    (hdim : A.q.dim 3 = A.start.cfg.headDim) {rows rows' : Bool → ℕ → List UInt8}
    (hrows : ∀ isKey x, rows' isKey x = rows isKey x) {h : ℕ} (hh : h < A.q.dim 1) (d : ℕ) :
    attentionOverRows num B.start.cfg B.cfg B.q B.qData rows' (B.lens j) j h d =
      attentionOverRows num A.start.cfg A.cfg A.q A.qData rows (A.lens i) i h d := by
  obtain ⟨hheads, hdims, hdtype⟩ := hsame.format
  have helem : ∀ row g e, rowElem num B.start.cfg row g e = rowElem num A.start.cfg row g e := by
    intro row g e
    simp only [rowElem, ValidConfig.elemBytes, hdims, hdtype]
  have hscale : ∀ shape shape' : AttentionShape, shape'.headDim = shape.headDim →
      effectiveScale num B.cfg shape' = effectiveScale num A.cfg shape := by
    intro shape shape' hshape
    simp only [effectiveScale, hsame.scale_eq, hshape]
  unfold attentionOverRows
  dsimp only
  rw [hscale ⟨A.q.dim 0, 1, A.lens i, A.q.dim 1, A.start.cfg.numKvHeads, A.start.cfg.headDim⟩ _ hdims,
    hsame.lens_eq, hdims]
  refine decodeAttention_congr (fun e he => ?_) (fun x _ e _ => ?_) fun x _ => ?_
  · exact hsame.query_eq h hh e (by rwa [hdim])
  · simp only [helem, hrows, hsame.heads_eq, hheads]
  · simp only [helem, hrows, hsame.heads_eq, hheads]

/-- A sequence's answer is determined by its own appends since its last reset: whatever else happened in the
two runs, equal histories give equal outputs. -/
theorem sequence_isolated (A B : PagedAnswer num) {i j : ℕ} (hi : i < A.q.dim 0) (hj : j < B.q.dim 0)
    (hsame : SameRequest A B i j) (hhistory : sinceReset (B.history j) = sinceReset (A.history i)) :
    ∀ h < A.q.dim 1, ∀ d < A.q.dim 3, B.out j h d = A.out i h d := by
  intro h hh d hd
  have hdimA : A.q.dim 3 = A.start.cfg.headDim := A.cfg_eq ▸ A.fits.dim_eq
  have hdimB : B.q.dim 3 = B.start.cfg.headDim := B.cfg_eq ▸ B.fits.dim_eq
  have hdB : d < B.q.dim 3 := by
    rw [hdimB, hsame.format.headDim_eq, ← hdimA]
    exact hd
  have hblank : B.start.blankRow = A.start.blankRow := by
    simp only [blankRow, zeroRow, slotRowBytes, ValidConfig.toDeviceShape, ValidConfig.elemBytes,
      hsame.format.numKvHeads_eq, hsame.format.headDim_eq, hsame.format.dtype_eq]
  rw [B.out_eq hj (hsame.heads_eq ▸ hh) hdB, A.out_eq hi hh hd]
  refine congrArg fin (attentionOverRows_congr hsame hdimA (fun isKey x => ?_) hh d)
  have hreplay : replay (B.history j) = replay (A.history i) := by
    rw [← replay_sinceReset, hhistory, replay_sinceReset]
  simp only [historyRows, hreplay, hsame.layer_eq, hblank]

end PagedAnswer

end Isolation

/-! ## Two caches -/

/-- A served request on a small cache. -/
theorem PagedAnswer.exists_tiny {blockSize : ℕ} {c : PagedKVCache} (seqs : ℕ) (calls : List Call)
    (lens : ℕ → ℕ) (hcreate : PagedKVCache.create (tinyConfig 1 blockSize 2) zeroEnv = .ok c)
    (hassumed : Along (fun c call => LaunchesSucceed call ∧ ReadsOwnedIds c call) c calls)
    (hsound : Along AppendSound c calls)
    (hfits : FitsCache (zeroQuery seqs) (c.run calls).syncPageTable.1) (hseqs : 0 < seqs ∧ seqs ≤ 2)
    (hlayer : 0 < c.cfg.numLayers) (hlens : ∀ s, lens s ≤ (c.run calls).seqLengths s) :
    ∃ A : PagedAnswer realNumerics, A.start = c ∧ A.calls = calls ∧ A.q = zeroQuery seqs ∧
      A.qData = (fun _ => 0) ∧ A.layer = 0 ∧ A.lens = lens ∧ A.cfg.scale = 0 := by
  have hsmall : (tinyConfig 1 blockSize 2).numBlocks ≤ 2 ^ 31 := by simp [tinyConfig]
  have hinv : Inv c := Inv.create hsmall hcreate
  have hmirror := (MirrorInv.create hcreate).run hinv calls
  obtain ⟨table, hsynced⟩ := synced_run hsmall hcreate calls hmirror.syncPageTable_isOk
  have hcfg : (c.run calls).syncPageTable.1.cfg = c.cfg := by
    rw [← hinv.run_cfg calls]
    exact (hinv.run calls).step_cfg .syncPageTable
  set given : ℕ → ℤ := fun i => lens i with hgiven
  have hready : DeviceReady (readyEnv (𝕜 := ℝ)) (zeroQuery seqs)
      (partialElements seqs 1 (pagedSplits (readyEnv (𝕜 := ℝ)) (c.run calls).syncPageTable.1
        (explicitParams (c.run calls).syncPageTable.1 given seqs 0)
        ({ scale := 0, softcap := 0 } : AttentionConfig ℝ)) 32) := by
    have hle : ∀ n, 0 < n → n ≤ 16 → 0 < partialElements seqs 1 n 32 ∧
        partialElements seqs 1 n 32 ≤ 2 ^ 18 := by
      intro n hn hn'
      refine ⟨?_, ?_⟩
      · unfold partialElements
        exact Nat.mul_pos (Nat.mul_pos (by omega) hn) (by decide)
      · calc seqs * 1 * n * 34 ≤ 2 * 1 * 16 * 34 := by gcongr; exact hseqs.2
          _ ≤ 2 ^ 18 := by decide
    obtain ⟨hpos, hbound⟩ := hle _ (resolveSplits_pos _ _ _) (resolveSplits_le _ _ _)
    exact readyEnv_deviceReady hpos hbound
  obtain ⟨r, hr⟩ := hsynced.serves hfits hseqs.1 (le_refl 0)
    (by rw [hcfg]; exact Int.natCast_pos.mpr hlayer) (by simp [explicitParams])
    (by rw [maxBlocksFor_explicit]; exact hsynced.maxBlocks_pos) hready
  refine ⟨{ kvCfg := tinyConfig 1 blockSize 2, kvEnv := zeroEnv, start := c, calls := calls
            q := zeroQuery seqs, qData := fun _ => 0, lens := lens, numSeqs := seqs, layer := 0
            env := readyEnv, cfg := { scale := 0, softcap := 0 }, result := r, created := hcreate
            small := hsmall, zeroed := fun _ => ⟨fun k hk => (Option.some.inj hk).symm,
              fun v hv => (Option.some.inj hv).symm⟩
            assumed := hassumed, sound := hsound, query := rfl, fits := hfits, layer_lt := hlayer
            lens_le := hlens, answered := hr }, rfl, rfl, rfl, rfl, rfl, rfl, rfl⟩

/-- A row of ones for one token. -/
def onesAppend (seq tokens : ℕ) : Call :=
  .appendTokens seq 0 (onesToken tokens) (onesToken tokens) appendOk

/-- A longer sequence, a token that a reset forgets, a call that is refused, and the token again. -/
def crowdedCalls : List Call :=
  [onesAppend 0 3, onesAppend 1 2, .resetSeq 1 (resetOk [1]),
    .appendTokens 1 0 floatToken floatToken appendOk, onesAppend 1 1]

/-- A token alone in a cache of single-token blocks, and the same token in a crowded cache of larger
blocks. -/
theorem sequence_isolated_tiny : ∃ A B : PagedAnswer realNumerics,
    A.calls = [onesAppend 0 1] ∧ B.calls = crowdedCalls ∧ A.start.cfg.blockSize = 1 ∧
      B.start.cfg.blockSize = 8 ∧ ∀ h < A.q.dim 1, ∀ d < A.q.dim 3, B.out 1 h d = A.out 0 h d := by
  have hA : PagedKVCache.create (tinyConfig 1 1 2) zeroEnv = .ok _ := rfl
  have hB : PagedKVCache.create (tinyConfig 1 8 2) zeroEnv = .ok _ := rfl
  obtain ⟨A, hAstart, hAcalls, hAq, hAdata, hAlayer, hAlens, hAscale⟩ :=
    PagedAnswer.exists_tiny 1 [onesAppend 0 1] (fun s => if s = 0 then 1 else 0) hA
      ⟨⟨rfl, trivial⟩, trivial⟩
      ((Inv.create (by decide) hA).appendSound_run (by decide +kernel)
        (by simp [ValueRows, onesAppend]; decide))
      ⟨by decide, by decide +kernel, by decide, by decide +kernel, by decide +kernel, by decide +kernel⟩
      (by decide) (by decide +kernel) (fun s => by
        split_ifs with hs
        · subst hs
          decide +kernel
        · exact Nat.zero_le _)
  obtain ⟨B, hBstart, hBcalls, hBq, hBdata, hBlayer, hBlens, hBscale⟩ :=
    PagedAnswer.exists_tiny 2 crowdedCalls (fun s => if s = 1 then 1 else 0) hB
      ⟨⟨rfl, trivial⟩, ⟨rfl, trivial⟩, ⟨fun _ => rfl, by unfold ReadsOwnedIds; decide +kernel⟩,
        ⟨rfl, trivial⟩, ⟨rfl, trivial⟩, trivial⟩
      ((Inv.create (by decide) hB).appendSound_run (by decide +kernel)
        (by simp [ValueRows, crowdedCalls, onesAppend]; decide))
      ⟨by decide, by decide +kernel, by decide, by decide +kernel, by decide +kernel, by decide +kernel⟩
      (by decide) (by decide +kernel) (fun s => by
        split_ifs with hs
        · subst hs
          decide +kernel
        · exact Nat.zero_le _)
  have hAhistory : sinceReset (A.history 0) = [.append 0 (onesToken 1) (onesToken 1)] := by
    rw [PagedAnswer.history, hAstart, hAcalls]
    simp only [PagedKVCache.history]
    rw [if_pos (by decide +kernel)]
    rfl
  have hBhistory : sinceReset (B.history 1) = [.append 0 (onesToken 1) (onesToken 1)] := by
    rw [PagedAnswer.history, hBstart, hBcalls]
    simp only [PagedKVCache.history, crowdedCalls]
    rw [if_pos (by decide +kernel), if_pos (by decide +kernel), if_pos (by decide +kernel),
      if_neg (by decide +kernel), if_pos (by decide +kernel)]
    rfl
  refine ⟨A, B, hAcalls, hBcalls, by rw [hAstart]; decide +kernel, by rw [hBstart]; decide +kernel,
    PagedAnswer.sequence_isolated A B (by rw [hAq]; decide) (by rw [hBq]; decide) ?_
      (hBhistory.trans hAhistory.symm)⟩
  refine ⟨?_, by rw [hAq, hBq]; rfl, hBscale.trans hAscale.symm, hBlayer.trans hAlayer.symm,
    by rw [hAlens, hBlens]; rfl, fun h hh d hd => ?_⟩
  · rw [hAstart, hBstart]
    exact ⟨by decide +kernel, by decide +kernel, by decide +kernel⟩
  · simp only [PagedAnswer.queryAt, hAq, hBq, hAdata, hBdata, queryElem]
    exact (load_zero _).trans (load_zero _).symm

end SciAttention

import SciAttention.KvCache.Refinement

/-!
# What a failed call leaves behind

`AppendTokens` attaches blocks before `KVCache::Append` looks at the tensors, and keeps them when
that call fails: the caller can `ResetSeq` to recover. `ResetSeq` clears the layers one by one.
`AppendFailure` and `ResetFailure` say what a failed call can have changed.
-/

namespace SciAttention

namespace PagedKVCache

open BlockManager

/-- The row stored for position `p` of sequence `t` in `c` is still there in `c'`. -/
def KeepsRow (c c' : PagedKVCache) (isKey : Bool) (layer t p : ℕ) : Prop :=
  ∀ b, (c.seqBlocks t)[p / c.cfg.blockSize]? = some b →
    (c'.seqBlocks t)[p / c.cfg.blockSize]? = some b ∧
    c'.rowAt isKey layer (b.toNat * c.cfg.blockSize + p % c.cfg.blockSize) =
      c.rowAt isKey layer (b.toNat * c.cfg.blockSize + p % c.cfg.blockSize)

/-- All that a caller can observe of `c` is the same in `c'`. -/
structure SameObservables (c c' : PagedKVCache) : Prop where
  seqLength_eq : ∀ seqId, c'.seqLength seqId = c.seqLength seqId
  logicalBlockCount_eq : ∀ seqId, c'.logicalBlockCount seqId = c.logicalBlockCount seqId
  numFreeBlocks_eq : c'.blocks.numFreeBlocks = c.blocks.numFreeBlocks
  hostTable_eq : ∀ t < c.cfg.maxNumSeqs, ∀ i < c.maxBlocksPerSeq,
    c'.pageTableHost t i = c.pageTableHost t i
  liveRows : ∀ isKey, ∀ layer < c.cfg.numLayers, ∀ t : ℕ, ∀ p < c.seqLength t,
    KeepsRow c c' isKey layer t p

/-- A failed append: blocks from the top of the free list may have joined the sequence, as many as
its tokens need; lengths, live rows and everything of other sequences are as before. Arguments that
fail the checks of `AppendTokens` and an exhausted pool attach nothing. -/
structure AppendFailure (c c' : PagedKVCache) (seqId layer : ℤ) (kNew vNew : Tensor) : Prop where
  seqLength_eq : ∀ t, c'.seqLength t = c.seqLength t
  otherBlocks : ∀ t : ℕ, (t : ℤ) ≠ seqId → c'.seqBlocks t = c.seqBlocks t
  otherRow : ∀ t : ℕ, (t : ℤ) ≠ seqId → c'.pageTableHost t = c.pageTableHost t
  attached : ∃ ids, c.blocks.freeList = c'.blocks.freeList ++ ids.reverse ∧
    (∀ s : ℕ, seqId = s → s < c.cfg.maxNumSeqs → c'.seqBlocks s = c.seqBlocks s ++ ids ∧
      RowIs (c'.pageTableHost s) c.maxBlocksPerSeq (c.seqBlocks s ++ ids)) ∧
    (ids ≠ [] → AppendArgs c seqId layer kNew vNew seqId.toNat ∧
      c'.logicalBlockCount seqId =
        (c.seqLength seqId + kNew.dim 0 + c.cfg.blockSize - 1) / c.cfg.blockSize)
  liveRows : ∀ isKey layer (t : ℕ), ∀ p < c.seqLength t, KeepsRow c c' isKey layer t p

/-- A failed reset: only rows of the sequence's own blocks may have been cleared, in layers up to
the one whose launch failed. -/
structure ResetFailure (c c' : PagedKVCache) (seqId : ℤ) (env : ResetEnv) : Prop where
  seqLength_eq : ∀ t, c'.seqLength t = c.seqLength t
  logicalBlockCount_eq : ∀ t, c'.logicalBlockCount t = c.logicalBlockCount t
  blocks_eq : c'.blocks = c.blocks
  hostTable_eq : c'.pageTableHost = c.pageTableHost
  otherRows : ∀ isKey layer (t : ℕ), (t : ℤ) ≠ seqId → ∀ p < c.seqLength t,
    KeepsRow c c' isKey layer t p
  laterLayers : ∀ isKey layer t p, (∃ failed < layer, failed < c.cfg.numLayers ∧
    env.launch failed ≠ .ok) → KeepsRow c c' isKey layer t p

/-- Live rows are kept by a call that does not touch the sequence, and by any append. -/
theorem Inv.keepsRow {c : PagedKVCache} (h : Inv c) {call : Call} (hids : ReadsOwnedIds c call)
    (hfit : SlotsSound c call) {t p : ℕ}
    (hblocks : ∀ (j : ℕ) (b : ℤ), (c.seqBlocks t)[j]? = some b →
      ((c.step call).1.seqBlocks t)[j]? = some b)
    (hkeep : touches t call = false ∨ (isAppend call = true ∧ p < c.seqLength t)) (isKey : Bool)
    (layer : ℕ) : KeepsRow c (c.step call).1 isKey layer t p := by
  intro b hb
  refine ⟨hblocks _ b hb, h.step_rowAt hids hfit hb (Nat.mod_lt _ c.cfg.blockSize_pos) ?_ isKey
    layer⟩
  refine hkeep.imp_right fun hlive => ⟨hlive.1, ?_⟩
  have hpos : p / c.cfg.blockSize * c.cfg.blockSize + p % c.cfg.blockSize = p := by
    rw [Nat.mul_comm]
    exact Nat.div_add_mod _ _
  rw [hpos]
  have hp := hlive.2
  simp only [seqLength, Int.toNat_natCast] at hp
  split_ifs at hp
  · omega
  · exact hp

/-- A failed `AppendTokens` is an `AppendFailure`. -/
theorem Inv.appendFailure {c : PagedKVCache} (h : Inv c) {seqId layer : ℤ} {kNew vNew : Tensor}
    {env : AppendEnv} (hfit : SlotsSound c (.appendTokens seqId layer kNew vNew env))
    (hbad : ¬ (c.appendTokens seqId layer kNew vNew env).2.isOk) :
    AppendFailure c (c.appendTokens seqId layer kNew vNew env).1 seqId layer kNew vNew := by
  have hids : ReadsOwnedIds c (.appendTokens seqId layer kNew vNew env) := trivial
  -- whatever failed, live rows that keep their block keep their bytes
  have hkeep : ∀ {t p : ℕ}, (∀ (j : ℕ) (b : ℤ), (c.seqBlocks t)[j]? = some b →
      ((c.appendTokens seqId layer kNew vNew env).1.seqBlocks t)[j]? = some b) →
      p < c.seqLength t → ∀ isKey l,
        KeepsRow c (c.appendTokens seqId layer kNew vNew env).1 isKey l t p :=
    fun hblocks hp isKey l => h.keepsRow hids hfit hblocks (.inr ⟨rfl, hp⟩) isKey l
  rcases appendTokens_cases h seqId layer kNew vNew env with
    ⟨e, failures, -, heq⟩ | ⟨s, m, ids, c₂, hargs, hr, rfl, ⟨e, st, dev, cap, -, -, -, heq⟩ |
      ⟨slots, cells, cap, -, -, -, heq⟩⟩
  · rw [heq] at hkeep ⊢
    refine ⟨fun _ => rfl, fun _ _ => rfl, fun _ _ => rfl, ⟨[], by simp, ?_, by simp⟩,
      fun isKey l t p hp => hkeep (fun _ _ hb => hb) hp isKey l⟩
    intro s _ hs
    refine ⟨by simp, ?_⟩
    rw [List.append_nil, h.maxBlocks_eq]
    exact h.hostRow s hs
  · rw [heq] at hkeep ⊢
    have hne : ∀ t : ℕ, (t : ℤ) ≠ seqId → t ≠ s := by
      rintro t ht rfl
      exact ht hargs.seqId_eq.symm
    refine ⟨fun _ => rfl, fun t ht => ?_, fun t ht => ?_, ⟨ids, hr.popped.freeList_eq, ?_, ?_⟩,
      fun isKey l t p hp => hkeep (fun j b hb => ?_) hp isKey l⟩
    · exact Function.update_of_ne (hne t ht) _ _
    · exact Function.update_of_ne (hne t ht) _ _
    · intro t ht hts
      obtain rfl : t = s := by
        have := hargs.seqId_eq
        omega
      refine ⟨Function.update_self _ _ _, ?_⟩
      have hrow := (hr.inv h hargs.seq_lt).hostRow t hts
      simp only [refreshRow, attach, Function.update_self] at hrow ⊢
      rwa [h.maxBlocks_eq] at hrow ⊢
    · intro hids
      obtain rfl : seqId.toNat = s := by rw [hargs.seqId_eq]; rfl
      refine ⟨hargs, ?_⟩
      have hseq := hargs.seqId_eq
      have hlt := hargs.seq_lt
      simp only [logicalBlockCount, seqLength, refreshRow, attach, Function.update_self]
      rw [if_neg (by omega), if_neg (by omega)]
      have hpos := List.length_pos_iff.mpr hids
      have hlen := hr.length_eq
      rw [List.length_append] at hlen ⊢
      simp only [neededBlocks] at hlen
      omega
    · simp only [refreshRow, attach]
      by_cases ht : t = s
      · obtain ⟨hlt, -⟩ := List.getElem?_eq_some_iff.mp hb
        rw [ht, Function.update_self, List.getElem?_append_left (ht ▸ hlt), ← ht, hb]
      · rw [Function.update_of_ne ht, hb]
  · rw [heq] at hbad
    exact absurd Status.isOk_ok hbad

/-- A failed `ResetSeq` is a `ResetFailure`. -/
theorem Inv.resetFailure {c : PagedKVCache} (h : Inv c) {seqId : ℤ} {env : ResetEnv}
    (hids : ReadsOwnedIds c (.resetSeq seqId env)) (hbad : ¬ (c.resetSeq seqId env).2.isOk) :
    ResetFailure c (c.resetSeq seqId env).1 seqId env := by
  have hfit : SlotsSound c (.resetSeq seqId env) := trivial
  have hkeep : ∀ {t p : ℕ}, (∀ (j : ℕ) (b : ℤ), (c.seqBlocks t)[j]? = some b →
      ((c.resetSeq seqId env).1.seqBlocks t)[j]? = some b) →
      (t : ℤ) ≠ seqId → ∀ isKey l, KeepsRow c (c.resetSeq seqId env).1 isKey l t p := by
    intro t p hblocks ht isKey l
    exact h.keepsRow hids hfit hblocks (.inl (by simpa [touches] using Ne.symm ht)) isKey l
  rcases c.resetSeq_cases seqId env with
    ⟨e, -, heq⟩ | ⟨s, rfl, hs, ⟨-, -, heq⟩ | ⟨st, -, -, heq⟩⟩
  · rw [heq]
    exact ⟨fun _ => rfl, fun _ => rfl, rfl, rfl, fun _ _ _ _ _ _ b hb => ⟨hb, rfl⟩,
      fun _ _ _ _ _ b hb => ⟨hb, rfl⟩⟩
  · rw [heq] at hkeep ⊢
    refine ⟨fun _ => rfl, fun _ => rfl, rfl, rfl,
      fun isKey l t ht p _ => hkeep (fun _ _ hb => hb) ht isKey l, ?_⟩
    rintro isKey l t p ⟨failed, hlt, hlayers, hfailed⟩ b hb
    refine ⟨hb, ?_⟩
    have hside : (c.storage.reset (some env.idsRead) (c.seqBlocks s).length env.launch).1.side
        isKey l = c.storage.side isKey l :=
      KVCache.reset_side_of_failed hfailed hlt (by rwa [h.storageCfg_eq]) isKey
    simp only [rowAt, hside]
  · rw [heq] at hbad
    exact absurd Status.isOk_ok hbad

/-- In every reachable state, a failed `AppendTokens` or `ResetSeq` keeps what `AppendFailure` and
`ResetFailure` say, whatever the launches did. -/
theorem failed_call_run {cfg : KVCacheConfig} {env : PagedEnv} {c : PagedKVCache}
    (hcreate : PagedKVCache.create cfg env = .ok c) (hsmall : cfg.numBlocks ≤ 2 ^ 31)
    (calls : List Call) :
    (∀ seqId layer kNew vNew env,
      SlotsSound (c.run calls) (.appendTokens seqId layer kNew vNew env) →
      ¬ ((c.run calls).appendTokens seqId layer kNew vNew env).2.isOk →
      AppendFailure (c.run calls) ((c.run calls).appendTokens seqId layer kNew vNew env).1 seqId
        layer kNew vNew) ∧
    ∀ seqId env, ReadsOwnedIds (c.run calls) (.resetSeq seqId env) →
      ¬ ((c.run calls).resetSeq seqId env).2.isOk →
      ResetFailure (c.run calls) ((c.run calls).resetSeq seqId env).1 seqId env :=
  have h := (Inv.create hsmall hcreate).run calls
  ⟨fun _ _ _ _ _ hfit hbad => h.appendFailure hfit hbad,
    fun _ _ hids hbad => h.resetFailure hids hbad⟩

/-- A single-precision token, which the half-precision cache of `tinyConfig` refuses. -/
def floatToken : Tensor := { tokenTensor 1 1 fun _ => 0 with dtype := .float32 }

/-- A refused dtype leaves a block attached to the sequence. -/
theorem not_sameObservables_floatToken : ∃ c,
    PagedKVCache.create (tinyConfig 1 1 2) zeroEnv = .ok c ∧
    ¬ (c.appendTokens 0 0 floatToken floatToken appendOk).2.isOk ∧
    c.logicalBlockCount 0 = 0 ∧
    (c.appendTokens 0 0 floatToken floatToken appendOk).1.logicalBlockCount 0 = 1 ∧
    ¬ SameObservables c (c.appendTokens 0 0 floatToken floatToken appendOk).1 := by
  refine ⟨_, rfl, by decide +kernel, rfl, by decide +kernel, fun hsame => ?_⟩
  have hcount := hsame.logicalBlockCount_eq 0
  revert hcount
  decide +kernel

/-- A device on which the launch on the second layer fails before it writes. -/
def resetFailing (ids : List ℤ) : ResetEnv :=
  ⟨fun i => ids.getD i (-1), fun l => if l = 1 then .failed false "launch" 0 else .ok⟩

/-- The failure theorem at an append of the wrong dtype and at a reset that fails on the second of
two layers. -/
theorem failed_call_tiny : ∃ c,
    PagedKVCache.create (tinyConfig 2 1 2) zeroEnv = .ok c ∧
    AppendFailure c (c.appendTokens 0 0 floatToken floatToken appendOk).1 0 0 floatToken
      floatToken ∧
    let c' := c.run [.appendTokens 0 0 (tokenTensor 1 1 fun _ => 1) (tokenTensor 1 1 fun _ => 2)
      appendOk]
    ResetFailure c' (c'.resetSeq 0 (resetFailing [0])).1 0 (resetFailing [0]) := by
  have hcreate : PagedKVCache.create (tinyConfig 2 1 2) zeroEnv = .ok _ := rfl
  have hsmall : (tinyConfig 2 1 2).numBlocks ≤ 2 ^ 31 := by decide
  have hfit := (Inv.create hsmall hcreate).nextSlotsFit (by decide)
  refine ⟨_, hcreate,
    (failed_call_run hcreate hsmall []).1 _ _ _ _ _ (fun _ => hfit _ _) (by decide +kernel),
    (failed_call_run hcreate hsmall _).2 _ _ ?_ (by decide +kernel)⟩
  unfold ReadsOwnedIds
  decide +kernel

end PagedKVCache

end SciAttention

import SciAttention.KvCache.Capacity

/-!
# Admitting a batch of appends

A caller that sends many appends wants to know beforehand whether the pool will hold them. In a state whose
slot buffer is not lost, appends that only the pool may refuse all succeed exactly when the blocks that the
sequences own in the end fit the pool. Their order does not matter, nor how a sequence's tokens are cut into
calls and interleaved with those of others.
-/

namespace SciAttention

namespace PagedKVCache

open BlockManager

/-- A call of a batch: an append that only the pool may refuse, or a synchronisation. -/
def Admissible (c : PagedKVCache) : Call → Prop
  | .appendTokens seqId layer kNew vNew env => AppendReady c seqId layer kNew vNew (kNew.dim 0) env
  | .resetSeq _ _ => False
  | .syncPageTable => True
  | .forceSyncPageTable => True

/-- The tokens that a batch appends to sequence `s`. -/
def tokensFor (calls : List Call) (s : ℕ) : ℕ := ((calls.filter (touches s)).map callTokens).sum

/-- The blocks that a sequence owns once it has `tokens` more tokens. -/
def blocksAfter (c : PagedKVCache) (s tokens : ℕ) : ℕ :=
  max (c.seqBlocks s).length ((c.seqLengths s + tokens) ⌈/⌉ c.cfg.blockSize)

/-- The blocks that all sequences own in the end. -/
def blocksDemanded (c : PagedKVCache) (calls : List Call) : ℕ :=
  ∑ s ∈ Finset.range c.cfg.maxNumSeqs, c.blocksAfter s (tokensFor calls s)

/-- The slot buffer is not lost: there is none yet, or the pointer is there. -/
def SlotBufferHeld (c : PagedKVCache) : Prop := c.slotMappingCapacity = 0 ∨ c.slotMappingDevice.isSome

theorem tokensFor_cons_of_touches {call : Call} {s : ℕ} (h : touches s call = true) (calls : List Call) :
    tokensFor (call :: calls) s = callTokens call + tokensFor calls s := by
  rw [tokensFor, List.filter_cons_of_pos h, List.map_cons, List.sum_cons, tokensFor]

theorem tokensFor_cons_of_not_touches {call : Call} {s : ℕ} (h : touches s call = false)
    (calls : List Call) : tokensFor (call :: calls) s = tokensFor calls s := by
  rw [tokensFor, List.filter_cons_of_neg (by simp [h]), tokensFor]

/-- A batch and its reorderings bring the same tokens. -/
theorem tokensFor_perm {calls calls' : List Call} (h : calls.Perm calls') (s : ℕ) :
    tokensFor calls s = tokensFor calls' s :=
  ((h.filter _).map _).sum_eq

/-- More tokens need no fewer blocks. -/
theorem ceilDiv_mono_left (c : PagedKVCache) {m n : ℕ} (h : m ≤ n) :
    m ⌈/⌉ c.cfg.blockSize ≤ n ⌈/⌉ c.cfg.blockSize :=
  (gc_mul_ceilDiv c.cfg.blockSize_pos).monotone_l h

/-- No tokens, no blocks. -/
theorem Inv.blocksAfter_zero {c : PagedKVCache} (h : Inv c) (s : ℕ) :
    c.blocksAfter s 0 = (c.seqBlocks s).length := by
  refine max_eq_left ?_
  rw [Nat.add_zero, ceilDiv_le_iff_le_mul c.cfg.blockSize_pos, Nat.mul_comm]
  exact h.length_le s

/-- An append that only the pool may refuse is about a sequence of the cache. -/
theorem Admissible.exists_seq {c : PagedKVCache} {seqId layer : ℤ} {kNew vNew : Tensor} {env : AppendEnv}
    (h : Admissible c (.appendTokens seqId layer kNew vNew env)) :
    ∃ s : ℕ, seqId = s ∧ s < c.cfg.maxNumSeqs := by
  have hpos := h.seq_nonneg
  have hlt := h.seq_lt
  exact ⟨seqId.toNat, by omega, by omega⟩

/-- Admissible calls stay so: they are compared with the configuration only. -/
theorem Admissible.step {c : PagedKVCache} (hinv : Inv c) {call : Call} (h : Admissible c call)
    (first : Call) : Admissible (c.step first).1 call := by
  cases call with
  | appendTokens seqId layer kNew vNew env => exact AppendReady.run hinv h [first]
  | resetSeq seqId env => exact h
  | syncPageTable => trivial
  | forceSyncPageTable => trivial

section Step

variable {c : PagedKVCache} {s : ℕ} {layer : ℤ} {kNew vNew : Tensor} {env : AppendEnv}

/-- What the blocks of a sequence are after a successful append. -/
theorem Inv.blocksAfter_append (h : Inv c) (hok : (c.appendTokens s layer kNew vNew env).2.isOk)
    (t tokens : ℕ) :
    (c.appendTokens s layer kNew vNew env).1.blocksAfter t tokens =
      c.blocksAfter t (if t = s then kNew.dim 0 + tokens else tokens) := by
  have hcfg : (c.appendTokens s layer kNew vNew env).1.cfg = c.cfg :=
    h.step_cfg (.appendTokens s layer kNew vNew env)
  obtain ⟨u, hu, -, -, -, hlens, hothers, hown⟩ := h.append_step_ok hok
  obtain rfl : s = u := by exact_mod_cast hu
  rw [blocksAfter, blocksAfter, hcfg, hlens]
  by_cases ht : t = s
  · subst ht
    rw [if_pos rfl, Function.update_self, hown, neededBlocks, ← Nat.ceilDiv_eq_add_pred_div,
      Nat.add_assoc, max_assoc]
    refine congrArg _ (max_eq_right ?_)
    exact ceilDiv_mono_left c (by omega)
  · rw [if_neg ht, Function.update_of_ne ht, hothers t ht]

/-- A successful append leaves the slot buffer on the device. -/
theorem Inv.slotBufferHeld_append (h : Inv c) (hok : (c.appendTokens s layer kNew vNew env).2.isOk) :
    SlotBufferHeld (c.appendTokens s layer kNew vNew env).1 := by
  rcases appendTokens_cases h s layer kNew vNew env with
    ⟨e, failures, hbad, heq⟩ | ⟨t, m, ids, c₂, -, -, rfl, ⟨e, st, dev, cap, hbad, -, -, heq⟩ |
      ⟨slots, cells, cap, -, -, -, heq⟩⟩
  · exact absurd (by simpa [heq] using hok) hbad
  · exact absurd (by simpa [heq] using hok) hbad
  · rw [heq]
    exact .inr rfl

/-- A held buffer lets the pool decide. -/
theorem Inv.append_isOk_iff (h : Inv c) (hsmall : c.cfg.numBlocks * c.cfg.blockSize < 2 ^ 31)
    (hheld : SlotBufferHeld c) (hready : AppendReady c s layer kNew vNew (kNew.dim 0) env) :
    (c.appendTokens s layer kNew vNew env).2.isOk ↔
      c.missingBlocks s (kNew.dim 0) ≤ c.blocks.numFreeBlocks := by
  by_cases hfew : c.blocks.numFreeBlocks < c.missingBlocks s (kNew.dim 0)
  · exact (h.decidedByPool_of_few hready hfew).isOk_iff
  · refine ((h.decidedByPool_of_enough hsmall hready (not_lt.mp hfew)).mpr ?_).isOk_iff
    refine hheld.imp (fun hzero => ?_) id
    rw [hzero]
    exact hready.tokens_pos

end Step

/-- Nothing but the tables is touched by a synchronisation, and it succeeds. -/
structure OnlySynchronises (c c' : PagedKVCache) : Prop where
  seqBlocks_eq : c'.seqBlocks = c.seqBlocks
  seqLengths_eq : c'.seqLengths = c.seqLengths
  cfg_eq : c'.cfg = c.cfg
  held : SlotBufferHeld c → SlotBufferHeld c'

theorem onlySynchronises_withMirror (c : PagedKVCache) (device : Option HostTable) (synced : ℕ) :
    OnlySynchronises c { c with pageTableDevice := device, syncedRevision := synced } :=
  ⟨rfl, rfl, rfl, id⟩

theorem OnlySynchronises.blocksDemanded_eq {c c' : PagedKVCache} (h : OnlySynchronises c c')
    (calls : List Call) : c'.blocksDemanded calls = c.blocksDemanded calls := by
  simp only [blocksDemanded, blocksAfter, h.seqBlocks_eq, h.seqLengths_eq, h.cfg_eq]

theorem MirrorInv.forceSyncPageTable_isOk {c : PagedKVCache} (h : MirrorInv c) :
    c.forceSyncPageTable.2.isOk := by
  obtain ⟨table, htable, -⟩ := h.device
  simp only [PagedKVCache.forceSyncPageTable, htable]
  exact Status.isOk_ok

/-- What the sequences own never exceeds the pool, and appends do not take it away. -/
theorem Inv.missingBlocks_le_iff {c : PagedKVCache} (h : Inv c) {s : ℕ} (hs : s < c.cfg.maxNumSeqs)
    (n : ℕ) : c.missingBlocks s n ≤ c.blocks.numFreeBlocks ↔
      c.blocksAfter s n + ∑ t ∈ (Finset.range c.cfg.maxNumSeqs).erase s, (c.seqBlocks t).length ≤
        c.cfg.numBlocks := by
  have htotal := h.freeList_add_owned
  rw [← Finset.add_sum_erase _ _ (Finset.mem_range.mpr hs)] at htotal
  have hrange : ¬ ((s : ℤ) < 0 ∨ (s : ℤ) ≥ c.cfg.maxNumSeqs) := by omega
  rw [missingBlocks, seqLength, logicalBlockCount, if_neg hrange, if_neg hrange, numFreeBlocks,
    blocksAfter, Int.toNat_natCast]
  omega

/-- What a synchronisation leaves alone. -/
theorem onlySynchronises_step {c : PagedKVCache} {call : Call}
    (hcall : call = .syncPageTable ∨ call = .forceSyncPageTable) : OnlySynchronises c (c.step call).1 := by
  rcases hcall with rfl | rfl
  · obtain ⟨device, synced, heq⟩ := c.syncPageTable_eq
    rw [PagedKVCache.step, heq]
    exact onlySynchronises_withMirror c device synced
  · obtain ⟨device, synced, heq⟩ := c.forceSyncPageTable_eq
    rw [PagedKVCache.step, heq]
    exact onlySynchronises_withMirror c device synced

/-- An admissible call is an append to a sequence of the cache or a synchronisation. -/
theorem Admissible.cases {c : PagedKVCache} {call : Call} (h : Admissible c call) :
    (∃ s < c.cfg.maxNumSeqs, ∃ layer kNew vNew env,
        call = .appendTokens (s : ℕ) layer kNew vNew env ∧
          AppendReady c s layer kNew vNew (kNew.dim 0) env) ∨
      call = .syncPageTable ∨ call = .forceSyncPageTable := by
  cases call with
  | appendTokens seqId layer kNew vNew env =>
    obtain ⟨s, rfl, hs⟩ := h.exists_seq
    exact .inl ⟨s, hs, layer, kNew, vNew, env, rfl, h⟩
  | resetSeq seqId env => exact absurd h id
  | syncPageTable => exact .inr (.inl rfl)
  | forceSyncPageTable => exact .inr (.inr rfl)

theorem Admissible.ne_resetSeq {c : PagedKVCache} {call : Call} (h : Admissible c call) (seqId : ℤ)
    (env : ResetEnv) : call ≠ .resetSeq seqId env := by
  rintro rfl
  exact h

/-- What a sequence gets of an append and the calls behind it. -/
theorem tokensFor_append (s t : ℕ) (layer : ℤ) (kNew vNew : Tensor) (env : AppendEnv)
    (calls : List Call) :
    tokensFor (.appendTokens s layer kNew vNew env :: calls) t =
      if t = s then kNew.dim 0 + tokensFor calls t else tokensFor calls t := by
  split_ifs with ht
  · exact tokensFor_cons_of_touches (by simp [touches, ht]) calls
  · refine tokensFor_cons_of_not_touches ?_ calls
    simp only [touches, beq_eq_false_iff_ne, ne_eq, Nat.cast_inj]
    exact fun hst => ht hst.symm

/-- A successful call leaves to the calls behind it what they demanded together, unless it is a reset. -/
theorem Inv.blocksDemanded_step {c : PagedKVCache} (h : Inv c) {call : Call}
    (hcall : ∀ seqId env, call ≠ .resetSeq seqId env) (hok : (c.step call).2.isOk) (calls : List Call) :
    (c.step call).1.blocksDemanded calls = c.blocksDemanded (call :: calls) := by
  -- a synchronisation changes no demand
  have hsync : OnlySynchronises c (c.step call).1 → (∀ s, touches s call = false) →
      (c.step call).1.blocksDemanded calls = c.blocksDemanded (call :: calls) := by
    intro honly htouch
    rw [honly.blocksDemanded_eq]
    simp only [blocksDemanded, tokensFor_cons_of_not_touches (htouch _)]
  cases call with
  | appendTokens seqId layer kNew vNew env =>
    have hcfg : (c.appendTokens seqId layer kNew vNew env).1.cfg = c.cfg :=
      h.step_cfg (.appendTokens seqId layer kNew vNew env)
    obtain ⟨s, rfl, -⟩ := h.append_step_ok hok
    rw [PagedKVCache.step, blocksDemanded, blocksDemanded, hcfg]
    refine Finset.sum_congr rfl fun t _ => ?_
    rw [h.blocksAfter_append hok, tokensFor_append]
  | resetSeq seqId env => exact absurd rfl (hcall seqId env)
  | syncPageTable => exact hsync (onlySynchronises_step (.inl rfl)) fun _ => rfl
  | forceSyncPageTable => exact hsync (onlySynchronises_step (.inr rfl)) fun _ => rfl

/-- A successful call leaves the slot buffer held. -/
theorem Inv.slotBufferHeld_step {c : PagedKVCache} (h : Inv c) {call : Call} (hcall : Admissible c call)
    (hok : (c.step call).2.isOk) (hheld : SlotBufferHeld c) : SlotBufferHeld (c.step call).1 := by
  rcases hcall.cases with ⟨s, -, layer, kNew, vNew, env, rfl, -⟩ | hsync
  · exact h.slotBufferHeld_append hok
  · exact (onlySynchronises_step hsync).held hheld

/-- Without further calls, the demand is what the sequences own. -/
theorem Inv.blocksDemanded_nil {c : PagedKVCache} (h : Inv c) :
    c.blocksDemanded [] = ∑ s ∈ Finset.range c.cfg.maxNumSeqs, (c.seqBlocks s).length :=
  Finset.sum_congr rfl fun s _ => h.blocksAfter_zero s

/-- The blocks in use are those that the sequences own. -/
theorem Inv.usedBlocks_eq {c : PagedKVCache} (h : Inv c) : c.stats.usedBlocks = c.blocksDemanded [] := by
  have htotal := h.freeList_add_owned
  have hused : c.stats.usedBlocks = (c.blocks.numTotalBlocks : ℤ) - c.blocks.numFreeBlocks := rfl
  rw [hused, h.blocksDemanded_nil, BlockManager.numTotalBlocks, h.numBlocks_eq,
    BlockManager.numFreeBlocks]
  omega

/-- A batch of admissible calls succeeds as a whole exactly when the blocks it demands fit the pool. -/
theorem Inv.admits_iff {c : PagedKVCache} (h : Inv c) (hmirror : MirrorInv c)
    (hsmall : c.cfg.numBlocks * c.cfg.blockSize < 2 ^ 31) (hheld : SlotBufferHeld c) {calls : List Call}
    (hcalls : ∀ call ∈ calls, Admissible c call) :
    Along (fun c call => (c.step call).2.isOk) c calls ↔ c.blocksDemanded calls ≤ c.cfg.numBlocks := by
  induction calls generalizing c with
  | nil =>
    have htotal := h.freeList_add_owned
    rw [h.blocksDemanded_nil]
    simp only [Along, true_iff]
    omega
  | cons call calls ih =>
    have hcall := hcalls call List.mem_cons_self
    have hrest : ∀ d ∈ calls, Admissible (c.step call).1 d := fun d hd =>
      (hcalls d (List.mem_cons_of_mem _ hd)).step h call
    by_cases hok : (c.step call).2.isOk
    · rw [← h.blocksDemanded_step hcall.ne_resetSeq hok calls, ← h.step_cfg call]
      refine (and_iff_right hok).trans (ih (h.step call) (hmirror.step h call) ?_ ?_ hrest)
      · rwa [h.step_cfg call]
      · exact h.slotBufferHeld_step hcall hok hheld
    · refine iff_of_false (fun halong => hok halong.1) fun hfits => hok ?_
      rcases hcall.cases with ⟨s, hs, layer, kNew, vNew, env, rfl, hready⟩ | rfl | rfl
      · -- the demand counts at least this append and what the others own
        refine (h.append_isOk_iff hsmall hheld hready).mpr ?_
        rw [h.missingBlocks_le_iff hs]
        refine le_trans ?_ hfits
        rw [blocksDemanded, ← Finset.add_sum_erase _ _ (Finset.mem_range.mpr hs)]
        refine Nat.add_le_add ?_ (Finset.sum_le_sum fun t _ => le_max_left _ _)
        rw [tokensFor_append, if_pos rfl]
        exact max_le_max le_rfl (ceilDiv_mono_left c (by omega))
      · exact hmirror.syncPageTable_isOk
      · exact hmirror.forceSyncPageTable_isOk

/-- A batch without resets that succeeded owns the blocks that it demanded. -/
theorem Inv.usedBlocks_run {c : PagedKVCache} (h : Inv c) {calls : List Call}
    (hcalls : ∀ call ∈ calls, ∀ seqId env, call ≠ .resetSeq seqId env)
    (hok : Along (fun c call => (c.step call).2.isOk) c calls) :
    (c.run calls).stats.usedBlocks = c.blocksDemanded calls := by
  induction calls generalizing c with
  | nil => exact h.usedBlocks_eq
  | cons call calls ih =>
    rw [run_cons, ih (h.step call) (fun d hd => hcalls d (List.mem_cons_of_mem _ hd)) hok.2,
      h.blocksDemanded_step (hcalls call List.mem_cons_self) hok.1]

/-- In every reachable state whose slot buffer is held, a batch of admissible calls succeeds as a whole
exactly when the blocks it demands fit the pool; so it does in one order exactly when it does in any
other. -/
theorem admission_run_iff {cfg : KVCacheConfig} {env : PagedEnv} {c : PagedKVCache}
    (hcreate : PagedKVCache.create cfg env = .ok c) (hsmall : cfg.numBlocks * cfg.blockSize < 2 ^ 31)
    (before : List Call) (hheld : SlotBufferHeld (c.run before)) {calls : List Call}
    (hcalls : ∀ call ∈ calls, Admissible (c.run before) call) :
    (Along (fun c call => (c.step call).2.isOk) (c.run before) calls ↔
        (c.run before).blocksDemanded calls ≤ (c.run before).cfg.numBlocks) ∧
      ∀ calls', calls.Perm calls' →
        (Along (fun c call => (c.step call).2.isOk) (c.run before) calls ↔
          Along (fun c call => (c.step call).2.isOk) (c.run before) calls') := by
  obtain ⟨hinv, hslots⟩ := Inv.create_of_slots hcreate hsmall
  rw [← hinv.run_cfg before] at hslots
  have hmirror := (MirrorInv.create hcreate).run hinv before
  have hadmits : ∀ calls : List Call, (∀ call ∈ calls, (c.run before).Admissible call) → _ :=
    fun calls => (hinv.run before).admits_iff hmirror hslots hheld
  refine ⟨hadmits calls hcalls, fun calls' hperm => ?_⟩
  rw [hadmits calls hcalls, hadmits calls' fun call hcall => hcalls call (hperm.mem_iff.mpr hcall)]
  simp only [blocksDemanded, tokensFor_perm hperm]

/-- Two sequences that want three of two blocks, in either order. -/
theorem admission_tiny : ∃ c, PagedKVCache.create (tinyConfig 1 1 2) zeroEnv = .ok c ∧
    (Along (fun c call => (c.step call).2.isOk) (c.run [])
      [.appendTokens 0 0 (tokenTensor 1 1 fun _ => 1) (tokenTensor 1 1 fun _ => 1) appendOk,
        .appendTokens 1 0 (tokenTensor 2 1 fun _ => 1) (tokenTensor 2 1 fun _ => 1) appendOk] ↔
      (c.run []).blocksDemanded
        [.appendTokens 0 0 (tokenTensor 1 1 fun _ => 1) (tokenTensor 1 1 fun _ => 1) appendOk,
          .appendTokens 1 0 (tokenTensor 2 1 fun _ => 1) (tokenTensor 2 1 fun _ => 1) appendOk] ≤ 2) := by
  have hcreate : PagedKVCache.create (tinyConfig 1 1 2) zeroEnv = .ok _ := rfl
  refine ⟨_, hcreate, (admission_run_iff hcreate (by decide) [] (.inl rfl) ?_).1⟩
  intro call hcall
  simp only [List.mem_cons, List.not_mem_nil, or_false] at hcall
  rcases hcall with rfl | rfl
  · constructor <;> decide +kernel
  · constructor <;> decide +kernel

end PagedKVCache

end SciAttention

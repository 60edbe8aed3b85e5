import SciAttention.KvCache.Invariant

/-!
# The device mirror of the page table

`SyncPageTable` copies the host table only when the revision moved. A failed append rewrites the host
row of its sequence without a new revision, so the two tables need not agree entry for entry; but what
it adds lies behind the blocks that hold tokens. The entries a reader of the first `SeqLength` tokens
looks up are current whenever the revisions agree.
-/

namespace SciAttention

namespace PagedKVCache

open BlockManager

/-- The table maps every block of sequence `s` that holds a token to the block it owns. -/
def RowCurrent (c : PagedKVCache) (table : HostTable) (s : ℕ) : Prop :=
  ∀ j, j * c.cfg.blockSize < c.seqLengths s → table s j = (c.seqBlocks s).getD j (-1)

/-- The mirror exists, and is current when the revisions agree. -/
structure MirrorInv (c : PagedKVCache) : Prop where
  synced_le : c.syncedRevision ≤ c.revision
  device : ∃ table, c.pageTableDevice = some table ∧
    (c.revision = c.syncedRevision → ∀ s < c.cfg.maxNumSeqs, RowCurrent c table s)

theorem MirrorInv.create {cfg : KVCacheConfig} {env : PagedEnv} {c : PagedKVCache}
    (h : PagedKVCache.create cfg env = .ok c) : MirrorInv c := by
  obtain ⟨storage, blocks, -, -, rfl⟩ := create_eq_ok h
  exact ⟨le_rfl, emptyTable, rfl, fun _ s _ j hj => absurd hj (by simp)⟩

/-- A state with the same revisions, mirror and lengths whose owned lists only grew. -/
theorem MirrorInv.grow {c c' : PagedKVCache} (h : MirrorInv c) (hinv : Inv c)
    (hcfg : c'.cfg = c.cfg) (hrev : c'.revision = c.revision)
    (hsynced : c'.syncedRevision = c.syncedRevision) (hdevice : c'.pageTableDevice = c.pageTableDevice)
    (hlen : c'.seqLengths = c.seqLengths)
    (hblocks : ∀ s, ∃ ids, c'.seqBlocks s = c.seqBlocks s ++ ids) : MirrorInv c' := by
  obtain ⟨table, htable, hcurrent⟩ := h.device
  refine ⟨by rw [hrev, hsynced]; exact h.synced_le, table, hdevice.trans htable, ?_⟩
  intro hagree s hs j hj
  rw [hcfg] at hs hj
  rw [hlen] at hj
  obtain ⟨ids, hids⟩ := hblocks s
  have hfilled : j < (c.seqBlocks s).length :=
    Nat.lt_of_mul_lt_mul_right (lt_of_lt_of_le hj (hinv.length_le s))
  rw [hcurrent (by rw [← hrev, ← hsynced]; exact hagree) s hs j hj, hids,
    List.getD_append _ _ _ _ hfilled]

/-- A state with a newer revision and the same mirror. -/
theorem MirrorInv.bump {c c' : PagedKVCache} (h : MirrorInv c) (hrev : c'.revision = c.revision + 1)
    (hsynced : c'.syncedRevision = c.syncedRevision)
    (hdevice : c'.pageTableDevice = c.pageTableDevice) : MirrorInv c' := by
  obtain ⟨table, htable, -⟩ := h.device
  have hle := h.synced_le
  exact ⟨by omega, table, hdevice.trans htable, fun hagree => by omega⟩

theorem MirrorInv.appendTokens {c : PagedKVCache} (h : MirrorInv c) (hinv : Inv c)
    (seqId layer : ℤ) (kNew vNew : Tensor) (env : AppendEnv) :
    MirrorInv (c.appendTokens seqId layer kNew vNew env).1 := by
  rcases appendTokens_cases hinv seqId layer kNew vNew env with
    ⟨e, failures, -, heq⟩ | ⟨s, m, ids, c₂, -, -, rfl, hrest⟩
  · rw [heq]
    exact h.grow hinv rfl rfl rfl rfl rfl fun s => ⟨[], by simp⟩
  · have hattach : MirrorInv ((c.attach m s ids).refreshRow s) := by
      refine h.grow hinv rfl rfl rfl rfl rfl fun t => ?_
      by_cases ht : t = s
      · subst ht
        exact ⟨ids, by simp [attach, refreshRow]⟩
      · exact ⟨[], by simp [attach, refreshRow, Function.update_of_ne ht]⟩
    rcases hrest with ⟨e, st, dev, capacity, -, -, -, heq⟩ | ⟨slots, cells, capacity, -, -, -, heq⟩
    · rw [heq]
      exact ⟨hattach.synced_le, hattach.device⟩
    · rw [heq]
      exact hattach.bump rfl rfl rfl

theorem MirrorInv.resetSeq {c : PagedKVCache} (h : MirrorInv c) (seqId : ℤ) (env : ResetEnv) :
    MirrorInv (c.resetSeq seqId env).1 := by
  rcases resetSeq_cases c seqId env with ⟨e, -, heq⟩ |
    ⟨s, -, -, ⟨-, -, heq⟩ | ⟨st, -, -, heq⟩⟩
  · rw [heq]
    exact h
  · rw [heq]
    exact ⟨h.synced_le, h.device⟩
  · rw [heq]
    exact h.bump rfl rfl rfl

theorem MirrorInv.forceSyncPageTable {c : PagedKVCache} (h : MirrorInv c) (hinv : Inv c) :
    MirrorInv c.forceSyncPageTable.1 := by
  obtain ⟨table, htable, -⟩ := h.device
  simp only [PagedKVCache.forceSyncPageTable, htable]
  refine ⟨le_rfl, c.pageTableHost, rfl, fun _ s hs j hj => ?_⟩
  have hfilled : j < (c.seqBlocks s).length :=
    Nat.lt_of_mul_lt_mul_right (lt_of_lt_of_le hj (hinv.length_le s))
  exact (hinv.hostRow s hs).eq j (hfilled.trans_le (hinv.hostRow s hs).length_le)

theorem MirrorInv.step {c : PagedKVCache} (h : MirrorInv c) (hinv : Inv c) (call : Call) :
    MirrorInv (c.step call).1 := by
  cases call with
  | appendTokens seqId layer kNew vNew env => exact h.appendTokens hinv seqId layer kNew vNew env
  | resetSeq seqId env => exact h.resetSeq seqId env
  | syncPageTable =>
    simp only [PagedKVCache.step, PagedKVCache.syncPageTable]
    split_ifs
    · exact h
    · exact h.forceSyncPageTable hinv
  | forceSyncPageTable => exact h.forceSyncPageTable hinv

/-- Both invariants hold along every run. -/
theorem MirrorInv.run {c : PagedKVCache} (h : MirrorInv c) (hinv : Inv c) (calls : List Call) :
    MirrorInv (c.run calls) :=
  (run_induction (P := fun c => Inv c ∧ MirrorInv c)
    (fun _ call hc => ⟨hc.1.step call, hc.2.step hc.1 call⟩) ⟨hinv, h⟩ calls).2

/-- A successful synchronisation leaves equal revisions. -/
theorem syncPageTable_revision {c : PagedKVCache} (hok : c.syncPageTable.2.isOk) :
    c.syncPageTable.1.revision = c.syncPageTable.1.syncedRevision := by
  unfold PagedKVCache.syncPageTable at hok ⊢
  split_ifs at hok ⊢ with hagree
  · exact hagree
  · unfold PagedKVCache.forceSyncPageTable at hok ⊢
    cases hdevice : c.pageTableDevice with
    | none => simp [hdevice] at hok
    | some table => rfl

/-- A cache as a reader finds it after a successful `SyncPageTable`. -/
structure Synced (c : PagedKVCache) (table : HostTable) : Prop where
  inv : Inv c
  device_eq : c.pageTableDevice = some table
  current : ∀ s < c.cfg.maxNumSeqs, RowCurrent c table s

/-- Every reachable state is so after a successful `SyncPageTable`. -/
theorem synced_run {cfg : KVCacheConfig} {env : PagedEnv} {c : PagedKVCache}
    (hsmall : cfg.numBlocks ≤ 2 ^ 31) (hcreate : PagedKVCache.create cfg env = .ok c)
    (calls : List Call) (hok : (c.run calls).syncPageTable.2.isOk) :
    ∃ table, Synced (c.run calls).syncPageTable.1 table := by
  have hinv := (Inv.create hsmall hcreate).run calls
  have hmirror := (MirrorInv.create hcreate).run (Inv.create hsmall hcreate) calls
  obtain ⟨table, htable, hcurrent⟩ := (hmirror.step hinv .syncPageTable).device
  exact ⟨table, hinv.step .syncPageTable, htable, hcurrent (syncPageTable_revision hok)⟩

end PagedKVCache

end SciAttention

import SciAttention.Common.Runs
import SciAttention.KvCache.Failure
import SciAttention.KvCache.Mirror

/-!
# The revision gate of the page table

`SyncPageTable` trusts that equal revisions mean equal tables. The one path that breaks this is an append
that attaches blocks, rewrites the host row and then fails: it returns before the revision is bumped. So
the gate is sound in every state of a run exactly when no append of the run does that while the tables
are in step (`gateSound_run_iff`).
-/

namespace SciAttention

namespace KVCache

/-- When `KVCache::Append` of the tokens a tensor holds succeeds. -/
theorem append_isOk_iff {c : KVCache} {layer : ℤ} {kNew vNew : Tensor} {slots : Option (ℕ → ℤ)}
    {launch : LaunchOutcome} (hlayer : 0 ≤ layer ∧ layer < c.cfg.numLayers)
    (hndims : kNew.ndims = 3) (hn : 0 < kNew.dim 0) :
    (c.append layer kNew vNew slots (kNew.dim 0) launch).2.isOk ↔
      slots.isSome ∧ (kNew.dtype = c.cfg.dtype ∧ vNew.dtype = c.cfg.dtype) ∧
        (kNew.dim 1 = c.cfg.numKvHeads ∧ kNew.dim 2 = c.cfg.headDim) ∧
        (kNew.data.isSome ∧ vNew.data.isSome) ∧ launch = .ok := by
  constructor
  · intro hok
    rcases c.append_cases layer kNew vNew slots (kNew.dim 0) launch with
      ⟨e, hbad, heq⟩ | ⟨k, v, cells, hk, hv, hslots, -, hdtype, ⟨-, -, hshape⟩, c', -, heq⟩
    · rw [heq] at hok
      exact absurd hok hbad
    · rw [heq, launch.isOk_status_iff] at hok
      exact ⟨by simp [hslots], hdtype, hshape, by simp [hk, hv], hok⟩
  · rintro ⟨hslots, hdtype, hshape, ⟨hk, hv⟩, rfl⟩
    obtain ⟨cells, rfl⟩ := Option.isSome_iff_exists.mp hslots
    obtain ⟨k, hk⟩ := Option.isSome_iff_exists.mp hk
    obtain ⟨v, hv⟩ := Option.isSome_iff_exists.mp hv
    unfold append
    rw [if_neg (by omega), if_neg (by simp [hdtype]), if_neg (by simp [hndims, hshape])]
    have hlaunch : (c.launchKvAppend layer.toNat kNew.data vNew.data cells (kNew.dim 0) .ok).2 =
        .ok := by
      simp only [launchKvAppend, hk, hv]
      rw [if_neg (by omega)]
      rfl
    simp [hlaunch]

end KVCache

namespace PagedKVCache

open BlockManager

/-! ## Appends that succeed -/

/-- What is still checked once the blocks are attached, and what the device must answer. -/
structure StoreAccepted (c : PagedKVCache) (kNew vNew : Tensor) (env : AppendEnv) : Prop where
  kNew_dtype : kNew.dtype = c.cfg.dtype
  vNew_dtype : vNew.dtype = c.cfg.dtype
  kNew_heads : kNew.dim 1 = c.cfg.numKvHeads
  kNew_headDim : kNew.dim 2 = c.cfg.headDim
  kNew_data : kNew.data.isSome
  vNew_data : vNew.data.isSome
  slotBuffer : (if c.slotMappingCapacity < kNew.dim 0 then env.slotAlloc.isSome
    else c.slotMappingDevice.isSome) = true
  launch : env.launch = .ok

theorem storeAccepted_attach_iff (c : PagedKVCache) (m : BlockManager) (s : ℕ) (ids : List ℤ)
    (kNew vNew : Tensor) (env : AppendEnv) :
    StoreAccepted (c.attach m s ids) kNew vNew env ↔ StoreAccepted c kNew vNew env :=
  ⟨fun h => ⟨h.1, h.2, h.3, h.4, h.5, h.6, h.7, h.8⟩,
    fun h => ⟨h.1, h.2, h.3, h.4, h.5, h.6, h.7, h.8⟩⟩

/-- Every position of the next tokens has a slot once there are blocks for them. -/
theorem Inv.nextSlots_ok {c : PagedKVCache} (h : Inv c) {s n : ℕ} (hs : s < c.cfg.maxNumSeqs)
    (hn : 0 < n) (hroom : c.seqLengths s + n ≤ (c.seqBlocks s).length * c.cfg.blockSize) :
    ∃ slots, c.nextSlots s n = .ok slots := by
  have hbs := c.cfg.blockSize_pos
  have hrow := h.hostRow s hs
  refine computeSlotMapping_isOk_of_forall (by omega) (by omega) fun t ht => ?_
  have hj : (c.seqLengths s + t) / c.cfg.blockSize < (c.seqBlocks s).length := by
    rw [Nat.div_lt_iff_lt_mul hbs]
    omega
  have hlt : (c.seqLengths s + t) / c.cfg.blockSize < c.maxBlocksPerSeq := by
    rw [h.maxBlocks_eq]
    exact hj.trans_le hrow.length_le
  have hentry := (hrow.nonneg_iff (fun b hb => (h.bounds hb).1) (h.maxBlocks_eq ▸ hlt)).mpr hj
  exact ⟨_, slotAt_mapped hlt hentry⟩

/-- The slot buffer is there after `growSlotBuffer` when its allocation succeeds, or when it was
large enough and there before. -/
theorem growSlotBuffer_isOk_iff (c : PagedKVCache) (n : ℕ) (slotAlloc : Option (ℕ → ℤ)) :
    (c.growSlotBuffer n slotAlloc).1.storage = c.storage ∧
    ((c.growSlotBuffer n slotAlloc).2.isOk ∧
        (c.growSlotBuffer n slotAlloc).1.slotMappingDevice.isSome ↔
      if c.slotMappingCapacity < n then slotAlloc.isSome else c.slotMappingDevice.isSome) := by
  unfold growSlotBuffer
  split_ifs
  · cases slotAlloc with
    | none => exact ⟨rfl, by simp⟩
    | some cells => exact ⟨rfl, by simp⟩
  · exact ⟨rfl, by simp⟩

/-- The last stage succeeds when the storage does. -/
theorem storeTokens_isOk_iff (c : PagedKVCache) (s : ℕ) (layer : ℤ) (kNew vNew : Tensor)
    (launch : LaunchOutcome) :
    (c.storeTokens s layer kNew vNew launch).2.isOk ↔
      (c.storage.append layer kNew vNew c.slotMappingDevice (kNew.dim 0) launch).2.isOk := by
  simp only [storeTokens]
  split_ifs with hok
  · exact iff_of_true Status.isOk_ok hok
  · rfl

/-- With blocks for all tokens, `AppendTokens` fails only in what `StoreAccepted` lists. -/
theorem Inv.writeTokens_isOk_iff {c : PagedKVCache} {seqId layer : ℤ} {s : ℕ} {kNew vNew : Tensor}
    (env : AppendEnv) (h : Inv (c.refreshRow s)) (hargs : AppendArgs c seqId layer kNew vNew s)
    (hroom : c.seqLengths s + kNew.dim 0 ≤ (c.seqBlocks s).length * c.cfg.blockSize) :
    (c.writeTokens s layer kNew vNew env).2.isOk ↔ StoreAccepted c kNew vNew env := by
  obtain ⟨slots, hslots⟩ := h.nextSlots_ok hargs.seq_lt hargs.tokens_pos hroom
  have hcfg : c.storage.cfg = c.cfg := h.storageCfg_eq
  have hlayer : 0 ≤ layer ∧ layer < c.storage.cfg.numLayers := by
    rw [hcfg]
    exact ⟨hargs.layer_nonneg, hargs.layer_lt⟩
  -- once the slot buffer has its final size, only the storage can refuse
  have hstore : ∀ c' : PagedKVCache, c'.storage = c.storage →
      (((c'.uploadSlots slots).storeTokens s layer kNew vNew env.launch).2.isOk ↔
        c'.slotMappingDevice.isSome ∧ (kNew.dtype = c.cfg.dtype ∧ vNew.dtype = c.cfg.dtype) ∧
        (kNew.dim 1 = c.cfg.numKvHeads ∧ kNew.dim 2 = c.cfg.headDim) ∧
        (kNew.data.isSome ∧ vNew.data.isSome) ∧ env.launch = .ok) := by
    intro c' hc'
    have hstorage : (c'.uploadSlots slots).storage = c.storage := hc'
    rw [storeTokens_isOk_iff, hstorage,
      KVCache.append_isOk_iff hlayer hargs.kNew_ndims hargs.tokens_pos, hcfg]
    simp [uploadSlots]
  obtain ⟨hstorage, hbuffer⟩ := (c.refreshRow s).growSlotBuffer_isOk_iff (kNew.dim 0) env.slotAlloc
  simp only [writeTokens, hslots]
  by_cases hgrow : ((c.refreshRow s).growSlotBuffer (kNew.dim 0) env.slotAlloc).2.isOk
  · rw [if_neg (not_not.mpr hgrow), hstore _ hstorage]
    constructor
    · rintro ⟨hdev, ⟨hk, hv⟩, ⟨h1, h2⟩, ⟨hkd, hvd⟩, hl⟩
      exact ⟨hk, hv, h1, h2, hkd, hvd, hbuffer.mp ⟨hgrow, hdev⟩, hl⟩
    · intro hacc
      exact ⟨(hbuffer.mpr hacc.slotBuffer).2, ⟨hacc.kNew_dtype, hacc.vNew_dtype⟩,
        ⟨hacc.kNew_heads, hacc.kNew_headDim⟩, ⟨hacc.kNew_data, hacc.vNew_data⟩, hacc.launch⟩
  · rw [if_pos hgrow]
    exact iff_of_false hgrow fun hacc => hgrow (hbuffer.mpr hacc.slotBuffer).1

/-! ## The gate -/

/-- Two tables agree on every entry of the page table. -/
def SameEntries (c : PagedKVCache) (table table' : HostTable) : Prop :=
  ∀ s < c.cfg.maxNumSeqs, ∀ j < c.maxBlocksPerSeq, table s j = table' s j

/-- The device page table is the host page table, entry for entry. -/
def MirrorsHost (c : PagedKVCache) : Prop :=
  ∃ table, c.pageTableDevice = some table ∧ SameEntries c table c.pageTableHost

/-- The gate of `SyncPageTable` can be trusted: equal revisions mean equal tables, a successful call
leaves equal tables, and the copy it skips would change nothing. -/
structure GateSound (c : PagedKVCache) : Prop where
  gate : c.revision = c.syncedRevision → MirrorsHost c
  sync : c.syncPageTable.2.isOk → MirrorsHost c.syncPageTable.1
  skip : c.revision = c.syncedRevision → ∃ before after, c.pageTableDevice = some before ∧
    c.forceSyncPageTable.1.pageTableDevice = some after ∧ SameEntries c after before

/-- The one thing to avoid: an append that is given blocks while the tables are in step, and then
fails in one of the checks that come after the host row was rewritten. -/
def GateSafe (c : PagedKVCache) : Call → Prop
  | .appendTokens seqId layer kNew vNew env =>
    (c.checkAppend seqId layer kNew vNew).isOk → c.revision = c.syncedRevision →
      (c.seqBlocks seqId.toNat).length < c.neededBlocks seqId.toNat (kNew.dim 0) →
      c.neededBlocks seqId.toNat (kNew.dim 0) ≤
        (c.seqBlocks seqId.toNat).length + c.blocks.freeList.length →
      StoreAccepted c kNew vNew env
  | _ => True

/-- A forced copy of an existing table succeeds and makes the tables equal. -/
theorem MirrorInv.forceSync_mirrorsHost {c : PagedKVCache} (h : MirrorInv c) :
    MirrorsHost c.forceSyncPageTable.1 := by
  obtain ⟨table, htable, -⟩ := h.device
  simp only [PagedKVCache.forceSyncPageTable, htable]
  exact ⟨c.pageTableHost, rfl, fun _ _ _ _ => rfl⟩

theorem MirrorInv.syncPageTable_isOk {c : PagedKVCache} (h : MirrorInv c) :
    c.syncPageTable.2.isOk := by
  obtain ⟨table, htable, -⟩ := h.device
  simp only [PagedKVCache.syncPageTable, PagedKVCache.forceSyncPageTable, htable]
  split_ifs <;> exact Status.isOk_ok

/-- The first part of `GateSound`. -/
def Gate (c : PagedKVCache) : Prop := c.revision = c.syncedRevision → MirrorsHost c

/-- All of `GateSound` rests on its first part. -/
theorem MirrorInv.gateSound_iff {c : PagedKVCache} (h : MirrorInv c) : GateSound c ↔ Gate c := by
  refine ⟨GateSound.gate, fun hgate => ⟨hgate, fun _ => ?_, fun hagree => ?_⟩⟩
  · unfold PagedKVCache.syncPageTable
    split_ifs with hagree
    · exact hgate hagree
    · exact h.forceSync_mirrorsHost
  · obtain ⟨table, htable, hsame⟩ := hgate hagree
    refine ⟨table, c.pageTableHost, htable, ?_, fun s hs j hj => (hsame s hs j hj).symm⟩
    simp only [PagedKVCache.forceSyncPageTable, htable]

/-- An append that attaches nothing rewrites its row with what is there. -/
theorem Inv.sameEntries_attach_nil {c : PagedKVCache} (h : Inv c) (m : BlockManager) {s : ℕ} :
    SameEntries c c.pageTableHost ((c.attach m s []).refreshRow s).pageTableHost := by
  intro t ht j hj
  by_cases hts : t = s
  · subst hts
    have hrow := h.hostRow t ht
    rw [h.maxBlocks_eq] at hj
    simp only [refreshRow, attach, Function.update_self, List.append_nil, h.maxBlocks_eq]
    rw [(RowIs.refresh (c.pageTableHost t) hrow.length_le).eq j hj, hrow.eq j hj]
  · simp only [refreshRow, attach, Function.update_of_ne hts]

/-- An append that attaches blocks makes the host row differ from a mirror of the old one. -/
theorem Reserved.not_sameEntries {c : PagedKVCache} {m : BlockManager} {s numNew : ℕ} {ids : List ℤ}
    (hr : Reserved c m s numNew ids) (h : Inv c) (hs : s < c.cfg.maxNumSeqs) (hne : ids ≠ []) :
    ¬ SameEntries c c.pageTableHost ((c.attach m s ids).refreshRow s).pageTableHost := by
  intro hsame
  have hpos := List.length_pos_iff.mpr hne
  have hold := h.hostRow s hs
  have hnew := (hr.inv h hs).hostRow s hs
  have howned : ((c.attach m s ids).refreshRow s).seqBlocks s = c.seqBlocks s ++ ids :=
    Function.update_self _ _ _
  have hlt : (c.seqBlocks s).length < (c.seqBlocks s ++ ids).length := by
    rw [List.length_append]
    omega
  rw [howned] at hnew
  have hj : (c.seqBlocks s).length < c.cfg.numBlocks := hlt.trans_le hnew.length_le
  -- the first new entry was `-1` and is a block now
  have hnonneg : 0 ≤ ((c.attach m s ids).refreshRow s).pageTableHost s (c.seqBlocks s).length := by
    refine (hnew.nonneg_iff (fun b hb => ?_) hj).mpr hlt
    rw [← howned] at hb
    exact ((hr.inv h hs).bounds hb).1
  rw [← hsame s hs _ (by rw [h.maxBlocks_eq]; exact hj), hold.eq _ hj,
    List.getD_eq_default _ _ le_rfl] at hnonneg
  omega

/-- A reservation that attaches blocks was short of blocks and found them in the pool. -/
theorem Reserved.needed {c : PagedKVCache} {m : BlockManager} {s numNew : ℕ} {ids : List ℤ}
    (hr : Reserved c m s numNew ids) :
    (ids ≠ [] ↔ (c.seqBlocks s).length < c.neededBlocks s numNew) ∧
      c.neededBlocks s numNew ≤ (c.seqBlocks s).length + c.blocks.freeList.length := by
  have hlen := hr.length_eq
  have hfree := congrArg List.length hr.popped.freeList_eq
  simp only [List.length_append, List.length_reverse] at hlen hfree
  rw [← List.length_pos_iff]
  constructor
  · constructor <;> intro hpos <;> omega
  · omega

/-- With its blocks reserved a call succeeds when the rest is accepted. -/
theorem Reserved.writeTokens_isOk_iff {c : PagedKVCache} {m : BlockManager} {s : ℕ} {ids : List ℤ}
    {seqId layer : ℤ} {kNew vNew : Tensor} (hr : Reserved c m s (kNew.dim 0) ids) (h : Inv c)
    (hargs : AppendArgs c seqId layer kNew vNew s) (env : AppendEnv) :
    ((c.attach m s ids).writeTokens s layer kNew vNew env).2.isOk ↔ StoreAccepted c kNew vNew env := by
  have hroom : (c.attach m s ids).seqLengths s + kNew.dim 0 ≤
      ((c.attach m s ids).seqBlocks s).length * (c.attach m s ids).cfg.blockSize := by
    simpa [attach] using hr.capacity
  have hargs' : AppendArgs (c.attach m s ids) seqId layer kNew vNew s :=
    ⟨hargs.seqId_eq, hargs.seq_lt, hargs.layer_nonneg, hargs.layer_lt, hargs.kNew_ndims,
      hargs.vNew_ndims, hargs.dim_eq, hargs.tokens_pos⟩
  rw [(hr.inv h hargs.seq_lt).writeTokens_isOk_iff env hargs' hroom, storeAccepted_attach_iff]

/-- `AppendTokens` succeeds when its arguments pass, the pool has the missing blocks and the rest is
accepted. -/
theorem Inv.appendTokens_isOk_iff {c : PagedKVCache} (h : Inv c) (seqId layer : ℤ)
    (kNew vNew : Tensor) (env : AppendEnv) :
    (c.appendTokens seqId layer kNew vNew env).2.isOk ↔
      (c.checkAppend seqId layer kNew vNew).isOk ∧
        c.neededBlocks seqId.toNat (kNew.dim 0) ≤
          (c.seqBlocks seqId.toNat).length + c.blocks.freeList.length ∧
        StoreAccepted c kNew vNew env := by
  simp only [PagedKVCache.appendTokens]
  by_cases hcheck : (c.checkAppend seqId layer kNew vNew).isOk
  swap
  · rw [if_pos hcheck]
    exact iff_of_false hcheck fun hok => hcheck hok.1
  have hargs := checkAppend_isOk hcheck
  rw [if_neg (not_not.mpr hcheck)]
  rcases reserveBlocks_cases h hargs.seq_lt (kNew.dim 0) with
    ⟨e, failures, hbad, hfew, hres⟩ | ⟨m, ids, hres, hr⟩
  · rw [hres, if_pos hbad]
    exact iff_of_false hbad fun hok => absurd hok.2.1 (not_le.mpr hfew)
  rw [hres, if_neg (not_not.mpr Status.isOk_ok)]
  rw [hr.writeTokens_isOk_iff h hargs env]
  exact ⟨fun hacc => ⟨hcheck, hr.needed.2, hacc⟩, fun hok => hok.2.2⟩

/-- The gate survives an append exactly when the append is safe. -/
theorem Inv.gate_appendTokens_iff {c : PagedKVCache} (h : Inv c) (hmirror : MirrorInv c)
    (hgate : Gate c) (seqId layer : ℤ) (kNew vNew : Tensor) (env : AppendEnv) :
    Gate (c.appendTokens seqId layer kNew vNew env).1 ↔
      GateSafe c (.appendTokens seqId layer kNew vNew env) := by
  simp only [PagedKVCache.appendTokens, GateSafe]
  by_cases hcheck : (c.checkAppend seqId layer kNew vNew).isOk
  swap
  · rw [if_pos hcheck]
    exact iff_of_true hgate fun hok => absurd hok hcheck
  have hargs := checkAppend_isOk hcheck
  rw [if_neg (not_not.mpr hcheck)]
  rcases reserveBlocks_cases h hargs.seq_lt (kNew.dim 0) with
    ⟨e, failures, hbad, hfew, hres⟩ | ⟨m, ids, hres, hr⟩
  · -- refused for lack of blocks: the tables are not touched
    rw [hres, if_pos hbad]
    exact iff_of_true hgate fun _ _ _ hle => absurd hle (not_le.mpr hfew)
  rw [hres, if_neg (not_not.mpr Status.isOk_ok)]
  set s := seqId.toNat
  obtain ⟨hshort, hfound⟩ := hr.needed
  have hok_iff := hr.writeTokens_isOk_iff h hargs env
  rcases (c.attach m s ids).writeTokens_cases s layer kNew vNew env with
    ⟨e, st, dev, capacity, hbad, -, -, heq⟩ | ⟨slots, cells, capacity, -, -, -, heq⟩
  · rw [heq] at hok_iff ⊢
    have hrefused : ¬ StoreAccepted c kNew vNew env := fun hacc => hbad (hok_iff.mpr hacc)
    by_cases hids : ids = []
    · subst hids
      refine iff_of_true (fun hagree => ?_) fun _ _ hlt => absurd rfl (hshort.mpr hlt)
      obtain ⟨table, htable, hsame⟩ := hgate hagree
      exact ⟨table, htable, fun t ht j hj =>
        (hsame t ht j hj).trans (h.sameEntries_attach_nil m t ht j hj)⟩
    · by_cases hagree : c.revision = c.syncedRevision
      · -- the host row changed and the revision did not
        refine iff_of_false (fun hgate' => ?_) fun hsafe =>
          hrefused (hsafe hcheck hagree (hshort.mp hids) hfound)
        obtain ⟨table, htable, hsame⟩ := hgate hagree
        obtain ⟨table', htable', hsame'⟩ := hgate' hagree
        obtain rfl : table = table' := Option.some.inj (htable.symm.trans htable')
        exact hr.not_sameEntries h hargs.seq_lt hids fun t ht j hj =>
          (hsame t ht j hj).symm.trans (hsame' t ht j hj)
      · exact iff_of_true (fun hagree' => absurd hagree' hagree)
          fun _ hagree' => absurd hagree' hagree
  · rw [heq] at hok_iff ⊢
    refine iff_of_true (fun hagree => ?_) fun _ _ _ _ => hok_iff.mp Status.isOk_ok
    have hbumped : c.revision + 1 = c.syncedRevision := hagree
    have hle := hmirror.synced_le
    omega

/-- The gate survives a call exactly when the call is safe. -/
theorem Inv.gate_step_iff {c : PagedKVCache} (h : Inv c) (hmirror : MirrorInv c) (hgate : Gate c)
    (call : Call) : Gate (c.step call).1 ↔ GateSafe c call := by
  cases call with
  | appendTokens seqId layer kNew vNew env =>
    exact h.gate_appendTokens_iff hmirror hgate seqId layer kNew vNew env
  | resetSeq seqId env =>
    refine iff_of_true ?_ trivial
    simp only [PagedKVCache.step]
    rcases c.resetSeq_cases seqId env with ⟨e, -, heq⟩ |
      ⟨s, -, -, ⟨-, -, heq⟩ | ⟨st, -, -, heq⟩⟩
    · rw [heq]
      exact hgate
    · rw [heq]
      exact hgate
    · rw [heq]
      intro hagree
      have hbumped : c.revision + 1 = c.syncedRevision := hagree
      have hle := hmirror.synced_le
      omega
  | syncPageTable =>
    exact iff_of_true (fun _ => (hmirror.gateSound_iff.mpr hgate).sync (hmirror.syncPageTable_isOk))
      trivial
  | forceSyncPageTable => exact iff_of_true (fun _ => hmirror.forceSync_mirrorsHost) trivial

/-- In every state of a run the gate can be trusted, exactly when every append of the run that is
given blocks while the tables are in step goes on to succeed. -/
theorem gateSound_run_iff {cfg : KVCacheConfig} {env : PagedEnv} {c : PagedKVCache}
    (hsmall : cfg.numBlocks < 2 ^ 31) (hcreate : PagedKVCache.create cfg env = .ok c)
    (calls : List Call) :
    (∀ pre, pre <+: calls → GateSound (c.run pre)) ↔
      ∀ pre call, pre ++ [call] <+: calls → GateSafe (c.run pre) call := by
  have hinv := Inv.create hsmall.le hcreate
  have hmirror := MirrorInv.create hcreate
  have hgate : Gate c := by
    obtain ⟨storage, blocks, -, -, rfl⟩ := create_eq_ok hcreate
    exact fun _ => ⟨emptyTable, rfl, fun _ _ _ _ => rfl⟩
  have hruns := Runs.forall_prefix_iff (fun c call => (c.step call).1) GateSafe
    (I := fun c => Inv c ∧ MirrorInv c) (P := Gate)
    (fun c call hc => ⟨hc.1.step call, hc.2.step hc.1 call⟩)
    (fun c call hc hgate => hc.1.gate_step_iff hc.2 hgate call) ⟨hinv, hmirror⟩ hgate calls
  refine Iff.trans ?_ hruns
  exact forall₂_congr fun pre _ => (hmirror.run hinv pre).gateSound_iff

/-- An append of the wrong dtype attaches a block and rewrites the host row, and the revision stays: the
next `SyncPageTable` returns `Ok` and leaves the device with the old row. -/
theorem not_gateSound_floatToken : ∃ c,
    PagedKVCache.create (tinyConfig 1 1 2) zeroEnv = .ok c ∧
    let c' := c.run [.appendTokens 0 0 floatToken floatToken appendOk]
    c'.revision = c'.syncedRevision ∧ c'.syncPageTable.2.isOk ∧
    c'.pageTableDevice.map (fun table => table 0 0) = some (-1) ∧ c'.pageTableHost 0 0 = 0 ∧
    ¬ GateSound c' := by
  refine ⟨_, rfl, by decide +kernel, by decide +kernel, by decide +kernel, by decide +kernel,
    fun hsound => ?_⟩
  obtain ⟨table, htable, hsame⟩ := hsound.gate (by decide +kernel)
  have hentry := hsame 0 (by decide +kernel) 0 (by decide +kernel)
  obtain rfl := Option.some.inj htable
  revert hentry
  decide +kernel

/-- The gate along a run that appends, synchronises and resets. -/
theorem gateSound_tiny : ∃ c, PagedKVCache.create (tinyConfig 1 1 2) zeroEnv = .ok c ∧
    ∀ pre, pre <+: [Call.appendTokens 0 0 (tokenTensor 1 1 fun _ => 1) (tokenTensor 1 1 fun _ => 2)
        appendOk, .syncPageTable, .resetSeq 0 (resetOk [0])] → GateSound (c.run pre) := by
  have hcreate : PagedKVCache.create (tinyConfig 1 1 2) zeroEnv = .ok _ := rfl
  refine ⟨_, hcreate, (gateSound_run_iff (by decide) hcreate _).mpr fun pre call hpre => ?_⟩
  rcases pre with _ | ⟨a, _ | ⟨b, _ | ⟨d, pre⟩⟩⟩ <;> simp at hpre
  · subst hpre
    exact fun _ _ _ _ =>
      ⟨rfl, rfl, by decide +kernel, by decide +kernel, rfl, rfl, by decide +kernel, rfl⟩
  · obtain ⟨-, rfl⟩ := hpre
    trivial
  · obtain ⟨-, -, rfl⟩ := hpre
    trivial

end PagedKVCache

end SciAttention

import SciAttention.KvCache.Paged
import Mathlib.Algebra.BigOperators.Group.Finset.Basic
import Mathlib.Algebra.Order.BigOperators.Group.Finset
import Mathlib.Order.Interval.Finset.Nat
import Mathlib.Data.Int.Interval

/-!
# Who owns a block

Ownership is stored four times: in the owned lists, in the manager's flags and free list, in the
manager's table and in the host page table. `Inv` says how they agree. `reserveBlocks_cases`,
`writeTokens_cases` and `resetSeq_cases` say once what the stages of a call can do to a state with
`Inv`; every later result about runs goes through them.
-/

namespace SciAttention

namespace PagedKVCache

open BlockManager

/-- The invariant of every reachable state. -/
structure Inv (c : PagedKVCache) : Prop where
  pool : c.blocks.PoolInv
  numBlocks_eq : c.blocks.numBlocks = c.cfg.numBlocks
  maxBlocks_eq : c.maxBlocksPerSeq = c.cfg.numBlocks
  tableSeqs_eq : c.blocks.table.maxNumSeqs = c.cfg.maxNumSeqs
  tableBlocks_eq : c.blocks.table.maxBlocksPerSeq = c.cfg.numBlocks
  storageCfg_eq : c.storage.cfg = c.cfg
  nodup : ∀ s, (c.seqBlocks s).Nodup
  disjoint : ∀ s t, s ≠ t → (c.seqBlocks s).Disjoint (c.seqBlocks t)
  owned_iff : ∀ id : ℤ, (∃ s, id ∈ c.seqBlocks s) ↔
    0 ≤ id ∧ id < c.cfg.numBlocks ∧ c.blocks.inUse id.toNat = true
  outside : ∀ s, c.cfg.maxNumSeqs ≤ s → c.seqBlocks s = []
  tableRow : ∀ s < c.cfg.maxNumSeqs,
    RowIs (c.blocks.table.host s) c.cfg.numBlocks (c.seqBlocks s)
  hostRow : ∀ s < c.cfg.maxNumSeqs, RowIs (c.pageTableHost s) c.cfg.numBlocks (c.seqBlocks s)
  length_le : ∀ s, c.seqLengths s ≤ (c.seqBlocks s).length * c.cfg.blockSize

namespace Inv

variable {c : PagedKVCache}

theorem bounds (h : Inv c) {s : ℕ} {b : ℤ} (hb : b ∈ c.seqBlocks s) :
    0 ≤ b ∧ b < c.cfg.numBlocks := by
  have := (h.owned_iff b).mp ⟨s, hb⟩
  exact ⟨this.1, this.2.1⟩

theorem inUse (h : Inv c) {s : ℕ} {b : ℤ} (hb : b ∈ c.seqBlocks s) :
    c.blocks.inUse b.toNat = true :=
  ((h.owned_iff b).mp ⟨s, hb⟩).2.2

/-- A free block is nobody's. -/
theorem not_mem_of_free (h : Inv c) {b : ℤ} (hb : b ∈ c.blocks.freeList) (s : ℕ) :
    b ∉ c.seqBlocks s := by
  intro hmem
  have hfree := ((h.pool.mem_iff b).mp hb).2.2
  simp [h.inUse hmem] at hfree

/-- Distinct ids of the pool are at most `num_blocks` many. -/
theorem length_le_of_nodup {ids : List ℤ} {n : ℕ} (hnd : ids.Nodup)
    (hids : ∀ b ∈ ids, 0 ≤ b ∧ b < n) : ids.length ≤ n := by
  have hsub : ids.toFinset ⊆ Finset.Ico (0 : ℤ) n := by
    intro b hb
    rw [Finset.mem_Ico]
    exact hids b (List.mem_toFinset.mp hb)
  have hcard := Finset.card_le_card hsub
  rw [List.toFinset_card_of_nodup hnd] at hcard
  simpa using hcard

end Inv

/-! ## Creation -/

/-- The accepted configuration and the pieces of a new cache. -/
theorem create_eq_ok {cfg : KVCacheConfig} {env : PagedEnv} {c : PagedKVCache}
    (h : create cfg env = .ok c) :
    ∃ storage blocks, KVCache.create cfg env.toStorageEnv = .ok storage ∧
      BlockManager.create cfg.numBlocks cfg.maxNumSeqs cfg.numBlocks env.blockTableAlloc =
        .ok blocks ∧
      c = { cfg := storage.cfg
            maxBlocksPerSeq := cfg.numBlocks.toNat
            storage := storage
            blocks := blocks
            seqLengths := fun _ => 0
            seqBlocks := fun _ => []
            pageTableHost := emptyTable
            pageTableDevice := some emptyTable
            revision := 1
            syncedRevision := 1 } := by
  cases hs : KVCache.create cfg env.toStorageEnv with
  | error e =>
    simp only [PagedKVCache.create, hs] at h
    split_ifs at h
  | ok storage =>
    cases hb : BlockManager.create cfg.numBlocks cfg.maxNumSeqs cfg.numBlocks
        env.blockTableAlloc with
    | error e =>
      simp only [PagedKVCache.create, hs, hb] at h
      split_ifs at h
    | ok blocks =>
      simp only [PagedKVCache.create, hs, hb] at h
      split_ifs at h
      exact ⟨storage, blocks, rfl, rfl, (Except.ok.inj h).symm⟩

/-- A new cache owns nothing. -/
theorem Inv.create {cfg : KVCacheConfig} {env : PagedEnv} {c : PagedKVCache}
    (hsmall : cfg.numBlocks ≤ 2 ^ 31) (h : create cfg env = .ok c) : Inv c := by
  obtain ⟨storage, blocks, hstorage, hblocks, rfl⟩ := create_eq_ok h
  obtain ⟨hvalid, hcfg, -⟩ := KVCache.create_eq_ok hstorage
  have hpool := PoolInv.create hsmall hblocks
  have hnb : storage.cfg.numBlocks = cfg.numBlocks.toNat := by rw [hcfg]; rfl
  have hns : storage.cfg.maxNumSeqs = cfg.maxNumSeqs.toNat := by rw [hcfg]; rfl
  simp only [BlockManager.create] at hblocks
  split_ifs at hblocks
  obtain rfl := Except.ok.inj hblocks
  have hempty : ∀ n : ℕ, RowIs (emptyTable 0) n [] := fun n => ⟨Nat.zero_le n, by simp [emptyTable]⟩
  refine ⟨hpool, hnb.symm, hnb.symm, hns.symm, hnb.symm, rfl, by simp, by simp, by simp, by simp,
    fun s _ => hempty _, fun s _ => hempty _, by simp⟩

/-! ## One sequence at a time -/

/-- `c'` differs from `c` in what sequence `s` owns: `ids`, as its flags and its two rows say. -/
structure Reassigned (c c' : PagedKVCache) (s : ℕ) (ids : List ℤ) : Prop where
  cfg_eq : c'.cfg = c.cfg
  maxBlocks_eq : c'.maxBlocksPerSeq = c.maxBlocksPerSeq
  storageCfg_eq : c'.storage.cfg = c.storage.cfg
  numBlocks_eq : c'.blocks.numBlocks = c.blocks.numBlocks
  tableSeqs_eq : c'.blocks.table.maxNumSeqs = c.blocks.table.maxNumSeqs
  tableBlocks_eq : c'.blocks.table.maxBlocksPerSeq = c.blocks.table.maxBlocksPerSeq
  seqBlocks_eq : c'.seqBlocks = Function.update c.seqBlocks s ids
  owned_iff : ∀ id : ℤ, (id ∈ ids ∨ ∃ t, t ≠ s ∧ id ∈ c.seqBlocks t) ↔
    0 ≤ id ∧ id < c.cfg.numBlocks ∧ c'.blocks.inUse id.toNat = true
  tableRow : RowIs (c'.blocks.table.host s) c.cfg.numBlocks ids
  hostRow : RowIs (c'.pageTableHost s) c.cfg.numBlocks ids
  length_le : c'.seqLengths s ≤ ids.length * c.cfg.blockSize
  other : ∀ t, t ≠ s → c'.blocks.table.host t = c.blocks.table.host t ∧
    c'.pageTableHost t = c.pageTableHost t ∧ c'.seqLengths t = c.seqLengths t

/-- Giving one sequence other blocks keeps the invariant when they are distinct and nobody else's. -/
theorem Reassigned.inv {c c' : PagedKVCache} {s : ℕ} {ids : List ℤ} (hr : Reassigned c c' s ids)
    (h : Inv c)
    (hs : s < c.cfg.maxNumSeqs) (hpool : c'.blocks.PoolInv) (hnodup : ids.Nodup)
    (hdisj : ∀ t, t ≠ s → ids.Disjoint (c.seqBlocks t)) : Inv c' := by
  have hself : c'.seqBlocks s = ids := by rw [hr.seqBlocks_eq, Function.update_self]
  have hother : ∀ t, t ≠ s → c'.seqBlocks t = c.seqBlocks t := fun t ht => by
    rw [hr.seqBlocks_eq, Function.update_of_ne ht]
  refine
    { pool := hpool
      numBlocks_eq := by rw [hr.numBlocks_eq, hr.cfg_eq, h.numBlocks_eq]
      maxBlocks_eq := by rw [hr.maxBlocks_eq, hr.cfg_eq, h.maxBlocks_eq]
      tableSeqs_eq := by rw [hr.tableSeqs_eq, hr.cfg_eq, h.tableSeqs_eq]
      tableBlocks_eq := by rw [hr.tableBlocks_eq, hr.cfg_eq, h.tableBlocks_eq]
      storageCfg_eq := by rw [hr.storageCfg_eq, hr.cfg_eq, h.storageCfg_eq]
      nodup := fun t => ?_
      disjoint := fun t u htu => ?_
      owned_iff := fun id => ?_
      outside := fun t ht => ?_
      tableRow := fun t ht => ?_
      hostRow := fun t ht => ?_
      length_le := fun t => ?_ }
  · by_cases ht : t = s
    · rwa [ht, hself]
    · rw [hother t ht]
      exact h.nodup t
  · by_cases ht : t = s
    · rw [ht, hself, hother u (ht ▸ htu.symm)]
      exact hdisj u (ht ▸ htu.symm)
    · by_cases hu : u = s
      · rw [hu, hself, hother t ht]
        exact (hdisj t ht).symm
      · rw [hother t ht, hother u hu]
        exact h.disjoint t u htu
  · rw [hr.cfg_eq, ← hr.owned_iff]
    constructor
    · rintro ⟨t, ht⟩
      by_cases hts : t = s
      · exact .inl (by rwa [hts, hself] at ht)
      · exact .inr ⟨t, hts, hother t hts ▸ ht⟩
    · rintro (hid | ⟨t, hts, ht⟩)
      · exact ⟨s, hself.symm ▸ hid⟩
      · exact ⟨t, (hother t hts).symm ▸ ht⟩
  · rw [hr.cfg_eq] at ht
    have hts : t ≠ s := by omega
    rw [hother t hts]
    exact h.outside t ht
  · rw [hr.cfg_eq] at ht ⊢
    by_cases hts : t = s
    · rw [hts, hself]
      exact hr.tableRow
    · rw [hother t hts, (hr.other t hts).1]
      exact h.tableRow t ht
  · rw [hr.cfg_eq] at ht ⊢
    by_cases hts : t = s
    · rw [hts, hself]
      exact hr.hostRow
    · rw [hother t hts, (hr.other t hts).2.1]
      exact h.hostRow t ht
  · rw [hr.cfg_eq]
    by_cases hts : t = s
    · rw [hts, hself]
      exact hr.length_le
    · rw [hother t hts, (hr.other t hts).2.2]
      exact h.length_le t

/-! ## Reserving blocks -/

/-- A successful reservation: `ids` leave the pool, and the manager's table row grows by them. -/
structure Reserved (c : PagedKVCache) (m : BlockManager) (s numNew : ℕ) (ids : List ℤ) : Prop where
  popped : Popped c.blocks m ids
  tableSeqs_eq : m.table.maxNumSeqs = c.blocks.table.maxNumSeqs
  tableBlocks_eq : m.table.maxBlocksPerSeq = c.blocks.table.maxBlocksPerSeq
  row : RowIs (m.table.host s) c.cfg.numBlocks (c.seqBlocks s ++ ids)
  otherRow : ∀ t, t ≠ s → m.table.host t = c.blocks.table.host t
  length_eq : (c.seqBlocks s ++ ids).length =
    max (c.seqBlocks s).length (c.neededBlocks s numNew)

theorem attach_nil (c : PagedKVCache) (s : ℕ) : c.attach c.blocks s [] = c := by
  simp [attach]

namespace Reserved

variable {c : PagedKVCache} {m : BlockManager} {s numNew : ℕ} {ids : List ℤ}

/-- The new blocks were free, so nobody owns them. -/
theorem not_mem (hr : Reserved c m s numNew ids) (h : Inv c) {b : ℤ} (hb : b ∈ ids) (t : ℕ) :
    b ∉ c.seqBlocks t :=
  h.not_mem_of_free (hr.popped.mem_freeList hb) t

end Reserved

/-- The owned list grown by blocks popped from the pool still fits into a table row. -/
theorem Inv.room {c : PagedKVCache} (h : Inv c) {m : BlockManager} {ids : List ℤ}
    (hpop : Popped c.blocks m ids) (s : ℕ) :
    (c.seqBlocks s ++ ids).Nodup ∧ (c.seqBlocks s).length + ids.length ≤ c.cfg.numBlocks := by
  have hnd : (c.seqBlocks s ++ ids).Nodup := by
    refine List.nodup_append.mpr ⟨h.nodup s, hpop.nodup_ids h.pool, ?_⟩
    rintro a ha _ hb rfl
    exact h.not_mem_of_free (hpop.mem_freeList hb) s ha
  refine ⟨hnd, ?_⟩
  rw [← List.length_append]
  refine Inv.length_le_of_nodup hnd fun b hb => ?_
  rcases List.mem_append.mp hb with hb | hb
  · exact h.bounds hb
  · have hfree := (h.pool.mem_iff b).mp (hpop.mem_freeList hb)
    exact ⟨hfree.1, h.numBlocks_eq ▸ hfree.2.1⟩

/-- Reserving blocks changes only who owns what. -/
theorem reserveBlocks_eq (c : PagedKVCache) (s n : ℕ) : ∃ blocks seqBlocks,
    (c.reserveBlocks s n).1 = { c with blocks := blocks, seqBlocks := seqBlocks } := by
  simp only [reserveBlocks]
  split_ifs
  · split
    · exact ⟨_, c.seqBlocks, rfl⟩
    · split
      · exact ⟨_, c.seqBlocks, rfl⟩
      · exact ⟨_, _, rfl⟩
  · exact ⟨c.blocks, c.seqBlocks, rfl⟩

/-- `reserveBlocks` refuses for lack of free blocks, or attaches what is missing. The table never
refuses: distinct blocks fit into a row as long as the pool. -/
theorem reserveBlocks_cases {c : PagedKVCache} (h : Inv c) {s : ℕ} (hs : s < c.cfg.maxNumSeqs)
    (numNew : ℕ) :
    (∃ e failures, ¬ e.isOk ∧
      (c.seqBlocks s).length + c.blocks.freeList.length < c.neededBlocks s numNew ∧
      c.reserveBlocks s numNew =
        ({ c with blocks := { c.blocks with allocationFailures := failures } }, e)) ∨
    ∃ m ids, c.reserveBlocks s numNew = (c.attach m s ids, .ok) ∧
      Reserved c m s numNew ids := by
  have hrow := h.tableRow s hs
  have howned : ∀ b ∈ c.seqBlocks s, 0 ≤ b := fun b hb => (h.bounds hb).1
  by_cases hto : (c.neededBlocks s numNew : ℤ) - (c.seqBlocks s).length > 0
  · simp only [reserveBlocks, if_pos hto]
    obtain ⟨hle, -⟩ | ⟨-, hfew, e, -, halloc⟩ | ⟨-, -, m, ids, halloc, hpop, htable, hlen⟩ :=
      c.blocks.allocate_cases (c.neededBlocks s numNew - (c.seqBlocks s).length)
    · exact absurd hle (not_le.mpr hto)
    · rw [halloc]
      exact .inl ⟨_, _, not_isOk_makeStatus _ _, by omega, rfl⟩
    · -- a row as long as the pool has room for distinct blocks
      obtain ⟨-, hroom⟩ := h.room hpop s
      have hne : ids ≠ [] := by
        rintro rfl
        simp only [List.length_nil, Nat.cast_zero] at hlen
        omega
      have hattach : m.appendToTable s ids = _ := appendToTable_of_room
        (by rw [htable, h.tableSeqs_eq]; exact hs)
        (by rw [htable, h.tableBlocks_eq]; exact hrow) howned hne
        (by rw [htable, h.tableBlocks_eq]; exact hroom)
      rw [halloc]
      simp only [hattach, Status.isOk_ok, not_true_eq_false, if_false]
      refine .inr ⟨_, ids, rfl, ⟨hpop.freeList_eq, hpop.inUse_iff, hpop.numBlocks_eq⟩, ?_, ?_, ?_,
        ?_, ?_⟩
      · simp [htable]
      · simp [htable]
      · simpa [htable] using hrow.append hroom
      · intro t ht
        simp [htable, Function.update_of_ne ht]
      · rw [List.length_append]
        omega
  · simp only [reserveBlocks, if_neg hto]
    refine .inr ⟨c.blocks, [], by rw [attach_nil], ⟨by simp, by simp, rfl⟩, rfl, rfl, ?_, ?_, ?_⟩
    · simpa using hrow
    · exact fun _ _ => rfl
    · rw [List.append_nil]
      omega

/-- Reserving and refreshing the host row keeps the invariant. -/
theorem Reserved.inv {c : PagedKVCache} {m : BlockManager} {s numNew : ℕ} {ids : List ℤ}
    (hr : Reserved c m s numNew ids) (h : Inv c) (hs : s < c.cfg.maxNumSeqs) :
    Inv ((c.attach m s ids).refreshRow s) := by
  obtain ⟨hnd, hroom⟩ := h.room hr.popped s
  have hfree : ∀ {b}, b ∈ ids → 0 ≤ b ∧ b < c.cfg.numBlocks := by
    intro b hb
    have := (h.pool.mem_iff b).mp (hr.popped.mem_freeList hb)
    exact ⟨this.1, h.numBlocks_eq ▸ this.2.1⟩
  have hre : Reassigned c ((c.attach m s ids).refreshRow s) s (c.seqBlocks s ++ ids) :=
    { cfg_eq := rfl
      maxBlocks_eq := rfl
      storageCfg_eq := rfl
      numBlocks_eq := hr.popped.numBlocks_eq
      tableSeqs_eq := hr.tableSeqs_eq
      tableBlocks_eq := hr.tableBlocks_eq
      seqBlocks_eq := rfl
      -- the flags that are set are those of the ids taken from the free list
      owned_iff := by
        intro id
        change _ ↔ _ ∧ _ ∧ m.inUse id.toNat = true
        rw [hr.popped.inUse_iff]
        constructor
        · rintro (hid | ⟨t, -, hid⟩)
          · rcases List.mem_append.mp hid with hid | hid
            · exact ⟨(h.bounds hid).1, (h.bounds hid).2, .inl (h.inUse hid)⟩
            · exact ⟨(hfree hid).1, (hfree hid).2, .inr ⟨id, hid, rfl⟩⟩
          · exact ⟨(h.bounds hid).1, (h.bounds hid).2, .inl (h.inUse hid)⟩
        · rintro ⟨h0, hlt, huse | ⟨b, hb, hbid⟩⟩
          · obtain ⟨t, ht⟩ := (h.owned_iff id).mpr ⟨h0, hlt, huse⟩
            by_cases hts : t = s
            · exact .inl (List.mem_append_left _ (hts ▸ ht))
            · exact .inr ⟨t, hts, ht⟩
          · have hb0 := (hfree hb).1
            obtain rfl : b = id := by omega
            exact .inl (List.mem_append_right _ hb)
      tableRow := hr.row
      hostRow := by
        dsimp only [refreshRow, attach]
        rw [Function.update_self, Function.update_self, h.maxBlocks_eq]
        exact RowIs.refresh _ (by simpa using hroom)
      length_le := by
        rw [List.length_append]
        exact (h.length_le s).trans (Nat.mul_le_mul_right _ (Nat.le_add_right _ _))
      other := fun t ht => ⟨hr.otherRow t ht, Function.update_of_ne ht _ _, rfl⟩ }
  refine hre.inv h hs (hr.popped.poolInv h.pool) hnd fun t ht b hb hbt => ?_
  rcases List.mem_append.mp hb with hb | hb
  · exact h.disjoint s t (Ne.symm ht) hb hbt
  · exact hr.not_mem h hb t hbt

/-! ## Writing tokens -/

/-- Errors of the slot mapping are errors. -/
theorem nextSlots_error {c : PagedKVCache} {s numNew : ℕ} {e : Status}
    (h : c.nextSlots s numNew = .error e) : ¬ e.isOk := by
  have hslot : ∀ {row : ℤ → ℤ} {start bs mb : ℤ} {t : ℕ} {e : Status},
      slotAt row start bs mb t = .error e → ¬ e.isOk := by
    intro row start bs mb t e he
    simp only [slotAt] at he
    split_ifs at he
    all_goals
      obtain rfl := Except.error.inj he
      exact not_isOk_makeStatus _ _
  -- the loop returns the error of the first token it cannot map
  have hloop : ∀ (ts : List ℕ) {row : ℤ → ℤ} {start bs mb : ℤ} {e : Status},
      slotLoop row start bs mb ts = .error e → ¬ e.isOk := by
    intro ts
    induction ts with
    | nil => intro row start bs mb e he; simp [slotLoop] at he
    | cons t ts ih =>
      intro row start bs mb e he
      rw [slotLoop] at he
      split at he
      next hfail =>
        obtain rfl := Except.error.inj he
        exact hslot hfail
      · split at he
        next hfail =>
          obtain rfl := Except.error.inj he
          exact ih hfail
        · simp at he
  simp only [nextSlots, computeSlotMapping] at h
  split_ifs at h
  · obtain rfl := Except.error.inj h
    exact not_isOk_makeStatus _ _
  · exact hloop _ h

/-- The slot buffer is lost with an error, or is large enough. -/
theorem growSlotBuffer_cases (c : PagedKVCache) (numNew : ℕ) (slotAlloc : Option (ℕ → ℤ)) :
    (∃ e, ¬ e.isOk ∧ c.growSlotBuffer numNew slotAlloc =
      ({ c with slotMappingDevice := none }, e)) ∨
    ∃ dev capacity, c.growSlotBuffer numNew slotAlloc =
      ({ c with slotMappingDevice := dev, slotMappingCapacity := capacity }, .ok) := by
  unfold growSlotBuffer
  split_ifs
  · cases slotAlloc with
    | none => exact .inl ⟨_, not_isOk_makeStatus _ _, rfl⟩
    | some cells => exact .inr ⟨_, _, rfl⟩
  · exact .inr ⟨_, _, rfl⟩

/-- The slot buffer grows alike in a cache that is changed elsewhere only. -/
theorem growSlotBuffer_map (f : PagedKVCache → PagedKVCache) {c : PagedKVCache}
    (hcapacity : (f c).slotMappingCapacity = c.slotMappingCapacity)
    (hf : ∀ dev capacity, f { c with slotMappingDevice := dev, slotMappingCapacity := capacity } =
      { f c with slotMappingDevice := dev, slotMappingCapacity := capacity })
    (numNew : ℕ) (slotAlloc : Option (ℕ → ℤ)) :
    (f c).growSlotBuffer numNew slotAlloc =
      (f (c.growSlotBuffer numNew slotAlloc).1, (c.growSlotBuffer numNew slotAlloc).2) := by
  simp only [growSlotBuffer, hcapacity]
  split_ifs with hgrow
  · cases slotAlloc with
    | none => exact congrArg (·, _) (hf none c.slotMappingCapacity).symm
    | some cells => exact congrArg (·, _) (hf _ _).symm
  · rfl

/-- What the storage can hold when `writeTokens` fails: what it held, or what a failed `append` over
the computed slots left. -/
def FailedStore (c : PagedKVCache) (s : ℕ) (layer : ℤ) (kNew vNew : Tensor)
    (launch : LaunchOutcome) (st : KVCache) : Prop :=
  st = c.storage ∨ ∃ slots cells, c.nextSlots s (kNew.dim 0) = .ok slots ∧
    (∀ i < kNew.dim 0, cells i = slots.getD i 0) ∧
    ¬ (c.storage.append layer kNew vNew (some cells) (kNew.dim 0) launch).2.isOk ∧
    st = (c.storage.append layer kNew vNew (some cells) (kNew.dim 0) launch).1

/-- The state after the tokens were stored over the slots in `cells`. -/
def stored (c : PagedKVCache) (s : ℕ) (layer : ℤ) (kNew vNew : Tensor) (launch : LaunchOutcome)
    (cells : ℕ → ℤ) (capacity : ℕ) : PagedKVCache :=
  { c with
    storage := (c.storage.append layer kNew vNew (some cells) (kNew.dim 0) launch).1
    slotMappingDevice := some cells
    slotMappingCapacity := capacity
    seqLengths := Function.update c.seqLengths s (c.seqLengths s + kNew.dim 0)
    revision := c.revision + 1
    numAppends := c.numAppends + 1 }

/-- `storeTokens` fails with at most the storage changed, or stores the tokens. -/
theorem storeTokens_cases (c : PagedKVCache) (s : ℕ) (layer : ℤ) (kNew vNew : Tensor)
    (launch : LaunchOutcome) :
    (∃ e st, ¬ e.isOk ∧ st.cfg = c.storage.cfg ∧
      (st = c.storage ∨ ∃ cells, c.slotMappingDevice = some cells ∧
        ¬ (c.storage.append layer kNew vNew (some cells) (kNew.dim 0) launch).2.isOk ∧
        st = (c.storage.append layer kNew vNew (some cells) (kNew.dim 0) launch).1) ∧
      c.storeTokens s layer kNew vNew launch = ({ c with storage := st }, e)) ∨
    ∃ cells, c.slotMappingDevice = some cells ∧
      (c.storage.append layer kNew vNew (some cells) (kNew.dim 0) launch).2.isOk ∧
      c.storeTokens s layer kNew vNew launch =
        (c.stored s layer kNew vNew launch cells c.slotMappingCapacity, .ok) := by
  simp only [storeTokens]
  cases hdev : c.slotMappingDevice with
  | none =>
    rcases c.storage.append_cases layer kNew vNew none (kNew.dim 0) launch with
      ⟨e, hbad, h⟩ | ⟨_, _, _, -, -, hslots, -⟩
    · rw [h, if_pos hbad]
      exact .inl ⟨e, c.storage, hbad, rfl, .inl rfl, rfl⟩
    · simp at hslots
  | some cells =>
    by_cases hok : (c.storage.append layer kNew vNew (some cells) (kNew.dim 0) launch).2.isOk
    · rw [if_neg (not_not.mpr hok)]
      exact .inr ⟨cells, rfl, hok, by rw [stored, ← hdev]⟩
    · rw [if_pos hok]
      exact .inl ⟨_, _, hok, KVCache.append_cfg _ _ _ _ _ _ _, .inr ⟨cells, rfl, hok, rfl⟩, rfl⟩

/-- The device buffer after the upload holds the slots. -/
theorem uploadSlots_device {c : PagedKVCache} {slots : List ℤ} {cells : ℕ → ℤ}
    (h : (c.uploadSlots slots).slotMappingDevice = some cells) :
    ∀ i < slots.length, cells i = slots.getD i 0 := by
  intro i hi
  simp only [uploadSlots, Option.map_eq_some_iff] at h
  obtain ⟨old, -, rfl⟩ := h
  exact if_pos hi

/-- After the row is refreshed, `writeTokens` fails and changes at most the slot buffer and the
storage, or stores the tokens and accounts for them. -/
theorem writeTokens_cases (c : PagedKVCache) (s : ℕ) (layer : ℤ) (kNew vNew : Tensor)
    (env : AppendEnv) :
    (∃ e st dev capacity, ¬ e.isOk ∧ st.cfg = c.storage.cfg ∧
      FailedStore (c.refreshRow s) s layer kNew vNew env.launch st ∧
      c.writeTokens s layer kNew vNew env =
        ({ c.refreshRow s with
            storage := st, slotMappingDevice := dev, slotMappingCapacity := capacity }, e)) ∨
    ∃ slots cells capacity, (c.refreshRow s).nextSlots s (kNew.dim 0) = .ok slots ∧
      (∀ i < kNew.dim 0, cells i = slots.getD i 0) ∧
      (c.storage.append layer kNew vNew (some cells) (kNew.dim 0) env.launch).2.isOk ∧
      c.writeTokens s layer kNew vNew env =
        ((c.refreshRow s).stored s layer kNew vNew env.launch cells capacity, .ok) := by
  simp only [writeTokens]
  cases hslots : (c.refreshRow s).nextSlots s (kNew.dim 0) with
  | error e =>
    exact .inl ⟨e, _, _, _, nextSlots_error hslots, rfl, .inl rfl, rfl⟩
  | ok slots =>
    have hlen : slots.length = kNew.dim 0 := by
      simpa using (computeSlotMapping_eq_ok hslots).1
    dsimp only
    rcases growSlotBuffer_cases (c.refreshRow s) (kNew.dim 0) env.slotAlloc with
      ⟨e, hbad, hgrow⟩ | ⟨dev, capacity, hgrow⟩
    · rw [hgrow, if_pos hbad]
      exact .inl ⟨e, _, _, _, hbad, rfl, .inl rfl, rfl⟩
    · rw [hgrow, if_neg (not_not.mpr Status.isOk_ok)]
      dsimp only
      set c₃ : PagedKVCache := { c.refreshRow s with
        slotMappingDevice := dev, slotMappingCapacity := capacity } with hc₃
      rcases (c₃.uploadSlots slots).storeTokens_cases s layer kNew vNew env.launch with
        ⟨e, st, hbad, hcfg, hst, heq⟩ | ⟨cells, hdev, hok, heq⟩
      · rw [heq]
        refine .inl ⟨e, st, _, _, hbad, hcfg, ?_, rfl⟩
        rcases hst with hst | ⟨cells, hdev, hfail, hst⟩
        · exact .inl hst
        · exact .inr ⟨slots, cells, hslots, hlen ▸ uploadSlots_device hdev, hfail, hst⟩
      · rw [heq]
        exact .inr ⟨slots, cells, capacity, rfl, hlen ▸ uploadSlots_device hdev, hok, rfl⟩

/-! ## Whole calls -/

/-- The accepted arguments of `AppendTokens`. -/
structure AppendArgs (c : PagedKVCache) (seqId layer : ℤ) (kNew vNew : Tensor) (s : ℕ) : Prop where
  seqId_eq : seqId = s
  seq_lt : s < c.cfg.maxNumSeqs
  layer_nonneg : 0 ≤ layer
  layer_lt : layer < c.cfg.numLayers
  kNew_ndims : kNew.ndims = 3
  vNew_ndims : vNew.ndims = 3
  dim_eq : kNew.dim 0 = vNew.dim 0
  tokens_pos : 0 < kNew.dim 0

/-- `checkAppend` accepts exactly such arguments. -/
theorem checkAppend_isOk {c : PagedKVCache} {seqId layer : ℤ} {kNew vNew : Tensor}
    (h : (c.checkAppend seqId layer kNew vNew).isOk) :
    AppendArgs c seqId layer kNew vNew seqId.toNat := by
  unfold checkAppend at h
  split_ifs at h with h1 h2 h3 h4 <;> try exact absurd h (not_isOk_makeStatus _ _)
  simp only [ne_eq, not_or, not_not] at h3
  exact ⟨by omega, by omega, by omega, by omega, h3.1, h3.2.1, h3.2.2, by omega⟩

/-- The outcomes of `AppendTokens`: refused with at most the failure counter changed; or blocks
reserved, and then either a failure that changes at most the slot buffer and the storage, or
success. -/
theorem appendTokens_cases {c : PagedKVCache} (h : Inv c) (seqId layer : ℤ) (kNew vNew : Tensor)
    (env : AppendEnv) :
    (∃ e failures, ¬ e.isOk ∧ c.appendTokens seqId layer kNew vNew env =
      ({ c with blocks := { c.blocks with allocationFailures := failures } }, e)) ∨
    ∃ s m ids c₂, AppendArgs c seqId layer kNew vNew s ∧ Reserved c m s (kNew.dim 0) ids ∧
      c₂ = (c.attach m s ids).refreshRow s ∧
      ((∃ e st dev capacity, ¬ e.isOk ∧ st.cfg = c.storage.cfg ∧
        FailedStore c₂ s layer kNew vNew env.launch st ∧
        c.appendTokens seqId layer kNew vNew env =
          ({ c₂ with
              storage := st, slotMappingDevice := dev, slotMappingCapacity := capacity }, e)) ∨
      ∃ slots cells capacity, c₂.nextSlots s (kNew.dim 0) = .ok slots ∧
        (∀ i < kNew.dim 0, cells i = slots.getD i 0) ∧
        (c.storage.append layer kNew vNew (some cells) (kNew.dim 0) env.launch).2.isOk ∧
        c.appendTokens seqId layer kNew vNew env =
          (c₂.stored s layer kNew vNew env.launch cells capacity, .ok)) := by
  simp only [appendTokens]
  by_cases hcheck : (c.checkAppend seqId layer kNew vNew).isOk
  · have hargs := checkAppend_isOk hcheck
    rw [if_neg (not_not.mpr hcheck)]
    rcases reserveBlocks_cases h hargs.seq_lt (kNew.dim 0) with
      ⟨e, failures, hbad, -, hres⟩ | ⟨m, ids, hres, hr⟩
    · rw [hres, if_pos hbad]
      exact .inl ⟨e, failures, hbad, rfl⟩
    · rw [hres, if_neg (not_not.mpr Status.isOk_ok)]
      exact .inr ⟨_, m, ids, _, hargs, hr, rfl,
        (c.attach m seqId.toNat ids).writeTokens_cases seqId.toNat layer kNew vNew env⟩
  · rw [if_pos hcheck]
    exact .inl ⟨_, c.blocks.allocationFailures, hcheck, rfl⟩

/-- The outcomes of `ResetSeq`: refused; cleared only in part; or cleared and released. -/
theorem resetSeq_cases (c : PagedKVCache) (seqId : ℤ) (env : ResetEnv) :
    (∃ e, ¬ e.isOk ∧ c.resetSeq seqId env = (c, e)) ∨
    ∃ s : ℕ, seqId = s ∧ s < c.cfg.maxNumSeqs ∧
      ((c.seqBlocks s ≠ [] ∧
        ¬ (c.storage.reset (some env.idsRead) (c.seqBlocks s).length env.launch).2.isOk ∧
        c.resetSeq seqId env =
          ({ c with
              storage := (c.storage.reset (some env.idsRead) (c.seqBlocks s).length env.launch).1 },
            (c.storage.reset (some env.idsRead) (c.seqBlocks s).length env.launch).2)) ∨
      ∃ st, st.cfg = c.storage.cfg ∧
        ((c.seqBlocks s = [] ∧ st = c.storage) ∨
          (c.seqBlocks s ≠ [] ∧
            (c.storage.reset (some env.idsRead) (c.seqBlocks s).length env.launch).2.isOk ∧
            st = (c.storage.reset (some env.idsRead) (c.seqBlocks s).length env.launch).1)) ∧
        c.resetSeq seqId env = ({ c with storage := st }.releaseSeq s, .ok)) := by
  simp only [resetSeq]
  by_cases hrange : seqId < 0 ∨ seqId ≥ c.cfg.maxNumSeqs
  · rw [if_pos hrange]
    exact .inl ⟨_, not_isOk_makeStatus _ _, rfl⟩
  rw [if_neg hrange]
  refine .inr ⟨seqId.toNat, by omega, by omega, ?_⟩
  by_cases hne : c.seqBlocks seqId.toNat = []
  · rw [if_neg (not_not.mpr hne), if_neg (not_not.mpr Status.isOk_ok)]
    exact .inr ⟨c.storage, rfl, .inl ⟨hne, rfl⟩, rfl⟩
  · rw [if_pos hne]
    by_cases hok : (c.storage.reset (some env.idsRead) (c.seqBlocks seqId.toNat).length
        env.launch).2.isOk
    · rw [if_neg (not_not.mpr hok)]
      exact .inr ⟨_, KVCache.reset_cfg _ _ _ _, .inr ⟨hne, hok, rfl⟩, rfl⟩
    · rw [if_pos hok]
      exact .inl ⟨hne, hok, rfl⟩

/-! ## The invariant along runs -/

/-- The invariant does not look at buffers, counters and revisions. -/
theorem Inv.withBuffers {c : PagedKVCache} (h : Inv c) {st : KVCache} (hst : st.cfg = c.storage.cfg)
    (dev : Option (ℕ → ℤ)) (capacity : ℕ) :
    Inv { c with storage := st, slotMappingDevice := dev, slotMappingCapacity := capacity } :=
  ⟨h.pool, h.numBlocks_eq, h.maxBlocks_eq, h.tableSeqs_eq, h.tableBlocks_eq,
    hst.trans h.storageCfg_eq, h.nodup, h.disjoint, h.owned_iff, h.outside, h.tableRow, h.hostRow,
    h.length_le⟩

/-- The needed blocks hold all tokens. -/
theorem le_neededBlocks (c : PagedKVCache) (s n : ℕ) :
    c.seqLengths s + n ≤ c.neededBlocks s n * c.cfg.blockSize := by
  have hbs := c.cfg.blockSize_pos
  unfold neededBlocks
  have hdiv := Nat.div_add_mod (c.seqLengths s + n + c.cfg.blockSize - 1) c.cfg.blockSize
  have hmod := Nat.mod_lt (c.seqLengths s + n + c.cfg.blockSize - 1) hbs
  rw [Nat.mul_comm] at hdiv
  omega

/-- A reservation makes room for all new tokens. -/
theorem Reserved.capacity {c : PagedKVCache} {m : BlockManager} {s numNew : ℕ} {ids : List ℤ}
    (hr : Reserved c m s numNew ids) :
    c.seqLengths s + numNew ≤ (c.seqBlocks s ++ ids).length * c.cfg.blockSize :=
  (c.le_neededBlocks s numNew).trans
    (Nat.mul_le_mul_right _ (hr.length_eq ▸ le_max_right _ _))

/-- A successful append keeps the invariant: the reserved blocks hold the new length. -/
theorem Inv.stored {c : PagedKVCache} {s : ℕ} {layer : ℤ} {kNew vNew : Tensor}
    {launch : LaunchOutcome} {cells : ℕ → ℤ} {capacity : ℕ} (h : Inv c)
    (hroom : c.seqLengths s + kNew.dim 0 ≤ (c.seqBlocks s).length * c.cfg.blockSize) :
    Inv (c.stored s layer kNew vNew launch cells capacity) := by
  refine ⟨h.pool, h.numBlocks_eq, h.maxBlocks_eq, h.tableSeqs_eq, h.tableBlocks_eq,
    (KVCache.append_cfg _ _ _ _ _ _ _).trans h.storageCfg_eq, h.nodup, h.disjoint, h.owned_iff,
    h.outside, h.tableRow, h.hostRow, fun t => ?_⟩
  by_cases ht : t = s
  · simpa [PagedKVCache.stored, ht] using hroom
  · simpa [PagedKVCache.stored, Function.update_of_ne ht] using h.length_le t

/-- `AppendTokens` keeps the invariant at each of its return points. -/
theorem Inv.appendTokens {c : PagedKVCache} (h : Inv c) (seqId layer : ℤ) (kNew vNew : Tensor)
    (env : AppendEnv) : Inv (c.appendTokens seqId layer kNew vNew env).1 := by
  rcases appendTokens_cases h seqId layer kNew vNew env with
    ⟨e, failures, -, heq⟩ | ⟨s, m, ids, c₂, hargs, hr, rfl, hrest⟩
  · rw [heq]
    exact ⟨⟨h.pool.nodup, h.pool.mem_iff⟩, h.numBlocks_eq, h.maxBlocks_eq, h.tableSeqs_eq,
      h.tableBlocks_eq, h.storageCfg_eq, h.nodup, h.disjoint, h.owned_iff, h.outside, h.tableRow,
      h.hostRow, h.length_le⟩
  have hinv := hr.inv h hargs.seq_lt
  rcases hrest with ⟨e, st, dev, capacity, -, hcfg, -, heq⟩ | ⟨slots, cells, capacity, -, -, -, heq⟩
  · rw [heq]
    exact hinv.withBuffers hcfg dev capacity
  · rw [heq]
    refine hinv.stored ?_
    simpa [refreshRow, attach] using hr.capacity

/-- Releasing a sequence keeps the invariant. -/
theorem Inv.releaseSeq {c : PagedKVCache} (h : Inv c) {s : ℕ} (hs : s < c.cfg.maxNumSeqs) :
    Inv (c.releaseSeq s) := by
  have howned : ∀ b ∈ c.seqBlocks s, 0 ≤ b := fun b hb => (h.bounds hb).1
  have hreset : c.blocks.resetSeq s = _ := resetSeq_of_row (h.tableSeqs_eq ▸ hs)
    (h.tableBlocks_eq ▸ h.tableRow s hs) howned
  obtain ⟨-, huse, -⟩ := c.blocks.free_of_inUse (c.seqBlocks s) (h.nodup s) fun b hb =>
    ⟨(h.bounds hb).1, h.numBlocks_eq ▸ (h.bounds hb).2, h.inUse hb⟩
  have hpool := h.pool.free (c.seqBlocks s)
  have hre : Reassigned c (c.releaseSeq s) s [] := by
    refine
      { cfg_eq := rfl
        maxBlocks_eq := rfl
        storageCfg_eq := rfl
        numBlocks_eq := ?_
        tableSeqs_eq := ?_
        tableBlocks_eq := ?_
        seqBlocks_eq := rfl
        owned_iff := fun id => ?_
        tableRow := ?_
        hostRow := ?_
        length_le := ?_
        other := fun t ht => ?_ } <;> simp only [PagedKVCache.releaseSeq, hreset]
    · simp
    · rw [huse]
      constructor
      · rintro (hid | ⟨t, hts, ht⟩)
        · exact absurd hid List.not_mem_nil
        · refine ⟨(h.bounds ht).1, (h.bounds ht).2, h.inUse ht, fun b hb hbid => ?_⟩
          have hb0 := (h.bounds hb).1
          have hid0 := (h.bounds ht).1
          obtain rfl : b = id := by omega
          exact h.disjoint t s hts ht hb
      · rintro ⟨h0, hlt, hin, hnot⟩
        obtain ⟨t, ht⟩ := (h.owned_iff id).mpr ⟨h0, hlt, hin⟩
        refine .inr ⟨t, ?_, ht⟩
        rintro rfl
        exact hnot id ht rfl
    · rw [Function.update_self, h.tableBlocks_eq]
      exact RowIs.clear _ _
    · rw [Function.update_self, h.maxBlocks_eq]
      exact RowIs.clear _ _
    · simp
    · simp [Function.update_of_ne ht]
  refine hre.inv h hs ?_ List.nodup_nil fun t _ => List.disjoint_nil_left _
  simp only [PagedKVCache.releaseSeq, hreset]
  exact ⟨hpool.nodup, hpool.mem_iff⟩

/-- `ResetSeq` keeps the invariant at each of its return points. -/
theorem Inv.resetSeq {c : PagedKVCache} (h : Inv c) (seqId : ℤ) (env : ResetEnv) :
    Inv (c.resetSeq seqId env).1 := by
  rcases c.resetSeq_cases seqId env with
    ⟨e, -, heq⟩ | ⟨s, -, hs, ⟨-, -, heq⟩ | ⟨st, hcfg, -, heq⟩⟩
  · rw [heq]
    exact h
  · rw [heq]
    exact h.withBuffers (KVCache.reset_cfg _ _ _ _) _ _
  · rw [heq]
    exact (h.withBuffers hcfg _ _).releaseSeq hs

/-- The invariant does not look at the device mirror. -/
theorem Inv.withMirror {c : PagedKVCache} (h : Inv c) (device : Option HostTable) (synced : ℕ) :
    Inv { c with pageTableDevice := device, syncedRevision := synced } :=
  ⟨h.pool, h.numBlocks_eq, h.maxBlocks_eq, h.tableSeqs_eq, h.tableBlocks_eq, h.storageCfg_eq,
    h.nodup, h.disjoint, h.owned_iff, h.outside, h.tableRow, h.hostRow, h.length_le⟩

/-- Every call keeps the invariant. -/
theorem Inv.step {c : PagedKVCache} (h : Inv c) (call : Call) : Inv (c.step call).1 := by
  cases call with
  | appendTokens seqId layer kNew vNew env => exact h.appendTokens seqId layer kNew vNew env
  | resetSeq seqId env => exact h.resetSeq seqId env
  | syncPageTable =>
    obtain ⟨device, synced, heq⟩ := c.syncPageTable_eq
    rw [PagedKVCache.step, heq]
    exact h.withMirror device synced
  | forceSyncPageTable =>
    obtain ⟨device, synced, heq⟩ := c.forceSyncPageTable_eq
    rw [PagedKVCache.step, heq]
    exact h.withMirror device synced

/-- The invariant holds along every run. -/
theorem Inv.run {c : PagedKVCache} (h : Inv c) (calls : List Call) : Inv (c.run calls) :=
  run_induction (fun _ call hc => hc.step call) h calls

/-! ## What a caller can rely on -/

/-- Block ownership as a caller sees it. -/
structure OwnershipConsistent (c : PagedKVCache) : Prop where
  nodup : ∀ s, (c.seqBlocks s).Nodup
  disjoint : ∀ s t, s ≠ t → (c.seqBlocks s).Disjoint (c.seqBlocks t)
  bounds : ∀ s, ∀ id ∈ c.seqBlocks s, s < c.cfg.maxNumSeqs ∧ 0 ≤ id ∧ id < c.cfg.numBlocks
  owned_iff_inUse : ∀ id < c.cfg.numBlocks,
    (∃ s, (id : ℤ) ∈ c.seqBlocks s) ↔ c.blocks.inUse id = true
  inUse_iff_not_free : ∀ id < c.cfg.numBlocks,
    c.blocks.inUse id = true ↔ (id : ℤ) ∉ c.blocks.freeList
  free_nodup : c.blocks.freeList.Nodup
  free_bounds : ∀ id ∈ c.blocks.freeList, 0 ≤ id ∧ id < c.cfg.numBlocks
  tableRow : ∀ s < c.cfg.maxNumSeqs,
    RowIs (c.blocks.table.host s) c.maxBlocksPerSeq (c.seqBlocks s)
  hostRow : ∀ s < c.cfg.maxNumSeqs, RowIs (c.pageTableHost s) c.maxBlocksPerSeq (c.seqBlocks s)
  seqLength_le : ∀ seqId, c.seqLength seqId ≤ c.logicalBlockCount seqId * c.cfg.blockSize
  usedBlocks_eq : c.stats.usedBlocks = ∑ s ∈ Finset.range c.cfg.maxNumSeqs, c.logicalBlockCount s
  used_add_free : c.stats.usedBlocks + c.stats.freeBlocks = c.cfg.numBlocks

/-- The free list and the owned lists partition the pool. -/
theorem Inv.freeList_add_owned {c : PagedKVCache} (h : Inv c) :
    c.blocks.freeList.length + ∑ s ∈ Finset.range c.cfg.maxNumSeqs, (c.seqBlocks s).length =
      c.cfg.numBlocks := by
  classical
  set free := c.blocks.freeList.toFinset with hfree
  set owned := (Finset.range c.cfg.maxNumSeqs).biUnion fun s => (c.seqBlocks s).toFinset with hown
  have hmemOwned : ∀ id, id ∈ owned ↔ ∃ s, id ∈ c.seqBlocks s := by
    intro id
    simp only [hown, Finset.mem_biUnion, Finset.mem_range, List.mem_toFinset]
    constructor
    · rintro ⟨s, -, hs⟩
      exact ⟨s, hs⟩
    · rintro ⟨s, hs⟩
      refine ⟨s, not_le.mp fun hle => ?_, hs⟩
      simp [h.outside s hle] at hs
  have hdisj : Disjoint free owned := by
    rw [Finset.disjoint_left]
    intro id hf ho
    obtain ⟨s, hs⟩ := (hmemOwned id).mp ho
    exact h.not_mem_of_free (List.mem_toFinset.mp hf) s hs
  -- every id of the pool is free or in use, and what is in use is owned
  have hunion : free ∪ owned = Finset.Ico (0 : ℤ) c.cfg.numBlocks := by
    ext id
    rw [Finset.mem_union, hfree, List.mem_toFinset, hmemOwned, h.pool.mem_iff, h.owned_iff,
      h.numBlocks_eq, Finset.mem_Ico]
    cases c.blocks.inUse id.toNat <;> simp
  have hcardOwned : owned.card =
      ∑ s ∈ Finset.range c.cfg.maxNumSeqs, (c.seqBlocks s).length := by
    rw [hown, Finset.card_biUnion]
    · exact Finset.sum_congr rfl fun s _ => List.toFinset_card_of_nodup (h.nodup s)
    · intro s _ t _ hst
      refine Finset.disjoint_left.mpr fun id hs ht => ?_
      exact h.disjoint s t hst (List.mem_toFinset.mp hs) (List.mem_toFinset.mp ht)
  have hcard := Finset.card_union_of_disjoint hdisj
  rw [hunion, hcardOwned, hfree, List.toFinset_card_of_nodup h.pool.nodup] at hcard
  simpa using hcard.symm

/-- The invariant gives a caller's view. -/
theorem Inv.consistent {c : PagedKVCache} (h : Inv c) : OwnershipConsistent c := by
  have hcount : ∀ s < c.cfg.maxNumSeqs, c.logicalBlockCount s = (c.seqBlocks s).length := by
    intro s hs
    simp only [logicalBlockCount, Int.toNat_natCast]
    exact if_neg (by omega)
  have htotal := h.freeList_add_owned
  refine
    { nodup := h.nodup
      disjoint := h.disjoint
      bounds := fun s id hid => ⟨?_, h.bounds hid⟩
      owned_iff_inUse := fun id hid => ?_
      inUse_iff_not_free := fun id hid => ?_
      free_nodup := h.pool.nodup
      free_bounds := fun id hid => ?_
      tableRow := h.maxBlocks_eq ▸ h.tableRow
      hostRow := h.maxBlocks_eq ▸ h.hostRow
      seqLength_le := fun seqId => ?_
      usedBlocks_eq := ?_
      used_add_free := ?_ }
  · refine not_le.mp fun hle => ?_
    simp [h.outside s hle] at hid
  · rw [h.owned_iff]
    simp [hid]
  · rw [h.pool.mem_iff, h.numBlocks_eq]
    cases hu : c.blocks.inUse id <;> simp [hu, hid]
  · have := (h.pool.mem_iff id).mp hid
    exact ⟨this.1, h.numBlocks_eq ▸ this.2.1⟩
  · unfold seqLength logicalBlockCount
    split_ifs
    · simp
    · exact h.length_le _
  · rw [Finset.sum_congr rfl fun s hs => hcount s (Finset.mem_range.mp hs)]
    simp only [stats, numTotalBlocks, numFreeBlocks, h.numBlocks_eq]
    omega
  · simp only [stats, numTotalBlocks, numFreeBlocks, h.numBlocks_eq]
    omega

/-- In every state reached from a new cache by any calls with any arguments and any device
behaviour, the four records of ownership agree and the pool is accounted for. -/
theorem ownershipConsistent_run {cfg : KVCacheConfig} {env : PagedEnv} {c : PagedKVCache}
    (hsmall : cfg.numBlocks < 2 ^ 31) (hcreate : PagedKVCache.create cfg env = .ok c)
    (calls : List Call) : OwnershipConsistent (c.run calls) :=
  ((Inv.create hsmall.le hcreate).run calls).consistent

/-- A configuration with one kv head of 32 half-precision elements and two sequences. -/
def tinyConfig (numLayers blockSize numBlocks : ℕ) : KVCacheConfig :=
  { numLayers := numLayers, numKvHeads := 1, headDim := 32, blockSize := blockSize,
    numBlocks := numBlocks, maxNumSeqs := 2 }

/-- A device whose allocations succeed with zeroed memory. -/
def zeroEnv : PagedEnv :=
  { freeBytes := none
    kFresh := fun _ => some fun _ => 0
    vFresh := fun _ => some fun _ => 0
    blockTableAlloc := true
    pageTableAlloc := true }

/-- A half-precision tensor of `tokens × heads × 32` elements with the given bytes. -/
def tokenTensor (tokens heads : ℕ) (data : Bytes) : Tensor :=
  { dims := [tokens, heads, 32], dtype := .float16, data := some data }

/-- A device on which the slot buffer and the launch succeed. -/
def appendOk : AppendEnv := ⟨some fun _ => -1, .ok⟩

/-- A device on which every reset launch succeeds and reads the given ids. -/
def resetOk (ids : List ℤ) : ResetEnv := ⟨fun i => ids.getD i (-1), fun _ => .ok⟩

/-- The invariant at a run that fills the pool, fails for lack of blocks, and resets. -/
theorem ownershipConsistent_tiny : ∃ c,
    PagedKVCache.create (tinyConfig 1 1 2) zeroEnv = .ok c ∧
    OwnershipConsistent (c.run
      [.appendTokens 0 0 (tokenTensor 2 1 fun _ => 1) (tokenTensor 2 1 fun _ => 2) appendOk,
        .appendTokens 1 0 (tokenTensor 1 1 fun _ => 1) (tokenTensor 1 1 fun _ => 2) appendOk,
        .syncPageTable, .resetSeq 0 (resetOk [0, 1])]) := by
  obtain ⟨c, hc⟩ : ∃ c, PagedKVCache.create (tinyConfig 1 1 2) zeroEnv = .ok c := ⟨_, rfl⟩
  exact ⟨c, hc, ownershipConsistent_run (by decide) hc _⟩

end PagedKVCache

end SciAttention

import SciAttention.Core.Types
import Mathlib.Data.List.Nodup
import Mathlib.Data.List.GetD
import Mathlib.Data.List.TakeDrop
import Mathlib.Logic.Function.Basic
import Mathlib.Tactic.Common

/-!
# The exclusive block allocator

Model of `src/kv_cache/block_manager.cpp`. The free list is a stack whose top is the last list
entry; `in_use_` is a flag per block; the host table has one row of block ids per sequence, `-1`
marking an empty slot. Block ids are `int32_t` in the source, so tables and lists hold integers and
the public calls accept any of them.

`PoolInv` ties the free list to the flags. Every call keeps it, whatever its arguments are.
-/

namespace SciAttention

/-- One row of a block table. -/
abbrev Row := ℕ → ℤ

/-- A block table `[max_num_seqs][max_blocks_per_seq]`, row by row. -/
abbrev HostTable := ℕ → Row

/-- `sca::BlockTable`. The device mirror is `none` when its tensor was not allocated. -/
structure BlockTable where
  host : HostTable
  device : Option HostTable
  revision : ℕ := 0
  syncedRevision : ℕ := 0
  maxNumSeqs : ℕ
  maxBlocksPerSeq : ℕ

/-- `sca::BlockManager`. -/
structure BlockManager where
  numBlocks : ℕ
  freeList : List ℤ
  inUse : ℕ → Bool
  table : BlockTable
  allocationFailures : ℕ := 0
  doubleFreeEvents : ℕ := 0

namespace BlockManager

/-- The table every cache starts from: all slots empty. -/
def emptyTable : HostTable := fun _ _ => -1

/-- `BlockManager::Create`; `deviceAlloc` says whether the device table could be allocated. -/
def create (numBlocks maxNumSeqs maxBlocksPerSeq : ℤ) (deviceAlloc : Bool) :
    Except Status BlockManager :=
  if numBlocks ≤ 0 ∨ maxNumSeqs ≤ 0 ∨ maxBlocksPerSeq ≤ 0 then
    .error (makeStatus .shapeMismatch
      ("BlockManager::Create invalid arguments: num_blocks=" ++ toString numBlocks ++
        ", max_num_seqs=" ++ toString maxNumSeqs ++
        ", max_blocks_per_seq=" ++ toString maxBlocksPerSeq))
  else if deviceAlloc = false then
    .error (makeStatus .kvCapacityExceeded
      ("BlockManager: page table allocation of " ++
        toString (maxNumSeqs * maxBlocksPerSeq * 4) ++ " B failed"))
  else
    .ok
      { numBlocks := numBlocks.toNat
        -- pushed from `num_blocks - 1` down to `0`, so block 0 is on top of the stack
        freeList := (List.range numBlocks.toNat).reverse.map fun i : ℕ => int32Cast (i : ℤ)
        inUse := fun _ => false
        table :=
          { host := emptyTable
            device := some emptyTable
            maxNumSeqs := maxNumSeqs.toNat
            maxBlocksPerSeq := maxBlocksPerSeq.toNat } }

/-- `NumFreeBlocks()`. -/
def numFreeBlocks (m : BlockManager) : ℕ := m.freeList.length

/-- `NumTotalBlocks()`. -/
def numTotalBlocks (m : BlockManager) : ℕ := m.numBlocks

/-- The loop of `Allocate`: pop the top of the free list `n` times. -/
def allocateLoop : ℕ → BlockManager → List ℤ × BlockManager
  | 0, m => ([], m)
  | n + 1, m =>
    match m.freeList.getLast? with
    | none => ([], m)
    | some block =>
      let r := allocateLoop n
        { m with
          freeList := m.freeList.dropLast
          inUse := Function.update m.inUse block.toNat true }
      (block :: r.1, r.2)

/-- `BlockManager::Allocate`. -/
def allocate (m : BlockManager) (count : ℤ) : BlockManager × Except Status (List ℤ) :=
  if count ≤ 0 then
    (m, .error (makeStatus .shapeMismatch ("BlockManager::Allocate count=" ++ toString count)))
  else if count > m.freeList.length then
    ({ m with allocationFailures := m.allocationFailures + 1 },
      .error (makeStatus .kvCapacityExceeded
        ("BlockManager::Allocate requested " ++ toString count ++ " blocks but only " ++
          toString m.freeList.length ++ " of " ++ toString m.numBlocks ++ " are free")))
  else
    let r := allocateLoop count.toNat m
    (r.2, .ok r.1)

/-- One iteration of `Free`: unknown and unallocated ids are only counted. -/
def freeOne (m : BlockManager) (block : ℤ) : BlockManager :=
  if block < 0 ∨ block ≥ m.numBlocks then
    { m with doubleFreeEvents := m.doubleFreeEvents + 1 }
  else if m.inUse block.toNat = false then
    { m with doubleFreeEvents := m.doubleFreeEvents + 1 }
  else
    { m with
      inUse := Function.update m.inUse block.toNat false
      freeList := m.freeList ++ [block] }

/-- `BlockManager::Free`; a null pointer or a count of zero is the empty list. -/
def free (m : BlockManager) (ids : List ℤ) : BlockManager := ids.foldl freeOne m

/-- `while (used < max_blocks_per_seq && row[used] >= 0) ++used;` -/
def usedPrefix (row : Row) (maxBlocks : ℕ) : ℕ :=
  ((List.range maxBlocks).takeWhile fun i => decide (0 ≤ row i)).length

/-- Write `ids` into a row from position `used` on. -/
def writeRow (row : Row) (used : ℕ) (ids : List ℤ) : Row := fun i =>
  if used ≤ i ∧ i < used + ids.length then ids.getD (i - used) (-1) else row i

/-- Set the first `maxBlocks` entries of a row to `-1`. -/
def clearRow (row : Row) (maxBlocks : ℕ) : Row := fun i => if i < maxBlocks then -1 else row i

/-- `BlockManager::AppendToTable`; `ids = []` is a null pointer or a count of zero. -/
def appendToTable (m : BlockManager) (seqId : ℤ) (ids : List ℤ) : BlockManager × Status :=
  if seqId < 0 ∨ seqId ≥ m.table.maxNumSeqs then
    (m, makeStatus .shapeMismatch
      ("BlockManager::AppendToTable seq_id=" ++ toString seqId ++ " out of range [0," ++
        toString m.table.maxNumSeqs ++ ")"))
  else if ids = [] then
    (m, makeStatus .shapeMismatch "BlockManager::AppendToTable requires block_ids and count > 0")
  else
    let row := m.table.host seqId.toNat
    let used := usedPrefix row m.table.maxBlocksPerSeq
    if used + ids.length > m.table.maxBlocksPerSeq then
      (m, makeStatus .kvCapacityExceeded
        ("BlockManager::AppendToTable sequence " ++ toString seqId ++ " would need " ++
          toString (used + ids.length) ++ " blocks > max_blocks_per_seq=" ++
          toString m.table.maxBlocksPerSeq))
    else
      ({ m with
          table := { m.table with
            host := Function.update m.table.host seqId.toNat (writeRow row used ids)
            revision := m.table.revision + 1 } },
        .ok)

/-- `BlockManager::ResetSeq`: free as many leading entries as the row has non-negative ones, then
clear the row. -/
def resetSeq (m : BlockManager) (seqId : ℤ) : BlockManager × Status :=
  if seqId < 0 ∨ seqId ≥ m.table.maxNumSeqs then
    (m, makeStatus .shapeMismatch
      ("BlockManager::ResetSeq seq_id=" ++ toString seqId ++ " out of range"))
  else
    let row := m.table.host seqId.toNat
    let count := (List.range m.table.maxBlocksPerSeq).countP fun i => decide (0 ≤ row i)
    let freed := m.free ((List.range count).map row)
    ({ freed with
        table := { freed.table with
          host := Function.update freed.table.host seqId.toNat
            (clearRow row m.table.maxBlocksPerSeq)
          revision := freed.table.revision + 1 } },
      .ok)

/-! ## The pool invariant -/

/-- The free list holds every block that is not in use, once. -/
structure PoolInv (m : BlockManager) : Prop where
  nodup : m.freeList.Nodup
  mem_iff : ∀ id : ℤ, id ∈ m.freeList ↔ 0 ≤ id ∧ id < m.numBlocks ∧ m.inUse id.toNat = false

/-- A new manager has all blocks free. -/
theorem PoolInv.create {numBlocks maxNumSeqs maxBlocksPerSeq : ℤ} {deviceAlloc : Bool}
    {m : BlockManager} (hsmall : numBlocks ≤ 2 ^ 31)
    (h : create numBlocks maxNumSeqs maxBlocksPerSeq deviceAlloc = .ok m) : PoolInv m := by
  have hcast : ∀ i ∈ (List.range numBlocks.toNat).reverse, int32Cast (i : ℤ) = i := by
    intro i hi
    simp only [List.mem_reverse, List.mem_range] at hi
    exact int32Cast_of_lt (by omega) (by omega)
  simp only [BlockManager.create] at h
  split_ifs at h
  obtain rfl := Except.ok.inj h
  rw [List.map_congr_left hcast]
  constructor
  · exact (List.nodup_reverse.mpr List.nodup_range).map fun _ _ h => Int.natCast_inj.mp h
  · intro id
    simp only [List.mem_map, List.mem_reverse, List.mem_range, and_true]
    constructor
    · rintro ⟨i, hi, rfl⟩
      omega
    · rintro ⟨h0, hlt⟩
      exact ⟨id.toNat, by omega, by omega⟩

/-! ## Allocation -/

/-- What `n` pops do to the manager: the popped ids are the top of the stack, in pop order. -/
structure Popped (m m' : BlockManager) (ids : List ℤ) : Prop where
  freeList_eq : m.freeList = m'.freeList ++ ids.reverse
  inUse_iff : ∀ i, m'.inUse i = true ↔ m.inUse i = true ∨ ∃ b ∈ ids, b.toNat = i
  numBlocks_eq : m'.numBlocks = m.numBlocks

theorem allocateLoop_table (n : ℕ) (m : BlockManager) : (allocateLoop n m).2.table = m.table := by
  induction n generalizing m with
  | zero => rfl
  | succ n ih =>
    simp only [allocateLoop]
    split
    · rfl
    · exact ih _

theorem allocateLoop_popped (n : ℕ) (m : BlockManager) (h : n ≤ m.freeList.length) :
    Popped m (allocateLoop n m).2 (allocateLoop n m).1 ∧ (allocateLoop n m).1.length = n := by
  induction n generalizing m with
  | zero => exact ⟨⟨by simp [allocateLoop], by simp [allocateLoop], rfl⟩, rfl⟩
  | succ n ih =>
    have hne : m.freeList ≠ [] := by
      rintro hnil
      simp [hnil] at h
    simp only [allocateLoop, List.getLast?_eq_some_getLast hne]
    set block := m.freeList.getLast hne with hblock
    set m₁ : BlockManager :=
      { m with
        freeList := m.freeList.dropLast
        inUse := Function.update m.inUse block.toNat true } with hm₁
    obtain ⟨hpop, hlen⟩ := ih m₁ (by simp [hm₁]; omega)
    refine ⟨⟨?_, ?_, hpop.numBlocks_eq⟩, by simp [hlen]⟩
    · have hsplit : m.freeList = m₁.freeList ++ [block] := (List.dropLast_append_getLast hne).symm
      rw [hsplit, hpop.freeList_eq]
      simp
    · intro i
      rw [hpop.inUse_iff]
      by_cases hi : i = block.toNat
      · simp [hm₁, hi]
      · simp [hm₁, Function.update_of_ne hi, Ne.symm hi]

/-- The outcomes of `allocate`: bad count, exhausted pool, or `count` pops. -/
theorem allocate_cases (m : BlockManager) (count : ℤ) :
    (count ≤ 0 ∧ ∃ e, ¬ e.isOk ∧ m.allocate count = (m, .error e)) ∨
    (0 < count ∧ (m.freeList.length : ℤ) < count ∧ ∃ e, ¬ e.isOk ∧
      m.allocate count =
        ({ m with allocationFailures := m.allocationFailures + 1 }, .error e)) ∨
    (0 < count ∧ count ≤ m.freeList.length ∧ ∃ m' ids,
      m.allocate count = (m', .ok ids) ∧ Popped m m' ids ∧ m'.table = m.table ∧
      (ids.length : ℤ) = count) := by
  by_cases h0 : count ≤ 0
  · exact .inl ⟨h0, _, not_isOk_makeStatus _ _, by simp only [allocate, if_pos h0]; rfl⟩
  by_cases h1 : count > m.freeList.length
  · exact .inr (.inl ⟨by omega, h1, _, not_isOk_makeStatus _ _, by
      simp only [allocate, if_neg h0, if_pos h1]; rfl⟩)
  · obtain ⟨hpop, hlen⟩ := allocateLoop_popped count.toNat m (by omega)
    refine .inr (.inr ⟨by omega, by omega, _, _, ?_, hpop, allocateLoop_table _ m, by omega⟩)
    simp only [allocate, if_neg h0, if_neg h1]

namespace Popped

variable {m m' : BlockManager} {ids : List ℤ}

/-- Popping keeps the pool invariant: the popped ids are exactly the blocks that change sides. -/
theorem poolInv (hpop : Popped m m' ids) (h : PoolInv m) : PoolInv m' := by
  have hnd := h.nodup
  rw [hpop.freeList_eq, List.nodup_append] at hnd
  refine ⟨hnd.1, fun id => ?_⟩
  have hmem := h.mem_iff id
  rw [hpop.freeList_eq, List.mem_append, List.mem_reverse] at hmem
  rw [hpop.numBlocks_eq]
  have huse := hpop.inUse_iff id.toNat
  constructor
  · intro hid
    obtain ⟨h0, hlt, hfree⟩ := hmem.mp (.inl hid)
    refine ⟨h0, hlt, ?_⟩
    rw [Bool.eq_false_iff, ne_eq, huse]
    rintro (hused | ⟨b, hb, hbid⟩)
    · simp [hfree] at hused
    · have hb0 : 0 ≤ b := by
        have := (h.mem_iff b).mp (by rw [hpop.freeList_eq]; simp [hb])
        exact this.1
      have hbid' : b = id := by omega
      exact hnd.2.2 id hid id (by simpa [hbid'] using hb) rfl
  · rintro ⟨h0, hlt, hfree⟩
    rw [Bool.eq_false_iff, ne_eq, huse, not_or] at hfree
    have hid := hmem.mpr ⟨h0, hlt, by simpa using hfree.1⟩
    rcases hid with hid | hid
    · exact hid
    · exact absurd ⟨id, hid, rfl⟩ hfree.2

/-- The popped ids are distinct. -/
theorem nodup_ids (hpop : Popped m m' ids) (h : PoolInv m) : ids.Nodup := by
  have hnd := h.nodup
  rw [hpop.freeList_eq, List.nodup_append] at hnd
  exact List.nodup_reverse.mp hnd.2.1

/-- The popped ids were free. -/
theorem mem_freeList (hpop : Popped m m' ids) {b : ℤ} (hb : b ∈ ids) : b ∈ m.freeList := by
  rw [hpop.freeList_eq]
  simp [hb]

end Popped

/-! ## Release -/

@[simp] theorem freeOne_numBlocks (m : BlockManager) (b : ℤ) :
    (m.freeOne b).numBlocks = m.numBlocks := by
  unfold freeOne; split_ifs <;> rfl

@[simp] theorem freeOne_table (m : BlockManager) (b : ℤ) : (m.freeOne b).table = m.table := by
  unfold freeOne; split_ifs <;> rfl

@[simp] theorem free_numBlocks (m : BlockManager) (ids : List ℤ) :
    (m.free ids).numBlocks = m.numBlocks := by
  induction ids generalizing m with
  | nil => rfl
  | cons b ids ih => exact (ih (m.freeOne b)).trans (freeOne_numBlocks m b)

@[simp] theorem free_table (m : BlockManager) (ids : List ℤ) : (m.free ids).table = m.table := by
  induction ids generalizing m with
  | nil => rfl
  | cons b ids ih => exact (ih (m.freeOne b)).trans (freeOne_table m b)

/-- Releasing any id keeps the pool invariant. -/
theorem PoolInv.freeOne {m : BlockManager} (h : PoolInv m) (b : ℤ) : PoolInv (m.freeOne b) := by
  unfold BlockManager.freeOne
  split_ifs with hrange hfree
  · exact ⟨h.nodup, h.mem_iff⟩
  · exact ⟨h.nodup, h.mem_iff⟩
  · have hnotin : b ∉ m.freeList := fun hb => hfree ((h.mem_iff b).mp hb).2.2
    refine ⟨?_, fun id => ?_⟩
    · rw [List.nodup_append]
      refine ⟨h.nodup, List.nodup_singleton b, ?_⟩
      rintro a ha _ hb rfl
      exact hnotin (List.mem_singleton.mp hb ▸ ha)
    · by_cases hid : id = b
      · subst hid
        simp only [List.mem_append, List.mem_singleton, or_true, Function.update_self, and_true,
          true_iff]
        omega
      · have hidx : 0 ≤ id → id.toNat ≠ b.toNat := by omega
        simp only [List.mem_append, List.mem_singleton, hid, or_false, h.mem_iff]
        constructor
        · rintro ⟨h0, hlt, hf⟩
          exact ⟨h0, hlt, by rwa [Function.update_of_ne (hidx h0)]⟩
        · rintro ⟨h0, hlt, hf⟩
          exact ⟨h0, hlt, by rwa [Function.update_of_ne (hidx h0)] at hf⟩

/-- Releasing any list of ids keeps the pool invariant. -/
theorem PoolInv.free {m : BlockManager} (h : PoolInv m) (ids : List ℤ) : PoolInv (m.free ids) := by
  induction ids generalizing m with
  | nil => exact h
  | cons b ids ih => exact ih (h.freeOne b)

/-- Releasing distinct in-use blocks appends them to the free list and clears their flags. -/
theorem free_of_inUse (m : BlockManager) (ids : List ℤ) (hnd : ids.Nodup)
    (hids : ∀ b ∈ ids, 0 ≤ b ∧ b < m.numBlocks ∧ m.inUse b.toNat = true) :
    (m.free ids).freeList = m.freeList ++ ids ∧
      (∀ i, (m.free ids).inUse i = true ↔ m.inUse i = true ∧ ∀ b ∈ ids, b.toNat ≠ i) ∧
      (m.free ids).doubleFreeEvents = m.doubleFreeEvents := by
  induction ids generalizing m with
  | nil => simp [free]
  | cons b ids ih =>
    obtain ⟨hb0, hblt, hbuse⟩ := hids b (by simp)
    obtain ⟨hbnotin, hnd'⟩ := List.nodup_cons.mp hnd
    have hstep : m.freeOne b =
        { m with
          inUse := Function.update m.inUse b.toNat false
          freeList := m.freeList ++ [b] } := by
      unfold freeOne
      rw [if_neg (by omega), if_neg (by simp [hbuse])]
    -- what is left to free is still in use, as it is not `b`
    have hrest : ∀ c ∈ ids, 0 ≤ c ∧ c < (m.freeOne b).numBlocks ∧
        (m.freeOne b).inUse c.toNat = true := by
      intro c hc
      obtain ⟨hc0, hclt, hcuse⟩ := hids c (by simp [hc])
      have hne : c.toNat ≠ b.toNat := by
        intro heq
        exact hbnotin ((show c = b by omega) ▸ hc)
      exact ⟨hc0, by simpa using hclt, by rw [hstep]; simpa [Function.update_of_ne hne] using hcuse⟩
    obtain ⟨hfl, huse, hdf⟩ := ih (m.freeOne b) hnd' hrest
    have hfold : m.free (b :: ids) = (m.freeOne b).free ids := rfl
    rw [hfold]
    refine ⟨by rw [hfl, hstep]; simp, fun i => ?_, by rw [hdf, hstep]⟩
    rw [huse, hstep]
    by_cases hi : i = b.toNat
    · simp [hi]
    · simp [Function.update_of_ne hi, Ne.symm hi]

/-! ## Table rows -/

/-- A row of `n` entries is a list of ids followed by `-1`. -/
structure RowIs (row : Row) (n : ℕ) (ids : List ℤ) : Prop where
  length_le : ids.length ≤ n
  eq : ∀ i < n, row i = ids.getD i (-1)

namespace RowIs

variable {row : Row} {n : ℕ} {ids new : List ℤ}

/-- The non-negative entries of a row of valid ids are its first `ids.length` ones. -/
theorem nonneg_iff (h : RowIs row n ids) (hids : ∀ b ∈ ids, 0 ≤ b) {i : ℕ} (hi : i < n) :
    0 ≤ row i ↔ i < ids.length := by
  rw [h.eq i hi]
  by_cases hlt : i < ids.length
  · simp only [List.getD_eq_getElem _ _ hlt, hlt, iff_true]
    exact hids _ (List.getElem_mem hlt)
  · simp [hlt]

theorem range_filter (h : RowIs row n ids) (hids : ∀ b ∈ ids, 0 ≤ b) :
    (List.range n).filter (fun i => decide (0 ≤ row i)) = List.range ids.length := by
  have hcongr : ∀ i ∈ List.range n, decide (0 ≤ row i) = decide (i < ids.length) := by
    intro i hi
    exact decide_eq_decide.mpr (h.nonneg_iff hids (List.mem_range.mp hi))
  obtain ⟨k, hk⟩ := Nat.exists_eq_add_of_le h.length_le
  rw [List.filter_congr hcongr, hk, List.range_add, List.filter_append,
    List.filter_eq_self.mpr (by simp), List.filter_eq_nil_iff.mpr (by simp), List.append_nil]

/-- The scan for the first empty slot stops after the ids. -/
theorem usedPrefix_eq (h : RowIs row n ids) (hids : ∀ b ∈ ids, 0 ≤ b) :
    usedPrefix row n = ids.length := by
  obtain ⟨k, hk⟩ := Nat.exists_eq_add_of_le h.length_le
  have hall : ∀ i ∈ List.range ids.length, decide (0 ≤ row i) = true := by
    intro i hi
    rw [List.mem_range] at hi
    exact decide_eq_true ((h.nonneg_iff hids (by omega)).mpr hi)
  have hstop : ((List.range k).map (ids.length + ·)).takeWhile
      (fun i => decide (0 ≤ row i)) = [] := by
    cases k with
    | zero => rfl
    | succ k =>
      have hneg : ¬ 0 ≤ row ids.length := fun h0 =>
        Nat.lt_irrefl _ ((h.nonneg_iff hids (by omega)).mp h0)
      simp [List.range_succ_eq_map, hneg]
  unfold usedPrefix
  rw [hk, List.range_add, List.takeWhile_append_of_pos hall, hstop]
  simp

/-- The scan of `ResetSeq` counts the ids. -/
theorem countP_eq (h : RowIs row n ids) (hids : ∀ b ∈ ids, 0 ≤ b) :
    (List.range n).countP (fun i => decide (0 ≤ row i)) = ids.length := by
  rw [List.countP_eq_length_filter, h.range_filter hids, List.length_range]

/-- The leading entries of the row are the ids. -/
theorem map_range (h : RowIs row n ids) : (List.range ids.length).map row = ids := by
  refine List.ext_getElem (by simp) fun i hi hi' => ?_
  have hn : i < n := Nat.lt_of_lt_of_le hi' h.length_le
  simp [h.eq i hn, List.getElem?_eq_getElem hi']

/-- Writing new ids behind the old ones. -/
theorem append (h : RowIs row n ids) (hroom : ids.length + new.length ≤ n) :
    RowIs (writeRow row ids.length new) n (ids ++ new) := by
  refine ⟨by simpa using hroom, fun i hi => ?_⟩
  unfold writeRow
  split_ifs with hin
  · rw [List.getD_append_right _ _ _ _ hin.1]
  · by_cases hlt : i < ids.length
    · rw [h.eq i hi, List.getD_append _ _ _ _ hlt]
    · rw [h.eq i hi, List.getD_eq_default _ _ (by omega),
        List.getD_eq_default _ _ (by simp; omega)]

/-- A cleared row is empty. -/
theorem clear (row : Row) (n : ℕ) : RowIs (clearRow row n) n [] :=
  ⟨Nat.zero_le n, fun i hi => by simp [clearRow, hi]⟩

/-- A row cleared and rewritten holds exactly the ids. -/
theorem refresh (row : Row) (hlen : ids.length ≤ n) :
    RowIs (writeRow (clearRow row n) 0 ids) n ids := by
  have hroom : ([] : List ℤ).length + ids.length ≤ n := by simpa using hlen
  simpa using (clear row n).append hroom

end RowIs

/-- `AppendToTable` succeeds when the row has room, and only extends that row. -/
theorem appendToTable_of_room {m : BlockManager} {seq : ℕ} {owned ids : List ℤ}
    (hseq : seq < m.table.maxNumSeqs)
    (hrow : RowIs (m.table.host seq) m.table.maxBlocksPerSeq owned) (howned : ∀ b ∈ owned, 0 ≤ b)
    (hne : ids ≠ []) (hroom : owned.length + ids.length ≤ m.table.maxBlocksPerSeq) :
    m.appendToTable seq ids =
      ({ m with
          table := { m.table with
            host := Function.update m.table.host seq
              (writeRow (m.table.host seq) owned.length ids)
            revision := m.table.revision + 1 } },
        .ok) := by
  simp only [appendToTable, Int.toNat_natCast, hrow.usedPrefix_eq howned]
  rw [if_neg (by omega), if_neg hne, if_neg (by omega)]

/-- `ResetSeq` frees exactly the ids of the row and clears it. -/
theorem resetSeq_of_row {m : BlockManager} {seq : ℕ} {owned : List ℤ}
    (hseq : seq < m.table.maxNumSeqs)
    (hrow : RowIs (m.table.host seq) m.table.maxBlocksPerSeq owned) (howned : ∀ b ∈ owned, 0 ≤ b) :
    m.resetSeq seq =
      ({ m.free owned with
          table := { m.table with
            host := Function.update m.table.host seq
              (clearRow (m.table.host seq) m.table.maxBlocksPerSeq)
            revision := m.table.revision + 1 } },
        .ok) := by
  simp only [resetSeq, Int.toNat_natCast, hrow.countP_eq howned, hrow.map_range, free_table]
  rw [if_neg (by omega)]

end BlockManager

end SciAttention

import SciAttention.KvCache.BlockManager
import SciAttention.Common.Runs
import Mathlib.Data.Finset.Card
import Mathlib.Data.Finset.Filter
import Mathlib.Data.Finset.Image
import Mathlib.Data.Finset.SDiff

/-!
# The block manager under arbitrary use

The public calls of `BlockManager` in any order with any arguments. The pool is conserved whatever the
caller does (`poolConserved_run`): free list and flags stay complementary, and allocations hand out
blocks that nobody holds. The table is another matter: `AppendToTable` takes any ids and `Free` does not
look at the table, so that every block is listed at most once only as long as the caller appends blocks
it holds and frees none that is listed (`tableLaw_run_iff`).
-/

namespace SciAttention

namespace BlockManager

/-- `BlockManager::SyncTableToDevice`. -/
def syncTableToDevice (m : BlockManager) : BlockManager × Status :=
  if m.table.syncedRevision = m.table.revision ∧ m.table.device.isSome then (m, .ok)
  else if m.table.device.isNone then
    (m, makeStatus .shapeMismatch "BlockManager: page table not allocated")
  else
    ({ m with table := { m.table with
        device := some m.table.host
        syncedRevision := m.table.revision } },
      .ok)

/-- A public call. -/
inductive Call where
  | allocate (count : ℤ)
  | free (ids : List ℤ)
  | appendToTable (seqId : ℤ) (ids : List ℤ)
  | resetSeq (seqId : ℤ)
  | syncTableToDevice

/-- The manager after a call. -/
def step (m : BlockManager) : Call → BlockManager
  | .allocate count => (m.allocate count).1
  | .free ids => m.free ids
  | .appendToTable seqId ids => (m.appendToTable seqId ids).1
  | .resetSeq seqId => (m.resetSeq seqId).1
  | .syncTableToDevice => m.syncTableToDevice.1

/-- The manager after a list of calls. -/
def run (m : BlockManager) (calls : List Call) : BlockManager := calls.foldl step m

/-- The ids that `ResetSeq` hands to `Free`. -/
def resetIds (m : BlockManager) (seqId : ℤ) : List ℤ :=
  if seqId < 0 ∨ seqId ≥ m.table.maxNumSeqs then []
  else
    let row := m.table.host seqId.toNat
    (List.range ((List.range m.table.maxBlocksPerSeq).countP fun i => decide (0 ≤ row i))).map row

/-- The ids that a call hands to `Free`. -/
def freedIds (m : BlockManager) : Call → List ℤ
  | .free ids => ids
  | .resetSeq seqId => m.resetIds seqId
  | _ => []

/-! ## Releases -/

/-- An id that `Free` only counts: out of range, or not in use. -/
def Rejected (m : BlockManager) (b : ℤ) : Prop :=
  b < 0 ∨ b ≥ m.numBlocks ∨ m.inUse b.toNat = false

instance (m : BlockManager) (b : ℤ) : Decidable (m.Rejected b) := inferInstanceAs (Decidable (_ ∨ _))

/-- The number of ids of a list that are rejected, each at the moment it is freed. -/
def rejectedCount (m : BlockManager) (ids : List ℤ) : ℕ :=
  (List.range ids.length).countP fun i => decide ((m.free (ids.take i)).Rejected (ids.getD i 0))

theorem freeOne_doubleFreeEvents (m : BlockManager) (b : ℤ) :
    (m.freeOne b).doubleFreeEvents = m.doubleFreeEvents + if m.Rejected b then 1 else 0 := by
  by_cases hrange : b < 0 ∨ b ≥ m.numBlocks
  · rw [freeOne, if_pos hrange, if_pos (by unfold Rejected; omega)]
  · by_cases hfree : m.inUse b.toNat = false
    · rw [freeOne, if_neg hrange, if_pos hfree, if_pos (.inr (.inr hfree))]
    · rw [freeOne, if_neg hrange, if_neg hfree, if_neg (by unfold Rejected; tauto),
        Nat.add_zero]

/-- The double-free counter moves by the rejected ids. -/
theorem free_doubleFreeEvents (m : BlockManager) (ids : List ℤ) :
    (m.free ids).doubleFreeEvents = m.doubleFreeEvents + m.rejectedCount ids := by
  induction ids using List.reverseRecOn with
  | nil => rfl
  | append_singleton ids b ih =>
    have hlast : (m.free (ids ++ [b])).doubleFreeEvents =
        (m.free ids).doubleFreeEvents + if (m.free ids).Rejected b then 1 else 0 := by
      rw [free, List.foldl_append]
      exact freeOne_doubleFreeEvents _ b
    have hsame : (List.range ids.length).countP (fun i =>
        decide ((m.free ((ids ++ [b]).take i)).Rejected ((ids ++ [b]).getD i 0))) =
        m.rejectedCount ids := by
      refine List.countP_congr fun i hi => ?_
      rw [List.mem_range] at hi
      rw [List.take_append_of_le_length hi.le, List.getD_append _ _ _ _ hi]
    have hcount : m.rejectedCount (ids ++ [b]) =
        m.rejectedCount ids + if (m.free ids).Rejected b then 1 else 0 := by
      rw [rejectedCount, List.length_append, List.length_singleton, List.range_succ,
        List.countP_append, hsame, List.countP_singleton, List.take_left,
        List.getD_append_right _ _ _ _ le_rfl, Nat.sub_self]
      simp
    rw [hlast, ih, hcount, Nat.add_assoc]

/-- A block of the pool is in use after a release when it was and is not among the ids. -/
theorem free_inUse_iff (m : BlockManager) (ids : List ℤ) {id : ℤ} (h0 : 0 ≤ id)
    (hlt : id < m.numBlocks) :
    (m.free ids).inUse id.toNat = true ↔ m.inUse id.toNat = true ∧ id ∉ ids := by
  induction ids generalizing m with
  | nil => simp [free]
  | cons b ids ih =>
    have hone : (m.freeOne b).inUse id.toNat = true ↔ m.inUse id.toNat = true ∧ id ≠ b := by
      unfold freeOne
      split_ifs with hrange hfree
      · refine (and_iff_left ?_).symm
        rintro rfl
        omega
      · constructor
        · intro huse
          refine ⟨huse, fun hid => ?_⟩
          rw [← hid] at hfree
          exact Bool.noConfusion (hfree.symm.trans huse)
        · exact fun huse => huse.1
      · by_cases hid : id = b
        · simp [hid]
        · have hne : id.toNat ≠ b.toNat := by omega
          simp [Function.update_of_ne hne, hid]
    have hrest := ih (m.freeOne b) (by simpa using hlt)
    rw [List.mem_cons, not_or, ← and_assoc, ← hone, ← hrest]
    rfl

/-- Only blocks of the pool are handed back. -/
theorem resetSeq_pool (m : BlockManager) (seqId : ℤ) :
    let m' := (m.resetSeq seqId).1
    m'.numBlocks = m.numBlocks ∧ m'.freeList = (m.free (m.resetIds seqId)).freeList ∧
      m'.inUse = (m.free (m.resetIds seqId)).inUse ∧
      m'.doubleFreeEvents = (m.free (m.resetIds seqId)).doubleFreeEvents ∧
      m'.allocationFailures = (m.free (m.resetIds seqId)).allocationFailures := by
  simp only [resetSeq, resetIds]
  split_ifs
  · exact ⟨rfl, rfl, rfl, rfl, rfl⟩
  · exact ⟨free_numBlocks _ _, rfl, rfl, rfl, rfl⟩

/-! ## Who holds what -/

/-- The ids held after a call: what allocations handed out and nobody freed since. -/
def heldStep (m : BlockManager) (held : Finset ℤ) : Call → Finset ℤ
  | .allocate count =>
    match (m.allocate count).2 with
    | .ok ids => held ∪ ids.toFinset
    | .error _ => held
  | call => held \ (m.freedIds call).toFinset

/-- The ids held after a run that starts with nothing held. -/
def heldAfter (m : BlockManager) (calls : List Call) : Finset ℤ :=
  (calls.foldl (fun st call => (st.1.step call, st.1.heldStep st.2 call))
    ((m, ∅) : BlockManager × Finset ℤ)).2

/-- The pool invariant, and the blocks in use are those somebody holds. -/
structure HeldInv (m : BlockManager) (held : Finset ℤ) : Prop where
  pool : PoolInv m
  mem_held : ∀ id, id ∈ held ↔ 0 ≤ id ∧ id < m.numBlocks ∧ m.inUse id.toNat = true

theorem HeldInv.free {m : BlockManager} {held : Finset ℤ} (h : HeldInv m held) (ids : List ℤ) :
    HeldInv (m.free ids) (held \ ids.toFinset) := by
  refine ⟨h.pool.free ids, fun id => ?_⟩
  rw [Finset.mem_sdiff, List.mem_toFinset, h.mem_held, free_numBlocks]
  constructor
  · rintro ⟨⟨h0, hlt, huse⟩, hnot⟩
    exact ⟨h0, hlt, (m.free_inUse_iff ids h0 hlt).mpr ⟨huse, hnot⟩⟩
  · rintro ⟨h0, hlt, huse⟩
    obtain ⟨huse, hnot⟩ := (m.free_inUse_iff ids h0 hlt).mp huse
    exact ⟨⟨h0, hlt, huse⟩, hnot⟩

theorem HeldInv.popped {m m' : BlockManager} {held : Finset ℤ} (h : HeldInv m held) {ids : List ℤ}
    (hpop : Popped m m' ids) : HeldInv m' (held ∪ ids.toFinset) := by
  refine ⟨hpop.poolInv h.pool, fun id => ?_⟩
  rw [Finset.mem_union, List.mem_toFinset, h.mem_held, hpop.numBlocks_eq, hpop.inUse_iff]
  constructor
  · rintro (⟨h0, hlt, huse⟩ | hid)
    · exact ⟨h0, hlt, .inl huse⟩
    · obtain ⟨h0, hlt, -⟩ := (h.pool.mem_iff id).mp (hpop.mem_freeList hid)
      exact ⟨h0, hlt, .inr ⟨id, hid, rfl⟩⟩
  · rintro ⟨h0, hlt, huse | ⟨b, hb, hbid⟩⟩
    · exact .inl ⟨h0, hlt, huse⟩
    · have hb0 := ((h.pool.mem_iff b).mp (hpop.mem_freeList hb)).1
      exact .inr ((show b = id by omega) ▸ hb)

/-- A change that leaves the pool alone. -/
theorem HeldInv.congr {m m' : BlockManager} {held : Finset ℤ} (h : HeldInv m held)
    (hblocks : m'.numBlocks = m.numBlocks) (hfree : m'.freeList = m.freeList)
    (huse : m'.inUse = m.inUse) : HeldInv m' held := by
  refine ⟨⟨hfree ▸ h.pool.nodup, fun id => ?_⟩, fun id => ?_⟩
  · rw [hfree, hblocks, huse]
    exact h.pool.mem_iff id
  · rw [hblocks, huse]
    exact h.mem_held id

theorem HeldInv.step {m : BlockManager} {held : Finset ℤ} (h : HeldInv m held) (call : Call) :
    HeldInv (m.step call) (m.heldStep held call) := by
  cases call with
  | allocate count =>
    rcases m.allocate_cases count with ⟨-, e, -, heq⟩ | ⟨-, -, e, -, heq⟩ |
      ⟨-, -, m', ids, heq, hpop, -, -⟩
    · simp only [BlockManager.step, heldStep, heq]
      exact h
    · simp only [BlockManager.step, heldStep, heq]
      exact h.congr rfl rfl rfl
    · simp only [BlockManager.step, heldStep, heq]
      exact h.popped hpop
  | free ids => exact h.free ids
  | appendToTable seqId ids =>
    have hnone : held \ ([] : List ℤ).toFinset = held := by simp
    simp only [BlockManager.step, heldStep, freedIds, hnone, BlockManager.appendToTable]
    split_ifs <;> exact h.congr rfl rfl rfl
  | resetSeq seqId =>
    obtain ⟨hblocks, hfree, huse, -, -⟩ := m.resetSeq_pool seqId
    exact (h.free (m.resetIds seqId)).congr (hblocks.trans (free_numBlocks _ _).symm) hfree huse
  | syncTableToDevice =>
    have hnone : held \ ([] : List ℤ).toFinset = held := by simp
    simp only [BlockManager.step, heldStep, freedIds, hnone, BlockManager.syncTableToDevice]
    split_ifs <;> exact h.congr rfl rfl rfl

/-- Nothing is held of a new manager. -/
theorem HeldInv.create {numBlocks maxNumSeqs maxBlocksPerSeq : ℤ} {deviceAlloc : Bool}
    {m : BlockManager} (hsmall : numBlocks ≤ 2 ^ 31)
    (h : create numBlocks maxNumSeqs maxBlocksPerSeq deviceAlloc = .ok m) : HeldInv m ∅ := by
  refine ⟨PoolInv.create hsmall h, fun id => ?_⟩
  simp only [BlockManager.create] at h
  split_ifs at h
  obtain rfl := Except.ok.inj h
  simp

/-- The invariant holds along every run. -/
theorem HeldInv.run {m : BlockManager} (h : HeldInv m ∅) (calls : List Call) :
    HeldInv (m.run calls) (m.heldAfter calls) := by
  have hpair : ∀ (calls : List Call) (st : BlockManager × Finset ℤ),
      (calls.foldl (fun st call => (st.1.step call, st.1.heldStep st.2 call)) st).1 =
        calls.foldl BlockManager.step st.1 := by
    intro calls
    induction calls with
    | nil => exact fun _ => rfl
    | cons call calls ih => exact fun st => ih _
  have hinv := Runs.invariant (fun st call => (st.1.step call, st.1.heldStep st.2 call))
    (I := fun st : BlockManager × Finset ℤ => HeldInv st.1 st.2)
    (fun _ call hst => hst.step call) (s := (m, ∅)) h calls
  rw [hpair] at hinv
  exact hinv

/-! ## Conservation -/

/-- The number of blocks in use. -/
def inUseCount (m : BlockManager) : ℕ := (List.range m.numBlocks).countP m.inUse

/-- What holds of the pool when the ids in `held` are out. -/
structure PoolConserved (m : BlockManager) (held : Finset ℤ) : Prop where
  nodup : m.freeList.Nodup
  mem_freeList : ∀ id : ℤ, id ∈ m.freeList ↔ 0 ≤ id ∧ id < m.numBlocks ∧
    m.inUse id.toNat = false
  count : m.numFreeBlocks + m.inUseCount = m.numTotalBlocks
  allocate_ok : ∀ count m' ids, m.allocate count = (m', .ok ids) →
    (ids.length : ℤ) = count ∧ ids.Nodup ∧ ∀ b ∈ ids, b ∈ m.freeList ∧ b ∉ held
  allocate_error : ∀ count m' e, m.allocate count = (m', .error e) →
    m' = { m with allocationFailures := m'.allocationFailures }
  doubleFree : ∀ call, (m.step call).doubleFreeEvents =
    m.doubleFreeEvents + m.rejectedCount (m.freedIds call)

/-- Free blocks and blocks in use make up the pool. -/
theorem PoolInv.count {m : BlockManager} (h : PoolInv m) :
    m.numFreeBlocks + m.inUseCount = m.numTotalBlocks := by
  have hperm : m.freeList.Perm
      (((List.range m.numBlocks).filter fun i => !m.inUse i).map fun i : ℕ => (i : ℤ)) := by
    rw [List.perm_ext_iff_of_nodup h.nodup
      ((List.nodup_range.filter _).map fun _ _ heq => Int.natCast_inj.mp heq)]
    intro id
    rw [h.mem_iff, List.mem_map]
    simp only [List.mem_filter, List.mem_range, Bool.not_eq_true']
    constructor
    · rintro ⟨h0, hlt, hfree⟩
      exact ⟨id.toNat, ⟨by omega, hfree⟩, by omega⟩
    · rintro ⟨i, ⟨hi, hfree⟩, rfl⟩
      exact ⟨by omega, by omega, by simpa using hfree⟩
  rw [numFreeBlocks, hperm.length_eq, List.length_map, ← List.countP_eq_length_filter, inUseCount,
    numTotalBlocks, Nat.add_comm]
  have hsplit := List.length_eq_countP_add_countP m.inUse (l := List.range m.numBlocks)
  rw [List.length_range] at hsplit
  simpa using hsplit.symm

theorem allocate_doubleFreeEvents (m : BlockManager) (count : ℤ) :
    (m.allocate count).1.doubleFreeEvents = m.doubleFreeEvents := by
  have hloop : ∀ (n : ℕ) (m : BlockManager),
      (allocateLoop n m).2.doubleFreeEvents = m.doubleFreeEvents := by
    intro n
    induction n with
    | zero => exact fun _ => rfl
    | succ n ih =>
      intro m
      simp only [allocateLoop]
      split
      · rfl
      · exact ih _
  unfold allocate
  split_ifs
  · rfl
  · rfl
  · exact hloop _ m

theorem HeldInv.conserved {m : BlockManager} {held : Finset ℤ} (h : HeldInv m held) :
    PoolConserved m held := by
  refine ⟨h.pool.nodup, h.pool.mem_iff, h.pool.count, fun count m' ids hok => ?_,
    fun count m' e herr => ?_, fun call => ?_⟩
  · rcases m.allocate_cases count with ⟨-, e, -, heq⟩ | ⟨-, -, e, -, heq⟩ |
      ⟨-, -, m'', ids', heq, hpop, -, hlen⟩
    · simp [heq] at hok
    · simp [heq] at hok
    · rw [heq] at hok
      obtain ⟨-, hids⟩ := Prod.mk.inj hok
      obtain rfl := Except.ok.inj hids
      refine ⟨hlen, hpop.nodup_ids h.pool, fun b hb => ⟨hpop.mem_freeList hb, fun hheld => ?_⟩⟩
      -- a block that was free was not held
      have hfree := ((h.pool.mem_iff b).mp (hpop.mem_freeList hb)).2.2
      have huse := ((h.mem_held b).mp hheld).2.2
      exact Bool.noConfusion (hfree.symm.trans huse)
  · rcases m.allocate_cases count with ⟨-, e', -, heq⟩ | ⟨-, -, e', -, heq⟩ |
      ⟨-, -, m'', ids', heq, -, -, -⟩
    · rw [heq] at herr
      rw [← (Prod.mk.inj herr).1]
    · rw [heq] at herr
      rw [← (Prod.mk.inj herr).1]
    · simp [heq] at herr
  · cases call with
    | allocate count => exact m.allocate_doubleFreeEvents count
    | free ids => exact m.free_doubleFreeEvents ids
    | appendToTable seqId ids =>
      simp only [BlockManager.step, BlockManager.appendToTable]
      split_ifs <;> rfl
    | resetSeq seqId =>
      obtain ⟨-, -, -, hdouble, -⟩ := m.resetSeq_pool seqId
      exact hdouble.trans (m.free_doubleFreeEvents _)
    | syncTableToDevice =>
      simp only [BlockManager.step, BlockManager.syncTableToDevice]
      split_ifs <;> rfl

/-- A block is listed in the table. -/
def Listed (m : BlockManager) (b : ℤ) : Prop :=
  ∃ s < m.table.maxNumSeqs, ∃ j < m.table.maxBlocksPerSeq, m.table.host s j = b

instance (m : BlockManager) (b : ℤ) : Decidable (m.Listed b) :=
  inferInstanceAs (Decidable (∃ s < _, ∃ j < _, _))

/-- The table of an exclusive allocator: rows are ids followed by `-1`, every id listed is in use, and
none is listed twice. -/
structure TableLaw (m : BlockManager) : Prop where
  listed_inUse : ∀ s < m.table.maxNumSeqs, ∀ j < m.table.maxBlocksPerSeq, 0 ≤ m.table.host s j →
    m.table.host s j < m.numBlocks ∧ m.inUse (m.table.host s j).toNat = true
  inj : ∀ s < m.table.maxNumSeqs, ∀ j < m.table.maxBlocksPerSeq, ∀ s' < m.table.maxNumSeqs,
    ∀ j' < m.table.maxBlocksPerSeq, 0 ≤ m.table.host s j →
    m.table.host s j = m.table.host s' j' → s = s' ∧ j = j'
  row_prefix : ∀ s < m.table.maxNumSeqs, ∃ n ≤ m.table.maxBlocksPerSeq,
    ∀ j < m.table.maxBlocksPerSeq, (j < n → 0 ≤ m.table.host s j) ∧
      (n ≤ j → m.table.host s j = -1)

/-- `ResetSeq` returns exactly the blocks of its row to the pool, and none of another row. -/
def ResetExact (m : BlockManager) : Prop :=
  ∀ s < m.table.maxNumSeqs, (m.resetSeq s).2.isOk ∧
    (∀ b, b ∈ (m.resetSeq s).1.freeList ↔ b ∈ m.freeList ∨
      0 ≤ b ∧ ∃ j < m.table.maxBlocksPerSeq, m.table.host s j = b) ∧
    ∀ s' < m.table.maxNumSeqs, s' ≠ s → ∀ j < m.table.maxBlocksPerSeq,
      m.table.host s' j ∉ (m.resetSeq s).1.freeList

/-- The calls that keep the law: rows are extended by distinct blocks in use that are not listed
(and possibly `-1`s behind them), and no listed block is freed behind the table's back. -/
def CallLawful (m : BlockManager) : Call → Prop
  | .appendToTable seqId ids =>
    0 ≤ seqId → seqId < m.table.maxNumSeqs →
    usedPrefix (m.table.host seqId.toNat) m.table.maxBlocksPerSeq + ids.length ≤
      m.table.maxBlocksPerSeq →
    ∃ (new : List ℤ) (k : ℕ), ids = new ++ List.replicate k (-1) ∧ new.Nodup ∧
      ∀ b ∈ new, 0 ≤ b ∧ b < m.numBlocks ∧ m.inUse b.toNat = true ∧ ¬ m.Listed b
  | .free ids => ∀ b ∈ ids, 0 ≤ b → ¬ m.Listed b
  | _ => True

namespace TableLaw

variable {m : BlockManager}

/-- Every row is a list of ids. -/
theorem rowIs (h : TableLaw m) {s : ℕ} (hs : s < m.table.maxNumSeqs) :
    ∃ owned, RowIs (m.table.host s) m.table.maxBlocksPerSeq owned ∧ ∀ b ∈ owned, 0 ≤ b := by
  obtain ⟨n, hn, hrow⟩ := h.row_prefix s hs
  refine ⟨(List.range n).map (m.table.host s), ⟨by simpa using hn, fun j hj => ?_⟩, fun b hb => ?_⟩
  · by_cases hlt : j < n
    · rw [List.getD_eq_getElem _ _ (by simpa using hlt)]
      simp
    · rw [(hrow j hj).2 (by omega), List.getD_eq_default _ _ (by simpa using hlt)]
  · obtain ⟨j, hj, rfl⟩ := List.mem_map.mp hb
    rw [List.mem_range] at hj
    exact (hrow j (by omega)).1 hj

/-- The ids of a row are its non-negative entries. -/
theorem mem_owned_iff {row : Row} {n : ℕ} {owned : List ℤ} (hrow : RowIs row n owned)
    (howned : ∀ b ∈ owned, 0 ≤ b) {b : ℤ} : b ∈ owned ↔ 0 ≤ b ∧ ∃ j < n, row j = b := by
  constructor
  · intro hb
    obtain ⟨j, hj, rfl⟩ := List.mem_iff_getElem.mp hb
    have hlt : j < n := hj.trans_le hrow.length_le
    exact ⟨howned _ hb, j, hlt, by rw [hrow.eq j hlt, List.getD_eq_getElem _ _ hj]⟩
  · rintro ⟨h0, j, hj, rfl⟩
    have hlt := (hrow.nonneg_iff howned hj).mp h0
    rw [hrow.eq j hj, List.getD_eq_getElem _ _ hlt]
    exact List.getElem_mem hlt

/-- The ids of a row are distinct blocks in use. -/
theorem owned_spec (h : TableLaw m) {s : ℕ} (hs : s < m.table.maxNumSeqs) {owned : List ℤ}
    (hrow : RowIs (m.table.host s) m.table.maxBlocksPerSeq owned) (howned : ∀ b ∈ owned, 0 ≤ b) :
    owned.Nodup ∧ ∀ b ∈ owned, 0 ≤ b ∧ b < m.numBlocks ∧ m.inUse b.toNat = true := by
  constructor
  · refine List.nodup_iff_injective_getElem.mpr fun i j hij => Fin.ext ?_
    have hentry : ∀ k : Fin owned.length,
        m.table.host s k = owned[k] ∧ (k : ℕ) < m.table.maxBlocksPerSeq := by
      intro k
      have hlt := k.isLt.trans_le hrow.length_le
      exact ⟨by rw [hrow.eq k hlt, List.getD_eq_getElem _ _ k.isLt]; rfl, hlt⟩
    have hnonneg : 0 ≤ m.table.host s i := by
      rw [(hentry i).1]
      exact howned _ (List.getElem_mem i.isLt)
    refine (h.inj s hs i (hentry i).2 s hs j (hentry j).2 hnonneg ?_).2
    rw [(hentry i).1, (hentry j).1]
    exact hij
  · intro b hb
    obtain ⟨h0, j, hj, rfl⟩ := (mem_owned_iff hrow howned).mp hb
    exact ⟨h0, h.listed_inUse s hs j hj h0⟩

/-- Different rows list different blocks. -/
theorem owned_disjoint (h : TableLaw m) {s t : ℕ} (hs : s < m.table.maxNumSeqs)
    (ht : t < m.table.maxNumSeqs) (hne : s ≠ t) {owned owned' : List ℤ}
    (hrow : RowIs (m.table.host s) m.table.maxBlocksPerSeq owned) (howned : ∀ b ∈ owned, 0 ≤ b)
    (hrow' : RowIs (m.table.host t) m.table.maxBlocksPerSeq owned') (howned' : ∀ b ∈ owned', 0 ≤ b)
    {b : ℤ} (hb : b ∈ owned) : b ∉ owned' := by
  intro hb'
  obtain ⟨h0, j, hj, rfl⟩ := (mem_owned_iff hrow howned).mp hb
  obtain ⟨-, j', hj', heq⟩ := (mem_owned_iff hrow' howned').mp hb'
  exact hne (h.inj s hs j hj t ht j' hj' h0 heq.symm).1

/-- The law looks at the table, the pool size and the flags of listed blocks. -/
theorem congr {m' : BlockManager} (h : TableLaw m) (htable : m'.table.host = m.table.host)
    (hseqs : m'.table.maxNumSeqs = m.table.maxNumSeqs)
    (hmax : m'.table.maxBlocksPerSeq = m.table.maxBlocksPerSeq)
    (hblocks : m'.numBlocks = m.numBlocks)
    (huse : ∀ b, 0 ≤ b → m.Listed b → m.inUse b.toNat = true → m'.inUse b.toNat = true) :
    TableLaw m' := by
  refine ⟨?_, ?_, ?_⟩
  · rw [htable, hseqs, hmax, hblocks]
    intro s hs j hj h0
    obtain ⟨hlt, hin⟩ := h.listed_inUse s hs j hj h0
    exact ⟨hlt, huse _ h0 ⟨s, hs, j, hj, rfl⟩ hin⟩
  · rw [htable, hseqs, hmax]
    exact h.inj
  · rw [htable, hseqs, hmax]
    exact h.row_prefix

/-- `ResetSeq` is exact where the law holds. -/
theorem resetExact (h : TableLaw m) (hpool : PoolInv m) : ResetExact m := by
  intro s hs
  obtain ⟨owned, hrow, howned⟩ := h.rowIs hs
  obtain ⟨hnodup, hin⟩ := h.owned_spec hs hrow howned
  obtain ⟨hfree, -, -⟩ := m.free_of_inUse owned hnodup hin
  rw [resetSeq_of_row hs hrow howned]
  refine ⟨Status.isOk_ok, fun b => ?_, fun s' hs' hne j hj => ?_⟩
  · rw [← mem_owned_iff hrow howned]
    change b ∈ (m.free owned).freeList ↔ _
    rw [hfree, List.mem_append]
  · change m.table.host s' j ∉ (m.free owned).freeList
    rw [hfree, List.mem_append, hpool.mem_iff, mem_owned_iff hrow howned]
    rintro (⟨h0, -, hnot⟩ | ⟨h0, j', hj', heq⟩)
    · exact Bool.noConfusion (hnot.symm.trans (h.listed_inUse s' hs' j hj h0).2)
    · exact hne (h.inj s' hs' j hj s hs j' hj' h0 heq.symm).1

theorem allocate (h : TableLaw m) (count : ℤ) : TableLaw (m.allocate count).1 := by
  rcases m.allocate_cases count with ⟨-, e, -, heq⟩ | ⟨-, -, e, -, heq⟩ |
    ⟨-, -, m', ids, heq, hpop, htable, -⟩
  · rw [heq]
    exact h
  · rw [heq]
    exact h.congr rfl rfl rfl rfl fun _ _ _ huse => huse
  · rw [heq]
    refine h.congr (by rw [htable]) (by rw [htable]) (by rw [htable]) hpop.numBlocks_eq
      fun b _ _ huse => (hpop.inUse_iff _).mpr (.inl huse)

/-- A release keeps the law exactly when it frees no listed block. -/
theorem free_iff (h : TableLaw m) (ids : List ℤ) :
    TableLaw (m.free ids) ↔ ∀ b ∈ ids, 0 ≤ b → ¬ m.Listed b := by
  constructor
  · rintro hafter b hb h0 ⟨s, hs, j, hj, rfl⟩
    have hlt := (h.listed_inUse s hs j hj h0).1
    have hstill := hafter.listed_inUse s (by simpa using hs) j (by simpa using hj) (by simpa using h0)
    simp only [free_table] at hstill
    exact ((m.free_inUse_iff ids h0 hlt).mp hstill.2).2 hb
  · intro hnone
    refine h.congr (by simp) (by simp) (by simp) (by simp) fun b h0 hlisted huse => ?_
    have hlt : b < m.numBlocks := by
      obtain ⟨s, hs, j, hj, rfl⟩ := hlisted
      exact (h.listed_inUse s hs j hj h0).1
    exact (m.free_inUse_iff ids h0 hlt).mpr ⟨huse, fun hmem => hnone b hmem h0 hlisted⟩

theorem resetSeq (h : TableLaw m) (seqId : ℤ) : TableLaw (m.resetSeq seqId).1 := by
  by_cases hbad : seqId < 0 ∨ seqId ≥ m.table.maxNumSeqs
  · rw [BlockManager.resetSeq, if_pos hbad]
    exact h
  obtain ⟨s, rfl⟩ : ∃ s : ℕ, seqId = s := ⟨seqId.toNat, by omega⟩
  have hs : s < m.table.maxNumSeqs := by omega
  obtain ⟨owned, hrow, howned⟩ := h.rowIs hs
  rw [resetSeq_of_row hs hrow howned]
  -- the entries left are those of the other rows
  set host := Function.update m.table.host s (clearRow (m.table.host s) m.table.maxBlocksPerSeq)
    with hhost
  have hself : ∀ j < m.table.maxBlocksPerSeq, host s j = -1 := by
    intro j hj
    rw [hhost, Function.update_self, clearRow, if_pos hj]
  have hother : ∀ t, t ≠ s → host t = m.table.host t := fun t ht => by
    rw [hhost, Function.update_of_ne ht]
  have hleft : ∀ t, ∀ j < m.table.maxBlocksPerSeq, 0 ≤ host t j →
      t ≠ s ∧ host t j = m.table.host t j := by
    intro t j hj h0
    have hts : t ≠ s := by
      rintro rfl
      rw [hself j hj] at h0
      omega
    exact ⟨hts, by rw [hother t hts]⟩
  refine ⟨fun t ht j hj h0 => ?_, fun t ht j hj t' ht' j' hj' h0 heq => ?_, fun t ht => ?_⟩
  · obtain ⟨hts, heq⟩ := hleft t j hj h0
    change host t j < (m.free owned).numBlocks ∧ (m.free owned).inUse (host t j).toNat = true
    have h0 : 0 ≤ m.table.host t j := heq ▸ h0
    obtain ⟨hlt, huse⟩ := h.listed_inUse t ht j hj h0
    rw [heq, free_numBlocks, m.free_inUse_iff owned h0 hlt, mem_owned_iff hrow howned]
    refine ⟨hlt, huse, ?_⟩
    rintro ⟨-, j', hj', hsame⟩
    exact hts (h.inj t ht j hj s hs j' hj' h0 hsame.symm).1
  · change host t j = host t' j' at heq
    obtain ⟨-, hold⟩ := hleft t j hj h0
    obtain ⟨-, hold'⟩ := hleft t' j' hj' (heq ▸ h0)
    refine h.inj t ht j hj t' ht' j' hj' (hold ▸ h0) ?_
    rw [← hold, heq, hold']
  · by_cases hts : t = s
    · refine ⟨0, Nat.zero_le _, fun j hj => ⟨fun hlt => absurd hlt (Nat.not_lt_zero j), fun _ => ?_⟩⟩
      rw [hts]
      exact hself j hj
    · change ∃ n ≤ m.table.maxBlocksPerSeq, ∀ j < m.table.maxBlocksPerSeq,
        (j < n → 0 ≤ host t j) ∧ (n ≤ j → host t j = -1)
      rw [hother t hts]
      exact h.row_prefix t ht

/-- Distinct blocks in use, row by row, make a lawful table. -/
theorem of_lists (own : ℕ → List ℤ)
    (hrow : ∀ s < m.table.maxNumSeqs, RowIs (m.table.host s) m.table.maxBlocksPerSeq (own s))
    (hin : ∀ s < m.table.maxNumSeqs, ∀ b ∈ own s, 0 ≤ b ∧ b < m.numBlocks ∧
      m.inUse b.toNat = true)
    (hnodup : ∀ s < m.table.maxNumSeqs, (own s).Nodup)
    (hdisj : ∀ s < m.table.maxNumSeqs, ∀ s' < m.table.maxNumSeqs, s ≠ s' → ∀ b ∈ own s,
      b ∉ own s') :
    TableLaw m := by
  have hnonneg : ∀ s < m.table.maxNumSeqs, ∀ b ∈ own s, 0 ≤ b := fun s hs b hb => (hin s hs b hb).1
  have hmem : ∀ s < m.table.maxNumSeqs, ∀ j < m.table.maxBlocksPerSeq, 0 ≤ m.table.host s j →
      m.table.host s j ∈ own s := fun s hs j hj h0 =>
    (mem_owned_iff (hrow s hs) (hnonneg s hs)).mpr ⟨h0, j, hj, rfl⟩
  refine ⟨fun s hs j hj h0 => (hin s hs _ (hmem s hs j hj h0)).2,
    fun s hs j hj s' hs' j' hj' h0 heq => ?_, fun s hs => ?_⟩
  · have hsame : s = s' := by
      by_contra hne
      exact hdisj s hs s' hs' hne _ (hmem s hs j hj h0) (heq ▸ hmem s' hs' j' hj' (heq ▸ h0))
    subst hsame
    have hlt := ((hrow s hs).nonneg_iff (hnonneg s hs) hj).mp h0
    have hlt' := ((hrow s hs).nonneg_iff (hnonneg s hs) hj').mp (heq ▸ h0)
    rw [(hrow s hs).eq j hj, (hrow s hs).eq j' hj', List.getD_eq_getElem _ _ hlt,
      List.getD_eq_getElem _ _ hlt'] at heq
    exact ⟨rfl, (hnodup s hs).getElem_inj_iff.mp heq⟩
  · refine ⟨(own s).length, (hrow s hs).length_le, fun j hj => ⟨fun hlt => ?_, fun hge => ?_⟩⟩
    · exact ((hrow s hs).nonneg_iff (hnonneg s hs) hj).mpr hlt
    · rw [(hrow s hs).eq j hj, List.getD_eq_default _ _ hge]

end TableLaw

/-- A row read as ids, and as any list that spells it, differ by trailing `-1`s. -/
theorem RowIs.eq_append_replicate {row : Row} {n : ℕ} {owned all : List ℤ} (h : RowIs row n owned)
    (howned : ∀ b ∈ owned, 0 ≤ b) (hall : RowIs row n all) :
    ∃ k, all = owned ++ List.replicate k (-1) := by
  have hentry : ∀ j < n, all.getD j (-1) = owned.getD j (-1) := fun j hj => by
    rw [← hall.eq j hj, h.eq j hj]
  have hle : owned.length ≤ all.length := by
    by_contra hlt
    have hj : all.length < owned.length := by omega
    have hbad := hentry all.length (hj.trans_le h.length_le)
    rw [List.getD_eq_default _ _ le_rfl, List.getD_eq_getElem _ _ hj] at hbad
    have := howned _ (List.getElem_mem hj)
    omega
  refine ⟨all.length - owned.length, List.ext_getElem (by simp; omega) fun j hj hj' => ?_⟩
  have hentry := hentry j (hj.trans_le hall.length_le)
  rw [List.getD_eq_getElem _ _ hj] at hentry
  rw [hentry]
  by_cases hlt : j < owned.length
  · rw [List.getD_eq_getElem _ _ hlt, List.getElem_append_left hlt]
  · rw [List.getD_eq_default _ _ (by omega), List.getElem_append_right (by omega),
      List.getElem_replicate]

/-- Trailing `-1`s of a row do not count. -/
theorem RowIs.of_append_replicate {row : Row} {n k : ℕ} {owned : List ℤ}
    (h : RowIs row n (owned ++ List.replicate k (-1))) : RowIs row n owned := by
  refine ⟨?_, fun j hj => ?_⟩
  · have := h.length_le
    rw [List.length_append] at this
    omega
  · rw [h.eq j hj]
    by_cases hlt : j < owned.length
    · rw [List.getD_append _ _ _ _ hlt]
    · rw [List.getD_append_right _ _ _ _ (by omega), List.getD_eq_default owned _ (by omega)]
      by_cases hk : j - owned.length < k
      · rw [List.getD_replicate _ hk]
      · rw [List.getD_eq_default _ _ (by simpa using hk)]

/-- Ids behind non-negative ones, spelt with trailing `-1`s. -/
theorem exists_new_of_append {owned ids all : List ℤ} {k : ℕ} (howned : ∀ b ∈ owned, 0 ≤ b)
    (h : owned ++ ids = all ++ List.replicate k (-1)) :
    ∃ new, all = owned ++ new ∧ ids = new ++ List.replicate k (-1) := by
  rcases List.append_eq_append_iff.mp h with ⟨new, hnew, hids⟩ | ⟨new, hnew, hids⟩
  · exact ⟨new, hnew, hids⟩
  · -- what of `owned` is not in `all` is a `-1`
    have hnil : new = [] := by
      refine List.eq_nil_iff_forall_not_mem.mpr fun b hb => ?_
      have hneg : b = -1 := List.eq_of_mem_replicate (hids ▸ List.mem_append_left ids hb)
      have := howned b (hnew ▸ List.mem_append_right all hb)
      omega
    subst hnil
    exact ⟨[], by simpa using hnew.symm, by simpa using hids.symm⟩

/-- The manager with another row `s` in its table. -/
def withRow (m : BlockManager) (s : ℕ) (row : Row) (revision : ℕ) : BlockManager :=
  { m with table := { m.table with host := Function.update m.table.host s row, revision } }

theorem withRow_host_self (m : BlockManager) (s : ℕ) (row : Row) (revision : ℕ) :
    (m.withRow s row revision).table.host s = row := Function.update_self ..

theorem withRow_host_of_ne (m : BlockManager) {s t : ℕ} (ht : t ≠ s) (row : Row) (revision : ℕ) :
    (m.withRow s row revision).table.host t = m.table.host t := Function.update_of_ne ht ..

namespace TableLaw

variable {m : BlockManager}

/-- Another row keeps the law exactly when it lists distinct blocks in use that no other row lists. -/
theorem withRow_iff (h : TableLaw m) {s : ℕ} (hs : s < m.table.maxNumSeqs) {row : Row} {all : List ℤ}
    (hrow : RowIs row m.table.maxBlocksPerSeq all) (hall : ∀ b ∈ all, 0 ≤ b) (revision : ℕ) :
    TableLaw (m.withRow s row revision) ↔ all.Nodup ∧
      ∀ b ∈ all, (b < m.numBlocks ∧ m.inUse b.toNat = true) ∧
        ∀ t < m.table.maxNumSeqs, t ≠ s → ∀ j < m.table.maxBlocksPerSeq, m.table.host t j ≠ b := by
  constructor
  · intro hafter
    have hrow' : RowIs ((m.withRow s row revision).table.host s) m.table.maxBlocksPerSeq all := by
      rwa [withRow_host_self]
    obtain ⟨hnodup, hin⟩ := hafter.owned_spec (s := s) hs hrow' hall
    refine ⟨hnodup, fun b hb => ⟨(hin b hb).2, ?_⟩⟩
    rintro t ht hts j hj rfl
    obtain ⟨h0, j', hj', heq⟩ := (mem_owned_iff hrow' hall).mp hb
    rw [← m.withRow_host_of_ne hts row revision] at heq h0
    exact hts (hafter.inj t ht j hj s hs j' hj' h0 heq.symm).1
  · rintro ⟨hnodup, hin⟩
    -- the other rows keep their lists
    choose! own hrows using fun t (ht : t < m.table.maxNumSeqs) => h.rowIs ht
    have hcross : ∀ t < m.table.maxNumSeqs, t ≠ s → ∀ b ∈ all, b ∉ own t := by
      intro t ht hts b hb hb'
      obtain ⟨-, j, hj, heq⟩ := (mem_owned_iff (hrows t ht).1 (hrows t ht).2).mp hb'
      exact (hin b hb).2 t ht hts j hj heq
    refine of_lists (Function.update own s all) (fun t ht => ?_) (fun t ht b hb => ?_)
      (fun t ht => ?_) fun t ht t' ht' hne b hb hb' => ?_
    · by_cases hts : t = s
      · subst hts
        rw [Function.update_self, withRow_host_self]
        exact hrow
      · rw [Function.update_of_ne hts, withRow_host_of_ne m hts]
        exact (hrows t ht).1
    · by_cases hts : t = s
      · subst hts
        rw [Function.update_self] at hb
        exact ⟨hall b hb, (hin b hb).1⟩
      · rw [Function.update_of_ne hts] at hb
        exact (h.owned_spec ht (hrows t ht).1 (hrows t ht).2).2 b hb
    · by_cases hts : t = s
      · subst hts
        rwa [Function.update_self]
      · rw [Function.update_of_ne hts]
        exact (h.owned_spec ht (hrows t ht).1 (hrows t ht).2).1
    · by_cases hts : t = s
      · subst hts
        rw [Function.update_self] at hb
        rw [Function.update_of_ne hne.symm] at hb'
        exact hcross t' ht' hne.symm b hb hb'
      · rw [Function.update_of_ne hts] at hb
        by_cases hts' : t' = s
        · subst hts'
          rw [Function.update_self] at hb'
          exact hcross t ht hne b hb' hb
        · rw [Function.update_of_ne hts'] at hb'
          exact h.owned_disjoint ht ht' hne (hrows t ht).1 (hrows t ht).2 (hrows t' ht').1
            (hrows t' ht').2 hb hb'

/-- An append that fits keeps the law exactly when it adds unlisted blocks in use. -/
theorem append_iff (h : TableLaw m) {s : ℕ} (hs : s < m.table.maxNumSeqs) {owned ids : List ℤ}
    (hrow : RowIs (m.table.host s) m.table.maxBlocksPerSeq owned) (howned : ∀ b ∈ owned, 0 ≤ b)
    (hroom : owned.length + ids.length ≤ m.table.maxBlocksPerSeq) (revision : ℕ) :
    TableLaw (m.withRow s (writeRow (m.table.host s) owned.length ids) revision) ↔
      ∃ (new : List ℤ) (k : ℕ), ids = new ++ List.replicate k (-1) ∧ new.Nodup ∧
        ∀ b ∈ new, 0 ≤ b ∧ b < m.numBlocks ∧ m.inUse b.toNat = true ∧ ¬ m.Listed b := by
  have hwritten := hrow.append hroom
  constructor
  · intro hafter
    obtain ⟨all, hall, hnonneg⟩ := hafter.rowIs (s := s) hs
    have hall : RowIs (writeRow (m.table.host s) owned.length ids) m.table.maxBlocksPerSeq all := by
      rwa [withRow_host_self] at hall
    obtain ⟨k, hk⟩ := hall.eq_append_replicate hnonneg hwritten
    obtain ⟨new, rfl, hids⟩ := exists_new_of_append howned hk
    obtain ⟨hnodup, hin⟩ := (h.withRow_iff hs hall hnonneg revision).mp hafter
    obtain ⟨-, hnew, hmeet⟩ := List.nodup_append.mp hnodup
    refine ⟨new, k, hids, hnew, fun b hb => ?_⟩
    have hb' := List.mem_append_right owned hb
    refine ⟨hnonneg b hb', (hin b hb').1.1, (hin b hb').1.2, ?_⟩
    rintro ⟨t, ht, j, hj, rfl⟩
    by_cases hts : t = s
    · subst hts
      exact hmeet _ ((mem_owned_iff hrow howned).mpr ⟨hnonneg _ hb', j, hj, rfl⟩) _ hb rfl
    · exact (hin _ hb').2 t ht hts j hj rfl
  · rintro ⟨new, k, rfl, hnodup, hnew⟩
    have hall : RowIs (writeRow (m.table.host s) owned.length (new ++ List.replicate k (-1)))
        m.table.maxBlocksPerSeq (owned ++ new) :=
      RowIs.of_append_replicate (by rwa [List.append_assoc])
    obtain ⟨hdistinct, hspec⟩ := h.owned_spec hs hrow howned
    refine (h.withRow_iff hs hall ?_ revision).mpr ⟨List.nodup_append.mpr ⟨hdistinct, hnodup, ?_⟩, ?_⟩
    · intro b hb
      exact (List.mem_append.mp hb).elim (howned b) fun hb => (hnew b hb).1
    · rintro b hb _ hb' rfl
      obtain ⟨-, j, hj, heq⟩ := (mem_owned_iff hrow howned).mp hb
      exact (hnew b hb').2.2.2 ⟨s, hs, j, hj, heq⟩
    · intro b hb
      rcases List.mem_append.mp hb with hb | hb
      · refine ⟨(hspec b hb).2, ?_⟩
        rintro t ht hts j hj rfl
        obtain ⟨h0, j', hj', heq⟩ := (mem_owned_iff hrow howned).mp hb
        exact hts (h.inj t ht j hj s hs j' hj' h0 heq.symm).1
      · refine ⟨⟨(hnew b hb).2.1, (hnew b hb).2.2.1⟩, fun t ht _ j hj heq => ?_⟩
        exact (hnew b hb).2.2.2 ⟨t, ht, j, hj, heq⟩

/-- A call keeps the law exactly when it is lawful. -/
theorem step_iff (h : TableLaw m) (call : Call) : TableLaw (m.step call) ↔ m.CallLawful call := by
  cases call with
  | allocate count => exact iff_of_true (h.allocate count) trivial
  | free ids => exact h.free_iff ids
  | resetSeq seqId => exact iff_of_true (h.resetSeq seqId) trivial
  | syncTableToDevice =>
    refine iff_of_true ?_ trivial
    simp only [BlockManager.step, syncTableToDevice]
    split_ifs <;> exact h.congr rfl rfl rfl rfl fun _ _ _ huse => huse
  | appendToTable seqId ids =>
    by_cases hbad : seqId < 0 ∨ seqId ≥ m.table.maxNumSeqs
    · refine iff_of_true ?_ fun h0 hlt => by omega
      rw [BlockManager.step, appendToTable, if_pos hbad]
      exact h
    obtain ⟨s, rfl⟩ : ∃ s : ℕ, seqId = s := ⟨seqId.toNat, by omega⟩
    have hs : s < m.table.maxNumSeqs := by omega
    obtain ⟨owned, hrow, howned⟩ := h.rowIs hs
    have hused := hrow.usedPrefix_eq howned
    by_cases hnil : ids = []
    · refine iff_of_true ?_ fun _ _ _ => ⟨[], 0, by simp [hnil]⟩
      rw [BlockManager.step, appendToTable, if_neg hbad, if_pos hnil]
      exact h
    by_cases hroom : owned.length + ids.length ≤ m.table.maxBlocksPerSeq
    · rw [BlockManager.step, appendToTable_of_room hs hrow howned hnil hroom]
      refine (h.append_iff hs hrow howned hroom _).trans ?_
      simp only [CallLawful, Int.toNat_natCast, hused]
      exact ⟨fun hnew _ _ _ => hnew, fun hnew => hnew (by omega) (by omega) hroom⟩
    · refine iff_of_true ?_ fun _ _ hfits => absurd hfits (by rwa [Int.toNat_natCast, hused])
      simp only [BlockManager.step, appendToTable, Int.toNat_natCast, hused]
      rw [if_neg hbad, if_neg hnil, if_pos (by omega)]
      exact h

theorem create {numBlocks maxNumSeqs maxBlocksPerSeq : ℤ} {deviceAlloc : Bool}
    (h : BlockManager.create numBlocks maxNumSeqs maxBlocksPerSeq deviceAlloc = .ok m) :
    TableLaw m := by
  simp only [BlockManager.create] at h
  split_ifs at h
  obtain rfl := Except.ok.inj h
  refine of_lists (fun _ => []) (fun s _ => ⟨Nat.zero_le _, fun j _ => rfl⟩) ?_ ?_ ?_
  · simp
  · simp
  · simp

end TableLaw

end BlockManager

end SciAttention

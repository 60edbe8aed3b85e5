import SciAttention.Common.Runs
import SciAttention.KvCache.BlockManager
import SciAttention.KvCache.Storage

/-!
# The paged KV cache

Model of `PagedKVCache` (`src/kv_cache/paged_kv_cache.cpp`): storage, block manager, host page table
with its revision-gated device mirror, and the per-sequence lists. `appendTokens` is cut into the
stages of the source, in the source's order, so that each early return keeps the partial update it
keeps there. Revisions and lengths are unbounded.
-/

namespace SciAttention

/-- `sca::PagedKVCache`. The vectors indexed by sequence are functions; only indices below
`max_num_seqs` are used. -/
structure PagedKVCache where
  cfg : ValidConfig
  maxBlocksPerSeq : ℕ
  storage : KVCache
  blocks : BlockManager
  seqLengths : ℕ → ℕ
  seqBlocks : ℕ → List ℤ
  pageTableHost : HostTable
  pageTableDevice : Option HostTable
  slotMappingDevice : Option (ℕ → ℤ) := none
  slotMappingCapacity : ℕ := 0
  revision : ℕ
  syncedRevision : ℕ
  numAppends : ℕ := 0
  numResets : ℕ := 0

/-- What the device answers while a paged cache is created. -/
structure PagedEnv extends StorageEnv where
  blockTableAlloc : Bool
  pageTableAlloc : Bool

/-- What the device answers during `AppendTokens`: the slot buffer's allocation with the contents
it has then, and the launch. -/
structure AppendEnv where
  slotAlloc : Option (ℕ → ℤ)
  launch : LaunchOutcome

/-- What the device answers during `ResetSeq`: the ids its kernels read through the pointer they
are given, and the launch on each layer. -/
structure ResetEnv where
  idsRead : ℕ → ℤ
  launch : ℕ → LaunchOutcome

namespace PagedKVCache

open BlockManager

/-- `PagedKVCache::Create`. -/
def create (cfg : KVCacheConfig) (env : PagedEnv) : Except Status PagedKVCache :=
  if cfg.maxNumSeqs ≤ 0 then
    .error (makeStatus .shapeMismatch
      ("PagedKVCacheConfig invalid: max_num_seqs=" ++ toString cfg.maxNumSeqs))
  else
    match KVCache.create cfg env.toStorageEnv with
    | .error e => .error e
    | .ok storage =>
      let blocksPerSeq := cfg.numBlocks
      match BlockManager.create cfg.numBlocks cfg.maxNumSeqs blocksPerSeq env.blockTableAlloc with
      | .error e => .error e
      | .ok blocks =>
        if env.pageTableAlloc = false then
          .error (makeStatus .kvCapacityExceeded "PagedKVCache: page table allocation failed")
        else
          .ok
            { cfg := storage.cfg
              maxBlocksPerSeq := blocksPerSeq.toNat
              storage := storage
              blocks := blocks
              seqLengths := fun _ => 0
              seqBlocks := fun _ => []
              pageTableHost := emptyTable
              pageTableDevice := some emptyTable
              revision := 1
              syncedRevision := 1 }

/-! ## Appending -/

/-- The argument checks of `AppendTokens`. -/
def checkAppend (c : PagedKVCache) (seqId layer : ℤ) (kNew vNew : Tensor) : Status :=
  if seqId < 0 ∨ seqId ≥ c.cfg.maxNumSeqs then
    makeStatus .shapeMismatch
      ("PagedKVCache::AppendTokens seq_id=" ++ toString seqId ++ " out of range [0," ++
        toString c.cfg.maxNumSeqs ++ ")")
  else if layer < 0 ∨ layer ≥ c.cfg.numLayers then
    makeStatus .shapeMismatch
      ("PagedKVCache::AppendTokens layer=" ++ toString layer ++ " out of range [0," ++
        toString c.cfg.numLayers ++ ")")
  else if kNew.ndims ≠ 3 ∨ vNew.ndims ≠ 3 ∨ kNew.dim 0 ≠ vNew.dim 0 then
    makeStatus .shapeMismatch
      "PagedKVCache::AppendTokens expects [num_tokens, n_kv_heads, head_dim] tensors"
  else if kNew.dim 0 ≤ 0 then
    makeStatus .shapeMismatch "PagedKVCache::AppendTokens: 0 tokens"
  else .ok

/-- `needed_blocks`. -/
def neededBlocks (c : PagedKVCache) (seq numNew : ℕ) : ℕ :=
  (c.seqLengths seq + numNew + c.cfg.blockSize - 1) / c.cfg.blockSize

/-- Give the sequence the blocks `ids`, which `blocks` took from the pool. -/
def attach (c : PagedKVCache) (blocks : BlockManager) (seq : ℕ) (ids : List ℤ) : PagedKVCache :=
  { c with
    blocks := blocks
    seqBlocks := Function.update c.seqBlocks seq (c.seqBlocks seq ++ ids) }

/-- Allocate the missing blocks and attach them to the table and to the owned list; they go back to
the pool when the table row has no room. -/
def reserveBlocks (c : PagedKVCache) (seq numNew : ℕ) : PagedKVCache × Status :=
  let toAllocate : ℤ := c.neededBlocks seq numNew - (c.seqBlocks seq).length
  if toAllocate > 0 then
    match c.blocks.allocate toAllocate with
    | (blocks, .error _) =>
      ({ c with blocks := blocks },
        makeStatus .kvCapacityExceeded
          ("PagedKVCache::AppendTokens seq=" ++ toString seq ++ " needs " ++
            toString toAllocate ++ " more blocks but only " ++ toString blocks.numFreeBlocks ++
            " are free"))
    | (blocks, .ok newBlocks) =>
      let attached := blocks.appendToTable seq newBlocks
      if ¬ attached.2.isOk then
        ({ c with blocks := attached.1.free newBlocks }, attached.2)
      else (c.attach attached.1 seq newBlocks, .ok)
  else (c, .ok)

/-- Refresh the host page table row of a sequence from its owned list. -/
def refreshRow (c : PagedKVCache) (seq : ℕ) : PagedKVCache :=
  { c with
    pageTableHost := Function.update c.pageTableHost seq
      (writeRow (clearRow (c.pageTableHost seq) c.maxBlocksPerSeq) 0 (c.seqBlocks seq)) }

/-- The slots of the next `numNew` tokens of a sequence, from its host page table row. -/
def nextSlots (c : PagedKVCache) (seq numNew : ℕ) : Except Status (List ℤ) :=
  computeSlotMapping (some fun i => c.pageTableHost seq i.toNat) (c.seqLengths seq) numNew
    c.cfg.blockSize c.maxBlocksPerSeq

/-- Grow the slot buffer when it is too small. A failed allocation leaves the old capacity with a
null buffer. -/
def growSlotBuffer (c : PagedKVCache) (numNew : ℕ) (slotAlloc : Option (ℕ → ℤ)) :
    PagedKVCache × Status :=
  if c.slotMappingCapacity < numNew then
    match slotAlloc with
    | none =>
      ({ c with slotMappingDevice := none },
        makeStatus .kvCapacityExceeded "PagedKVCache: slot-mapping buffer allocation failed")
    | some cells =>
      ({ c with slotMappingDevice := some cells, slotMappingCapacity := max numNew 1024 }, .ok)
  else (c, .ok)

/-- Copy the freshly computed slots to the device buffer. -/
def uploadSlots (c : PagedKVCache) (slots : List ℤ) : PagedKVCache :=
  { c with
    slotMappingDevice := c.slotMappingDevice.map fun cells i =>
      if i < slots.length then slots.getD i 0 else cells i }

/-- The rest of `AppendTokens` once the slots are on the device: store the rows, and on success
account for them. -/
def storeTokens (c : PagedKVCache) (seq : ℕ) (layer : ℤ) (kNew vNew : Tensor)
    (launch : LaunchOutcome) : PagedKVCache × Status :=
  let stored := c.storage.append layer kNew vNew c.slotMappingDevice (kNew.dim 0) launch
  let c' := { c with storage := stored.1 }
  -- the blocks are already attached to the sequence; the caller can `ResetSeq` to recover
  if ¬ stored.2.isOk then (c', stored.2)
  else
    ({ c' with
        seqLengths := Function.update c.seqLengths seq (c.seqLengths seq + kNew.dim 0)
        revision := c.revision + 1
        numAppends := c.numAppends + 1 },
      .ok)

/-- `AppendTokens` after the blocks are reserved. -/
def writeTokens (c : PagedKVCache) (seq : ℕ) (layer : ℤ) (kNew vNew : Tensor) (env : AppendEnv) :
    PagedKVCache × Status :=
  let c := c.refreshRow seq
  match c.nextSlots seq (kNew.dim 0) with
  | .error e => (c, e)
  | .ok slots =>
    let grown := c.growSlotBuffer (kNew.dim 0) env.slotAlloc
    if ¬ grown.2.isOk then grown
    else (grown.1.uploadSlots slots).storeTokens seq layer kNew vNew env.launch

/-- `PagedKVCache::AppendTokens`. -/
def appendTokens (c : PagedKVCache) (seqId layer : ℤ) (kNew vNew : Tensor) (env : AppendEnv) :
    PagedKVCache × Status :=
  let checked := c.checkAppend seqId layer kNew vNew
  if ¬ checked.isOk then (c, checked)
  else
    let reserved := c.reserveBlocks seqId.toNat (kNew.dim 0)
    if ¬ reserved.2.isOk then reserved
    else reserved.1.writeTokens seqId.toNat layer kNew vNew env

/-! ## Resetting, synchronising, observing -/

/-- The bookkeeping half of `ResetSeq`, after the data was cleared. -/
def releaseSeq (c : PagedKVCache) (seq : ℕ) : PagedKVCache :=
  { c with
    blocks := (c.blocks.resetSeq seq).1
    seqBlocks := Function.update c.seqBlocks seq []
    seqLengths := Function.update c.seqLengths seq 0
    pageTableHost := Function.update c.pageTableHost seq
      (clearRow (c.pageTableHost seq) c.maxBlocksPerSeq)
    revision := c.revision + 1
    numResets := c.numResets + 1 }

/-- `PagedKVCache::ResetSeq`. -/
def resetSeq (c : PagedKVCache) (seqId : ℤ) (env : ResetEnv) : PagedKVCache × Status :=
  if seqId < 0 ∨ seqId ≥ c.cfg.maxNumSeqs then
    (c, makeStatus .shapeMismatch
      ("PagedKVCache::ResetSeq seq_id=" ++ toString seqId ++ " out of range"))
  else
    let owned := c.seqBlocks seqId.toNat
    let cleared :=
      if owned ≠ [] then c.storage.reset (some env.idsRead) owned.length env.launch
      else (c.storage, .ok)
    let c' := { c with storage := cleared.1 }
    if ¬ cleared.2.isOk then (c', cleared.2) else (c'.releaseSeq seqId.toNat, .ok)

/-- `PagedKVCache::ForceSyncPageTable`. -/
def forceSyncPageTable (c : PagedKVCache) : PagedKVCache × Status :=
  match c.pageTableDevice with
  | none => (c, makeStatus .shapeMismatch "PagedKVCache: page table missing")
  | some _ =>
    ({ c with pageTableDevice := some c.pageTableHost, syncedRevision := c.revision }, .ok)

/-- `PagedKVCache::SyncPageTable`. -/
def syncPageTable (c : PagedKVCache) : PagedKVCache × Status :=
  if c.revision = c.syncedRevision then (c, .ok) else c.forceSyncPageTable

/-- Synchronising changes only the device mirror and its revision. -/
theorem forceSyncPageTable_eq (c : PagedKVCache) : ∃ device synced,
    c.forceSyncPageTable.1 = { c with pageTableDevice := device, syncedRevision := synced } := by
  unfold forceSyncPageTable
  split
  · exact ⟨c.pageTableDevice, c.syncedRevision, rfl⟩
  · exact ⟨_, _, rfl⟩

theorem syncPageTable_eq (c : PagedKVCache) : ∃ device synced,
    c.syncPageTable.1 = { c with pageTableDevice := device, syncedRevision := synced } := by
  unfold syncPageTable
  split_ifs
  · exact ⟨c.pageTableDevice, c.syncedRevision, rfl⟩
  · exact c.forceSyncPageTable_eq

/-- `PagedKVCache::LogicalBlockCount`. -/
def logicalBlockCount (c : PagedKVCache) (seqId : ℤ) : ℕ :=
  if seqId < 0 ∨ seqId ≥ c.cfg.maxNumSeqs then 0 else (c.seqBlocks seqId.toNat).length

/-- `PagedKVCache::SeqLength`. -/
def seqLength (c : PagedKVCache) (seqId : ℤ) : ℕ :=
  if seqId < 0 ∨ seqId ≥ c.cfg.maxNumSeqs then 0 else c.seqLengths seqId.toNat

/-- `PagedKVCache::Stats`. -/
def stats (c : PagedKVCache) : KVCacheStats :=
  { c.storage.stats with
    usedBlocks := (c.blocks.numTotalBlocks : ℤ) - c.blocks.numFreeBlocks
    freeBlocks := c.blocks.numFreeBlocks
    numBlocks := c.blocks.numTotalBlocks
    numAppends := c.numAppends
    numResets := c.numResets }

/-! ## Runs -/

/-- One call on the cache, with what the device answers. -/
inductive Call where
  | appendTokens (seqId layer : ℤ) (kNew vNew : Tensor) (env : AppendEnv)
  | resetSeq (seqId : ℤ) (env : ResetEnv)
  | syncPageTable
  | forceSyncPageTable

/-- The call is about sequence `s`. -/
def touches (s : ℕ) : Call → Bool
  | .appendTokens seqId _ _ _ _ => seqId == s
  | .resetSeq seqId _ => seqId == s
  | .syncPageTable => false
  | .forceSyncPageTable => false

/-- The call appends. -/
def isAppend : Call → Bool
  | .appendTokens _ _ _ _ _ => true
  | _ => false

/-- The state and status after one call. -/
def step (c : PagedKVCache) : Call → PagedKVCache × Status
  | .appendTokens seqId layer kNew vNew env => c.appendTokens seqId layer kNew vNew env
  | .resetSeq seqId env => c.resetSeq seqId env
  | .syncPageTable => c.syncPageTable
  | .forceSyncPageTable => c.forceSyncPageTable

/-- The state after a sequence of calls, whatever they return. -/
def run (c : PagedKVCache) (calls : List Call) : PagedKVCache :=
  calls.foldl (fun c call => (c.step call).1) c

@[simp] theorem run_nil (c : PagedKVCache) : c.run [] = c := rfl

@[simp] theorem run_cons (c : PagedKVCache) (call : Call) (calls : List Call) :
    c.run (call :: calls) = (c.step call).1.run calls := rfl

/-- A property that every call keeps holds along every run. -/
theorem run_induction {P : PagedKVCache → Prop} (hstep : ∀ c call, P c → P (c.step call).1)
    {c : PagedKVCache} (hc : P c) (calls : List Call) : P (c.run calls) := by
  rw [run]
  exact Runs.invariant _ hstep hc calls

/-- Every call of a run meets `P` in the state it is made in. -/
def Along (P : PagedKVCache → Call → Prop) : PagedKVCache → List Call → Prop
  | _, [] => True
  | c, call :: calls => P c call ∧ Along P (c.step call).1 calls

theorem Along.and {P Q : PagedKVCache → Call → Prop} {c : PagedKVCache} {calls : List Call}
    (hP : Along P c calls) (hQ : Along Q c calls) : Along (fun c call => P c call ∧ Q c call) c calls := by
  induction calls generalizing c with
  | nil => trivial
  | cons call calls ih => exact ⟨⟨hP.1, hQ.1⟩, ih hP.2 hQ.2⟩

theorem Along.imp {P Q : PagedKVCache → Call → Prop} {c : PagedKVCache} {calls : List Call}
    (hP : Along P c calls) (himp : ∀ c call, P c call → Q c call) : Along Q c calls := by
  induction calls generalizing c with
  | nil => trivial
  | cons call calls ih => exact ⟨himp c call hP.1, ih hP.2⟩

end PagedKVCache

end SciAttention

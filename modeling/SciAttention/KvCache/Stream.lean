import SciAttention.Common.Runs
import SciAttention.KvCache.Capacity

/-!
# Appends on an asynchronous stream

`AppendTokens` copies its slots to `slot_mapping_device_` while it is called and puts the append kernel on a
stream, which runs it later. `StreamState` is the host's cache with the kernels that are still queued: a
kernel reads the slot buffer when it runs, and all calls share that one buffer. `hostAppend` is the call and
`execute` the stream running its next kernel; a schedule is any interleaving of the two.
-/

namespace SciAttention

namespace PagedKVCache

/-! ## Two parties -/

/-- A queued `kv_append_kernel`. `own` is the mapping that its call computed; the kernel itself only has the
address of the buffer, whose memory holds `freed` once the buffer was given back. -/
structure AppendKernel where
  layer : ℕ
  kNew : Bytes
  vNew : Bytes
  numTokens : ℕ
  own : ℕ → ℤ
  freed : Option (ℕ → ℤ) := none

/-- What the device answers during `AppendTokens`: the slot buffer's allocation, what a released buffer shows
from then on, and the error of the launch, which then puts nothing on the stream. -/
structure StreamEnv where
  slotAlloc : Option (ℕ → ℤ)
  freed : ℕ → ℤ
  launchError : Option (Bool × String)

/-- The same answers for a device that runs kernels at once. -/
def StreamEnv.toAppendEnv (env : StreamEnv) : AppendEnv :=
  { slotAlloc := env.slotAlloc
    launch := match env.launchError with
      | none => .ok
      | some (outOfMemory, message) => .failed outOfMemory message 0 }

/-- The cache, with the bytes that its layers hold now, and the kernels that did not run yet. -/
structure StreamState where
  cache : PagedKVCache
  queue : List AppendKernel := []

/-- The cache with other bytes in its layers. -/
def withLayers (c : PagedKVCache) (k v : ℕ → Bytes) : PagedKVCache :=
  { c with storage := { c.storage with kLayers := k, vLayers := v } }

/-- The slots that a call computes. -/
def ownSlots (c : PagedKVCache) (seqId : ℤ) (numNew : ℕ) : Except Status (List ℤ) :=
  ((c.reserveBlocks seqId.toNat numNew).1.refreshRow seqId.toNat).nextSlots seqId.toNat numNew

/-- The call gets as far as the slot buffer. -/
def ReachesBuffer (c : PagedKVCache) (seqId layer : ℤ) (kNew vNew : Tensor) : Prop :=
  (c.checkAppend seqId layer kNew vNew).isOk ∧ (c.reserveBlocks seqId.toNat (kNew.dim 0)).2.isOk

instance (c : PagedKVCache) (seqId layer : ℤ) (kNew vNew : Tensor) :
    Decidable (c.ReachesBuffer seqId layer kNew vNew) := by
  unfold ReachesBuffer
  infer_instance

/-- The buffer of a kernel is given back to the device. -/
def AppendKernel.release (freed : ℕ → ℤ) (kernel : AppendKernel) : AppendKernel :=
  { kernel with freed := some (kernel.freed.getD freed) }

/-- The slots that a kernel reads when it runs now. -/
def AppendKernel.reads (c : PagedKVCache) (kernel : AppendKernel) : ℕ → ℤ :=
  kernel.freed.getD (c.slotMappingDevice.getD fun _ => 0)

/-- Run a kernel over a mapping. -/
def AppendKernel.run (kernel : AppendKernel) (slots : ℕ → ℤ) (storage : KVCache) : KVCache :=
  let writes src :=
    kvAppendWrites storage.cfg.toDeviceShape storage.cfg.elemBytes src slots kernel.numTokens
  storage.storeLayer kernel.layer (writes kernel.kNew) (writes kernel.vNew)

/-- The kernel that a call puts on the stream. -/
def queuedKernel (c : PagedKVCache) (seqId layer : ℤ) (kNew vNew : Tensor) : AppendKernel :=
  { layer := layer.toNat
    kNew := kNew.data.getD fun _ => 0
    vNew := vNew.data.getD fun _ => 0
    numTokens := kNew.dim 0
    own := fun i => ((c.ownSlots seqId (kNew.dim 0)).toOption.getD []).getD i 0 }

/-- The queue once the call is through with the slot buffer: a buffer that is too small is given back, also
when the larger one cannot be had. -/
def StreamState.released (s : StreamState) (seqId layer : ℤ) (kNew vNew : Tensor) (freed : ℕ → ℤ) :
    List AppendKernel :=
  if s.cache.ReachesBuffer seqId layer kNew vNew ∧ s.cache.slotMappingCapacity < kNew.dim 0 then
    s.queue.map (AppendKernel.release freed)
  else s.queue

/-- `AppendTokens` on a stream: all of it happens but the kernel, which is queued. -/
def StreamState.hostAppend (s : StreamState) (seqId layer : ℤ) (kNew vNew : Tensor) (env : StreamEnv) :
    StreamState × Status :=
  let c := s.cache
  let r := c.appendTokens seqId layer kNew vNew env.toAppendEnv
  let queue := s.released seqId layer kNew vNew env.freed
  let cache := r.1.withLayers c.storage.kLayers c.storage.vLayers
  if ¬ r.2.isOk then (⟨cache, queue⟩, r.2)
  else (⟨cache, queue ++ [c.queuedKernel seqId layer kNew vNew]⟩, .ok)

/-- The stream runs its next kernel. -/
def StreamState.execute (s : StreamState) : StreamState :=
  match s.queue with
  | [] => s
  | kernel :: queue =>
    { cache := { s.cache with storage := kernel.run (kernel.reads s.cache) s.cache.storage }
      queue := queue }

/-- One step of a schedule. -/
inductive StreamAction where
  | append (seqId layer : ℤ) (kNew vNew : Tensor) (env : StreamEnv)
  | execute

/-- The state after one step. -/
def StreamState.step (s : StreamState) : StreamAction → StreamState
  | .append seqId layer kNew vNew env => (s.hostAppend seqId layer kNew vNew env).1
  | .execute => s.execute

/-- The state after a schedule. -/
def StreamState.run (s : StreamState) (actions : List StreamAction) : StreamState :=
  actions.foldl StreamState.step s

/-- The state once the stream has run all its kernels. -/
def StreamState.drain (s : StreamState) : StreamState :=
  StreamState.execute^[s.queue.length] s

/-- The calls of a schedule, for a device that runs kernels at once. -/
def hostCalls : List StreamAction → List Call
  | [] => []
  | .append seqId layer kNew vNew env :: actions =>
    .appendTokens seqId layer kNew vNew env.toAppendEnv :: hostCalls actions
  | .execute :: actions => hostCalls actions

/-! ## The host does not look at the layers -/

/-- What `KVCache::Append` does besides storing does not depend on the bytes of the layers. -/
theorem append_withLayers (c : KVCache) (k v : ℕ → Bytes) (layer : ℤ) (kNew vNew : Tensor)
    (slots : Option (ℕ → ℤ)) (numTokens : ℤ) (launch : LaunchOutcome) :
    ∃ k' v', ({ c with kLayers := k, vLayers := v } : KVCache).append layer kNew vNew slots numTokens
        launch =
      ({ (c.append layer kNew vNew slots numTokens launch).1 with kLayers := k', vLayers := v' },
        (c.append layer kNew vNew slots numTokens launch).2) := by
  simp only [KVCache.append]
  split_ifs
  · exact ⟨k, v, rfl⟩
  · exact ⟨k, v, rfl⟩
  · exact ⟨k, v, rfl⟩
  · cases slots with
    | none => exact ⟨k, v, rfl⟩
    | some slots =>
      simp only [KVCache.launchKvAppend]
      cases kNew.data with
      | none => exact ⟨k, v, rfl⟩
      | some kData =>
        cases vNew.data with
        | none => exact ⟨k, v, rfl⟩
        | some vData =>
          by_cases hn : numTokens ≤ 0
          · simp only [if_pos hn]
            exact ⟨k, v, rfl⟩
          · simp only [if_neg hn]
            by_cases hok : launch.status.isOk
            · simp only [not_true_eq_false, hok, if_false]
              exact ⟨_, _, rfl⟩
            · simp only [hok, not_false_eq_true, if_true]
              exact ⟨_, _, rfl⟩

theorem reserveBlocks_withLayers (c : PagedKVCache) (k v : ℕ → Bytes) (s n : ℕ) :
    (c.withLayers k v).reserveBlocks s n =
      ((c.reserveBlocks s n).1.withLayers k v, (c.reserveBlocks s n).2) := by
  have hneeded : (c.withLayers k v).neededBlocks s n = c.neededBlocks s n := rfl
  have hblocks : (c.withLayers k v).blocks = c.blocks := rfl
  have howned : (c.withLayers k v).seqBlocks = c.seqBlocks := rfl
  simp only [reserveBlocks, hneeded, hblocks, howned]
  by_cases hto : (c.neededBlocks s n : ℤ) - (c.seqBlocks s).length > 0
  · simp only [if_pos hto]
    cases c.blocks.allocate (c.neededBlocks s n - (c.seqBlocks s).length) with
    | mk blocks result =>
      cases result with
      | error e => rfl
      | ok ids =>
        by_cases hok : (blocks.appendToTable s ids).2.isOk
        · simp only [hok, not_true_eq_false, if_false]
          rfl
        · simp only [hok, not_false_eq_true, if_true]
          rfl
  · simp only [if_neg hto]

theorem growSlotBuffer_withLayers (c : PagedKVCache) (k v : ℕ → Bytes) (n : ℕ)
    (slotAlloc : Option (ℕ → ℤ)) :
    (c.withLayers k v).growSlotBuffer n slotAlloc =
      ((c.growSlotBuffer n slotAlloc).1.withLayers k v, (c.growSlotBuffer n slotAlloc).2) :=
  growSlotBuffer_map (·.withLayers k v) rfl (fun _ _ => rfl) n slotAlloc

theorem storeTokens_withLayers (c : PagedKVCache) (k v : ℕ → Bytes) (s : ℕ) (layer : ℤ)
    (kNew vNew : Tensor) (launch : LaunchOutcome) :
    ∃ k' v', (c.withLayers k v).storeTokens s layer kNew vNew launch =
      ((c.storeTokens s layer kNew vNew launch).1.withLayers k' v',
        (c.storeTokens s layer kNew vNew launch).2) := by
  obtain ⟨k', v', hstore⟩ := append_withLayers c.storage k v layer kNew vNew c.slotMappingDevice
    (kNew.dim 0) launch
  refine ⟨k', v', ?_⟩
  simp only [storeTokens, withLayers, hstore]
  by_cases hok : (c.storage.append layer kNew vNew c.slotMappingDevice (kNew.dim 0) launch).2.isOk
  · simp only [hok, not_true_eq_false, if_false]
  · simp only [hok, not_false_eq_true, if_true]

theorem writeTokens_withLayers (c : PagedKVCache) (k v : ℕ → Bytes) (s : ℕ) (layer : ℤ)
    (kNew vNew : Tensor) (env : AppendEnv) :
    ∃ k' v', (c.withLayers k v).writeTokens s layer kNew vNew env =
      ((c.writeTokens s layer kNew vNew env).1.withLayers k' v',
        (c.writeTokens s layer kNew vNew env).2) := by
  have hrow : (c.withLayers k v).refreshRow s = (c.refreshRow s).withLayers k v := rfl
  have hslots : ((c.refreshRow s).withLayers k v).nextSlots s (kNew.dim 0) =
      (c.refreshRow s).nextSlots s (kNew.dim 0) := rfl
  have hupload (c' : PagedKVCache) (slots : List ℤ) :
      (c'.withLayers k v).uploadSlots slots = (c'.uploadSlots slots).withLayers k v := rfl
  simp only [writeTokens, hrow, hslots, growSlotBuffer_withLayers, hupload]
  cases (c.refreshRow s).nextSlots s (kNew.dim 0) with
  | error e => exact ⟨k, v, rfl⟩
  | ok slots =>
    by_cases hok : ((c.refreshRow s).growSlotBuffer (kNew.dim 0) env.slotAlloc).2.isOk
    · simp only [hok, not_true_eq_false, if_false]
      exact storeTokens_withLayers _ k v s layer kNew vNew env.launch
    · simp only [hok, not_false_eq_true, if_true]
      exact ⟨k, v, rfl⟩

/-- Neither the status nor any record of the host depends on what the layers hold. -/
theorem appendTokens_withLayers (c : PagedKVCache) (k v : ℕ → Bytes) (seqId layer : ℤ)
    (kNew vNew : Tensor) (env : AppendEnv) :
    ∃ k' v', (c.withLayers k v).appendTokens seqId layer kNew vNew env =
      ((c.appendTokens seqId layer kNew vNew env).1.withLayers k' v',
        (c.appendTokens seqId layer kNew vNew env).2) := by
  have hcheck : (c.withLayers k v).checkAppend seqId layer kNew vNew =
      c.checkAppend seqId layer kNew vNew := rfl
  simp only [appendTokens, hcheck, reserveBlocks_withLayers]
  by_cases hok : (c.checkAppend seqId layer kNew vNew).isOk
  · simp only [hok, not_true_eq_false, if_false]
    by_cases hres : (c.reserveBlocks seqId.toNat (kNew.dim 0)).2.isOk
    · simp only [hres, not_true_eq_false, if_false]
      exact writeTokens_withLayers _ k v seqId.toNat layer kNew vNew env
    · simp only [hres, not_false_eq_true, if_true]
      exact ⟨k, v, rfl⟩
  · simp only [hok, not_false_eq_true, if_true]
    exact ⟨k, v, rfl⟩

/-! ## What a call stores -/

/-- Two storages with the same configuration and the same bytes. -/
structure SameBytes (a b : KVCache) : Prop where
  cfg : a.cfg = b.cfg
  side : ∀ isKey, a.side isKey = b.side isKey

theorem AppendKernel.run_side (kernel : AppendKernel) (slots : ℕ → ℤ) (storage : KVCache) (isKey : Bool)
    (l : ℕ) :
    (kernel.run slots storage).side isKey l =
      if l = kernel.layer then
        Scatter.apply (storage.side isKey l) (kvAppendWrites storage.cfg.toDeviceShape
          storage.cfg.elemBytes (if isKey then kernel.kNew else kernel.vNew) slots kernel.numTokens)
      else storage.side isKey l := by
  split_ifs with hl hkey
  · subst hl hkey
    exact KVCache.storeLayer_side_self _ _ _ _ _
  · subst hl
    rw [Bool.not_eq_true] at hkey
    subst hkey
    exact KVCache.storeLayer_side_self _ _ _ _ _
  · exact KVCache.storeLayer_side_of_ne _ hl _ _ _

theorem SameBytes.run {a b : KVCache} (h : SameBytes a b) (kernel : AppendKernel) {slots slots' : ℕ → ℤ}
    (hslots : ∀ t < kernel.numTokens, slots t = slots' t) :
    SameBytes (kernel.run slots a) (kernel.run slots' b) := by
  refine ⟨h.cfg, fun isKey => ?_⟩
  funext l
  rw [kernel.run_side, kernel.run_side, h.cfg, h.side, kvAppendWrites_congr hslots]

theorem SameBytes.refl (a : KVCache) : SameBytes a a := ⟨rfl, fun _ => rfl⟩

/-- A launch that fails puts nothing on the stream. -/
theorem StreamEnv.executed_eq_nil {env : StreamEnv} (h : ¬ env.toAppendEnv.launch.status.isOk) {α : Type}
    (ws : List α) : env.toAppendEnv.launch.executed ws = [] := by
  obtain ⟨slotAlloc, freed, _ | ⟨outOfMemory, message⟩⟩ := env
  · exact absurd Status.isOk_ok h
  · rfl

/-- A failed `KVCache::Append` stores nothing. -/
theorem append_sameBytes_of_not_isOk (c : KVCache) (layer : ℤ) (kNew vNew : Tensor)
    (slots : Option (ℕ → ℤ)) (numTokens : ℤ) (env : StreamEnv)
    (hbad : ¬ (c.append layer kNew vNew slots numTokens env.toAppendEnv.launch).2.isOk) :
    SameBytes (c.append layer kNew vNew slots numTokens env.toAppendEnv.launch).1 c := by
  obtain ⟨e, -, heq⟩ | ⟨k, v, cells, -, -, -, -, -, -, c', ⟨hcfg, hside⟩, heq⟩ :=
    c.append_cases layer kNew vNew slots numTokens env.toAppendEnv.launch
  · rw [heq]
    exact .refl c
  · rw [heq] at hbad ⊢
    refine ⟨hcfg, fun isKey => ?_⟩
    funext l
    rw [hside, StreamEnv.executed_eq_nil hbad, StreamEnv.executed_eq_nil hbad]
    by_cases hl : l = layer.toNat
    · rw [hl, KVCache.storeLayer_side_self, ite_self]
      rfl
    · exact KVCache.storeLayer_side_of_ne _ hl _ _ _

/-- A `KVCache::Append` that succeeds runs the kernel. -/
theorem append_sameBytes_of_isOk {c : KVCache} {layer : ℤ} {kNew vNew : Tensor} {cells : ℕ → ℤ}
    {launch : LaunchOutcome} {kernel : AppendKernel}
    (hok : (c.append layer kNew vNew (some cells) (kNew.dim 0) launch).2.isOk)
    (hlayer : kernel.layer = layer.toNat) (hk : kernel.kNew = kNew.data.getD fun _ => 0)
    (hv : kernel.vNew = vNew.data.getD fun _ => 0) (hn : kernel.numTokens = kNew.dim 0)
    (hcells : ∀ t < kNew.dim 0, cells t = kernel.own t) :
    SameBytes (c.append layer kNew vNew (some cells) (kNew.dim 0) launch).1
      (kernel.run kernel.own c) := by
  obtain ⟨k, v, hkNew, hvNew, -, -, -, hside⟩ := KVCache.append_ok hok
  refine ⟨KVCache.append_cfg _ _ _ _ _ _ _, fun isKey => ?_⟩
  funext l
  rw [hside, kernel.run_side, hlayer, hk, hv, hn, hkNew, hvNew, Int.toNat_natCast,
    kvAppendWrites_congr hcells]
  rfl

section Effect

variable (c : PagedKVCache) (seqId layer : ℤ) (kNew vNew : Tensor) (env : StreamEnv)

/-- A call that does not get to the slot buffer changes neither it nor the storage. -/
theorem appendTokens_of_not_reaches (h : ¬ c.ReachesBuffer seqId layer kNew vNew) (env : AppendEnv) :
    ¬ (c.appendTokens seqId layer kNew vNew env).2.isOk ∧
      (c.appendTokens seqId layer kNew vNew env).1.storage = c.storage ∧
      (c.appendTokens seqId layer kNew vNew env).1.slotMappingDevice = c.slotMappingDevice := by
  obtain ⟨blocks, owned, hreserved⟩ := c.reserveBlocks_eq seqId.toNat (kNew.dim 0)
  simp only [appendTokens]
  by_cases hcheck : (c.checkAppend seqId layer kNew vNew).isOk
  · have hres : ¬ (c.reserveBlocks seqId.toNat (kNew.dim 0)).2.isOk := fun hres => h ⟨hcheck, hres⟩
    rw [if_neg (not_not.2 hcheck), if_pos hres, hreserved]
    exact ⟨hres, rfl, rfl⟩
  · rw [if_pos hcheck]
    exact ⟨hcheck, rfl, rfl⟩

/-- A call that gets to the slot buffer goes on with the reserved blocks. -/
theorem appendTokens_of_reaches (h : c.ReachesBuffer seqId layer kNew vNew) (env : AppendEnv) :
    c.appendTokens seqId layer kNew vNew env =
      (c.reserveBlocks seqId.toNat (kNew.dim 0)).1.writeTokens seqId.toNat layer kNew vNew env := by
  simp only [appendTokens]
  rw [if_neg (not_not.2 h.1), if_neg (not_not.2 h.2)]

/-- A call on a device that runs kernels at once: nothing is stored when it fails, and its kernel has run over
its own slots, which are in the buffer, when it succeeds. -/
theorem appendTokens_effect :
    let r := c.appendTokens seqId layer kNew vNew env.toAppendEnv
    let kernel := c.queuedKernel seqId layer kNew vNew
    (¬ r.2.isOk ∧ SameBytes r.1.storage c.storage) ∨
      (r.2.isOk ∧ SameBytes r.1.storage (kernel.run kernel.own c.storage) ∧
        ∀ t < kernel.numTokens, (r.1.slotMappingDevice.getD fun _ => 0) t = kernel.own t) := by
  intro r kernel
  by_cases hreach : c.ReachesBuffer seqId layer kNew vNew
  swap
  · obtain ⟨hbad, hstorage, -⟩ :=
      c.appendTokens_of_not_reaches seqId layer kNew vNew hreach env.toAppendEnv
    exact .inl ⟨hbad, hstorage ▸ .refl _⟩
  have hr : r = _ := c.appendTokens_of_reaches seqId layer kNew vNew hreach env.toAppendEnv
  obtain ⟨blocks, owned, hreserved⟩ := c.reserveBlocks_eq seqId.toNat (kNew.dim 0)
  -- reserving and refreshing leave the storage alone
  have hstorage : ((c.reserveBlocks seqId.toNat (kNew.dim 0)).1.refreshRow seqId.toNat).storage =
      c.storage := by
    rw [hreserved]
    rfl
  obtain ⟨e, st, dev, capacity, hbad, -, hfailed, heq⟩ |
    ⟨slots, cells, capacity, hslots, hcells, hok, heq⟩ :=
    (c.reserveBlocks seqId.toNat (kNew.dim 0)).1.writeTokens_cases seqId.toNat layer kNew vNew
      env.toAppendEnv
  · rw [hr, heq]
    refine .inl ⟨hbad, ?_⟩
    rw [← hstorage]
    rcases hfailed with rfl | ⟨-, cells, -, -, hbad', rfl⟩
    · exact .refl _
    · exact append_sameBytes_of_not_isOk _ _ _ _ _ _ _ hbad'
  · have hown (t : ℕ) : kernel.own t = slots.getD t 0 := by
      simp only [kernel, queuedKernel, ownSlots, hslots]
      rfl
    rw [hr, heq]
    refine .inr ⟨Status.isOk_ok, ?_, fun t ht => (hcells t ht).trans (hown t).symm⟩
    change (((c.reserveBlocks seqId.toNat (kNew.dim 0)).1.refreshRow seqId.toNat).storage.append _ _ _ _ _
      _).2.isOk at hok
    change SameBytes (((c.reserveBlocks seqId.toNat (kNew.dim 0)).1.refreshRow seqId.toNat).storage.append _
      _ _ _ _ _).1 _
    rw [hstorage] at hok ⊢
    exact append_sameBytes_of_isOk hok rfl rfl rfl rfl fun t ht => (hcells t ht).trans (hown t).symm

end Effect

/-! ## Schedules -/

/-- The storage once every queued kernel has run over its own mapping. -/
def StreamState.settled (s : StreamState) : KVCache :=
  s.queue.foldl (fun storage kernel => kernel.run kernel.own storage) s.cache.storage

/-- The state of a stream beside the cache of a device that runs kernels at once. -/
structure Simulates (s : StreamState) (c : PagedKVCache) : Prop where
  host : ∃ k v, s.cache = c.withLayers k v
  storage : SameBytes s.settled c.storage

/-- Every queued kernel would read the mapping of its own call. -/
def ReadsOwn (s : StreamState) : Prop :=
  ∀ kernel ∈ s.queue, ∀ t < kernel.numTokens, kernel.reads s.cache t = kernel.own t

/-- A call that gets to the slot buffer finds the stream empty. -/
def UploadsAlone (s : StreamState) : StreamAction → Prop
  | .append seqId layer kNew vNew _ => s.cache.ReachesBuffer seqId layer kNew vNew → s.queue = []
  | .execute => True

theorem SameBytes.symm {a b : KVCache} (h : SameBytes a b) : SameBytes b a :=
  ⟨h.cfg.symm, fun isKey => (h.side isKey).symm⟩

theorem SameBytes.trans {a b d : KVCache} (h : SameBytes a b) (h' : SameBytes b d) : SameBytes a d :=
  ⟨h.cfg.trans h'.cfg, fun isKey => (h.side isKey).trans (h'.side isKey)⟩

/-- Queued kernels run alike on storages with the same bytes. -/
theorem SameBytes.foldl {a b : KVCache} (h : SameBytes a b) (queue : List AppendKernel) :
    SameBytes (queue.foldl (fun storage kernel => kernel.run kernel.own storage) a)
      (queue.foldl (fun storage kernel => kernel.run kernel.own storage) b) := by
  induction queue generalizing a b with
  | nil => exact h
  | cons kernel queue ih => exact ih (h.run kernel fun _ _ => rfl)

/-- Giving a buffer back does not change what its kernels should read. -/
theorem foldl_released (s : StreamState) (seqId layer : ℤ) (kNew vNew : Tensor) (freed : ℕ → ℤ)
    (storage : KVCache) :
    (s.released seqId layer kNew vNew freed).foldl
        (fun storage kernel => kernel.run kernel.own storage) storage =
      s.queue.foldl (fun storage kernel => kernel.run kernel.own storage) storage := by
  unfold StreamState.released
  split_ifs
  · rw [List.foldl_map]
    rfl
  · rfl

theorem queuedKernel_withLayers (c : PagedKVCache) (k v : ℕ → Bytes) (seqId layer : ℤ)
    (kNew vNew : Tensor) :
    (c.withLayers k v).queuedKernel seqId layer kNew vNew = c.queuedKernel seqId layer kNew vNew := by
  have hown : (c.withLayers k v).ownSlots seqId (kNew.dim 0) = c.ownSlots seqId (kNew.dim 0) := by
    simp only [ownSlots, reserveBlocks_withLayers]
    rfl
  simp only [queuedKernel, hown]

/-- A call keeps the two sides in step. -/
theorem Simulates.append {s : StreamState} {c : PagedKVCache} (h : Simulates s c) (seqId layer : ℤ)
    (kNew vNew : Tensor) (env : StreamEnv) :
    Simulates (s.hostAppend seqId layer kNew vNew env).1
      (c.appendTokens seqId layer kNew vNew env.toAppendEnv).1 := by
  obtain ⟨cache, queue⟩ := s
  obtain ⟨⟨k, v, rfl⟩, hstorage⟩ := h
  obtain ⟨k', v', happend⟩ := appendTokens_withLayers c k v seqId layer kNew vNew env.toAppendEnv
  simp only [StreamState.hostAppend, happend, queuedKernel_withLayers]
  set r := c.appendTokens seqId layer kNew vNew env.toAppendEnv
  set kernel := c.queuedKernel seqId layer kNew vNew
  -- the device's layers are those from before the call
  have hbytes (hcfg : r.1.storage.cfg = c.storage.cfg) :
      SameBytes (r.1.withLayers k v).storage (c.withLayers k v).storage := ⟨hcfg, fun isKey => rfl⟩
  obtain ⟨hbad, hsame⟩ | ⟨hok, hsame, -⟩ := c.appendTokens_effect seqId layer kNew vNew env
  · rw [if_pos hbad]
    refine ⟨⟨k, v, rfl⟩, ?_⟩
    rw [StreamState.settled, foldl_released]
    exact (((hbytes hsame.cfg).foldl queue).trans hstorage).trans hsame.symm
  · rw [if_neg (not_not.2 hok)]
    refine ⟨⟨k, v, rfl⟩, ?_⟩
    rw [StreamState.settled, List.foldl_append, foldl_released]
    exact (((hbytes hsame.cfg).foldl queue).trans hstorage).run kernel (fun _ _ => rfl) |>.trans hsame.symm

/-- A kernel that reads its own mapping does what the call's kernel did at once. -/
theorem Simulates.execute {s : StreamState} {c : PagedKVCache} (h : Simulates s c) (hown : ReadsOwn s) :
    Simulates s.execute c := by
  obtain ⟨cache, _ | ⟨kernel, queue⟩⟩ := s
  · exact h
  · obtain ⟨⟨k, v, rfl⟩, hstorage⟩ := h
    refine ⟨⟨_, _, rfl⟩, SameBytes.trans ?_ hstorage⟩
    exact SameBytes.foldl ((SameBytes.refl _).run kernel (hown kernel List.mem_cons_self)) queue

/-- Calls that find the stream empty leave every kernel with its own mapping. -/
theorem ReadsOwn.append {s : StreamState} (h : ReadsOwn s) {seqId layer : ℤ} {kNew vNew : Tensor}
    {env : StreamEnv} (halone : UploadsAlone s (.append seqId layer kNew vNew env)) :
    ReadsOwn (s.hostAppend seqId layer kNew vNew env).1 := by
  by_cases hreach : s.cache.ReachesBuffer seqId layer kNew vNew
  · have hempty : s.released seqId layer kNew vNew env.freed = [] := by
      rw [StreamState.released, halone hreach, List.map_nil, ite_self]
    simp only [StreamState.hostAppend, hempty, List.nil_append]
    obtain ⟨hbad, -⟩ | ⟨hok, -, hbuffer⟩ := s.cache.appendTokens_effect seqId layer kNew vNew env
    · rw [if_pos hbad]
      exact fun kernel hmem => absurd hmem List.not_mem_nil
    · rw [if_neg (not_not.2 hok)]
      intro kernel hmem
      obtain rfl := List.mem_singleton.1 hmem
      exact hbuffer
  · obtain ⟨hbad, -, hdevice⟩ :=
      s.cache.appendTokens_of_not_reaches seqId layer kNew vNew hreach env.toAppendEnv
    have hqueue : s.released seqId layer kNew vNew env.freed = s.queue := if_neg fun hboth => hreach hboth.1
    simp only [StreamState.hostAppend, hqueue]
    rw [if_pos hbad]
    intro kernel hmem t ht
    rw [← h kernel hmem t ht]
    simp only [AppendKernel.reads, withLayers, hdevice]

theorem ReadsOwn.execute {s : StreamState} (h : ReadsOwn s) : ReadsOwn s.execute := by
  obtain ⟨cache, _ | ⟨kernel, queue⟩⟩ := s
  · exact h
  · exact fun kernel' hmem => h kernel' (List.mem_cons_of_mem kernel hmem)

/-- Once all kernels have run, the storage is settled. -/
theorem ReadsOwn.drain {s : StreamState} (h : ReadsOwn s) :
    SameBytes s.drain.cache.storage s.settled := by
  obtain ⟨cache, queue⟩ := s
  induction queue generalizing cache with
  | nil => exact .refl _
  | cons kernel queue ih =>
    have hdrain : StreamState.drain ⟨cache, kernel :: queue⟩ =
        StreamState.drain (StreamState.execute ⟨cache, kernel :: queue⟩) := rfl
    rw [hdrain]
    refine (ih _ h.execute).trans ?_
    exact SameBytes.foldl ((SameBytes.refl _).run kernel (h kernel List.mem_cons_self)) queue

/-- No append of a schedule is lost: each kernel that runs reads the mapping of its own call, and once the
stream has run everything the layers hold what they would hold had each kernel run in its call. -/
structure NothingLost (c : PagedKVCache) (actions : List StreamAction) : Prop where
  own : ∀ pre, pre ++ [.execute] <+: actions → ∀ kernel queue,
    (StreamState.run ⟨c, []⟩ pre).queue = kernel :: queue →
    ∀ t < kernel.numTokens, kernel.reads (StreamState.run ⟨c, []⟩ pre).cache t = kernel.own t
  drained : ∀ isKey, (StreamState.run ⟨c, []⟩ actions).drain.cache.storage.side isKey =
    (c.run (hostCalls actions)).storage.side isKey

theorem hostCalls_append (actions actions' : List StreamAction) :
    hostCalls (actions ++ actions') = hostCalls actions ++ hostCalls actions' := by
  induction actions with
  | nil => rfl
  | cons action actions ih =>
    cases action with
    | append seqId layer kNew vNew env =>
      rw [List.cons_append, hostCalls, hostCalls, ih, List.cons_append]
    | execute =>
      rw [List.cons_append, hostCalls, hostCalls, ih]

/-- Along a schedule whose uploads find the stream empty, both sides stay in step. -/
theorem simulates_run (c : PagedKVCache) (actions : List StreamAction)
    (halone : ∀ pre action, pre ++ [action] <+: actions →
      UploadsAlone (StreamState.run ⟨c, []⟩ pre) action) :
    ReadsOwn (StreamState.run ⟨c, []⟩ actions) ∧
      Simulates (StreamState.run ⟨c, []⟩ actions) (c.run (hostCalls actions)) := by
  induction actions using List.reverseRecOn with
  | nil =>
    exact ⟨fun kernel hmem => absurd hmem List.not_mem_nil, ⟨⟨_, _, rfl⟩, .refl _⟩⟩
  | append_singleton pre action ih =>
    obtain ⟨hown, hsim⟩ := ih fun pre' action' h => halone pre' action' (h.trans (List.prefix_append _ _))
    have halone := halone pre action (List.prefix_refl _)
    rw [StreamState.run, List.foldl_append, List.foldl_cons, List.foldl_nil, hostCalls_append,
      PagedKVCache.run, List.foldl_append]
    cases action with
    | append seqId layer kNew vNew env =>
      exact ⟨hown.append halone, hsim.append seqId layer kNew vNew env⟩
    | execute => exact ⟨hown.execute, hsim.execute hown⟩

/-- In every state of a schedule in which each call that gets to the slot buffer finds the stream empty, no
append was lost. -/
theorem nothingLost_run (c : PagedKVCache) (actions : List StreamAction)
    (halone : ∀ pre action, pre ++ [action] <+: actions →
      UploadsAlone (StreamState.run ⟨c, []⟩ pre) action) :
    ∀ pre, pre <+: actions → NothingLost c pre := by
  intro pre hpre
  have hruns {pre' : List StreamAction} (h : pre' <+: actions) :=
    simulates_run c pre' fun pre'' action h' => halone pre'' action (h'.trans h)
  constructor
  · intro pre' hexecute kernel queue hqueue
    have hown := (hruns (((List.prefix_append pre' _).trans hexecute).trans hpre)).1
    exact hown kernel (hqueue ▸ List.mem_cons_self)
  · intro isKey
    obtain ⟨hown, hsim⟩ := hruns hpre
    exact (hown.drain.trans hsim.storage).side isKey

/-- A device that allocates the slot buffer and launches. -/
def streamOk : StreamEnv := ⟨some fun _ => -1, fun _ => -1, none⟩

theorem nothingLost_alternating : ∃ c, PagedKVCache.create (tinyConfig 1 1 2) zeroEnv = .ok c ∧
    NothingLost c [.append 0 0 (tokenTensor 1 1 fun _ => 1) (tokenTensor 1 1 fun _ => 1) streamOk, .execute,
      .append 1 0 (tokenTensor 1 1 fun _ => 2) (tokenTensor 1 1 fun _ => 2) streamOk, .execute] := by
  refine ⟨_, rfl, nothingLost_run _ _ (fun pre action hpre => ?_) _ (List.prefix_refl _)⟩
  obtain ⟨rest, hrest⟩ := hpre
  rcases pre with _ | ⟨_, _ | ⟨_, _ | ⟨_, _ | ⟨_, pre⟩⟩⟩⟩
  · cases hrest
    exact fun _ => rfl
  · cases hrest
    trivial
  · cases hrest
    exact fun _ => List.isEmpty_iff.1 (by decide +kernel)
  · cases hrest
    trivial
  · simp at hrest

/-- Two calls before the stream runs anything: both kernels read the slot of the second, and the token of the
first is nowhere. -/
theorem not_nothingLost_queued : ∃ c, PagedKVCache.create (tinyConfig 1 1 2) zeroEnv = .ok c ∧
    ¬ NothingLost c [.append 0 0 (tokenTensor 1 1 fun _ => 1) (tokenTensor 1 1 fun _ => 1) streamOk,
      .append 1 0 (tokenTensor 1 1 fun _ => 2) (tokenTensor 1 1 fun _ => 2) streamOk] := by
  refine ⟨_, rfl, fun hlost => ?_⟩
  have hbyte := congrFun (congrFun (hlost.drained true) 0) 0
  exact absurd hbyte (by decide +kernel)

end PagedKVCache

end SciAttention

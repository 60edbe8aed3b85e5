import SciAttention.Attention.PagedDecode
import SciAttention.Attention.RealNumerics
import SciAttention.KvCache.Gather
import SciAttention.KvCache.SlotBuffer

/-!
# Where the kernels' pointers point

Host and device arrays share one pointer type. Here a pointer is tagged with the address space of
its buffer: a `std::vector` lies on the host, a tensor where its device says. The entry points are
followed down to the launches, with the guards they pass on the way, and a launch must get device
pointers only. `ResetSeq` hands the owned list of its sequence, a vector, down to the reset
kernel.
-/

namespace SciAttention

/-! ## Pointers -/

/-- An address space. -/
inductive AddressSpace where
  | host | device
deriving DecidableEq, Repr

/-- A pointer, known by where its buffer lies; `none` is null. -/
abbrev Pointer := Option AddressSpace

/-- The address space of the memory of a device. -/
def DeviceType.addressSpace : DeviceType → AddressSpace
  | .cuda => .device
  | .cpu => .host
  | .cpuPinned => .host

/-- `Tensor::data()`. -/
def Tensor.pointer (t : Tensor) : Pointer := t.data.map fun _ => t.deviceType.addressSpace

theorem Tensor.pointer_isSome (t : Tensor) : t.pointer.isSome = t.data.isSome := Option.isSome_map

/-- The pointers that a kernel is launched with. -/
inductive KernelArgs where
  | kvAppend (layerK layerV kNew vNew slotMapping : Pointer)
  | kvReset (layerK layerV blockIds : Pointer)
  | kvGather (layer blockIds out : Pointer)
  | decode (q k v out partials pageTable seqLens : Pointer)

/-- Every pointer of the launch is a device pointer; only the decode kernels take a null one, for
no lengths. -/
def KernelArgs.Resident : KernelArgs → Prop
  | kvAppend layerK layerV kNew vNew slotMapping =>
    ∀ p ∈ [layerK, layerV, kNew, vNew, slotMapping], p = some .device
  | kvReset layerK layerV blockIds => ∀ p ∈ [layerK, layerV, blockIds], p = some .device
  | kvGather layer blockIds out => ∀ p ∈ [layer, blockIds, out], p = some .device
  | decode q k v out partials pageTable seqLens =>
    (∀ p ∈ [q, k, v, out, partials, pageTable], p = some .device) ∧ seqLens ≠ some .host

/-! ## The launches of the storage -/

/-- The launch of `LaunchKvAppend`, unless it refuses its arguments. -/
def launchKvAppendArgs (layers kNew vNew slotMapping : Pointer) (numTokens : ℤ) : List KernelArgs :=
  if layers.isNone ∨ kNew.isNone ∨ vNew.isNone ∨ slotMapping.isNone then []
  else if numTokens ≤ 0 then []
  else [.kvAppend layers layers kNew vNew slotMapping]

namespace KVCache

/-- The launch of `KVCache::Append`. -/
def appendLaunches (c : KVCache) (layers : Pointer) (layer : ℤ) (kNew vNew : Tensor) (slotMapping : Pointer)
    (numTokens : ℤ) : List KernelArgs :=
  if layer < 0 ∨ layer ≥ c.cfg.numLayers then []
  else if kNew.dtype ≠ c.cfg.dtype ∨ vNew.dtype ≠ c.cfg.dtype then []
  else if kNew.ndims ≠ 3 ∨ (kNew.dim 0 : ℤ) ≠ numTokens ∨ kNew.dim 1 ≠ c.cfg.numKvHeads ∨
      kNew.dim 2 ≠ c.cfg.headDim then []
  else if slotMapping.isNone then []
  else launchKvAppendArgs layers kNew.pointer vNew.pointer slotMapping numTokens

/-- The launches of the loop of `KVCache::Reset`: up to the first that fails. -/
def resetLoopLaunches (layers blockIds : Pointer) (launch : ℕ → LaunchOutcome) :
    List ℕ → List KernelArgs
  | [] => []
  | layer :: rest =>
    .kvReset layers layers blockIds ::
      if (launch layer).status.isOk then resetLoopLaunches layers blockIds launch rest else []

/-- The launches of `KVCache::Reset`. -/
def resetLaunches (c : KVCache) (layers blockIds : Pointer) (numBlocks : ℤ)
    (launch : ℕ → LaunchOutcome) :
    List KernelArgs :=
  if blockIds.isNone then []
  else if numBlocks ≤ 0 then []
  else resetLoopLaunches layers blockIds launch (List.range c.cfg.numLayers)

/-- The launch of `KVCache::GatherInternal`. -/
def gatherLaunches (c : KVCache) (layers : Pointer) (layer : ℤ) (blockIds : Pointer) (numBlocks : ℤ)
    (out : Pointer) : List KernelArgs :=
  if layer < 0 ∨ layer ≥ c.cfg.numLayers then []
  else if blockIds.isNone ∨ numBlocks ≤ 0 then []
  else if out.isNone then []
  else [.kvGather layers blockIds out]

end KVCache

/-- The launches of `LaunchPagedAttention`: both decode kernels get the same parameters. -/
def launchPagedArgs {𝕜 : Type*} (p : DecodeFwdParams 𝕜) (args : KernelArgs)
    (launch : ℕ → LaunchOutcome) :
    List KernelArgs :=
  if p.pageTable.isNone then []
  else if p.blockSize ≤ 0 ∨ p.maxBlocksPerSeq ≤ 0 ∨ p.numKvBlocks ≤ 0 then []
  else if p.q.isNone ∨ p.k.isNone ∨ p.v.isNone ∨ p.out.isNone ∨ p.partials.isNone then []
  else if p.numSplits < 1 then []
  else if (p.headDim : ℤ) ∉ supportedHeadDims then []
  else if int32Cast ((p.requests + 3) / 4 : ℕ) ≤ 0 then []
  else if ¬ (launch 0).status.isOk then [args]
  else if int32Cast ((p.batch * p.numHeads + 3) / 4 : ℕ) ≤ 0 then [args]
  else [args, args]

/-! ## The paged cache -/

/-- A paged cache with the device of its layers and the pointers of its other tensors. -/
structure PlacedCache where
  cache : PagedKVCache
  deviceType : DeviceType
  pageTable : Pointer
  slotMapping : Pointer := none

/-- An action on a cache: a call, a call on its `MutableStorage()`, or `paged_attention` on it. What a caller
passes by pointer comes with the address space it lies in. -/
inductive CacheAction (𝕜 : Type*) where
  | call (call : PagedKVCache.Call)
  | storageAppend (layer : ℤ) (kNew vNew : Tensor) (slotMapping : Option (AddressSpace × (ℕ → ℤ)))
      (numTokens : ℤ) (launch : LaunchOutcome)
  | storageReset (blockIds : Option (AddressSpace × (ℕ → ℤ))) (numBlocks : ℤ) (launch : ℕ →
    LaunchOutcome)
  | storageGather (layer : ℤ) (blockIds : Option (AddressSpace × (ℕ → ℤ))) (numBlocks : ℤ)
    (isKey : Bool)
      (outAlloc : Option Bytes) (launch : LaunchOutcome)
  | attention (env : AttentionEnv 𝕜) (q : Tensor) (params : PagedAttentionParams)
      (pageTableSpace seqLensSpace : AddressSpace) (cfg : AttentionConfig 𝕜)

/-- The pointers that the caller passes. -/
def CacheAction.callerPointers {𝕜 : Type*} : CacheAction 𝕜 → List Pointer
  | call (.appendTokens _ _ kNew vNew _) => [kNew.pointer, vNew.pointer]
  | call _ => []
  | storageAppend _ kNew vNew slotMapping _ _ => [kNew.pointer, vNew.pointer, slotMapping.map Prod.fst]
  | storageReset blockIds _ _ => [blockIds.map Prod.fst]
  | storageGather _ blockIds _ _ _ _ => [blockIds.map Prod.fst]
  | attention _ q params pageTableSpace seqLensSpace _ =>
    [q.pointer, params.pageTable.map fun _ => pageTableSpace, params.seqLens.map fun _ => seqLensSpace]

/-- The caller's pointers are device pointers or null. -/
def CacheAction.CallerOnDevice {𝕜 : Type*} (action : CacheAction 𝕜) : Prop :=
  ∀ p ∈ action.callerPointers, p ≠ some .host

namespace PlacedCache

open PagedKVCache

/-- A new cache: `Create` makes all its tensors on one device. -/
def create (cache : PagedKVCache) (deviceType : DeviceType) : PlacedCache :=
  { cache := cache, deviceType := deviceType, pageTable := some deviceType.addressSpace }

/-- The pointer of every layer. -/
def layers (s : PlacedCache) : Pointer := some s.deviceType.addressSpace

/-- The pointer of the slot buffer after the capacity test; a new buffer is made on the device of
the layers. -/
def grownSlots (s : PlacedCache) (numNew : ℕ) (slotAlloc : Option (ℕ → ℤ)) : Pointer :=
  if s.cache.slotMappingCapacity < numNew then slotAlloc.map fun _ => s.deviceType.addressSpace
  else s.slotMapping

/-- The state after one action. -/
def step {𝕜 : Type*} (s : PlacedCache) : CacheAction 𝕜 → PlacedCache
  | .call call =>
    { s with
      cache := (s.cache.step call).1
      slotMapping := match call with
        | .appendTokens seqId layer kNew vNew env =>
          if s.cache.ReachesGrowth seqId layer kNew vNew then s.grownSlots (kNew.dim 0) env.slotAlloc
          else s.slotMapping
        | _ => s.slotMapping }
  | .storageAppend layer kNew vNew slotMapping numTokens launch =>
    { s with
      cache := { s.cache with
        storage := (s.cache.storage.append layer kNew vNew (slotMapping.map Prod.snd) numTokens launch).1 } }
  | .storageReset blockIds numBlocks launch =>
    { s with
      cache := { s.cache with
        storage := (s.cache.storage.reset (blockIds.map Prod.snd) numBlocks launch).1 } }
  | .storageGather _ _ _ _ _ _ => s
  | .attention _ _ _ _ _ _ => s

/-- The state after a run. -/
def run {𝕜 : Type*} (s : PlacedCache) (actions : List (CacheAction 𝕜)) : PlacedCache :=
  actions.foldl step s

/-- The launches of `AppendTokens`. -/
def appendTokensLaunches (s : PlacedCache) (seqId layer : ℤ) (kNew vNew : Tensor) (env : AppendEnv) :
    List KernelArgs :=
  if s.cache.ReachesGrowth seqId layer kNew vNew ∧
      (s.cache.growSlotBuffer (kNew.dim 0) env.slotAlloc).2.isOk then
    s.cache.storage.appendLaunches s.layers layer kNew vNew (s.grownSlots (kNew.dim 0) env.slotAlloc)
      (kNew.dim 0)
  else []

/-- The launches of `ResetSeq`. -/
def resetSeqLaunches (s : PlacedCache) (seqId : ℤ) (env : ResetEnv) : List KernelArgs :=
  if seqId < 0 ∨ seqId ≥ s.cache.cfg.maxNumSeqs then []
  else
    let owned := s.cache.seqBlocks seqId.toNat
    -- `owned` is a `std::vector`, and `owned.data()` goes down to the kernels as it is
    if owned ≠ [] then s.cache.storage.resetLaunches s.layers (some .host) owned.length env.launch else []

/-- The launches of an action. -/
def launches {𝕜 : Type*} [Field 𝕜] [LinearOrder 𝕜] (num : Numerics 𝕜) (s : PlacedCache) :
    CacheAction 𝕜 → List KernelArgs
  | .call (.appendTokens seqId layer kNew vNew env) => s.appendTokensLaunches seqId layer kNew vNew env
  | .call (.resetSeq seqId env) => s.resetSeqLaunches seqId env
  | .call .syncPageTable => []
  | .call .forceSyncPageTable => []
  | .storageAppend layer kNew vNew slotMapping numTokens _ =>
    s.cache.storage.appendLaunches s.layers layer kNew vNew (slotMapping.map Prod.fst) numTokens
  | .storageReset blockIds numBlocks launch =>
    s.cache.storage.resetLaunches s.layers (blockIds.map Prod.fst) numBlocks launch
  | .storageGather layer blockIds numBlocks _ outAlloc _ =>
    s.cache.storage.gatherLaunches s.layers layer (blockIds.map Prod.fst) numBlocks
      (outAlloc.map fun _ => s.deviceType.addressSpace)
  | .attention env q params pageTableSpace seqLensSpace cfg =>
    match pagedRequest num env q s.cache params cfg with
    | .error _ => []
    | .ok p =>
      -- the scratch and the output are allocated on the device of `q`
      let own : Pointer := some q.deviceType.addressSpace
      let pageTable := (params.pageTable.map fun _ => pageTableSpace).or s.pageTable
      launchPagedArgs p
        (.decode q.pointer s.layers s.layers own own pageTable (params.seqLens.map fun _ => seqLensSpace))
        env.launch

/-! ## Launches and effects -/

section Refused

variable {c : KVCache} {layers : Pointer}

/-- An append that launches nothing leaves the storage as it was. -/
theorem append_of_launches_nil {layer : ℤ} {kNew vNew : Tensor} {slotMapping : Option (ℕ → ℤ)}
    {slots : Pointer}
    {numTokens : ℤ} (hlayers : layers.isSome) (hslots : slots.isSome = slotMapping.isSome)
    (hnil : c.appendLaunches layers layer kNew vNew slots numTokens = []) (launch : LaunchOutcome) :
    (c.append layer kNew vNew slotMapping numTokens launch).1 = c := by
  unfold KVCache.appendLaunches at hnil
  unfold KVCache.append
  split_ifs at hnil ⊢ with hlayer hdtype hshape hnone
  · rfl
  · rfl
  · rfl
  · obtain rfl : slotMapping = none := by
      rwa [Option.isNone_iff_eq_none, ← Option.not_isSome_iff_eq_none, hslots,
        Option.not_isSome_iff_eq_none]
        at hnone
    rfl
  · cases slotMapping with
    | none => rfl
    | some cells =>
      have hk := kNew.pointer_isSome
      have hv := vNew.pointer_isSome
      simp only [launchKvAppendArgs, KVCache.launchKvAppend] at hnil ⊢
      cases hkd : kNew.data with
      | none => exact congrArg Prod.fst (if_pos (Status.not_isOk_invalidArgument _))
      | some k =>
        cases hvd : vNew.data with
        | none => exact congrArg Prod.fst (if_pos (Status.not_isOk_invalidArgument _))
        | some v =>
          rw [hkd] at hk
          rw [hvd] at hv
          have hptrs :
            ¬ (layers.isNone ∨ kNew.pointer.isNone ∨ vNew.pointer.isNone ∨ slots.isNone) := by
            simp [Option.isNone_eq_false_iff.2, hlayers, hslots, hk, hv]
          rw [if_neg hptrs] at hnil
          split_ifs at hnil with hn
          simp only [if_pos hn]
          exact congrArg Prod.fst (if_pos (Status.not_isOk_invalidArgument _))

/-- A reset that launches nothing leaves the storage as it was. -/
theorem reset_of_launches_nil {blockIds : Option (ℕ → ℤ)} {ids : Pointer} {numBlocks : ℤ}
    {launch : ℕ → LaunchOutcome} (hids : ids.isSome = blockIds.isSome)
    (hnil : c.resetLaunches layers ids numBlocks launch = []) :
    (c.reset blockIds numBlocks launch).1 = c := by
  cases blockIds with
  | none => rfl
  | some read =>
    have hnone : ¬ ids.isNone := by simp [Option.isNone_eq_false_iff.2, hids]
    unfold KVCache.resetLaunches at hnil
    rw [if_neg hnone] at hnil
    split_ifs at hnil with hn
    · simp only [KVCache.reset, if_pos hn]
    · -- there is a layer, and the first one is launched on
      obtain ⟨n, hlen⟩ : ∃ n, c.cfg.numLayers = n + 1 :=
        Nat.exists_eq_succ_of_ne_zero c.cfg.numLayers_pos.ne'
      rw [hlen, List.range_succ_eq_map] at hnil
      cases hnil

/-- What `AppendTokens` does to the storage once its blocks are reserved: `Append` with the slot
buffer where it gets past the capacity test, nothing elsewhere. -/
theorem writeTokens_storage (c : PagedKVCache) (seq : ℕ) (layer : ℤ) (kNew vNew : Tensor)
    (env : AppendEnv) :
    let grown := c.growSlotBuffer (kNew.dim 0) env.slotAlloc
    if ((c.refreshRow seq).nextSlots seq (kNew.dim 0)).isOk ∧ grown.2.isOk then
      ∃ slots, slots.isSome = grown.1.slotMappingDevice.isSome ∧
        (c.writeTokens seq layer kNew vNew env).1.storage =
          (c.storage.append layer kNew vNew slots (kNew.dim 0) env.launch).1
    else (c.writeTokens seq layer kNew vNew env).1.storage = c.storage := by
  have hgrown := (c.growSlotBuffer_isOk_iff (kNew.dim 0) env.slotAlloc).1
  simp only [writeTokens, growSlotBuffer_refreshRow]
  cases (c.refreshRow seq).nextSlots seq (kNew.dim 0) with
  | error e => exact rfl
  | ok slots =>
    by_cases hok : (c.growSlotBuffer (kNew.dim 0) env.slotAlloc).2.isOk
    · rw [if_pos ⟨rfl, hok⟩]
      simp only [if_neg (not_not.2 hok), storeTokens]
      refine ⟨(((c.growSlotBuffer (kNew.dim 0) env.slotAlloc).1.refreshRow seq).uploadSlots
        slots).slotMappingDevice, Option.isSome_map, ?_⟩
      have hstorage : (((c.growSlotBuffer (kNew.dim 0) env.slotAlloc).1.refreshRow seq).uploadSlots
          slots).storage = c.storage := hgrown
      rw [hstorage]
      split_ifs <;> rfl
    · rw [if_neg fun h => hok h.2]
      simp only [if_pos hok]
      exact hgrown

end Refused

/-- Where the members of a cache on the device lie. -/
structure OnDevice (s : PlacedCache) : Prop where
  deviceType_eq : s.deviceType = .cuda
  pageTable_eq : s.pageTable = some .device
  slotMapping_ne : s.slotMapping ≠ some .host
  slotMapping_isSome : s.slotMapping.isSome = s.cache.slotMappingDevice.isSome

theorem OnDevice.create {cfg : KVCacheConfig} {env : PagedEnv} {c : PagedKVCache}
    (h : PagedKVCache.create cfg env = .ok c) : OnDevice (create c .cuda) := by
  obtain ⟨storage, blocks, -, -, rfl⟩ := create_eq_ok h
  exact ⟨rfl, rfl, by simp [PlacedCache.create], rfl⟩

theorem OnDevice.layers_eq {s : PlacedCache} (h : OnDevice s) : s.layers = some .device := by
  rw [layers, h.deviceType_eq]
  rfl

/-- The slot buffer after the capacity test is on the device, or there is none. -/
theorem OnDevice.grownSlots {s : PlacedCache} (h : OnDevice s) (numNew : ℕ)
    (slotAlloc : Option (ℕ → ℤ)) :
    s.grownSlots numNew slotAlloc ≠ some .host ∧ (s.grownSlots numNew slotAlloc).isSome =
      (s.cache.growSlotBuffer numNew slotAlloc).1.slotMappingDevice.isSome := by
  unfold PlacedCache.grownSlots growSlotBuffer
  split_ifs
  · rw [h.deviceType_eq]
    cases slotAlloc with
    | none => exact ⟨by simp, rfl⟩
    | some cells => exact ⟨by simp [DeviceType.addressSpace], rfl⟩
  · exact ⟨h.slotMapping_ne, h.slotMapping_isSome⟩

/-- Every action keeps the members on the device. -/
theorem OnDevice.step {𝕜 : Type*} {s : PlacedCache} (h : OnDevice s) (action : CacheAction 𝕜) :
    OnDevice (s.step action) := by
  cases action with
  | call call =>
    cases call with
    | appendTokens seqId layer kNew vNew env =>
      have heffect := s.cache.appendTokens_slotBuffer seqId layer kNew vNew env
      obtain ⟨hne, hsome⟩ := h.grownSlots (kNew.dim 0) env.slotAlloc
      refine ⟨h.deviceType_eq, h.pageTable_eq, ?_, ?_⟩
      · simp only [PlacedCache.step]
        split_ifs
        · exact hne
        · exact h.slotMapping_ne
      · simp only [PlacedCache.step, PagedKVCache.step]
        by_cases hreach : s.cache.ReachesGrowth seqId layer kNew vNew
        · simp only [if_pos hreach] at heffect ⊢
          rw [hsome, heffect.2]
        · simp only [if_neg hreach] at heffect ⊢
          rw [h.slotMapping_isSome, heffect.2]
    | resetSeq seqId env =>
      refine ⟨h.deviceType_eq, h.pageTable_eq, h.slotMapping_ne, ?_⟩
      exact h.slotMapping_isSome.trans (congrArg Option.isSome (s.cache.resetSeq_slotBuffer seqId env).2.symm)
    | syncPageTable =>
      obtain ⟨device, synced, heq⟩ := s.cache.syncPageTable_eq
      refine ⟨h.deviceType_eq, h.pageTable_eq, h.slotMapping_ne, h.slotMapping_isSome.trans ?_⟩
      simp only [PlacedCache.step, PagedKVCache.step, heq]
    | forceSyncPageTable =>
      obtain ⟨device, synced, heq⟩ := s.cache.forceSyncPageTable_eq
      refine ⟨h.deviceType_eq, h.pageTable_eq, h.slotMapping_ne, h.slotMapping_isSome.trans ?_⟩
      simp only [PlacedCache.step, PagedKVCache.step, heq]
  | storageAppend layer kNew vNew slotMapping numTokens launch =>
    exact ⟨h.deviceType_eq, h.pageTable_eq, h.slotMapping_ne, h.slotMapping_isSome⟩
  | storageReset blockIds numBlocks launch =>
    exact ⟨h.deviceType_eq, h.pageTable_eq, h.slotMapping_ne, h.slotMapping_isSome⟩
  | storageGather layer blockIds numBlocks isKey outAlloc launch => exact h
  | attention env q params pageTableSpace seqLensSpace cfg => exact h

/-- An action that launches nothing leaves the storage as it was, so no launch that stores is missing. -/
theorem OnDevice.storage_of_launches_nil {𝕜 : Type*} [Field 𝕜] [LinearOrder 𝕜] {num : Numerics 𝕜}
    {s : PlacedCache} (h : OnDevice s) {action : CacheAction 𝕜} (hnil : s.launches num action = []) :
    (s.step action).cache.storage = s.cache.storage := by
  have hlayers : s.layers.isSome := rfl
  cases action with
  | call call =>
    cases call with
    | appendTokens seqId layer kNew vNew env =>
      simp only [PlacedCache.step, PagedKVCache.step]
      by_cases hreach : s.cache.ReachesBuffer seqId layer kNew vNew
      swap
      · exact (s.cache.appendTokens_of_not_reaches seqId layer kNew vNew hreach env).2.1
      obtain ⟨blocks, owned, hreserved⟩ := s.cache.reserveBlocks_eq seqId.toNat (kNew.dim 0)
      have hgrow : (s.cache.reserveBlocks seqId.toNat (kNew.dim 0)).1.growSlotBuffer (kNew.dim 0)
          env.slotAlloc = ({ (s.cache.growSlotBuffer (kNew.dim 0) env.slotAlloc).1 with
            blocks := blocks, seqBlocks := owned },
              (s.cache.growSlotBuffer (kNew.dim 0) env.slotAlloc).2) := by
        rw [hreserved]
        exact growSlotBuffer_map ({ · with blocks := blocks, seqBlocks := owned }) rfl (fun _ _ => rfl) _ _
      have hstorage : (s.cache.reserveBlocks seqId.toNat (kNew.dim 0)).1.storage = s.cache.storage := by
        rw [hreserved]
      have heffect := writeTokens_storage (s.cache.reserveBlocks seqId.toNat (kNew.dim 0)).1 seqId.toNat layer
        kNew vNew env
      rw [s.cache.appendTokens_of_reaches seqId layer kNew vNew hreach env]
      simp only [hgrow, hstorage] at heffect
      simp only [launches, appendTokensLaunches, ReachesGrowth, hreach, true_and, ownSlots] at hnil
      by_cases hrest : (((s.cache.reserveBlocks seqId.toNat (kNew.dim 0)).1.refreshRow seqId.toNat).nextSlots
          seqId.toNat (kNew.dim 0)).isOk ∧ (s.cache.growSlotBuffer (kNew.dim 0) env.slotAlloc).2.isOk
      · rw [if_pos hrest] at hnil heffect
        obtain ⟨slots, hslots, heq⟩ := heffect
        rw [heq]
        exact append_of_launches_nil hlayers ((h.grownSlots _ _).2.trans hslots.symm) hnil env.launch
      · rw [if_neg hrest] at heffect
        exact heffect
    | resetSeq seqId env =>
      simp only [launches, resetSeqLaunches] at hnil
      simp only [PlacedCache.step, PagedKVCache.step, PagedKVCache.resetSeq]
      by_cases hrange : seqId < 0 ∨ seqId ≥ s.cache.cfg.maxNumSeqs
      · rw [if_pos hrange]
      · rw [if_neg hrange] at hnil ⊢
        by_cases howned : s.cache.seqBlocks seqId.toNat ≠ []
        · rw [if_pos howned] at hnil
          simp only [if_pos howned]
          have hkept : (s.cache.storage.reset (some env.idsRead) (s.cache.seqBlocks seqId.toNat).length
              env.launch).1 = s.cache.storage := reset_of_launches_nil rfl hnil
          split_ifs <;> exact hkept
        · simp only [if_neg howned]
          split_ifs <;> rfl
    | syncPageTable =>
      obtain ⟨device, synced, heq⟩ := s.cache.syncPageTable_eq
      simp only [PlacedCache.step, PagedKVCache.step, heq]
    | forceSyncPageTable =>
      obtain ⟨device, synced, heq⟩ := s.cache.forceSyncPageTable_eq
      simp only [PlacedCache.step, PagedKVCache.step, heq]
  | storageAppend layer kNew vNew slotMapping numTokens launch =>
    exact append_of_launches_nil hlayers (by simp) hnil launch
  | storageReset blockIds numBlocks launch => exact reset_of_launches_nil (by simp) hnil
  | storageGather layer blockIds numBlocks isKey outAlloc launch => rfl
  | attention env q params pageTableSpace seqLensSpace cfg => rfl

/-! ## Residence of the launches -/

section Resident

variable {c : KVCache} {layers : Pointer}

/-- A pointer that is not null and not on the host. -/
theorem eq_device {p : Pointer} (hne : p ≠ some .host) (hsome : ¬ p.isNone) : p = some .device := by
  rcases p with _ | _ | _
  · exact absurd rfl hsome
  · exact absurd rfl hne
  · rfl

/-- `Append` of device pointers. -/
theorem resident_append {layer : ℤ} {kNew vNew : Tensor} {slots : Pointer} {numTokens : ℤ}
    (hlayers : layers = some .device) (hk : kNew.pointer ≠ some .host) (hv : vNew.pointer ≠ some .host)
    (hslots : slots ≠ some .host) :
    ∀ args ∈ c.appendLaunches layers layer kNew vNew slots numTokens, args.Resident := by
  intro args hargs
  unfold KVCache.appendLaunches launchKvAppendArgs at hargs
  split_ifs at hargs with h1 h2 h3 h4 h5 h6
  · cases hargs
  · cases hargs
  · cases hargs
  · cases hargs
  · cases hargs
  · cases hargs
  · obtain rfl := List.mem_singleton.1 hargs
    simp only [not_or] at h5
    simp [KernelArgs.Resident, hlayers, eq_device hk h5.2.1, eq_device hv h5.2.2.1, eq_device hslots h4]

/-- Every launch of a reset gets the caller's pointer. -/
theorem mem_resetLoopLaunches {blockIds : Pointer} {launch : ℕ → LaunchOutcome} {rest : List ℕ}
    {args : KernelArgs} (h : args ∈ KVCache.resetLoopLaunches layers blockIds launch rest) :
    args = .kvReset layers layers blockIds := by
  induction rest with
  | nil => cases h
  | cons layer rest ih =>
    rcases List.mem_cons.1 h with rfl | h
    · rfl
    · split_ifs at h
      · exact ih h
      · cases h

/-- `Reset` of a device pointer. -/
theorem resident_reset {blockIds : Pointer} {numBlocks : ℤ} {launch : ℕ → LaunchOutcome}
    (hlayers : layers = some .device) (hids : blockIds ≠ some .host) :
    ∀ args ∈ c.resetLaunches layers blockIds numBlocks launch, args.Resident := by
  intro args hargs
  unfold KVCache.resetLaunches at hargs
  split_ifs at hargs with hnone hn
  · cases hargs
  · cases hargs
  · obtain rfl := mem_resetLoopLaunches hargs
    simp [KernelArgs.Resident, hlayers, eq_device hids hnone]

/-- `Reset` of a host pointer to some blocks. -/
theorem not_resident_reset {numBlocks : ℤ} {launch : ℕ → LaunchOutcome} (hn : 0 < numBlocks) :
    ¬ ∀ args ∈ c.resetLaunches layers (some .host) numBlocks launch, args.Resident := by
  obtain ⟨n, hlen⟩ : ∃ n, c.cfg.numLayers = n + 1 :=
    Nat.exists_eq_succ_of_ne_zero c.cfg.numLayers_pos.ne'
  have hmem :
    .kvReset layers layers (some .host) ∈ c.resetLaunches layers (some .host) numBlocks launch := by
    unfold KVCache.resetLaunches
    rw [if_neg (by simp), if_neg (by omega), hlen, List.range_succ_eq_map]
    exact List.mem_cons_self
  intro hall
  exact absurd (hall _ hmem (some .host) (by simp)) (by simp)

/-- `GatherInternal` of a device pointer into an allocation on the device. -/
theorem resident_gather {layer : ℤ} {blockIds out : Pointer} {numBlocks : ℤ}
    (hlayers : layers = some .device)
    (hids : blockIds ≠ some .host) (hout : out ≠ some .host) :
    ∀ args ∈ c.gatherLaunches layers layer blockIds numBlocks out, args.Resident := by
  intro args hargs
  unfold KVCache.gatherLaunches at hargs
  split_ifs at hargs with hlayer hnone hnull
  · cases hargs
  · cases hargs
  · cases hargs
  · obtain rfl := List.mem_singleton.1 hargs
    simp only [not_or] at hnone
    simp [KernelArgs.Resident, hlayers, eq_device hids hnone.1, eq_device hout hnull]

/-- Both decode kernels get the parameters, which hold a query. -/
theorem mem_launchPagedArgs {𝕜 : Type*} {p : DecodeFwdParams 𝕜} {own args : KernelArgs}
    {launch : ℕ → LaunchOutcome} (h : args ∈ launchPagedArgs p own launch) :
    args = own ∧ p.q.isSome := by
  have hargs : launchPagedArgs p own launch ⊆ [own] ∧
    (launchPagedArgs p own launch ≠ [] → ¬ p.q.isNone) := by
    unfold launchPagedArgs
    split_ifs with h1 h2 h3 h4 h5 h6 h7 h8
    all_goals simp_all
  exact ⟨List.mem_singleton.1 (hargs.1 h),
    by simpa [Option.isSome_iff_ne_none] using hargs.2 (List.ne_nil_of_mem h)⟩

end Resident

/-- The action resets a sequence that holds blocks. -/
def ResetsBlocks {𝕜 : Type*} (s : PlacedCache) : CacheAction 𝕜 → Prop
  | .call (.resetSeq seqId _) => 0 < s.cache.logicalBlockCount seqId
  | _ => False

/-- `ResetSeq` launches with the host pointer to the owned list, exactly when there is something in it. -/
theorem resident_resetSeq_iff {s : PlacedCache} (seqId : ℤ) (env : ResetEnv) :
    (∀ args ∈ s.resetSeqLaunches seqId env, args.Resident) ↔ s.cache.logicalBlockCount seqId = 0 := by
  simp only [resetSeqLaunches, logicalBlockCount]
  split_ifs with hrange howned
  · simp
  · refine iff_of_false (not_resident_reset ?_) (by simpa using howned)
    exact_mod_cast List.length_pos_iff.2 howned
  · simpa using howned

/-- With the members on the device and a caller who passes device pointers, all launches of an
action are resident unless it resets a sequence that holds blocks. -/
theorem OnDevice.resident_iff {𝕜 : Type*} [Field 𝕜] [LinearOrder 𝕜] {num : Numerics 𝕜}
    {s : PlacedCache}
    (h : OnDevice s) {action : CacheAction 𝕜} (hcaller : action.CallerOnDevice) :
    (∀ args ∈ s.launches num action, args.Resident) ↔ ¬ s.ResetsBlocks action := by
  cases action with
  | call call =>
    cases call with
    | appendTokens seqId layer kNew vNew env =>
      refine iff_of_true ?_ (fun hfalse => hfalse)
      simp only [CacheAction.CallerOnDevice, CacheAction.callerPointers, List.forall_mem_cons] at hcaller
      obtain ⟨hk, hv, -⟩ := hcaller
      simp only [launches, appendTokensLaunches]
      split_ifs
      · exact resident_append h.layers_eq hk hv (h.grownSlots _ _).1
      · simp
    | resetSeq seqId env => exact (resident_resetSeq_iff seqId env).trans (by simp [ResetsBlocks])
    | syncPageTable => exact iff_of_true (by simp [launches]) fun hfalse => hfalse
    | forceSyncPageTable => exact iff_of_true (by simp [launches]) fun hfalse => hfalse
  | storageAppend layer kNew vNew slotMapping numTokens launch =>
    simp only [CacheAction.CallerOnDevice, CacheAction.callerPointers, List.forall_mem_cons] at hcaller
    obtain ⟨hk, hv, hslots, -⟩ := hcaller
    exact iff_of_true (resident_append h.layers_eq hk hv hslots) fun hfalse => hfalse
  | storageReset blockIds numBlocks launch =>
    exact iff_of_true (resident_reset h.layers_eq (hcaller _ List.mem_cons_self)) fun hfalse => hfalse
  | storageGather layer blockIds numBlocks isKey outAlloc launch =>
    refine iff_of_true (resident_gather h.layers_eq (hcaller _ List.mem_cons_self) ?_) fun hfalse => hfalse
    rw [h.deviceType_eq]
    cases outAlloc <;> simp [DeviceType.addressSpace]
  | attention env q params pageTableSpace seqLensSpace cfg =>
    refine iff_of_true (fun args hargs => ?_) fun hfalse => hfalse
    simp only [CacheAction.CallerOnDevice, CacheAction.callerPointers, List.forall_mem_cons] at hcaller
    obtain ⟨hq, htable, hlens, -⟩ := hcaller
    simp only [launches] at hargs
    cases hreq : pagedRequest num env q s.cache params cfg with
    | error e =>
      rw [hreq] at hargs
      cases hargs
    | ok p =>
      rw [hreq] at hargs
      obtain ⟨rfl, hsome⟩ := mem_launchPagedArgs hargs
      obtain ⟨id, table, out, -, rfl⟩ := pagedRequest_eq_ok.1 hreq
      -- a query that is there lies on the device, and so do the buffers made on its device
      have hdata : q.pointer = some q.deviceType.addressSpace := by
        obtain ⟨data, hdata⟩ := Option.isSome_iff_exists.1 hsome
        rw [Tensor.pointer, show q.data = some data from hdata, Option.map_some]
      have hdevice : (some q.deviceType.addressSpace : Pointer) = some .device :=
        eq_device (hdata ▸ hq) (by simp)
      have htables : (params.pageTable.map fun _ => pageTableSpace).or s.pageTable = some .device := by
        cases hgiven : params.pageTable with
        | none => exact h.pageTable_eq
        | some given =>
          rw [hgiven] at htable
          exact eq_device htable (by simp)
      refine ⟨?_, hlens⟩
      simp [hdata, hdevice, htables, h.layers_eq]

/-- Every pointer that a launch of the run gets is resident. -/
def LaunchesResident {𝕜 : Type*} [Field 𝕜] [LinearOrder 𝕜] (num : Numerics 𝕜) (s : PlacedCache)
    (actions : List (CacheAction 𝕜)) : Prop :=
  ∀ pre action, pre ++ [action] <+: actions → ∀ args ∈ (s.run pre).launches num action, args.Resident

/-- Every run on a cache on the device with device pointers from its caller: the launches are
resident exactly when no sequence that holds blocks is reset. -/
theorem launchesResident_iff {𝕜 : Type*} [Field 𝕜] [LinearOrder 𝕜] (num : Numerics 𝕜)
    {cfg : KVCacheConfig}
    {env : PagedEnv} {c : PagedKVCache} (hcreate : PagedKVCache.create cfg env = .ok c)
    (actions : List (CacheAction 𝕜)) (hcaller : ∀ action ∈ actions, action.CallerOnDevice) :
    LaunchesResident num (create c .cuda) actions ↔
      ∀ pre action, pre ++ [action] <+: actions → ¬ ((create c .cuda).run pre).ResetsBlocks action :=
  Runs.forall_step_iff step (fun s action => ∀ args ∈ s.launches num action, args.Resident)
    (fun s action => ¬ s.ResetsBlocks action) (fun _ action h => h.step action)
    (fun _ _ h hdevice => h.resident_iff hdevice) (OnDevice.create hcreate) hcaller

/-- A token is appended to one sequence and the other one, which holds nothing, is reset. -/
theorem launchesResident_otherSeq : ∃ c, PagedKVCache.create (tinyConfig 1 1 2) zeroEnv = .ok c ∧
    LaunchesResident realNumerics (create c .cuda)
      [.call (.appendTokens 0 0 (tokenTensor 1 1 fun _ => 1) (tokenTensor 1 1 fun _ => 1) appendOk),
        .call (.resetSeq 1 (resetOk []))] := by
  obtain ⟨c, hc⟩ : ∃ c, PagedKVCache.create (tinyConfig 1 1 2) zeroEnv = .ok c := ⟨_, rfl⟩
  refine ⟨c, hc, (launchesResident_iff realNumerics hc _ ?_).2 ?_⟩
  · intro action haction p hp
    rcases List.mem_cons.1 haction with rfl | haction
    · have hdevice : p = some .device := by
        simpa [CacheAction.callerPointers, tokenTensor, Tensor.pointer, DeviceType.addressSpace] using hp
      simp [hdevice]
    · obtain rfl := List.mem_singleton.1 haction
      cases hp
  · obtain rfl := Except.ok.inj hc
    rintro pre action ⟨rest, hrest⟩
    rcases pre with _ | ⟨_, _ | ⟨_, pre⟩⟩
    · cases hrest
      exact fun hfalse => hfalse
    · cases hrest
      exact Nat.lt_irrefl 0
    · simp at hrest

/-- A token is appended to a sequence and the sequence is reset: the reset kernel gets the vector
of its blocks. -/
theorem not_launchesResident_reset : ∃ c, PagedKVCache.create (tinyConfig 1 1 2) zeroEnv = .ok c ∧
    ¬ LaunchesResident realNumerics (create c .cuda)
      [.call (.appendTokens 0 0 (tokenTensor 1 1 fun _ => 1) (tokenTensor 1 1 fun _ => 1) appendOk),
        .call (.resetSeq 0 (resetOk [0]))] := by
  refine ⟨_, rfl, fun hresident => ?_⟩
  have hreset := (resident_resetSeq_iff 0 (resetOk [0])).1 (hresident [_] _ (List.prefix_refl _))
  exact absurd hreset (by decide +kernel)

end PlacedCache

end SciAttention

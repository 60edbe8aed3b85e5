import SciAttention.KvCache.Stream

/-!
# The slot-mapping buffer

`AppendTokens` keeps the device buffer of its slots and the capacity it has recorded for it in two fields,
and sets them at different points around an allocation that may fail. `SlotState` is the cache with what
the source does not record: the number of `int32_t` elements that the current buffer really has.
-/

namespace SciAttention

namespace PagedKVCache

/-! ## The buffer that is there -/

/-- The cache and the elements of `slot_mapping_device_`, none for a null tensor. -/
structure SlotState where
  cache : PagedKVCache
  elements : ℕ := 0

/-- The call comes to the capacity test: its slots were computed. -/
def ReachesGrowth (c : PagedKVCache) (seqId layer : ℤ) (kNew vNew : Tensor) : Prop :=
  c.ReachesBuffer seqId layer kNew vNew ∧ (c.ownSlots seqId (kNew.dim 0)).isOk

instance (c : PagedKVCache) (seqId layer : ℤ) (kNew vNew : Tensor) :
    Decidable (c.ReachesGrowth seqId layer kNew vNew) := inferInstanceAs (Decidable (_ ∧ _))

/-- The elements of the buffer after the capacity test: those of the new tensor where one is made. -/
def grownElements (c : PagedKVCache) (elements numNew : ℕ) (slotAlloc : Option (ℕ → ℤ)) : ℕ :=
  if c.slotMappingCapacity < numNew then
    match slotAlloc with
    | none => 0
    | some _ => max numNew 1024
  else elements

namespace SlotState

/-- The state after one call. -/
def step (s : SlotState) (call : Call) : SlotState :=
  { cache := (s.cache.step call).1
    elements := match call with
      | .appendTokens seqId layer kNew vNew env =>
        if s.cache.ReachesGrowth seqId layer kNew vNew then
          s.cache.grownElements s.elements (kNew.dim 0) env.slotAlloc
        else s.elements
      | _ => s.elements }

/-- The state after a sequence of calls. -/
def run (s : SlotState) (calls : List Call) : SlotState := calls.foldl step s

end SlotState

/-- A `copy_to_device` of `numNew` slots into a buffer of `elements`, null or not. -/
structure Upload where
  target : Option (ℕ → ℤ)
  elements : ℕ
  numNew : ℕ

/-- The copy stays inside a buffer that is there. -/
def Upload.Inside (u : Upload) : Prop := u.target.isSome ∧ u.numNew ≤ u.elements

/-- The copy that a call makes: past the capacity test, unless the allocation failed. -/
def SlotState.upload (s : SlotState) : Call → Option Upload
  | .appendTokens seqId layer kNew vNew env =>
    let grown := s.cache.growSlotBuffer (kNew.dim 0) env.slotAlloc
    if s.cache.ReachesGrowth seqId layer kNew vNew ∧ grown.2.isOk then
      some ⟨grown.1.slotMappingDevice, s.cache.grownElements s.elements (kNew.dim 0) env.slotAlloc,
        kNew.dim 0⟩
    else none
  | _ => none

/-! ## What a call does to the buffer -/

section Effect

variable (c : PagedKVCache) (seqId layer : ℤ) (kNew vNew : Tensor) (env : AppendEnv)

/-- Storing tokens touches neither the slot buffer nor its capacity. -/
theorem storeTokens_slotBuffer (seq : ℕ) (launch : LaunchOutcome) :
    (c.storeTokens seq layer kNew vNew launch).1.slotMappingCapacity = c.slotMappingCapacity ∧
      (c.storeTokens seq layer kNew vNew launch).1.slotMappingDevice = c.slotMappingDevice := by
  simp only [storeTokens]
  split_ifs <;> exact ⟨rfl, rfl⟩

theorem resetSeq_slotBuffer (resetEnv : ResetEnv) :
    (c.resetSeq seqId resetEnv).1.slotMappingCapacity = c.slotMappingCapacity ∧
      (c.resetSeq seqId resetEnv).1.slotMappingDevice = c.slotMappingDevice := by
  simp only [resetSeq]
  split_ifs <;> exact ⟨rfl, rfl⟩

/-- The capacity test does not look at the page table. -/
theorem growSlotBuffer_refreshRow (seq numNew : ℕ) (slotAlloc : Option (ℕ → ℤ)) :
    (c.refreshRow seq).growSlotBuffer numNew slotAlloc =
      ((c.growSlotBuffer numNew slotAlloc).1.refreshRow seq, (c.growSlotBuffer numNew slotAlloc).2) :=
  growSlotBuffer_map (·.refreshRow seq) rfl (fun _ _ => rfl) numNew slotAlloc

/-- After `writeTokens` the capacity is that of the capacity test, and the buffer is there if it was then. -/
theorem writeTokens_slotBuffer (seq : ℕ) :
    let r := (c.writeTokens seq layer kNew vNew env).1
    let grown := (c.growSlotBuffer (kNew.dim 0) env.slotAlloc).1
    if ((c.refreshRow seq).nextSlots seq (kNew.dim 0)).isOk then
      r.slotMappingCapacity = grown.slotMappingCapacity ∧
        r.slotMappingDevice.isSome = grown.slotMappingDevice.isSome
    else r.slotMappingCapacity = c.slotMappingCapacity ∧
      r.slotMappingDevice.isSome = c.slotMappingDevice.isSome := by
  simp only [writeTokens, growSlotBuffer_refreshRow]
  cases (c.refreshRow seq).nextSlots seq (kNew.dim 0) with
  | error e => exact ⟨rfl, rfl⟩
  | ok slots =>
    simp only [Except.isOk, Except.toBool, if_true]
    split_ifs with hgrown
    · obtain ⟨hcapacity, hdevice⟩ := (((c.growSlotBuffer (kNew.dim 0) env.slotAlloc).1.refreshRow
        seq).uploadSlots slots).storeTokens_slotBuffer layer kNew vNew seq env.launch
      rw [hcapacity, hdevice]
      exact ⟨rfl, Option.isSome_map⟩
    · exact ⟨rfl, rfl⟩

/-- A call leaves the buffer as the capacity test does, where it comes to it. -/
theorem appendTokens_slotBuffer :
    let r := (c.appendTokens seqId layer kNew vNew env).1
    let grown := (c.growSlotBuffer (kNew.dim 0) env.slotAlloc).1
    if c.ReachesGrowth seqId layer kNew vNew then
      r.slotMappingCapacity = grown.slotMappingCapacity ∧
        r.slotMappingDevice.isSome = grown.slotMappingDevice.isSome
    else r.slotMappingCapacity = c.slotMappingCapacity ∧
      r.slotMappingDevice.isSome = c.slotMappingDevice.isSome := by
  obtain ⟨blocks, owned, hreserved⟩ := c.reserveBlocks_eq seqId.toNat (kNew.dim 0)
  by_cases hreach : c.ReachesBuffer seqId layer kNew vNew
  · have hwrite := (c.reserveBlocks seqId.toNat (kNew.dim 0)).1.writeTokens_slotBuffer layer kNew vNew env
      seqId.toNat
    rw [← c.appendTokens_of_reaches seqId layer kNew vNew hreach env] at hwrite
    have hgrow : (((c.reserveBlocks seqId.toNat (kNew.dim 0)).1.growSlotBuffer (kNew.dim 0)
          env.slotAlloc).1.slotMappingCapacity =
        (c.growSlotBuffer (kNew.dim 0) env.slotAlloc).1.slotMappingCapacity) ∧
        ((c.reserveBlocks seqId.toNat (kNew.dim 0)).1.growSlotBuffer (kNew.dim 0)
          env.slotAlloc).1.slotMappingDevice =
        (c.growSlotBuffer (kNew.dim 0) env.slotAlloc).1.slotMappingDevice := by
      rw [hreserved]
      simp only [growSlotBuffer]
      split_ifs
      · cases env.slotAlloc <;> exact ⟨rfl, rfl⟩
      · exact ⟨rfl, rfl⟩
    simp only [hgrow] at hwrite ⊢
    simp only [ReachesGrowth, ownSlots, hreach, true_and]
    rw [hreserved] at hwrite ⊢
    exact hwrite
  · have hnot : ¬ c.ReachesGrowth seqId layer kNew vNew := fun h => hreach h.1
    simp only [if_neg hnot, appendTokens]
    by_cases hcheck : (c.checkAppend seqId layer kNew vNew).isOk
    · have hres : ¬ (c.reserveBlocks seqId.toNat (kNew.dim 0)).2.isOk :=
        fun hres => hreach ⟨hcheck, hres⟩
      rw [if_neg (not_not.2 hcheck), if_pos hres, hreserved]
      exact ⟨rfl, rfl⟩
    · rw [if_pos hcheck]
      exact ⟨rfl, rfl⟩

end Effect

/-! ## The invariant -/

namespace SlotState

/-- What always holds: a buffer that is not there has no elements, and one that is there is as large as its
recorded capacity. -/
structure Consistent (s : SlotState) : Prop where
  none : s.cache.slotMappingDevice = none → s.elements = 0
  some : s.cache.slotMappingDevice.isSome → s.cache.slotMappingCapacity ≤ s.elements

/-- The recorded capacity is available. -/
def CapacityBacked (s : SlotState) : Prop := s.cache.slotMappingCapacity ≤ s.elements

/-- The call does not lose a buffer: no allocation fails while a capacity is recorded. -/
def KeepsBuffer (s : SlotState) : Call → Prop
  | .appendTokens seqId layer kNew vNew env =>
    s.cache.ReachesGrowth seqId layer kNew vNew → s.cache.slotMappingCapacity < kNew.dim 0 →
      env.slotAlloc = Option.none → s.cache.slotMappingCapacity = 0
  | _ => True

/-- What a call does to buffer, capacity and elements: nothing, lose the buffer, or make a larger one. -/
theorem step_cases (s : SlotState) (call : Call) :
    ((s.step call).cache.slotMappingCapacity = s.cache.slotMappingCapacity ∧
      (s.step call).cache.slotMappingDevice.isSome = s.cache.slotMappingDevice.isSome ∧
      (s.step call).elements = s.elements ∧ s.KeepsBuffer call) ∨
    ((s.step call).cache.slotMappingCapacity = s.cache.slotMappingCapacity ∧
      (s.step call).cache.slotMappingDevice.isSome = false ∧ (s.step call).elements = 0 ∧
      (s.KeepsBuffer call ↔ s.cache.slotMappingCapacity = 0)) ∨
    ((s.step call).cache.slotMappingCapacity = (s.step call).elements ∧
      (s.step call).cache.slotMappingDevice.isSome ∧ 0 < (s.step call).elements ∧
      s.KeepsBuffer call) := by
  cases call with
  | resetSeq seqId env =>
    obtain ⟨hcapacity, hdevice⟩ := s.cache.resetSeq_slotBuffer seqId env
    exact .inl ⟨hcapacity, congrArg Option.isSome hdevice, rfl, trivial⟩
  | syncPageTable =>
    obtain ⟨device, synced, heq⟩ := s.cache.syncPageTable_eq
    simp only [step, PagedKVCache.step, heq]
    exact .inl ⟨trivial, trivial, trivial, trivial⟩
  | forceSyncPageTable =>
    obtain ⟨device, synced, heq⟩ := s.cache.forceSyncPageTable_eq
    simp only [step, PagedKVCache.step, heq]
    exact .inl ⟨trivial, trivial, trivial, trivial⟩
  | appendTokens seqId layer kNew vNew env =>
    have heffect := s.cache.appendTokens_slotBuffer seqId layer kNew vNew env
    simp only [step, PagedKVCache.step, KeepsBuffer]
    have htokens : 0 < max (kNew.dim 0) 1024 := by omega
    by_cases hreach : s.cache.ReachesGrowth seqId layer kNew vNew
    swap
    · simp only [if_neg hreach] at heffect ⊢
      exact .inl ⟨heffect.1, heffect.2, trivial, fun h => absurd h hreach⟩
    simp only [if_pos hreach] at heffect ⊢
    obtain ⟨hcapacity, hdevice⟩ := heffect
    rw [hcapacity, hdevice]
    by_cases hgrow : s.cache.slotMappingCapacity < kNew.dim 0
    · simp only [growSlotBuffer, grownElements, if_pos hgrow]
      cases halloc : env.slotAlloc with
      | none => exact .inr (.inl ⟨rfl, rfl, rfl, by simp [hreach, hgrow]⟩)
      | some cells => exact .inr (.inr ⟨rfl, rfl, htokens, by simp⟩)
    · simp only [growSlotBuffer, grownElements, if_neg hgrow]
      exact .inl ⟨trivial, trivial, trivial, fun _ h => absurd h hgrow⟩

/-- Every call keeps buffer and elements consistent. -/
theorem Consistent.step {s : SlotState} (h : s.Consistent) (call : Call) : (s.step call).Consistent := by
  obtain ⟨hcapacity, hdevice, helements, -⟩ | ⟨-, hdevice, helements, -⟩ |
    ⟨hcapacity, hdevice, -⟩ :=
    s.step_cases call
  · refine ⟨fun hnone => ?_, fun hsome => ?_⟩
    · rw [helements]
      exact h.none (Option.isNone_iff_eq_none.1 (by simp_all))
    · rw [hcapacity, helements]
      exact h.some (hdevice ▸ hsome)
  · exact ⟨fun _ => helements, fun hsome => by simp_all⟩
  · exact ⟨fun hnone => by simp_all, fun _ => hcapacity.le⟩

/-- Where the capacity is backed, a call keeps it so exactly when it does not lose a buffer. -/
theorem capacityBacked_step_iff {s : SlotState} (hbacked : s.CapacityBacked) (call : Call) :
    (s.step call).CapacityBacked ↔ s.KeepsBuffer call := by
  unfold CapacityBacked at *
  obtain ⟨hcapacity, -, helements, hkeeps⟩ | ⟨hcapacity, -, helements, hkeeps⟩ |
    ⟨hcapacity, -, -, hkeeps⟩ :=
    s.step_cases call
  · rw [hcapacity, helements]
    exact iff_of_true hbacked hkeeps
  · rw [hcapacity, helements, hkeeps]
    exact Nat.le_zero
  · exact iff_of_true hcapacity.le hkeeps

/-- A copy made where the capacity is backed stays inside. -/
theorem CapacityBacked.upload_inside {s : SlotState} (h : s.CapacityBacked) (hs : s.Consistent)
    {call : Call} {u : Upload} (hu : s.upload call = some u) : u.Inside := by
  cases call with
  | resetSeq seqId env => cases hu
  | syncPageTable => cases hu
  | forceSyncPageTable => cases hu
  | appendTokens seqId layer kNew vNew env =>
    simp only [upload, Option.ite_none_right_eq_some] at hu
    obtain ⟨⟨⟨⟨hcheck, -⟩, -⟩, hok⟩, hu⟩ := hu
    obtain rfl := Option.some.inj hu
    by_cases hgrow : s.cache.slotMappingCapacity < kNew.dim 0
    · simp only [growSlotBuffer, if_pos hgrow] at hok
      cases halloc : env.slotAlloc with
      | none =>
        rw [halloc] at hok
        exact absurd hok (not_isOk_makeStatus _ _)
      | some cells =>
        simp only [Upload.Inside, growSlotBuffer, grownElements, if_pos hgrow]
        exact ⟨rfl, le_max_left _ _⟩
    · simp only [Upload.Inside, growSlotBuffer, grownElements, if_neg hgrow]
      have hle : kNew.dim 0 ≤ s.elements := (Nat.le_of_not_lt hgrow).trans h
      refine ⟨?_, hle⟩
      -- a token is appended, so the buffer has elements
      have hpos := (checkAppend_isOk hcheck).tokens_pos
      by_contra hnone
      have := hs.none (by simpa using hnone)
      omega

end SlotState

/-- The invariant of the slot buffer over a run: in every state the recorded capacity is available, and
every copy of slots stays inside a buffer that is there. -/
structure SlotBufferSound (s : SlotState) (calls : List Call) : Prop where
  backed : ∀ pre, pre <+: calls → (s.run pre).CapacityBacked
  inside : ∀ pre call, pre ++ [call] <+: calls → ∀ u, (s.run pre).upload call = some u → u.Inside

/-- A run is sound exactly when no call of it loses a buffer. -/
theorem slotBufferSound_iff {cfg : KVCacheConfig} {env : PagedEnv} {c : PagedKVCache}
    (hcreate : PagedKVCache.create cfg env = .ok c) (calls : List Call) :
    SlotBufferSound ⟨c, 0⟩ calls ↔
      ∀ pre call, pre ++ [call] <+: calls → (SlotState.run ⟨c, 0⟩ pre).KeepsBuffer call := by
  obtain ⟨storage, blocks, -, -, rfl⟩ := create_eq_ok hcreate
  generalize hs₀ : (⟨_, 0⟩ : SlotState) = s₀
  have hconsistent : s₀.Consistent := by
    subst hs₀
    exact ⟨fun _ => rfl, fun _ => le_rfl⟩
  have hbacked : s₀.CapacityBacked := by
    subst hs₀
    exact le_rfl
  have hconsistent_step (s : SlotState) (call : Call) (hs : s.Consistent) : (s.step call).Consistent :=
    hs.step call
  have hbacked_step (s : SlotState) (call : Call) (_ : s.Consistent) (hs : s.CapacityBacked) :
      (s.step call).CapacityBacked ↔ s.KeepsBuffer call := SlotState.capacityBacked_step_iff hs call
  have hruns := Runs.forall_prefix_iff SlotState.step SlotState.KeepsBuffer hconsistent_step hbacked_step
    hconsistent hbacked calls
  refine ⟨fun hsound => hruns.1 hsound.backed, fun hkeeps => ⟨hruns.2 hkeeps, ?_⟩⟩
  intro pre call hpre u hu
  have hpre' := (List.prefix_append pre [call]).trans hpre
  exact (hruns.2 hkeeps pre hpre').upload_inside
    (Runs.invariant SlotState.step hconsistent_step hconsistent pre) hu

/-- A first append, made where nothing is recorded, may fail without harm; the second makes the buffer. -/
theorem slotBufferSound_tiny : ∃ c, PagedKVCache.create (tinyConfig 1 1 2) zeroEnv = .ok c ∧
    SlotBufferSound ⟨c, 0⟩
      [.appendTokens 0 0 (tokenTensor 1 1 fun _ => 1) (tokenTensor 1 1 fun _ => 1) slotAllocFails,
        .appendTokens 0 0 (tokenTensor 1 1 fun _ => 1) (tokenTensor 1 1 fun _ => 1) appendOk] := by
  obtain ⟨c, hc⟩ : ∃ c, PagedKVCache.create (tinyConfig 1 1 2) zeroEnv = .ok c := ⟨_, rfl⟩
  refine ⟨c, hc, (slotBufferSound_iff hc _).2 ?_⟩
  obtain rfl := Except.ok.inj hc
  rintro pre call ⟨rest, hrest⟩
  rcases pre with _ | ⟨_, _ | ⟨_, pre⟩⟩
  · cases hrest
    exact fun _ _ _ => rfl
  · cases hrest
    exact fun _ _ h => absurd h (by simp [appendOk])
  · simp at hrest

/-- The buffer of a first append is lost by a second that needs a larger one; the recorded capacity of 1024
stays, and a third append copies its slot to a null pointer. -/
theorem not_slotBufferSound_lost : ∃ c, PagedKVCache.create (tinyConfig 1 64 32) zeroEnv = .ok c ∧
    let calls : List Call :=
      [.appendTokens 0 0 (tokenTensor 1 1 fun _ => 1) (tokenTensor 1 1 fun _ => 1) appendOk,
        .appendTokens 0 0 (tokenTensor 1025 1 fun _ => 1) (tokenTensor 1025 1 fun _ => 1) slotAllocFails,
        .appendTokens 1 0 (tokenTensor 1 1 fun _ => 2) (tokenTensor 1 1 fun _ => 2) appendOk]
    ¬ SlotBufferSound ⟨c, 0⟩ calls := by
  refine ⟨_, rfl, fun hsound => ?_⟩
  have hback := hsound.backed _ (List.take_prefix 2 _)
  exact absurd hback (by unfold SlotState.CapacityBacked; decide +kernel)

end PagedKVCache

end SciAttention

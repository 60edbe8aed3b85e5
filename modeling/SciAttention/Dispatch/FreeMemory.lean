import SciAttention.Dispatch.Sizing

/-!
# The default workspace limit and free memory

Without an explicit limit the naive backend takes half of `free_mem_bytes` of
`DeviceCapability::ForDevice(0)`, a snapshot that is taken once and again only by `Refresh`.
`ProbeState` is that cache beside what a probe would show now; free memory changes between calls
as it likes. The memory that the limit is held against is that of device 0 throughout, as the
backend asks for device 0 on whatever device its tensors are; other devices are in the model
because the capability interface and the pool take their ids.
-/

namespace SciAttention

open Results

/-! ## The capability cache -/

/-- `Cache()`, what `Probe` returns for each device now, and `CudaAvailable()`. -/
structure ProbeState where
  cache : ℤ → Option DeviceCapability := fun _ => none
  probe : ℤ → DeviceCapability
  cudaAvailable : Bool

namespace ProbeState

/-- `DeviceCapability::ForDevice`. -/
def forDevice (s : ProbeState) (deviceId : ℤ) : ProbeState × DeviceCapability :=
  match s.cache deviceId with
  | some cap => (s, cap)
  | none =>
    ({ s with cache := Function.update s.cache deviceId (some (s.probe deviceId)) }, s.probe deviceId)

/-- `DeviceCapability::Refresh`. -/
def refresh (s : ProbeState) (deviceId : ℤ) : ProbeState :=
  { s with cache := Function.update s.cache deviceId (some (s.probe deviceId)) }

/-- The free memory of a device becomes `free`. -/
def setFree (s : ProbeState) (deviceId : ℤ) (free : ℕ) : ProbeState :=
  { s with probe := Function.update s.probe deviceId { s.probe deviceId with freeMemBytes := free } }

/-- The memory that is free now on device 0, the one device whose memory the backend looks at. -/
def freeNow (s : ProbeState) : ℕ := (s.probe 0).freeMemBytes

/-- The device as a backend sees it. -/
def device (s : ProbeState) : Device := { cudaAvailable := s.cudaAvailable, cap := (s.forDevice 0).2 }

end ProbeState

/-! ## Events -/

/-- What happens between two moments of a run: the free memory of a device changes, the capability interface
is called, or the naive backend is, by `Supports` or by `Forward` with the state of the scratch pool. -/
inductive ProbeEvent (𝕜 : Type) where
  | memory (deviceId : ℤ) (free : ℕ)
  | forDevice (deviceId : ℤ)
  | refresh (deviceId : ℤ)
  | supports (cfg : AttentionConfig 𝕜) (shape : AttentionShape)
  | forward (q k v : Tensor) (cfg : AttentionConfig 𝕜) (pool : ScratchPool) (deviceId : ℤ) (alloc : Bool)

section Events

variable {𝕜 : Type} [Field 𝕜] [LinearOrder 𝕜] (num : Numerics 𝕜)

namespace ProbeEvent

/-- A call of the naive backend that leaves the limit to the backend. -/
def defaultLimit : ProbeEvent 𝕜 → Bool
  | .supports cfg _ => cfg.workspaceLimitBytes == 0
  | .forward _ _ _ cfg _ _ _ => cfg.workspaceLimitBytes == 0
  | _ => false

/-- The call comes to `EffectiveWorkspaceLimit`: `Supports` after its other tests, `Forward` after
`InferShape` and `Validate`. -/
def asksLimit (s : ProbeState) : ProbeEvent 𝕜 → Bool
  | .supports cfg shape =>
    s.cudaAvailable && decide (¬ supportedHeadDimIndex shape.headDim < 0) &&
      decide (¬ cfg.slidingWindow > 0)
  | .forward q k v cfg _ _ _ => (inferValid num q k v cfg).toBool
  | _ => false

/-- The limit that a call compares with. -/
def limit (s : ProbeState) : ProbeEvent 𝕜 → ℕ
  | .supports cfg _ => effectiveWorkspaceLimit s.device cfg
  | .forward _ _ _ cfg _ _ _ => effectiveWorkspaceLimit s.device cfg
  | _ => 0

/-- The bytes of the score matrix that `Forward` acquires, if it comes to that. -/
def acquired (s : ProbeState) : ProbeEvent 𝕜 → Option ℕ
  | .forward q k v cfg pool deviceId alloc =>
    let bytes : Except Status ℕ := do
      let shape ← inferValid num q k v cfg
      let _ ← naiveScratch num cfg s.device q.dtype shape pool deviceId alloc
      return scoreBytes shape
    bytes.toOption
  | _ => none

end ProbeEvent

/-- The state after one event. -/
def ProbeState.step (s : ProbeState) (e : ProbeEvent 𝕜) : ProbeState :=
  match e with
  | .memory deviceId free => s.setFree deviceId free
  | .forDevice deviceId => (s.forDevice deviceId).1
  | .refresh deviceId => s.refresh deviceId
  | e => if e.asksLimit num s && e.defaultLimit then (s.forDevice 0).1 else s

/-- The state after a sequence of events. -/
def ProbeState.run (s : ProbeState) (events : List (ProbeEvent 𝕜)) : ProbeState :=
  events.foldl (ProbeState.step num) s

/-! ## Following the free memory -/

/-- A call compares with half of the memory that is free now, and acquires no more than that. -/
structure FollowsFree (s : ProbeState) (e : ProbeEvent 𝕜) : Prop where
  limit : e.asksLimit num s = true → e.limit s = s.freeNow / 2
  acquired : ∀ bytes, e.acquired num s = some bytes → bytes ≤ s.freeNow / 2

/-- A snapshot of device 0, if there is one, shows the memory that is free now, as far as its half goes. -/
def ProbeState.SnapshotCurrent (s : ProbeState) : Prop :=
  ∀ cap, s.cache 0 = some cap → cap.freeMemBytes / 2 = s.freeNow / 2

/-- The snapshot is current when it is asked for; and where half of the free memory is no byte, which the
backend takes for no limit, the request is rejected for another reason. -/
def AskedWhenCurrent (s : ProbeState) : ProbeEvent 𝕜 → Prop
  | .supports cfg shape =>
    (ProbeEvent.supports cfg shape).asksLimit num s = true → s.SnapshotCurrent
  | .forward q k v cfg pool deviceId alloc => ∀ shape, inferValid num q k v cfg = .ok shape →
    s.SnapshotCurrent ∧
      (s.freeNow / 2 ≠ 0 ∨ NaiveRejects num cfg s.device q.dtype shape pool deviceId alloc)
  | _ => True

omit [Field 𝕜] [LinearOrder 𝕜] in
/-- The default limit is half of what the snapshot shows. -/
theorem limit_device {s : ProbeState} {cfg : AttentionConfig 𝕜} (hdefault : cfg.workspaceLimitBytes = 0) :
    effectiveWorkspaceLimit s.device cfg = s.freeNow / 2 ↔ s.SnapshotCurrent := by
  rw [effectiveWorkspaceLimit, if_neg (not_not.2 hdefault)]
  simp only [ProbeState.device, ProbeState.forDevice, ProbeState.SnapshotCurrent]
  cases s.cache 0 with
  | none => simp [ProbeState.freeNow]
  | some cap => simp

variable {num}

theorem asksLimit_forward {s : ProbeState} {q k v : Tensor} {cfg : AttentionConfig 𝕜} {pool : ScratchPool}
    {deviceId : ℤ} {alloc : Bool} :
    (ProbeEvent.forward q k v cfg pool deviceId alloc).asksLimit num s = true ↔
      ∃ shape, inferValid num q k v cfg = .ok shape := by
  simp only [ProbeEvent.asksLimit]
  cases inferValid num q k v cfg <;> simp [Except.toBool]

theorem acquired_forward {s : ProbeState} {q k v : Tensor} {cfg : AttentionConfig 𝕜} {pool : ScratchPool}
    {deviceId : ℤ} {alloc : Bool} {bytes : ℕ} :
    (ProbeEvent.forward q k v cfg pool deviceId alloc).acquired num s = some bytes ↔
      ∃ shape, inferValid num q k v cfg = .ok shape ∧
        (∃ buffer, naiveScratch num cfg s.device q.dtype shape pool deviceId alloc = .ok buffer) ∧
        scoreBytes shape = bytes := by
  simp only [ProbeEvent.acquired]
  cases inferValid num q k v cfg with
  | error e => simp [Except.toOption]
  | ok shape =>
    cases hscratch : naiveScratch num cfg s.device q.dtype shape pool deviceId alloc with
    | error e => simp [Except.toOption, hscratch]
    | ok buffer => simp [Except.toOption, hscratch]

/-- One call follows the free memory exactly when the snapshot is current at that call. -/
theorem followsFree_iff {s : ProbeState} {e : ProbeEvent 𝕜} (hdefault : e.defaultLimit = true) :
    FollowsFree num s e ↔ AskedWhenCurrent num s e := by
  cases e with
  | memory deviceId free => cases hdefault
  | forDevice deviceId => cases hdefault
  | refresh deviceId => cases hdefault
  | supports cfg shape =>
    have hlimit : (ProbeEvent.supports cfg shape).limit s = s.freeNow / 2 ↔ s.SnapshotCurrent :=
      limit_device (by simpa [ProbeEvent.defaultLimit] using hdefault)
    refine ⟨fun h hasks => hlimit.1 (h.limit hasks), fun h => ⟨fun hasks => hlimit.2 (h hasks), ?_⟩⟩
    intro bytes hbytes
    cases hbytes
  | forward q k v cfg pool deviceId alloc =>
    have hlimit : effectiveWorkspaceLimit s.device cfg = s.freeNow / 2 ↔ s.SnapshotCurrent :=
      limit_device (by simpa [ProbeEvent.defaultLimit] using hdefault)
    constructor
    · intro h shape hshape
      refine ⟨hlimit.1 (h.limit (asksLimit_forward.2 ⟨shape, hshape⟩)), ?_⟩
      by_contra! hnot
      obtain ⟨buffer, hok⟩ := naiveScratch_isOk_iff.2 hnot.2
      have hle := h.acquired _ (acquired_forward.2 ⟨shape, hshape, ⟨buffer, hok⟩, rfl⟩)
      -- an empty request to the pool is refused
      rw [hnot.1, Nat.le_zero, scoreBytes_eq] at hle
      exact hnot.2 (.inr (.inr (.inr (.inl hle))))
    · intro h
      refine ⟨fun hasks => ?_, fun bytes hbytes => ?_⟩
      · obtain ⟨shape, hshape⟩ := asksLimit_forward.1 hasks
        exact hlimit.2 (h shape hshape).1
      · obtain ⟨shape, hshape, ⟨buffer, hok⟩, rfl⟩ := acquired_forward.1 hbytes
        obtain ⟨hcurrent, hfree⟩ := h shape hshape
        have hfree := hfree.resolve_right (naiveScratch_isOk_iff.1 ⟨buffer, hok⟩)
        have hgate := (naiveScratch_eq_ok.1 hok).2.1
        rw [hlimit.2 hcurrent] at hgate
        rw [scoreBytes_eq]
        by_contra hgt
        exact hgate ⟨hfree, not_le.1 hgt⟩

/-- Until the memory of device 0 changes, a refreshed snapshot stays current. -/
theorem snapshotCurrent_of_refresh (num : Numerics 𝕜) (s : ProbeState) (pre mid : List (ProbeEvent 𝕜))
    (hmid : ∀ free, ProbeEvent.memory 0 free ∉ mid) :
    ((s.run num (pre ++ [.refresh 0])).run num mid).SnapshotCurrent := by
  -- the snapshot is the probe itself
  have hexact : ∀ s' : ProbeState, s'.cache 0 = some (s'.probe 0) →
      (s'.run num mid).cache 0 = some ((s'.run num mid).probe 0) := by
    induction mid with
    | nil => exact fun _ h => h
    | cons e mid ih =>
      intro s' h
      refine ih (fun free hmem => hmid free (List.mem_cons_of_mem _ hmem)) (s'.step num e) ?_
      have hfor (deviceId : ℤ) :
          (s'.forDevice deviceId).1.cache 0 = some ((s'.forDevice deviceId).1.probe 0) := by
        unfold ProbeState.forDevice
        cases hcache : s'.cache deviceId with
        | some cap => exact h
        | none =>
          obtain rfl | hne := eq_or_ne deviceId 0
          · simp
          · simp only [Function.update_of_ne hne.symm]
            exact h
      have hcall (b : Bool) : (if b then (s'.forDevice 0).1 else s').cache 0 =
          some ((if b then (s'.forDevice 0).1 else s').probe 0) := by
        cases b
        · exact h
        · exact hfor 0
      cases e with
      | memory deviceId free =>
        have hne : (0 : ℤ) ≠ deviceId := by
          rintro rfl
          exact hmid free List.mem_cons_self
        simp only [ProbeState.step, ProbeState.setFree, Function.update_of_ne hne]
        exact h
      | forDevice deviceId => exact hfor deviceId
      | refresh deviceId =>
        obtain rfl | hne := eq_or_ne deviceId 0
        · simp [ProbeState.step, ProbeState.refresh]
        · simp only [ProbeState.step, ProbeState.refresh, Function.update_of_ne hne.symm]
          exact h
      | supports cfg shape => exact hcall _
      | forward q k v cfg pool deviceId alloc => exact hcall _
  intro cap hcap
  rw [hexact _ ?_, Option.some.injEq] at hcap
  · rw [← hcap]
    rfl
  · simp [ProbeState.run, ProbeState.step, ProbeState.refresh]

/-- Along a run every call of the naive backend with the default limit follows the free memory exactly when it
is made while the snapshot is current. -/
theorem followsFree_run_iff (num : Numerics 𝕜) (s : ProbeState) (events : List (ProbeEvent 𝕜)) :
    (∀ pre e, pre ++ [e] <+: events → e.defaultLimit = true → FollowsFree num (s.run num pre) e) ↔
      ∀ pre e, pre ++ [e] <+: events → e.defaultLimit = true → AskedWhenCurrent num (s.run num pre) e :=
  forall₂_congr fun _ _ => forall₂_congr fun _ hdefault => followsFree_iff hdefault

end Events

/-- Half-precision rows of one head. -/
def headTensor : Tensor := { dims := [1, 1, 1024, 32], dtype := .float16, data := none }

/-- With 8 GiB free the capability is asked for; then all but 1 MiB is taken, and a score matrix of 4 MiB is
still acquired. -/
theorem not_followsFree_stale :
    ¬ ∀ pre e, pre ++ [e] <+: [.forDevice 0, .memory 0 (2 ^ 20),
        .forward headTensor headTensor headTensor (sampleConfig .naive false) {} 0 true] →
      e.defaultLimit = true →
      FollowsFree realNumerics
        (ProbeState.run realNumerics
          { probe := fun _ => sampleDevice.cap, cudaAvailable := true } pre) e := by
  intro h
  have hfollows := h [.forDevice 0, .memory 0 (2 ^ 20)] _ (List.prefix_rfl) rfl
  have hshape : inferValid realNumerics headTensor headTensor headTensor (sampleConfig .naive false) =
      .ok (sampleShape 1024 1024 32) := by
    have hvalid : (validate realNumerics (sampleConfig .naive false) (sampleShape 1024 1024 32)).isOk :=
      validate_sample (by decide) (by decide) (by decide)
    have hinfer : inferShape headTensor headTensor headTensor (sampleConfig .naive false).layout =
        .ok (sampleShape 1024 1024 32) := rfl
    simp only [inferValid, hinfer, ok_bind, Status.require, hvalid, if_true, pure_eq_ok]
  have hacquired :=
    hfollows.acquired (2 ^ 22) (acquired_forward.2 ⟨_, hshape, ⟨⟨0, 5246976⟩, ?_⟩, rfl⟩)
  · exact absurd hacquired (by decide)
  · refine naiveScratch_eq_ok.2 ⟨validate_sample (by decide) (by decide) (by decide), ?_, rfl, by decide⟩
    have hlimit : effectiveWorkspaceLimit (ProbeState.run realNumerics
        { probe := fun _ => sampleDevice.cap, cudaAvailable := true }
        [.forDevice 0, .memory 0 (2 ^ 20)]).device (sampleConfig .naive false) = 2 ^ 32 := by
      simp [effectiveWorkspaceLimit, sampleConfig, sampleDevice, ProbeState.run, ProbeState.step,
        ProbeState.device, ProbeState.forDevice, ProbeState.setFree]
    rw [hlimit]
    decide

end SciAttention

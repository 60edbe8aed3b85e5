import SciAttention.KvCache.Kernels

/-!
# KV storage

Model of `KVCache` (`src/kv_cache/kv_cache.cpp`) over the kernels of `kv_cache_kernels.cu`. What the
device decides is an argument: whether an allocation succeeds and what the memory holds then, and
the outcome of every launch. A failed launch may have run any number of its writes.
-/

namespace SciAttention

/-! ## Launches -/

/-- What `runtime::LaunchRaw` returns: `cudaSuccess`, or an error after `executed` of the kernel's
writes were made. -/
inductive LaunchOutcome where
  | ok
  | failed (outOfMemory : Bool) (message : String) (executed : ℕ)
deriving DecidableEq, Repr

namespace LaunchOutcome

/-- `StatusFromCuda`. -/
def status : LaunchOutcome → Status
  | ok => .ok
  | failed true message _ => ⟨.cudaOutOfMemory, message⟩
  | failed false message _ => .cudaError message

/-- The writes that were made. -/
def executed {α : Type} : LaunchOutcome → List α → List α
  | ok, ws => ws
  | failed _ _ n, ws => ws.take n

theorem isOk_status_iff (o : LaunchOutcome) : o.status.isOk ↔ o = ok := by
  rcases o with _ | ⟨_ | _, m, n⟩ <;> simp [status, Status.isOk, Status.cudaError, Status.ok]

theorem executed_subset {α : Type} (o : LaunchOutcome) (ws : List α) : o.executed ws ⊆ ws := by
  cases o with
  | ok => exact List.Subset.refl ws
  | failed _ _ n => exact List.take_subset n ws

end LaunchOutcome

/-! ## State -/

/-- `sca::KVCacheStats`. -/
structure KVCacheStats where
  numBlocks : ℕ := 0
  usedBlocks : ℤ := 0
  freeBlocks : ℕ := 0
  numAppends : ℕ := 0
  numResets : ℕ := 0
  peakBytes : ℕ := 0
  bytes : ℕ := 0
deriving DecidableEq, Repr

/-- `sca::KVCache`: one K and one V buffer per layer. -/
structure KVCache where
  cfg : ValidConfig
  kLayers : ℕ → Bytes
  vLayers : ℕ → Bytes
  stats : KVCacheStats

/-- What the device answers while a cache is created: the free memory, or `none` when
`sca_mem_get_info` fails, and each layer's buffers, `none` for a failed allocation. -/
structure StorageEnv where
  freeBytes : Option ℕ
  kFresh : ℕ → Option Bytes
  vFresh : ℕ → Option Bytes

/-- `std::to_string` of the non-negative double `num / den`: six decimals. -/
def toStringDouble (num den : ℕ) : String :=
  let scaled := (2 * num * 10 ^ 6 + den) / (2 * den)
  let frac := toString (scaled % 10 ^ 6)
  toString (scaled / 10 ^ 6) ++ "." ++ String.ofList (List.replicate (6 - frac.length) '0') ++ frac

namespace KVCache

/-- `KVCache::Create`. `kKvBudgetRatio` is `4 / 5`, so the double comparison is an exact one. -/
def create (cfg : KVCacheConfig) (env : StorageEnv) : Except Status KVCache :=
  if hvalid : (validateConfig cfg).isOk then
    match kvCacheBytes cfg with
    | .error e => .error e
    | .ok bytes =>
      let overBudget := match env.freeBytes with
        | none => none
        | some freeBytes => if 5 * bytes > 4 * freeBytes then some freeBytes else none
      match overBudget with
      | some freeBytes =>
        let suggested := maxBlocksForBudget cfg (4 * freeBytes / (5 * (2 * cfg.numLayers.toNat)))
        .error (makeStatus .kvCapacityExceeded
          ("KV cache needs " ++ toString (bytes / (1024 * 1024)) ++ " MiB but only " ++
            toString (freeBytes / (1024 * 1024)) ++ " MiB is free (budget " ++
            toStringDouble (4 * freeBytes) (5 * (1024 * 1024)) ++
            " MiB); suggest num_blocks <= " ++ toString (max 1 suggested)))
      | none =>
        match (List.range cfg.numLayers.toNat).find? fun layer =>
            (env.kFresh layer).isNone || (env.vFresh layer).isNone with
        | some layer =>
          .error (makeStatus .kvCapacityExceeded
            ("KV cache allocation failed at layer " ++ toString layer ++ " (" ++
              toString (bytes / (1024 * 1024)) ++ " MiB requested)"))
        | none =>
          .ok
            { cfg := cfg.validated hvalid
              kLayers := fun layer => (env.kFresh layer).getD fun _ => 0
              vLayers := fun layer => (env.vFresh layer).getD fun _ => 0
              stats :=
                { numBlocks := cfg.numBlocks.toNat
                  freeBlocks := cfg.numBlocks.toNat
                  bytes := bytes
                  peakBytes := bytes } }
  else .error (validateConfig cfg)

/-- Run the writes `ks` and `vs` on one layer. -/
def storeLayer (c : KVCache) (layer : ℕ) (ks vs : List (ℕ × UInt8)) : KVCache :=
  { c with
    kLayers := Function.update c.kLayers layer (Scatter.apply (c.kLayers layer) ks)
    vLayers := Function.update c.vLayers layer (Scatter.apply (c.vLayers layer) vs) }

/-- `LaunchKvAppend` on one layer; the layers' own pointers are never null. -/
def launchKvAppend (c : KVCache) (layer : ℕ) (kNew vNew : Option Bytes) (slotMapping : ℕ → ℤ)
    (numTokens : ℤ) (launch : LaunchOutcome) : KVCache × Status :=
  match kNew, vNew with
  | some k, some v =>
    if numTokens ≤ 0 then (c, .invalidArgument "kv append: num_tokens <= 0")
    else
      let writes src := launch.executed
        (kvAppendWrites c.cfg.toDeviceShape c.cfg.elemBytes src slotMapping numTokens.toNat)
      (c.storeLayer layer (writes k) (writes v), launch.status)
  | _, _ => (c, .invalidArgument "kv append: null pointer")

/-- `KVCache::Append`. Of `v_new` only the dtype is looked at. -/
def append (c : KVCache) (layer : ℤ) (kNew vNew : Tensor) (slotMapping : Option (ℕ → ℤ))
    (numTokens : ℤ) (launch : LaunchOutcome) : KVCache × Status :=
  if layer < 0 ∨ layer ≥ c.cfg.numLayers then
    (c, makeStatus .shapeMismatch
      ("KVCache::Append layer=" ++ toString layer ++ " out of range [0," ++
        toString c.cfg.numLayers ++ ")"))
  else if kNew.dtype ≠ c.cfg.dtype ∨ vNew.dtype ≠ c.cfg.dtype then
    (c, makeStatus .unsupportedDtype
      ("KVCache::Append dtype mismatch: cache=" ++ dtypeName c.cfg.dtype ++ ", k=" ++
        dtypeName kNew.dtype))
  else if kNew.ndims ≠ 3 ∨ (kNew.dim 0 : ℤ) ≠ numTokens ∨ kNew.dim 1 ≠ c.cfg.numKvHeads ∨
      kNew.dim 2 ≠ c.cfg.headDim then
    (c, makeStatus .shapeMismatch
      ("KVCache::Append expects k_new [num_tokens, num_kv_heads, head_dim]=" ++
        toString numTokens ++ "x" ++ toString c.cfg.numKvHeads ++ "x" ++ toString c.cfg.headDim))
  else
    match slotMapping with
    | none => (c, makeStatus .shapeMismatch "KVCache::Append null slot_mapping")
    | some slots =>
      let r := c.launchKvAppend layer.toNat kNew.data vNew.data slots numTokens launch
      if ¬ r.2.isOk then r
      else ({ r.1 with stats := { r.1.stats with numAppends := r.1.stats.numAppends + 1 } }, .ok)

/-- The loop of `KVCache::Reset`: the first failed launch ends it. -/
def resetLoop (blockIds : ℕ → ℤ) (numBlocks : ℕ) (launch : ℕ → LaunchOutcome) :
    List ℕ → KVCache → KVCache × Status
  | [], c => ({ c with stats := { c.stats with numResets := c.stats.numResets + 1 } }, .ok)
  | layer :: layers, c =>
    let writes := (launch layer).executed
      (kvResetWrites c.cfg.toDeviceShape c.cfg.elemBytes blockIds numBlocks)
    let c' := c.storeLayer layer writes writes
    if ¬ (launch layer).status.isOk then (c', (launch layer).status)
    else resetLoop blockIds numBlocks launch layers c'

/-- `KVCache::Reset`; `blockIds` is what the kernels read through the pointer. -/
def reset (c : KVCache) (blockIds : Option (ℕ → ℤ)) (numBlocks : ℤ) (launch : ℕ → LaunchOutcome) :
    KVCache × Status :=
  match blockIds with
  | none => (c, makeStatus .shapeMismatch "KVCache::Reset null block_ids")
  | some ids =>
    if numBlocks ≤ 0 then (c, .ok)
    else resetLoop ids numBlocks.toNat launch (List.range c.cfg.numLayers) c

/-- The storage of a new cache: its configuration and its buffers. -/
theorem create_eq_ok {cfg : KVCacheConfig} {env : StorageEnv} {c : KVCache}
    (h : create cfg env = .ok c) :
    ∃ hvalid : (validateConfig cfg).isOk, c.cfg = cfg.validated hvalid ∧
      ∀ layer < c.cfg.numLayers,
        env.kFresh layer = some (c.kLayers layer) ∧ env.vFresh layer = some (c.vLayers layer) := by
  unfold create at h
  split_ifs at h with hvalid
  refine ⟨hvalid, ?_⟩
  cases hbytes : kvCacheBytes cfg with
  | error e => simp [hbytes] at h
  | ok bytes =>
    simp only [hbytes] at h
    split at h
    · simp at h
    · split at h
      · simp at h
      next hnone =>
        obtain rfl := Except.ok.inj h
        refine ⟨rfl, fun layer hlayer => ?_⟩
        have hsome := List.find?_eq_none.mp hnone layer (List.mem_range.mpr hlayer)
        simp only [Bool.or_eq_true, Option.isNone_iff_eq_none, not_or] at hsome
        obtain ⟨⟨k, hk⟩, v, hv⟩ := And.imp Option.ne_none_iff_exists'.mp
          Option.ne_none_iff_exists'.mp hsome
        simp [hk, hv]

/-! ## Effects on the buffers -/

/-- The K buffers (`is_key`) or the V buffers. -/
def side (c : KVCache) (isKey : Bool) : ℕ → Bytes := if isKey then c.kLayers else c.vLayers

@[simp] theorem storeLayer_cfg (c : KVCache) (layer : ℕ) (ks vs : List (ℕ × UInt8)) :
    (c.storeLayer layer ks vs).cfg = c.cfg := rfl

theorem storeLayer_side_self (c : KVCache) (layer : ℕ) (ks vs : List (ℕ × UInt8)) (isKey : Bool) :
    (c.storeLayer layer ks vs).side isKey layer =
      Scatter.apply (c.side isKey layer) (if isKey then ks else vs) := by
  cases isKey <;> simp [side, storeLayer]

theorem storeLayer_side_of_ne (c : KVCache) {layer l : ℕ} (h : l ≠ layer)
    (ks vs : List (ℕ × UInt8)) (isKey : Bool) :
    (c.storeLayer layer ks vs).side isKey l = c.side isKey l := by
  cases isKey <;> simp [side, storeLayer, Function.update_of_ne h]

/-- What `append` can do: refuse without touching the buffers, or pass every check and run the
kernel's writes, all of them exactly when the launch succeeds. -/
theorem append_cases (c : KVCache) (layer : ℤ) (kNew vNew : Tensor)
    (slotMapping : Option (ℕ → ℤ)) (numTokens : ℤ) (launch : LaunchOutcome) :
    (∃ e, ¬ e.isOk ∧ c.append layer kNew vNew slotMapping numTokens launch = (c, e)) ∨
    ∃ k v slots, kNew.data = some k ∧ vNew.data = some v ∧ slotMapping = some slots ∧
      (0 ≤ layer ∧ layer < c.cfg.numLayers) ∧
      (kNew.dtype = c.cfg.dtype ∧ vNew.dtype = c.cfg.dtype) ∧
      (kNew.ndims = 3 ∧ (kNew.dim 0 : ℤ) = numTokens ∧ kNew.dim 1 = c.cfg.numKvHeads ∧
        kNew.dim 2 = c.cfg.headDim) ∧
      ∃ c', (c'.cfg = c.cfg ∧ ∀ isKey, c'.side isKey =
          (c.storeLayer layer.toNat
            (launch.executed (kvAppendWrites c.cfg.toDeviceShape c.cfg.elemBytes k slots
              numTokens.toNat))
            (launch.executed (kvAppendWrites c.cfg.toDeviceShape c.cfg.elemBytes v slots
              numTokens.toNat))).side isKey) ∧
        c.append layer kNew vNew slotMapping numTokens launch = (c', launch.status) := by
  simp only [append]
  split_ifs with h1 h2 h3
  · exact .inl ⟨_, not_isOk_makeStatus _ _, rfl⟩
  · exact .inl ⟨_, not_isOk_makeStatus _ _, rfl⟩
  · exact .inl ⟨_, not_isOk_makeStatus _ _, rfl⟩
  cases slotMapping with
  | none => exact .inl ⟨_, not_isOk_makeStatus _ _, rfl⟩
  | some slots =>
    have hbad := Status.not_isOk_invalidArgument
    simp only [launchKvAppend]
    cases hk : kNew.data with
    | none => exact .inl ⟨_, hbad _, if_pos (hbad _)⟩
    | some k =>
      cases hv : vNew.data with
      | none => exact .inl ⟨_, hbad _, if_pos (hbad _)⟩
      | some v =>
        by_cases hn : numTokens ≤ 0
        · simp only [if_pos hn]
          exact .inl ⟨_, hbad _, if_pos (hbad _)⟩
        simp only [not_or, not_lt, not_not, not_le, ge_iff_le, ne_eq] at h1 h2 h3
        refine .inr ⟨k, v, slots, rfl, rfl, rfl, h1, h2, h3, ?_⟩
        simp only [hn, if_false]
        by_cases hok : launch.status.isOk
        · obtain rfl := (launch.isOk_status_iff).mp hok
          refine ⟨_, ?_, if_neg (not_not.mpr hok)⟩
          exact ⟨rfl, fun isKey => rfl⟩
        · refine ⟨_, ?_, if_pos hok⟩
          exact ⟨rfl, fun isKey => rfl⟩

/-- A call keeps the configuration. -/
@[simp] theorem append_cfg (c : KVCache) (layer : ℤ) (kNew vNew : Tensor)
    (slotMapping : Option (ℕ → ℤ)) (numTokens : ℤ) (launch : LaunchOutcome) :
    (c.append layer kNew vNew slotMapping numTokens launch).1.cfg = c.cfg := by
  rcases c.append_cases layer kNew vNew slotMapping numTokens launch with
    ⟨_, -, h⟩ | ⟨_, _, _, -, -, -, -, -, -, c', ⟨hcfg, -⟩, h⟩
  · rw [h]
  · rw [h]
    exact hcfg

/-- Whatever the outcome, a layer changes at most by writes of the append kernel. -/
theorem append_side_subset (c : KVCache) (layer : ℤ) (kNew vNew : Tensor) (slots : ℕ → ℤ)
    (numTokens : ℤ) (launch : LaunchOutcome) (isKey : Bool) (l : ℕ) :
    ∃ src ws, ws ⊆ kvAppendWrites c.cfg.toDeviceShape c.cfg.elemBytes src slots numTokens.toNat ∧
      (c.append layer kNew vNew (some slots) numTokens launch).1.side isKey l =
        Scatter.apply (c.side isKey l) ws := by
  rcases c.append_cases layer kNew vNew (some slots) numTokens launch with
    ⟨_, -, h⟩ | ⟨k, v, slots', -, -, hslots, -, -, -, c', ⟨-, hside⟩, h⟩
  · exact ⟨fun _ => 0, [], by simp, by rw [h]; rfl⟩
  · obtain rfl := Option.some.inj hslots
    rw [h]
    simp only [hside]
    by_cases hl : l = layer.toNat
    · subst hl
      rw [storeLayer_side_self]
      cases isKey
      · exact ⟨v, _, launch.executed_subset _, rfl⟩
      · exact ⟨k, _, launch.executed_subset _, rfl⟩
    · exact ⟨fun _ => 0, [], by simp, by rw [storeLayer_side_of_ne _ hl]; rfl⟩

/-- The effect of a successful append. -/
theorem append_ok {c : KVCache} {layer : ℤ} {kNew vNew : Tensor} {slots : ℕ → ℤ} {numTokens : ℤ}
    {launch : LaunchOutcome}
    (hok : (c.append layer kNew vNew (some slots) numTokens launch).2.isOk) :
    ∃ k v, kNew.data = some k ∧ vNew.data = some v ∧ (0 ≤ layer ∧ layer < c.cfg.numLayers) ∧
      (kNew.dtype = c.cfg.dtype ∧ vNew.dtype = c.cfg.dtype) ∧
      (kNew.ndims = 3 ∧ (kNew.dim 0 : ℤ) = numTokens ∧ kNew.dim 1 = c.cfg.numKvHeads ∧
        kNew.dim 2 = c.cfg.headDim) ∧
      ∀ isKey l, (c.append layer kNew vNew (some slots) numTokens launch).1.side isKey l =
        if l = layer.toNat then
          Scatter.apply (c.side isKey l) (kvAppendWrites c.cfg.toDeviceShape c.cfg.elemBytes
            (if isKey then k else v) slots numTokens.toNat)
        else c.side isKey l := by
  rcases c.append_cases layer kNew vNew (some slots) numTokens launch with
    ⟨_, hbad, h⟩ | ⟨k, v, slots', hk, hv, hslots, hlayer, hdtype, hshape, c', ⟨-, hside⟩, h⟩
  · exact absurd (by simpa [h] using hok) hbad
  · obtain rfl := Option.some.inj hslots
    rw [h] at hok ⊢
    obtain rfl := (launch.isOk_status_iff).mp hok
    refine ⟨k, v, hk, hv, hlayer, hdtype, hshape, fun isKey l => ?_⟩
    simp only [hside]
    split_ifs with hl hkey
    · subst hl
      rw [storeLayer_side_self, if_pos hkey]
      rfl
    · subst hl
      rw [storeLayer_side_self, if_neg hkey]
      rfl
    · exact storeLayer_side_of_ne _ hl _ _ _

/-! ## Reset -/

@[simp] theorem resetLoop_cfg (ids : ℕ → ℤ) (n : ℕ) (launch : ℕ → LaunchOutcome)
    (layers : List ℕ)
    (c : KVCache) : (resetLoop ids n launch layers c).1.cfg = c.cfg := by
  induction layers generalizing c with
  | nil => rfl
  | cons layer layers ih =>
    simp only [resetLoop]
    split_ifs
    · exact ih _
    · rfl

@[simp] theorem reset_cfg (c : KVCache) (ids : Option (ℕ → ℤ)) (n : ℤ)
    (launch : ℕ → LaunchOutcome) : (c.reset ids n launch).1.cfg = c.cfg := by
  unfold reset
  split
  · rfl
  · split_ifs
    · rfl
    · exact resetLoop_cfg _ _ _ _ _

/-- A layer changes at most by writes of the reset kernel, and not at all when it is not visited. -/
theorem resetLoop_side (ids : ℕ → ℤ) (n : ℕ) (launch : ℕ → LaunchOutcome) (layers : List ℕ)
    (hnd : layers.Nodup) (c : KVCache) (isKey : Bool) (l : ℕ) :
    ∃ ws, ws ⊆ kvResetWrites c.cfg.toDeviceShape c.cfg.elemBytes ids n ∧
      (l ∉ layers → ws = []) ∧
      (resetLoop ids n launch layers c).1.side isKey l = Scatter.apply (c.side isKey l) ws := by
  induction layers generalizing c with
  | nil => exact ⟨[], by simp, fun _ => rfl, rfl⟩
  | cons layer layers ih =>
    obtain ⟨hnotin, hnd'⟩ := List.nodup_cons.mp hnd
    simp only [resetLoop]
    set ws := (launch layer).executed (kvResetWrites c.cfg.toDeviceShape c.cfg.elemBytes ids n)
    have hws : ws ⊆ kvResetWrites c.cfg.toDeviceShape c.cfg.elemBytes ids n :=
      (launch layer).executed_subset _
    obtain ⟨ws', hws', hnil', hrest⟩ := ih hnd' (c.storeLayer layer ws ws)
    -- a layer comes up once, so its writes are those of one launch
    by_cases hl : l = layer
    · subst hl
      have hself : (c.storeLayer l ws ws).side isKey l = Scatter.apply (c.side isKey l) ws := by
        rw [storeLayer_side_self, ite_self]
      refine ⟨ws, hws, fun h => absurd (by simp) h, ?_⟩
      split_ifs
      · rw [hrest, hself, hnil' hnotin, Scatter.apply_nil]
      · exact hself
    · have hne := storeLayer_side_of_ne c hl ws ws isKey
      split_ifs
      · refine ⟨ws', hws', fun h => hnil' fun hm => h (by simp [hm]), ?_⟩
        rw [hrest, hne]
      · exact ⟨[], by simp, fun _ => rfl, hne⟩

/-- When the loop succeeds it ran all writes on every layer it was given. -/
theorem resetLoop_ok {ids : ℕ → ℤ} {n : ℕ} {launch : ℕ → LaunchOutcome} {layers : List ℕ}
    (hnd : layers.Nodup) {c : KVCache} (hok : (resetLoop ids n launch layers c).2.isOk)
    (isKey : Bool) {l : ℕ} (hl : l ∈ layers) :
    (resetLoop ids n launch layers c).1.side isKey l =
      Scatter.apply (c.side isKey l)
        (kvResetWrites c.cfg.toDeviceShape c.cfg.elemBytes ids n) := by
  induction layers generalizing c with
  | nil => simp at hl
  | cons layer layers ih =>
    obtain ⟨hnotin, hnd'⟩ := List.nodup_cons.mp hnd
    simp only [resetLoop] at hok ⊢
    split_ifs at hok ⊢ with hlok
    · have hlaunch := ((launch layer).isOk_status_iff).mp hlok
      rcases List.mem_cons.mp hl with rfl | hl
      · obtain ⟨ws', -, hnil', hrest⟩ := resetLoop_side ids n launch layers hnd'
          (c.storeLayer l _ _) isKey l
        rw [hrest, hnil' hnotin, Scatter.apply_nil, storeLayer_side_self, ite_self, hlaunch]
        rfl
      · have hne : l ≠ layer := fun h => hnotin (h ▸ hl)
        rw [ih hnd' hok hl, storeLayer_side_of_ne _ hne]
        rfl
    · exact absurd hok hlok

/-- A layer changes at most by writes of the reset kernel. -/
theorem reset_side_subset (c : KVCache) (ids : ℕ → ℤ) (n : ℤ) (launch : ℕ → LaunchOutcome)
    (isKey : Bool) (l : ℕ) :
    ∃ ws, ws ⊆ kvResetWrites c.cfg.toDeviceShape c.cfg.elemBytes ids n.toNat ∧
      (c.reset (some ids) n launch).1.side isKey l = Scatter.apply (c.side isKey l) ws := by
  simp only [reset]
  split_ifs with hn
  · exact ⟨[], by simp, rfl⟩
  · obtain ⟨ws, hws, -, h⟩ := resetLoop_side ids n.toNat launch _ List.nodup_range c isKey l
    exact ⟨ws, hws, h⟩

/-- The effect of a successful reset of at least one block. -/
theorem reset_ok {c : KVCache} {ids : ℕ → ℤ} {n : ℤ} {launch : ℕ → LaunchOutcome} (hn : 0 < n)
    (hok : (c.reset (some ids) n launch).2.isOk) (isKey : Bool) {l : ℕ}
    (hl : l < c.cfg.numLayers) :
    (c.reset (some ids) n launch).1.side isKey l =
      Scatter.apply (c.side isKey l)
        (kvResetWrites c.cfg.toDeviceShape c.cfg.elemBytes ids n.toNat) := by
  simp only [reset, if_neg (not_le.mpr hn)] at hok ⊢
  exact resetLoop_ok List.nodup_range hok isKey (List.mem_range.mpr hl)

/-- A reset whose launches succeed succeeds. -/
theorem reset_isOk (c : KVCache) (ids : ℕ → ℤ) (n : ℤ) {launch : ℕ → LaunchOutcome}
    (hlaunch : ∀ layer, launch layer = .ok) : (c.reset (some ids) n launch).2.isOk := by
  simp only [reset]
  split_ifs
  · rfl
  generalize List.range c.cfg.numLayers = layers
  induction layers generalizing c with
  | nil => rfl
  | cons layer layers ih =>
    simp only [resetLoop, hlaunch layer, LaunchOutcome.status, Status.isOk_ok, not_true_eq_false,
      if_false]
    exact ih _

/-- Layers above one whose launch fails keep their buffers. -/
theorem reset_side_of_failed {c : KVCache} {ids : ℕ → ℤ} {n : ℤ} {launch : ℕ → LaunchOutcome}
    {failed l : ℕ} (hfailed : launch failed ≠ .ok) (hl : failed < l)
    (hlayers : failed < c.cfg.numLayers) (isKey : Bool) :
    (c.reset (some ids) n launch).1.side isKey l = c.side isKey l := by
  simp only [reset]
  split_ifs with hn
  · rfl
  obtain ⟨rest, hsplit⟩ : ∃ rest, List.range c.cfg.numLayers =
      List.range failed ++ failed :: rest := by
    obtain ⟨m, hm⟩ := Nat.exists_eq_add_of_lt hlayers
    refine ⟨(List.range m).map (failed + 1 + ·), ?_⟩
    rw [hm, Nat.add_right_comm, List.range_add, List.range_succ, List.append_assoc]
    rfl
  -- the loop leaves at the failed launch, before it comes to `l`
  have hstop : ∀ (before : List ℕ) (c : KVCache) (after : List ℕ), l ∉ before →
      (resetLoop ids n.toNat launch (before ++ failed :: after) c).1.side isKey l =
        c.side isKey l := by
    intro before
    induction before with
    | nil =>
      intro c after _
      have hbad : ¬ (launch failed).status.isOk :=
        fun h => hfailed (((launch failed).isOk_status_iff).mp h)
      simp only [List.nil_append, resetLoop, if_pos hbad]
      exact storeLayer_side_of_ne c (by omega) _ _ isKey
    | cons layer before ih =>
      intro c after hnot
      simp only [List.mem_cons, not_or] at hnot
      simp only [List.cons_append, resetLoop]
      split_ifs
      · rw [ih _ after hnot.2]
        exact storeLayer_side_of_ne c hnot.1 _ _ isKey
      · exact storeLayer_side_of_ne c hnot.1 _ _ isKey
  rw [hsplit]
  exact hstop _ c rest (by simp; omega)

end KVCache

end SciAttention

import SciAttention.Attention.PagedRows
import SciAttention.Examples.RolloutEngine

/-!
# A rollout as a run of the cache

What the calls of the engine bring to each request, when they all succeed, and the two loops as that run with
an answer for every prefill and every decode step.
-/

namespace SciAttention

open Flt Results

/-! ## Storage size -/

namespace PagedKVCache

/-- A store keeps the size of the storage. -/
theorem append_bytes (c : KVCache) (layer : ℤ) (kNew vNew : Tensor) (slots : Option (ℕ → ℤ)) (n : ℤ)
    (launch : LaunchOutcome) : (c.append layer kNew vNew slots n launch).1.stats.bytes = c.stats.bytes := by
  unfold KVCache.append
  split_ifs
  · rfl
  · rfl
  · rfl
  · cases slots with
    | none => rfl
    | some cells =>
      have hlaunch : (c.launchKvAppend layer.toNat kNew.data vNew.data cells n launch).1.stats.bytes =
          c.stats.bytes := by
        unfold KVCache.launchKvAppend
        split
        · split_ifs <;> rfl
        · rfl
      dsimp only
      split_ifs
      · exact hlaunch
      · exact hlaunch

/-- An append keeps the size of the storage. -/
theorem Inv.appendTokens_bytes {c : PagedKVCache} (h : Inv c) (seqId layer : ℤ) (kNew vNew : Tensor)
    (env : AppendEnv) :
    (c.appendTokens seqId layer kNew vNew env).1.storage.stats.bytes = c.storage.stats.bytes := by
  rcases appendTokens_cases h seqId layer kNew vNew env with
    ⟨e, failures, -, heq⟩ | ⟨s, m, ids, c₂, -, -, rfl, hrest⟩
  · rw [heq]
  rcases hrest with ⟨e, st, dev, cap, -, -, hst | ⟨slots, cells, -, -, -, hst⟩, heq⟩ |
    ⟨slots, cells, cap, -, -, -, heq⟩
  · rw [heq, hst]
    rfl
  · rw [heq, hst]
    exact append_bytes _ _ _ _ _ _ _
  · rw [heq]
    exact append_bytes _ _ _ _ _ _ _

/-- A reset keeps the size of the storage. -/
theorem reset_bytes (c : KVCache) (ids : ℕ → ℤ) (n : ℤ) (launch : ℕ → LaunchOutcome) :
    (c.reset (some ids) n launch).1.stats.bytes = c.stats.bytes := by
  have hloop : ∀ (m : ℕ) (layers : List ℕ) (c : KVCache),
      (KVCache.resetLoop ids m launch layers c).1.stats.bytes = c.stats.bytes := by
    intro m layers
    induction layers with
    | nil => exact fun _ => rfl
    | cons layer layers ih =>
      intro c
      rw [KVCache.resetLoop]
      split_ifs
      · exact ih _
      · rfl
  unfold KVCache.reset
  dsimp only
  split_ifs
  · rfl
  · exact hloop _ _ _

/-- No call changes the size of the storage. -/
theorem Inv.run_bytes {c : PagedKVCache} (h : Inv c) (calls : List Call) :
    (c.run calls).storage.stats.bytes = c.storage.stats.bytes := by
  induction calls generalizing c with
  | nil => rfl
  | cons call calls ih =>
    rw [run_cons, ih (h.step call)]
    cases call with
    | appendTokens seqId layer kNew vNew env => exact h.appendTokens_bytes seqId layer kNew vNew env
    | resetSeq seqId env =>
      rw [PagedKVCache.step]
      rcases c.resetSeq_cases seqId env with
        ⟨e, -, heq⟩ | ⟨s, -, -, ⟨-, -, heq⟩ | ⟨st, -, ⟨-, hst⟩ | ⟨-, -, hst⟩, heq⟩⟩
      · rw [heq]
      · rw [heq]
        exact reset_bytes _ _ _ _
      · rw [heq, hst]
        rfl
      · rw [heq, hst]
        exact reset_bytes _ _ _ _
    | syncPageTable =>
      obtain ⟨device, synced, heq⟩ := c.syncPageTable_eq
      rw [PagedKVCache.step, heq]
    | forceSyncPageTable =>
      obtain ⟨device, synced, heq⟩ := c.forceSyncPageTable_eq
      rw [PagedKVCache.step, heq]

end PagedKVCache

namespace Rollout

open PagedKVCache

/-- The blocks that the requests own in the end. -/
def demand (args : Args) : ℕ :=
  ∑ r ∈ Finset.range args.requests, (promptLength r + args.steps) ⌈/⌉ blockSize

section Calls

variable {𝕜 : Type} {dev : Device} (env : Env 𝕜 dev)

/-! ## The calls on one request -/

/-- Of one call for every request, one is about request `s`. -/
theorem filter_map_range {f : ℕ → Call} {s : ℕ} (hf : ∀ r, touches s (f r) = decide (r = s))
    (n : ℕ) :
    ((List.range n).map f).filter (touches s) = if s < n then [f s] else [] := by
  induction n with
  | zero => rfl
  | succ n ih =>
    rw [List.range_succ, List.map_append, List.filter_append, ih, List.map_singleton,
      List.filter_singleton, hf]
    rcases lt_trichotomy s n with hlt | rfl | hgt
    · rw [if_pos hlt, if_pos (by omega), decide_eq_false (by omega)]
      rfl
    · rw [if_neg (lt_irrefl _), if_pos (by omega), decide_eq_true rfl]
      rfl
    · rw [if_neg (by omega), if_neg (by omega), decide_eq_false (by omega)]
      rfl

/-- The calls of a run on request `r`: its prompt, then a token a step. -/
theorem filter_callsBefore {n r : ℕ} (hr : r < n) (m : ℕ) :
    (callsBefore env n m).filter (touches r) =
      promptCall env r :: (List.range m).map fun t => stepCall env t r := by
  have htouch : ∀ s : ℕ, ((s : ℤ) == (r : ℤ)) = decide (s = r) := by
    intro s
    by_cases h : s = r
    · simp [h]
    · rw [decide_eq_false h, beq_eq_false_iff_ne]
      exact_mod_cast h
  have hprompt : ((List.range n).map (promptCall env)).filter (touches r) = [promptCall env r] := by
    have htouches : ∀ s, touches r (promptCall env s) = decide (s = r) := htouch
    rw [filter_map_range htouches, if_pos hr]
  have hstep : ∀ t, (stepCalls env n t).filter (touches r) = [stepCall env t r] := by
    intro t
    have htouches : ∀ s, touches r (stepCall env t s) = decide (s = r) := htouch
    rw [stepCalls, stepAppends, List.filter_append, filter_map_range htouches, if_pos hr]
    rfl
  rw [callsBefore, List.filter_append, hprompt, List.filter_flatMap]
  simp only [hstep, List.singleton_append, ← List.map_eq_flatMap]

/-- The rows of request `r`: those of its prompt, then one a step. -/
def streamRow (r : ℕ) (isKey : Bool) (x : ℕ) : List UInt8 :=
  if x < promptLength r then (if isKey then kPacked env r else vPacked env r).tokenRow x
  else
    (if isKey then kStep env (x - promptLength r) r else vStep env (x - promptLength r) r).tokenRow 0

/-- The rows that the calls on a request bring, in order. -/
def streamRows (r m : ℕ) (isKey : Bool) : List (List UInt8) :=
  (List.range (promptLength r + m)).map (streamRow env r isKey)

theorem streamRows_eq {n r : ℕ} (hr : r < n) (m : ℕ) (isKey : Bool) :
    ((callsBefore env n m).filter (touches r)).flatMap (callRows isKey) = streamRows env r m isKey := by
  rw [filter_callsBefore env hr, List.flatMap_cons, List.flatMap_map, streamRows, List.range_add,
    List.map_append, List.map_map]
  congr 1
  · have hdim : (kPacked env r).dim 0 = promptLength r := rfl
    simp only [promptCall, callRows, hdim]
    refine List.map_congr_left fun x hx => ?_
    rw [streamRow, if_pos (List.mem_range.mp hx)]
  · have hstep : ∀ t, callRows isKey (stepCall env t r) =
      [streamRow env r isKey (promptLength r + t)] := by
      intro t
      rw [streamRow, if_neg (by omega), Nat.add_sub_cancel_left]
      rfl
    simp only [hstep, ← List.map_eq_flatMap]
    rfl

/-- The tokens that the calls on a request bring. -/
theorem tokensFor_callsBefore {n r : ℕ} (hr : r < n) (m : ℕ) :
    tokensFor (callsBefore env n m) r = promptLength r + m := by
  have hprompt : callTokens (promptCall env r) = promptLength r := rfl
  have hstep : ∀ t, callTokens (stepCall env t r) = 1 := fun _ => rfl
  rw [tokensFor, filter_callsBefore env hr, List.map_cons, List.sum_cons, List.map_map, hprompt]
  simp [Function.comp_def, hstep]

/-! ## The cache of a run -/

variable {args : Args} {c : PagedKVCache}

/-- A cache that the engine created. -/
structure Planned (args : Args) (paged : PagedEnv) (c : PagedKVCache) : Prop where
  create : PagedKVCache.create (kvConfig args) paged = .ok c
  slots : (kvConfig args).numBlocks * blockSize < 2 ^ 31

namespace Planned

variable {paged : PagedEnv} (h : Planned args paged c)

include h

theorem inv : Inv c := (Inv.create_of_slots h.create h.slots).1

theorem slots_lt : c.cfg.numBlocks * c.cfg.blockSize < 2 ^ 31 := (Inv.create_of_slots h.create h.slots).2

theorem mirror : MirrorInv c := MirrorInv.create h.create

/-- The configuration of the cache is the planned one. -/
theorem cfg_eq : c.cfg.numLayers = layers ∧ c.cfg.numKvHeads = headsKv ∧ c.cfg.headDim = headDim ∧
    c.cfg.blockSize = blockSize ∧ c.cfg.dtype = .float16 ∧ c.cfg.maxNumSeqs = args.requests ∧
    c.cfg.numBlocks = (kvConfig args).numBlocks := by
  obtain ⟨storage, blocks, hstorage, -, rfl⟩ := create_eq_ok h.create
  obtain ⟨hvalid, hcfg, -⟩ := KVCache.create_eq_ok hstorage
  have hpos := (validateConfig_isOk hvalid).2.2.2.2.1
  dsimp only
  rw [hcfg]
  exact ⟨rfl, rfl, rfl, rfl, rfl, rfl, Int.toNat_of_nonneg hpos.le⟩

theorem requests_pos : 0 < args.requests := by
  rw [← h.cfg_eq.2.2.2.2.2.1]
  exact c.cfg.maxNumSeqs_pos

/-- Nothing is stored at first. -/
theorem fresh : c.seqLengths = (fun _ => 0) ∧ c.seqBlocks = (fun _ => []) ∧ SlotBufferHeld c := by
  obtain ⟨storage, blocks, -, -, rfl⟩ := create_eq_ok h.create
  exact ⟨rfl, rfl, .inl rfl⟩

/-- A tensor of whole token rows passes the checks of an append. -/
theorem appendReady {r : ℕ} (hr : r < args.requests) {n : ℕ} (hn : 0 < n) {seed seed' : ℕ}
    {scale scale' : ℚ} {slotAlloc : Option (ℕ → ℤ)} (hslot : slotAlloc.isSome) :
    AppendReady c r 0 (makeHalfTensor env [n, headsKv, headDim] seed scale)
      (makeHalfTensor env [n, headsKv, headDim] seed' scale') n ⟨slotAlloc, .ok⟩ := by
  obtain ⟨hlayers, hheads, hdim, -, hdtype, hseqs, -⟩ := h.cfg_eq
  exact
    { seq_nonneg := Int.natCast_nonneg r
      seq_lt := by rw [hseqs]; exact_mod_cast hr
      layer_nonneg := le_rfl
      layer_lt := by rw [hlayers]; decide
      tokens_pos := hn
      kNew_dims := by rw [hheads, hdim]; rfl
      vNew_dims := by rw [hheads, hdim]; rfl
      kNew_dtype := hdtype.symm
      vNew_dtype := hdtype.symm
      kNew_data := rfl
      vNew_data := rfl
      slotAlloc := hslot
      launch := rfl }

/-- The blocks that the calls of a run demand. -/
theorem blocksDemanded_eq (m : ℕ) : c.blocksDemanded (callsBefore env args.requests m) =
    ∑ r ∈ Finset.range args.requests, (promptLength r + m) ⌈/⌉ blockSize := by
  obtain ⟨-, -, -, hblock, -, hseqs, -⟩ := h.cfg_eq
  obtain ⟨hlens, hblocks, -⟩ := h.fresh
  rw [blocksDemanded, hseqs]
  refine Finset.sum_congr rfl fun r hr => ?_
  rw [blocksAfter, hlens, hblocks, tokensFor_callsBefore env (Finset.mem_range.mp hr), hblock,
    Nat.zero_add]
  exact max_eq_right (Nat.zero_le _)

end Planned

/-- The calls of a run. -/
theorem mem_callsBefore {n m : ℕ} {call : Call} (hcall : call ∈ callsBefore env n m) :
    (∃ r < n, call = promptCall env r) ∨ (∃ t < m, ∃ r < n, call = stepCall env t r) ∨
      call = .syncPageTable := by
  rw [callsBefore, List.mem_append, List.mem_map, List.mem_flatMap] at hcall
  rcases hcall with ⟨r, hr, rfl⟩ | ⟨t, ht, hcall⟩
  · exact .inl ⟨r, List.mem_range.mp hr, rfl⟩
  · rw [stepCalls, List.mem_append, stepAppends, List.mem_map, List.mem_singleton] at hcall
    rcases hcall with ⟨r, hr, rfl⟩ | rfl
    · exact .inr (.inl ⟨t, List.mem_range.mp ht, r, List.mem_range.mp hr, rfl⟩)
    · exact .inr (.inr rfl)

/-- The engine resets no sequence. -/
theorem ne_resetSeq_callsBefore {n m : ℕ} : ∀ call ∈ callsBefore env n m, ∀ seqId env',
    call ≠ .resetSeq seqId env' := by
  intro call hcall seqId env'
  rcases mem_callsBefore env hcall with ⟨s, -, rfl⟩ | ⟨t, -, s, -, rfl⟩ |
    rfl <;> exact Call.noConfusion

/-- The device serves the appends of `n` requests and `m` steps. -/
structure AppendsServed (n m : ℕ) : Prop where
  prompt : ∀ r < n, (env.append r).slotAlloc.isSome ∧ (env.append r).launch = .ok
  step : ∀ t < m, ∀ r < n, (env.stepAppend t r).slotAlloc.isSome ∧ (env.stepAppend t r).launch = .ok

/-- On such a device the appends of a run all succeed exactly when their blocks fit the plan. -/
theorem Planned.allOk_iff {paged : PagedEnv} (h : Planned args paged c) {m : ℕ}
    (hserved : AppendsServed env args.requests m) :
    AllOk c (callsBefore env args.requests m) ↔
      ∑ r ∈ Finset.range args.requests, (promptLength r + m) ⌈/⌉ blockSize ≤ c.cfg.numBlocks := by
  have hready : ∀ {r : ℕ} (append : AppendEnv), r < args.requests →
      append.slotAlloc.isSome ∧ append.launch = .ok → ∀ {n seed seed' : ℕ} {scale scale' : ℚ},
        0 < n →
        Admissible c (.appendTokens r 0 (makeHalfTensor env [n, headsKv, headDim] seed scale)
          (makeHalfTensor env [n, headsKv, headDim] seed' scale') append) := by
    rintro r ⟨slotAlloc, launch⟩ hr ⟨hslot, hok⟩ n seed seed' scale scale' hn
    obtain rfl : launch = .ok := hok
    exact h.appendReady env hr hn hslot
  rw [← h.blocksDemanded_eq env]
  refine h.inv.admits_iff h.mirror h.slots_lt h.fresh.2.2 fun call hcall => ?_
  rcases mem_callsBefore env hcall with ⟨r, hr, rfl⟩ | ⟨t, ht, r, hr, rfl⟩ | rfl
  · exact hready _ hr (hserved.prompt r hr) (show 0 < promptLength r by rw [promptLength]; omega)
  · exact hready _ hr (hserved.step t ht r hr) one_pos
  · trivial

/-- The stored rows of a request are those its calls brought. -/
theorem Planned.holdsRows {paged : PagedEnv} (h : Planned args paged c) {m : ℕ}
    (hok : AllOk c (callsBefore env args.requests m)) {r : ℕ} (hr : r < args.requests) (isKey : Bool) :
    HoldsRows (c.run (callsBefore env args.requests m)) r isKey 0 (streamRows env r m isKey) := by
  obtain ⟨-, hheads, hdim, -⟩ := h.cfg_eq
  obtain ⟨hlens, -, -⟩ := h.fresh
  have hempty : HoldsRows c r isKey 0 [] := ⟨congrFun hlens r, fun p hp => absurd hp (Nat.not_lt_zero p)⟩
  have hids : ∀ (calls : List Call) (c : PagedKVCache), (∀ call ∈ calls, ∀ seqId env',
      call ≠ .resetSeq seqId env') → Along ReadsOwnedIds c calls := by
    intro calls
    induction calls with
    | nil => exact fun _ _ => trivial
    | cons call calls ih =>
      refine fun c hcalls => ⟨?_, ih _ fun d hd => hcalls d (List.mem_cons_of_mem _ hd)⟩
      cases call with
      | resetSeq seqId env' => exact absurd rfl (hcalls _ List.mem_cons_self seqId env')
      | appendTokens => trivial
      | syncPageTable => trivial
      | forceSyncPageTable => trivial
  have hsound : Along AppendSound c (callsBefore env args.requests m) := by
    refine h.inv.appendSound_run h.slots_lt.le fun call hcall => ?_
    rw [hheads, hdim]
    rcases mem_callsBefore env hcall with ⟨s, -, rfl⟩ | ⟨t, -, s, -, rfl⟩ | rfl
    · rfl
    · rfl
    · trivial
  have hrows := hempty.run h.inv (callsBefore env args.requests m) (fun call hcall htouch => ?_)
    (hok.imp fun _ _ hstep _ => hstep) (hids _ _ (ne_resetSeq_callsBefore env)) hsound
  · rwa [List.nil_append, streamRows_eq env hr] at hrows
  · rcases mem_callsBefore env hcall with ⟨s, -, rfl⟩ | ⟨t, -, s, -, rfl⟩ | rfl
    · exact ⟨rfl, rfl⟩
    · exact ⟨rfl, rfl⟩
    · cases htouch

/-! ## Decode steps -/

theorem callsBefore_zero (n : ℕ) : callsBefore env n 0 = (List.range n).map (promptCall env) :=
  List.append_nil _

/-- The calls before a later step begin with those before an earlier one. -/
theorem allOk_callsBefore_of_le {n m m' : ℕ} (hle : m ≤ m') (hok : AllOk c (callsBefore env n m')) :
    AllOk c (callsBefore env n m) := by
  obtain ⟨k, rfl⟩ := Nat.exists_eq_add_of_le hle
  rw [callsBefore, List.range_add, List.flatMap_append, ← List.append_assoc, ← callsBefore,
    allOk_append] at hok
  exact hok.1

namespace Planned

variable {paged : PagedEnv}

/-- The size that the cache reports is the planned one. -/
theorem bytes_eq (h : Planned args paged c) : kvCacheBytes (kvConfig args) = .ok c.storage.stats.bytes := by
  obtain ⟨storage, blocks, hstorage, -, rfl⟩ := create_eq_ok h.create
  unfold KVCache.create at hstorage
  split_ifs at hstorage with hvalid
  cases hbytes : kvCacheBytes (kvConfig args) with
  | error e => simp [hbytes] at hstorage
  | ok bytes =>
    simp only [hbytes] at hstorage
    split at hstorage
    · cases hstorage
    · split at hstorage
      · cases hstorage
      · rw [← Except.ok.inj hstorage]

/-- The cache behind a step is a synchronised one. -/
theorem synced (h : Planned args paged c) (n t : ℕ) :
    ∃ table, Synced (c.run (callsBefore env n (t + 1))) table := by
  have hsplit : callsBefore env n (t + 1) =
      callsBefore env n t ++ stepAppends env n t ++ [.syncPageTable] := by
    rw [callsBefore_succ, stepCalls, List.append_assoc]
  have hsmall : (kvConfig args).numBlocks ≤ 2 ^ 31 := by
    have hslots := h.slots
    have hblock : (blockSize : ℤ) = 16 := rfl
    rw [hblock] at hslots
    omega
  rw [hsplit, run_append]
  exact synced_run hsmall h.create _ (MirrorInv.syncPageTable_isOk (h.mirror.run h.inv _))

/-- The query of a step fits the cache. -/
theorem fitsCache (h : Planned args paged c) (calls : List Call) (t : ℕ) :
    FitsCache (qStep env args.requests t) (c.run calls) := by
  obtain ⟨-, hheads, hdim, -, hdtype, hseqs, -⟩ := h.cfg_eq
  have hcfg := h.inv.run_cfg calls
  exact
    { ndims_eq := rfl
      numSeqs_le := by rw [hcfg, hseqs]; rfl
      seqQ_eq := rfl
      dim_eq := by rw [hcfg, hdim]; rfl
      dtype_eq := by rw [hcfg, hdtype]; rfl
      group_dvd := by rw [hcfg, hheads]; exact ⟨4, rfl⟩ }

/-- The parameters of a step are explicit ones. -/
theorem stepParams_eq (h : Planned args paged c) (calls : List Call) (n : ℕ) (lens : ℕ → ℤ) :
    stepParams n lens (c.run calls) = explicitParams (c.run calls) lens n 0 := by
  have hblock := h.cfg_eq.2.2.2.1
  rw [stepParams, explicitParams, h.inv.run_cfg calls, hblock]
  rfl

/-- The length of a request at the end of a run. -/
theorem seqLengths_run (h : Planned args paged c) {m : ℕ} (hok : AllOk c (callsBefore env args.requests m))
    {r : ℕ} (hr : r < args.requests) :
    (c.run (callsBefore env args.requests m)).seqLengths r = promptLength r + m := by
  rw [(h.holdsRows env hok hr true).1, streamRows, List.length_map, List.length_range]

/-- The stored rows of a request at the end of a run. -/
theorem rowAt_run (h : Planned args paged c) {m : ℕ} (hok : AllOk c (callsBefore env args.requests m))
    {r : ℕ} (hr : r < args.requests) (isKey : Bool) {x : ℕ} (hx : x < promptLength r + m) :
    (c.run (callsBefore env args.requests m)).rowAt isKey 0
      ((c.run (callsBefore env args.requests m)).slotOf r x) = streamRow env r isKey x := by
  rw [(h.holdsRows env hok hr isKey).rowAt_slotOf (by rwa [streamRows, List.length_map, List.length_range]),
    streamRows, List.getD_eq_getElem _ _ (by rwa [List.length_map, List.length_range]), List.getElem_map,
    List.getElem_range]

/-- The blocks in use at the end of a run. -/
theorem usedBlocks_run (h : Planned args paged c) {m : ℕ}
    (hok : AllOk c (callsBefore env args.requests m)) :
    (c.run (callsBefore env args.requests m)).stats.usedBlocks =
      (∑ r ∈ Finset.range args.requests, (promptLength r + m) ⌈/⌉ blockSize : ℕ) := by
  rw [h.inv.usedBlocks_run (ne_resetSeq_callsBefore env) hok, h.blocksDemanded_eq env]

end Planned

/-- The lengths of a step, as far as there are requests. -/
def stepLens (n t : ℕ) (r : ℕ) : ℕ := if r < n then promptLength r + t else 0

/-- The lengths of a step leave out the token it appended. -/
theorem Planned.stepLens_le {paged : PagedEnv} (h : Planned args paged c) {t : ℕ}
    (hok : AllOk c (callsBefore env args.requests (t + 1))) (r : ℕ) :
    stepLens args.requests t r ≤ (c.run (callsBefore env args.requests (t + 1))).seqLengths r := by
  rw [stepLens]
  split_ifs with hr
  · rw [h.seqLengths_run env hok hr]
    omega
  · exact Nat.zero_le _

end Calls

section Outcome

variable {𝕜 : Type} {dev : Device} (env : Env 𝕜 dev) [Field 𝕜] [LinearOrder 𝕜]
    (num : Numerics 𝕜)
  {args : Args} {c : PagedKVCache}

/-! ## The loops as a run -/

/-- The lengths that decode step `t` hands to the kernel. -/
def lensAt (t : ℕ) (r : ℕ) : ℤ := promptLength r + t

theorem lensAt_succ (t : ℕ) : (fun r => lensAt t r + 1) = lensAt (t + 1) := by
  funext r
  rw [lensAt, lensAt, Nat.cast_succ, add_assoc]

theorem lensAt_eq {n r : ℕ} (hr : r < n) (t : ℕ) : lensAt t r = stepLens n t r := by
  rw [stepLens, if_pos hr, lensAt, Nat.cast_add]

/-- The attention of decode step `t` in the state the run has then. -/
def decodeAt (c : PagedKVCache) (n t : ℕ) : Except Status (AttentionResult 𝕜) :=
  decodeAnswer env num n t (lensAt t) (c.run (callsBefore env n (t + 1)))

/-- The state after all prefills and `m` decode steps. -/
def stateAfter (c : PagedKVCache) (n m : ℕ) (prefills decodes : List (AttentionResult 𝕜)) :
    State 𝕜 where
  cache := c.run (callsBefore env n m)
  hostLens := lensAt m
  prefills := prefills
  decodes := decodes
  generatedTokens := m * n
  kvPeakBytes := c.storage.stats.bytes

/-- The prefill loop over `k` requests. -/
theorem prefills_eq_ok (hinv : Inv c) {k : ℕ} {st : State 𝕜} :
    (List.range k).foldlM (prefillRequest env num) (start c) = .ok st ↔
      AllOk c ((List.range k).map (promptCall env)) ∧ ∃ prefills,
        (List.range k).mapM (prefillAnswer env num) = .ok prefills ∧
          st = { start (𝕜 := 𝕜) c with
            cache := c.run ((List.range k).map (promptCall env)), prefills := prefills
            kvPeakBytes := if k = 0 then 0 else c.storage.stats.bytes } := by
  induction k generalizing st with
  | zero =>
    simp only [List.range_zero, List.foldlM_nil, List.map_nil, List.mapM_nil, pure_eq_ok, Except.ok.injEq,
      AllOk, Along, true_and, if_true, run_nil, exists_eq_left']
    exact eq_comm
  | succ k ih =>
    have hbytes :
      ((c.run ((List.range k).map (promptCall env))).step
        (promptCall env k)).1.storage.stats.bytes =
        c.storage.stats.bytes := by
      have hrun := hinv.run_bytes ((List.range k).map (promptCall env) ++ [promptCall env k])
      rwa [run_append] at hrun
    have hmax : max (if k = 0 then 0 else c.storage.stats.bytes) c.storage.stats.bytes =
        c.storage.stats.bytes := max_eq_right (by split_ifs <;> omega)
    rw [foldlM_range_succ, bind_eq_ok, List.range_succ, List.map_append, allOk_append, run_append,
      ← List.range_succ, List.map_singleton, allOk_singleton]
    constructor
    · rintro ⟨st', hst', hlast⟩
      obtain ⟨hok, prefills, hprefills, rfl⟩ := ih.mp hst'
      obtain ⟨prefill, hprefill, hstep, rfl⟩ := (prefillRequest_eq_ok env num).mp hlast
      refine ⟨⟨hok, hstep⟩, prefills ++ [prefill],
        mapM_range_succ_eq_ok.mpr ⟨prefills, prefill, hprefills, hprefill, rfl⟩, ?_⟩
      simp only [hbytes, hmax, if_neg (Nat.succ_ne_zero k)]
      rfl
    · rintro ⟨⟨hok, hstep⟩, _, hall, rfl⟩
      obtain ⟨prefills, prefill, hprefills, hprefill, rfl⟩ := mapM_range_succ_eq_ok.mp hall
      refine ⟨_, ih.mpr ⟨hok, prefills, hprefills, rfl⟩,
        (prefillRequest_eq_ok env num).mpr ⟨prefill, hprefill, hstep, ?_⟩⟩
      simp only [hbytes, hmax, if_neg (Nat.succ_ne_zero k)]
      rfl

/-- The decode loop over `m` steps. -/
theorem decodes_eq_ok (hinv : Inv c) (hmirror : MirrorInv c) {n m : ℕ}
    {prefills : List (AttentionResult 𝕜)} {st : State 𝕜} :
    (List.range m).foldlM (decodeStep env num n) (stateAfter env c n 0 prefills []) = .ok st ↔
      AllOk (c.run (callsBefore env n 0)) ((List.range m).flatMap (stepCalls env n)) ∧ ∃ decodes,
        (List.range m).mapM (decodeAt env num c n) = .ok decodes ∧
          st = stateAfter env c n m prefills decodes := by
  induction m generalizing st with
  | zero =>
    simp only [List.range_zero, List.foldlM_nil, List.flatMap_nil, List.mapM_nil, pure_eq_ok,
      Except.ok.injEq, AllOk, Along, true_and, exists_eq_left']
    exact eq_comm
  | succ m ih =>
    have hnext : (c.run (callsBefore env n m)).run (stepCalls env n m) =
        c.run (callsBefore env n (m + 1)) := by
      rw [callsBefore_succ, run_append]
    have hrun : (c.run (callsBefore env n 0)).run ((List.range m).flatMap (stepCalls env n)) =
        c.run (callsBefore env n m) := by
      rw [← run_append]
      simp [callsBefore]
    have hbytes := hinv.run_bytes (callsBefore env n (m + 1))
    -- the synchronisation at the end of a step succeeds anyway
    have hsync : AllOk (c.run (callsBefore env n m)) (stepCalls env n m) ↔
        AllOk (c.run (callsBefore env n m)) (stepAppends env n m) := by
      rw [stepCalls, allOk_append, allOk_singleton]
      refine and_iff_left (MirrorInv.syncPageTable_isOk ?_)
      exact (hmirror.run hinv _).run (hinv.run _) _
    rw [foldlM_range_succ, bind_eq_ok, List.range_succ, List.flatMap_append, List.flatMap_singleton,
      allOk_append, hrun, hsync, ← List.range_succ]
    constructor
    · rintro ⟨st', hst', hlast⟩
      obtain ⟨hok, decodes, hdecodes, rfl⟩ := ih.mp hst'
      obtain ⟨hstep, decoded, hdecoded, rfl⟩ := (decodeStep_eq_ok env num).mp hlast
      rw [show (stateAfter env c n m prefills decodes).cache = c.run (callsBefore env n m) from rfl] at *
      rw [hnext] at hdecoded
      refine ⟨⟨hok, hstep⟩, decodes ++ [decoded],
        mapM_range_succ_eq_ok.mpr ⟨decodes, decoded, hdecodes, hdecoded, rfl⟩, ?_⟩
      simp only [hnext, hbytes, stateAfter, ← lensAt_succ, max_self, Nat.succ_mul]
    · rintro ⟨⟨hok, hstep⟩, _, hall, rfl⟩
      obtain ⟨decodes, decoded, hdecodes, hdecoded, rfl⟩ := mapM_range_succ_eq_ok.mp hall
      refine ⟨_, ih.mpr ⟨hok, decodes, hdecodes, rfl⟩,
        (decodeStep_eq_ok env num).mpr ⟨hstep, decoded, ?_, ?_⟩⟩
      · rw [show (stateAfter env c n m prefills decodes).cache = c.run (callsBefore env n m) from rfl, hnext]
        exact hdecoded
      · simp only [hnext, hbytes, stateAfter, ← lensAt_succ, max_self, Nat.succ_mul]

end Outcome

end Rollout

end SciAttention

import SciAttention.Dispatch.Success
import SciAttention.KvCache.Admission
import SciAttention.KvCache.History

/-!
# The rollout engine

Model of `examples/rollout_engine_stub.cpp`: a budget check, one prefill with an append of its prompt for
every request, then decode steps that append a token to every request, synchronise the page table and attend.
Timers, printed text and the JSON file are left out; the filler values are an argument. What the kernels
return is kept in the state, where the source only looks at the status.

The calls on the cache do not depend on any answer, so the states of a run are `PagedKVCache.run` over
`callsBefore`; the loops of the engine are that run with the checks between.
-/

namespace SciAttention

open Results

namespace Rollout

open PagedKVCache

/-! ## Arguments -/

/-- `kHeadsQ`. -/
def headsQ : ℕ := 32

/-- `kHeadsKv`. -/
def headsKv : ℕ := 8

/-- `kHeadDim`. -/
def headDim : ℕ := 128

/-- `kLayers`. -/
def layers : ℕ := 36

/-- `kBlockSize`. -/
def blockSize : ℕ := 16

/-- `Args`, for values whose products fit `int64_t`. -/
structure Args where
  numRequests : ℤ := 4
  maxNewTokens : ℤ := 16
  maxKvLen : ℤ := 1024

/-- The requests that the loops run over. -/
def Args.requests (args : Args) : ℕ := args.numRequests.toNat

/-- The decode steps that the loop runs over. -/
def Args.steps (args : Args) : ℕ := args.maxNewTokens.toNat

/-- `kv_cfg`. -/
def kvConfig (args : Args) : KVCacheConfig :=
  let tokensNeeded := args.numRequests * (args.maxKvLen + args.maxNewTokens)
  { numLayers := layers, numKvHeads := headsKv, headDim := headDim, blockSize := blockSize
    maxNumSeqs := args.numRequests, dtype := .float16
    numBlocks := (tokensNeeded + blockSize - 1).tdiv blockSize + args.numRequests }

/-- `prompt_lengths`. -/
def promptLength (r : ℕ) : ℕ := 32 + r * 37 % 96

/-! ## Tensors -/

/-- What the device answers during a run of the engine, and the filler values by seed and scale. -/
structure Env (𝕜 : Type) (dev : Device) where
  paged : PagedEnv
  half : UInt32 → ℚ → Bytes
  prefill : ℕ → ForwardEnv 𝕜 dev
  append : ℕ → AppendEnv
  stepAppend : ℕ → ℕ → AppendEnv
  decode : ℕ → AttentionEnv 𝕜

/-- `View4D`. -/
def view4D (t : Tensor) (dims : List ℕ) : Tensor := { t with dims }

section Engine

variable {𝕜 : Type} {dev : Device} (env : Env 𝕜 dev)

/-- `MakeHalfTensor`. -/
def makeHalfTensor (dims : List ℕ) (seed : ℕ) (scale : ℚ) : Tensor :=
  { dims, dtype := .float16, data := some (env.half (UInt32.ofNat seed) scale) }

/-- `q_packed`. -/
def qPacked (r : ℕ) : Tensor := makeHalfTensor env [promptLength r, headsQ, headDim] (1000 + r) 1

/-- `k_packed`. -/
def kPacked (r : ℕ) : Tensor := makeHalfTensor env [promptLength r, headsKv, headDim] (2000 + r) 1

/-- `v_packed`. -/
def vPacked (r : ℕ) : Tensor :=
  makeHalfTensor env [promptLength r, headsKv, headDim] (3000 + r) (1 / 2)

/-- `k_step`. -/
def kStep (step r : ℕ) : Tensor :=
  makeHalfTensor env [1, headsKv, headDim] (6000 + (r * 97 + step)) 1

/-- `v_step`. -/
def vStep (step r : ℕ) : Tensor :=
  makeHalfTensor env [1, headsKv, headDim] (7000 + (r * 97 + step)) (1 / 2)

/-- `q_step`. -/
def qStep (n step : ℕ) : Tensor := makeHalfTensor env [n, headsQ, 1, headDim] (5000 + step) 1

/-! ## The loops -/

/-- The state of a run; `prefills` and `decodes` are the answers so far. -/
structure State (𝕜 : Type) where
  cache : PagedKVCache
  hostLens : ℕ → ℤ
  prefills : List (AttentionResult 𝕜) := []
  decodes : List (AttentionResult 𝕜) := []
  generatedTokens : ℕ := 0
  kvPeakBytes : ℕ := 0

variable [Field 𝕜] [LinearOrder 𝕜] (num : Numerics 𝕜)

/-- The configuration of the prefill. -/
def prefillConfig : AttentionConfig 𝕜 :=
  { backend := .flash, causal := true, layout := .bshd, scale := 0, softcap := 0 }

/-- `decode_cfg`. -/
def decodeConfig : AttentionConfig 𝕜 := { backend := .paged, causal := true, scale := 0, softcap := 0 }

/-- The prefill of a request. -/
def prefillAnswer (r : ℕ) : Except Status (AttentionResult 𝕜) :=
  flashForward num (env.prefill r) (view4D (qPacked env r) [1, promptLength r, headsQ, headDim])
    (view4D (kPacked env r) [1, promptLength r, headsKv, headDim])
    (view4D (vPacked env r) [1, promptLength r, headsKv, headDim]) prefillConfig

/-- One iteration of the prefill loop. Failures are the exit codes of `main`. -/
def prefillRequest (st : State 𝕜) (r : ℕ) : Except ℕ (State 𝕜) :=
  match prefillAnswer env num r with
  | .error _ => .error 4
  | .ok prefill =>
    let appended := st.cache.appendTokens r 0 (kPacked env r) (vPacked env r) (env.append r)
    if ¬ appended.2.isOk then .error 4
    else
      .ok
        { st with
          cache := appended.1
          prefills := st.prefills ++ [prefill]
          kvPeakBytes := max st.kvPeakBytes appended.1.storage.stats.bytes }

/-- One append of a decode step. -/
def appendStep (step : ℕ) (cache : PagedKVCache) (r : ℕ) : Except ℕ PagedKVCache :=
  let appended := cache.appendTokens r 0 (kStep env step r) (vStep env step r) (env.stepAppend step r)
  if ¬ appended.2.isOk then .error 4 else .ok appended.1

/-- `params` of a decode step. -/
def stepParams (n : ℕ) (hostLens : ℕ → ℤ) (cache : PagedKVCache) : PagedAttentionParams :=
  { pageTable := cache.pageTableDevicePtr, seqLens := some hostLens, numSeqs := n
    blockSize := blockSize, maxBlocksPerSeq := cache.maxBlocksPerSeq, layer := 0 }

/-- The attention of a decode step. -/
def decodeAnswer (n step : ℕ) (hostLens : ℕ → ℤ) (cache : PagedKVCache) :
    Except Status (AttentionResult 𝕜) :=
  pagedAttention num (env.decode step) (qStep env n step) cache (stepParams n hostLens cache) decodeConfig

/-- One decode step. The lengths that the kernel gets are advanced behind it, so they leave out the token
that the step appended. -/
def decodeStep (n : ℕ) (st : State 𝕜) (step : ℕ) : Except ℕ (State 𝕜) := do
  let appended ← (List.range n).foldlM (appendStep env step) st.cache
  let cache := appended.syncPageTable.1
  match decodeAnswer env num n step st.hostLens cache with
  | .error _ => .error 4
  | .ok decoded =>
    return {
      cache := cache
      hostLens := fun r => st.hostLens r + 1
      prefills := st.prefills
      decodes := st.decodes ++ [decoded]
      generatedTokens := st.generatedTokens + n
      kvPeakBytes := max st.kvPeakBytes cache.storage.stats.bytes }

/-- The state before the first prefill. -/
def start (cache : PagedKVCache) : State 𝕜 := { cache, hostLens := fun r => promptLength r }

/-- `main` behind the creation of the cache. -/
def loops (args : Args) (cache : PagedKVCache) : Except ℕ (State 𝕜) := do
  let st ← (List.range args.requests).foldlM (prefillRequest env num) (start cache)
  (List.range args.steps).foldlM (decodeStep env num args.requests) st

/-- `main`: the state at its end, or its exit code. -/
def main (args : Args) : Except ℕ (State 𝕜) :=
  if dev.cudaAvailable = false then .error 2
  else
    match kvCacheBytes (kvConfig args) with
    | .error _ => .error 3
    | .ok bytes =>
      if bytes > dev.cap.freeMemBytes / 2 then .error 3
      else
        match PagedKVCache.create (kvConfig args) env.paged with
        | .error _ => .error 3
        | .ok cache => loops env num args cache

/-! ## The calls on the cache -/

omit [Field 𝕜] [LinearOrder 𝕜]

/-- The append of a prompt. -/
def promptCall (r : ℕ) : Call := .appendTokens r 0 (kPacked env r) (vPacked env r) (env.append r)

/-- The append of a decode step for one request. -/
def stepCall (step r : ℕ) : Call :=
  .appendTokens r 0 (kStep env step r) (vStep env step r) (env.stepAppend step r)

/-- The appends of a decode step. -/
def stepAppends (n step : ℕ) : List Call := (List.range n).map (stepCall env step)

/-- The calls of a decode step. -/
def stepCalls (n step : ℕ) : List Call := stepAppends env n step ++ [.syncPageTable]

/-- The calls before decode step `m`. -/
def callsBefore (n m : ℕ) : List Call :=
  (List.range n).map (promptCall env) ++ (List.range m).flatMap (stepCalls env n)

theorem callsBefore_succ (n m : ℕ) : callsBefore env n (m + 1) = callsBefore env n m ++
    stepCalls env n m := by
  simp only [callsBefore, List.range_succ, List.flatMap_append, List.flatMap_cons, List.flatMap_nil,
    List.append_nil, List.append_assoc]

end Engine

end Rollout

/-! ## Runs in parts -/

namespace PagedKVCache

theorem run_append (c : PagedKVCache) (calls calls' : List Call) :
    c.run (calls ++ calls') = (c.run calls).run calls' := by
  rw [run, List.foldl_append]
  rfl

theorem along_append {P : PagedKVCache → Call → Prop} {c : PagedKVCache} {calls calls' : List Call} :
    Along P c (calls ++ calls') ↔ Along P c calls ∧ Along P (c.run calls) calls' := by
  induction calls generalizing c with
  | nil => simp [Along]
  | cons call calls ih =>
    rw [List.cons_append, Along, Along, ih, run_cons, and_assoc]

/-- Every call of a run succeeds. -/
abbrev AllOk (c : PagedKVCache) (calls : List Call) : Prop :=
  Along (fun c call => (c.step call).2.isOk) c calls

theorem allOk_append {c : PagedKVCache} {calls calls' : List Call} :
    AllOk c (calls ++ calls') ↔ AllOk c calls ∧ AllOk (c.run calls) calls' := along_append

theorem allOk_singleton {c : PagedKVCache} {call : Call} : AllOk c [call] ↔ (c.step call).2.isOk :=
  and_iff_left trivial

/-- A loop of calls that stops at the first failure is a run whose calls all succeed. -/
theorem foldlM_eq_ok {ι ε : Type} {f : PagedKVCache → ι → Except ε PagedKVCache} {call : ι → Call}
    {e : ε}
    (hf : ∀ c i, f c i = if ¬ (c.step (call i)).2.isOk then .error e else .ok (c.step (call i)).1)
    {l : List ι} {c c' : PagedKVCache} :
    l.foldlM f c = .ok c' ↔ AllOk c (l.map call) ∧ c' = c.run (l.map call) := by
  induction l generalizing c with
  | nil => simp [AllOk, Along, eq_comm]
  | cons i l ih =>
    rw [List.foldlM_cons, hf, List.map_cons, run_cons]
    by_cases hok : (c.step (call i)).2.isOk
    · rw [if_neg (not_not.mpr hok), ok_bind, ih]
      simp only [AllOk, Along, hok, true_and]
    · rw [if_pos hok, error_bind]
      simp [AllOk, Along, hok]

end PagedKVCache

namespace Rollout

open PagedKVCache

/-! ## One step -/

section Steps

variable {𝕜 : Type} {dev : Device} (env : Env 𝕜 dev) [Field 𝕜] [LinearOrder 𝕜]
    (num : Numerics 𝕜)

/-- A prefill iteration succeeds when its prefill and its append do. -/
theorem prefillRequest_eq_ok {st st' : State 𝕜} {r : ℕ} :
    prefillRequest env num st r = .ok st' ↔
      ∃ prefill, prefillAnswer env num r = .ok prefill ∧ (st.cache.step (promptCall env r)).2.isOk ∧
        st' = { st with
          cache := (st.cache.step (promptCall env r)).1
          prefills := st.prefills ++ [prefill]
          kvPeakBytes := max st.kvPeakBytes
            (st.cache.step (promptCall env r)).1.storage.stats.bytes } := by
  unfold prefillRequest
  cases hanswer : prefillAnswer env num r with
  | error e => simp
  | ok prefill =>
    simp only [promptCall, PagedKVCache.step]
    by_cases hok : (st.cache.appendTokens r 0 (kPacked env r) (vPacked env r) (env.append r)).2.isOk
    · rw [if_neg (not_not.mpr hok)]
      simp [hok, eq_comm]
    · rw [if_pos hok]
      simp [hok]

/-- A decode step succeeds when its appends and its attention do. -/
theorem decodeStep_eq_ok {n step : ℕ} {st st' : State 𝕜} :
    decodeStep env num n st step = .ok st' ↔
      AllOk st.cache (stepAppends env n step) ∧
        ∃ decoded, decodeAnswer env num n step st.hostLens (st.cache.run (stepCalls env n step)) =
            .ok decoded ∧
          st' = { cache := st.cache.run (stepCalls env n step)
                  hostLens := fun r => st.hostLens r + 1
                  prefills := st.prefills
                  decodes := st.decodes ++ [decoded]
                  generatedTokens := st.generatedTokens + n
                  kvPeakBytes := max st.kvPeakBytes
                    (st.cache.run (stepCalls env n step)).storage.stats.bytes } := by
  have happend : ∀ c r, appendStep env step c r =
      if ¬ (c.step (stepCall env step r)).2.isOk then .error 4 else .ok (c.step (stepCall env step r)).1 :=
    fun _ _ => rfl
  have hloop : ∀ {c'}, (List.range n).foldlM (appendStep env step) st.cache = .ok c' ↔
      AllOk st.cache (stepAppends env n step) ∧ c' = st.cache.run (stepAppends env n step) :=
    foldlM_eq_ok happend
  have hsync : st.cache.run (stepCalls env n step) =
      (st.cache.run (stepAppends env n step)).syncPageTable.1 := by
    rw [stepCalls, run_append]
    rfl
  rw [decodeStep, bind_eq_ok]
  constructor
  · rintro ⟨c', hc', hrest⟩
    obtain ⟨hok, rfl⟩ := hloop.mp hc'
    rw [← hsync] at hrest
    dsimp only at hrest
    cases hanswer : decodeAnswer env num n step st.hostLens (st.cache.run (stepCalls env n step)) with
    | error e => simp [hanswer] at hrest
    | ok decoded =>
      rw [hanswer] at hrest
      exact ⟨hok, decoded, rfl, (Except.ok.inj hrest).symm⟩
  · rintro ⟨hok, decoded, hanswer, rfl⟩
    refine ⟨_, hloop.mpr ⟨hok, rfl⟩, ?_⟩
    rw [← hsync]
    dsimp only
    rw [hanswer]
    rfl

end Steps

end Rollout

end SciAttention

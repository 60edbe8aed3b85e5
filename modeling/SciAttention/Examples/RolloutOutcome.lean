import SciAttention.Dispatch.Agreement
import SciAttention.Examples.RolloutRun

/-!
# What a rollout computes

The engine plans its pool before it knows how the blocks will be used. `main_isOk_iff` says that on a device
that serves it, it completes exactly when the blocks of all requests fit the plan, and that they do whenever
no prompt is longer than `--max-kv`. `main_outcome` says what a completed run has computed: every prefill is
causal attention over its prompt, and decode step `t` attends, for every request, to the prompt and the `t`
tokens generated before the one of this step.
-/

namespace SciAttention

open Flt Results

namespace Rollout

open PagedKVCache

section Main

variable {𝕜 : Type} {dev : Device} (env : Env 𝕜 dev) [Field 𝕜] [LinearOrder 𝕜]
    (num : Numerics 𝕜)
  {args : Args} {c : PagedKVCache}

/-! ## The run of `main` -/

/-- The loops succeed when every call on the cache and every attention does. -/
theorem loops_eq_ok (h : Planned args env.paged c) {st : State 𝕜} :
    loops env num args c = .ok st ↔
      AllOk c (callsBefore env args.requests args.steps) ∧ ∃ prefills decodes,
        (List.range args.requests).mapM (prefillAnswer env num) = .ok prefills ∧
          (List.range args.steps).mapM (decodeAt env num c args.requests) = .ok decodes ∧
            st = stateAfter env c args.requests args.steps prefills decodes := by
  have hstart : ∀ prefills, { start (𝕜 := 𝕜) c with
      cache := c.run ((List.range args.requests).map (promptCall env)), prefills := prefills
      kvPeakBytes := if args.requests = 0 then 0 else c.storage.stats.bytes } =
        stateAfter env c args.requests 0 prefills [] := by
    intro prefills
    have hlens : lensAt 0 = fun r => (promptLength r : ℤ) := by
      funext r
      rw [lensAt, Nat.cast_zero, add_zero]
    rw [stateAfter, callsBefore_zero, if_neg h.requests_pos.ne', hlens, Nat.zero_mul]
    rfl
  rw [loops, bind_eq_ok, callsBefore, allOk_append]
  constructor
  · rintro ⟨st', hprefill, hdecode⟩
    obtain ⟨hprompts, prefills, hprefills, rfl⟩ := (prefills_eq_ok env num h.inv).mp hprefill
    rw [hstart] at hdecode
    obtain ⟨hsteps, decodes, hdecodes, rfl⟩ := (decodes_eq_ok env num h.inv h.mirror).mp hdecode
    rw [callsBefore_zero] at hsteps
    exact ⟨⟨hprompts, hsteps⟩, prefills, decodes, hprefills, hdecodes, rfl⟩
  · rintro ⟨⟨hprompts, hsteps⟩, prefills, decodes, hprefills, hdecodes, rfl⟩
    refine ⟨_, (prefills_eq_ok env num h.inv).mpr ⟨hprompts, prefills, hprefills, rfl⟩, ?_⟩
    rw [hstart]
    refine (decodes_eq_ok env num h.inv h.mirror).mpr ⟨?_, decodes, hdecodes, rfl⟩
    rwa [callsBefore_zero]

/-- `main` succeeds when its checks pass and its loops do. -/
theorem main_eq_ok {st : State 𝕜} :
    main env num args = .ok st ↔ dev.cudaAvailable = true ∧ ∃ bytes c,
      kvCacheBytes (kvConfig args) = .ok bytes ∧ bytes ≤ dev.cap.freeMemBytes / 2 ∧
        PagedKVCache.create (kvConfig args) env.paged = .ok c ∧ loops env num args c = .ok st := by
  unfold main
  cases dev.cudaAvailable with
  | false => simp
  | true =>
    cases kvCacheBytes (kvConfig args) with
    | error e => simp
    | ok bytes =>
      cases PagedKVCache.create (kvConfig args) env.paged with
      | error e => by_cases hbytes : bytes > dev.cap.freeMemBytes / 2 <;> simp [hbytes]
      | ok c =>
        by_cases hbytes : bytes > dev.cap.freeMemBytes / 2
        · simp [hbytes, Nat.not_le.mpr hbytes]
        · simp [hbytes, Nat.not_lt.mp hbytes]

/-! ## Prefills -/

/-- The shape of a prefill. -/
def prefillShape (r : ℕ) : AttentionShape :=
  { batch := 1, seqQ := promptLength r, seqKv := promptLength r, numHeads := headsQ
    numKvHeads := headsKv, headDim := headDim }

/-- The problem of a prefill. -/
def prefillProblem (r : ℕ) : AttnProblem 𝕜 :=
  requestProblem num (view4D (qPacked env r) [1, promptLength r, headsQ, headDim])
    (view4D (kPacked env r) [1, promptLength r, headsKv, headDim])
    (view4D (vPacked env r) [1, promptLength r, headsKv, headDim]) prefillConfig (prefillShape r)

omit [LinearOrder 𝕜] in
theorem inferShape_prefill (r : ℕ) :
    inferShape (view4D (qPacked env r) [1, promptLength r, headsQ, headDim])
      (view4D (kPacked env r) [1, promptLength r, headsKv, headDim])
      (view4D (vPacked env r) [1, promptLength r, headsKv, headDim])
      (prefillConfig (𝕜 := 𝕜)).layout = .ok (prefillShape r) := by
  refine inferShape_eq_ok_iff.mpr ?_
  exact
    { q_accepted := ⟨rfl, rfl, rfl, rfl⟩
      k_accepted := ⟨rfl, rfl, rfl, rfl⟩
      v_accepted := ⟨rfl, rfl, rfl, rfl⟩
      k_dtype := rfl
      v_dtype := rfl
      shape_eq := rfl
      v_heads := rfl
      v_seq := rfl
      v_dim := rfl
      k_batch := rfl
      v_batch := rfl }

theorem validate_prefill (r : ℕ) : (validate num prefillConfig (prefillShape r)).isOk := by
  have hlen : 0 < promptLength r := by
    rw [promptLength]
    omega
  exact validate_isOk_iff.mpr
    { validShape := ⟨one_pos, hlen, hlen, show 0 < 32 by decide, show 0 < 8 by decide,
        show (128 : ℤ) ∈ supportedHeadDims by decide, show 8 ∣ 32 by decide⟩
      causal_le := fun _ => le_rfl
      slidingWindow_le := le_rfl
      softcap_nonneg := le_rfl
      softcap_backend := fun h => absurd h (lt_irrefl _)
      scale_nonneg := le_rfl
      numSplits_nonneg := le_rfl
      cuSeqlens := fun h => by cases h }

/-- What a completed run has computed. -/
structure Outcome (args : Args) (st : State 𝕜) : Prop where
  generatedTokens : st.generatedTokens = args.steps * args.requests
  seqLengths : ∀ r < args.requests, st.cache.seqLengths r = promptLength r + args.steps
  usedBlocks : st.cache.stats.usedBlocks = demand args
  kvPeakBytes : kvCacheBytes (kvConfig args) = .ok st.kvPeakBytes
  prefill : ∀ r < args.requests, ∃ prefill, st.prefills[r]? = some prefill ∧
    ∀ h < headsQ, ∀ i < promptLength r,
      OutAnswers num (prefillProblem env num r) (prefillShape r) prefill.out 0 h i
  decode : ∀ t < args.steps, ∃ decoded qData, st.decodes[t]? = some decoded ∧
    (qStep env args.requests t).data = some qData ∧
      ∀ r < args.requests, ∀ h < headsQ, ∀ d < headDim,
        outElem (qStep env args.requests t) decoded r h d =
          fin (attentionOverRows num st.cache.cfg decodeConfig (qStep env args.requests t) qData
            (streamRow env r) (promptLength r + t) r h d)

/-- A device with the memory that the engine asks for, which runs every kernel. -/
structure Ready (args : Args) (c : PagedKVCache) : Prop where
  cuda : dev.cudaAvailable = true
  budget : c.storage.stats.bytes ≤ dev.cap.freeMemBytes / 2
  smem : ∀ tile ∈ findFlashTile headDim, flashTileSmemBytes tile headDim 2 ≤ dev.smemLimitPerBlock
  prefill : ∀ r < args.requests,
    OutFits (env.prefill r) false (prefillShape r) ∧ (env.prefill r).launch 0 = .ok
  appends : AppendsServed env args.requests args.steps
  decode : ∀ t < args.steps, DeviceReady (env.decode t) (qStep env args.requests t)
    (partialElements args.requests headsQ
      (resolveSplits (decodeConfig (𝕜 := 𝕜)) (c.cfg.numBlocks * blockSize) (env.decode t).smCount)
        headDim)

/-- A prefill succeeds on such a device. -/
theorem Ready.prefillAnswer_isOk (h : Ready env args c) {r : ℕ} (hr : r < args.requests) :
    ∃ prefill, prefillAnswer env num r = .ok prefill := by
  obtain ⟨tile, htile, -⟩ := exists_flashTile (validate_isOk_iff.mp (validate_prefill num r)).validShape
  refine (flashForward_isOk_iff (inferShape_prefill env r) (validate_prefill num r) htile).mpr ?_
  refine ⟨⟨h.cuda, show flashDtypeIdFor .float16 ≠ 0 by decide, h.smem tile htile⟩,
    (h.prefill r hr).1, ?_,
    (h.prefill r hr).2⟩
  exact ⟨rfl, rfl, rfl⟩

section Answers

variable [IsStrictOrderedRing 𝕜]

/-- What a decode step answers, and that it does on such a device. -/
theorem Planned.decodeAt_answers (h : Planned args env.paged c) {t : ℕ}
    (hok : AllOk c (callsBefore env args.requests (t + 1))) :
    Answers num (env.decode t) (qStep env args.requests t)
      ((c.run (callsBefore env args.requests (t + 1))).truncate (stepLens args.requests t)) 0 decodeConfig
      c.cfg.blockSize (decodeAt env num c args.requests t) := by
  obtain ⟨table, hsynced⟩ := h.synced env args.requests t
  have hcfg := h.inv.run_cfg (callsBefore env args.requests (t + 1))
  have hlayers := h.cfg_eq.1
  have hlayer : 0 < (c.run (callsBefore env args.requests (t + 1))).cfg.numLayers := by
    rw [hcfg, hlayers]
    decide
  rw [decodeAt, decodeAnswer, h.stepParams_eq, ← hcfg]
  exact hsynced.prefix_answers (h.fitsCache env _ t) hlayer (h.stepLens_le env hok)
    (fun r hr => lensAt_eq hr t) args.requests (env.decode t) decodeConfig

/-- A decode step succeeds on such a device. -/
theorem Ready.decodeAt_isOk (hready : Ready env args c) (h : Planned args env.paged c) {t : ℕ}
    (ht : t < args.steps) (hok : AllOk c (callsBefore env args.requests (t + 1))) :
    ∃ decoded, decodeAt env num c args.requests t = .ok decoded := by
  have hcfg : ((c.run (callsBefore env args.requests (t + 1))).truncate (stepLens args.requests t)).cfg =
      c.cfg := h.inv.run_cfg _
  refine (h.decodeAt_answers env num hok).2 h.requests_pos ?_
  rw [hcfg, h.cfg_eq.2.2.2.1]
  exact hready.decode t ht

/-- The outputs of a decode step. -/
theorem Planned.decodeAt_rows (h : Planned args env.paged c) {t : ℕ}
    (hok : AllOk c (callsBefore env args.requests (t + 1))) {decoded : AttentionResult 𝕜}
    (hdecoded : decodeAt env num c args.requests t = .ok decoded) :
    ∃ qData, (qStep env args.requests t).data = some qData ∧
      ∀ r < args.requests, ∀ head < headsQ, ∀ d < headDim,
        outElem (qStep env args.requests t) decoded r head d =
          fin (attentionOverRows num c.cfg decodeConfig (qStep env args.requests t) qData (streamRow env r)
            (promptLength r + t) r head d) := by
  obtain ⟨table, hsynced⟩ := h.synced env args.requests t
  have hcfg := h.inv.run_cfg (callsBefore env args.requests (t + 1))
  have hlayers := h.cfg_eq.1
  rw [decodeAt, decodeAnswer, h.stepParams_eq] at hdecoded
  have hlayer : 0 < (c.run (callsBefore env args.requests (t + 1))).cfg.numLayers := by
    rw [hcfg, hlayers]
    decide
  obtain ⟨qData, hq, hrows⟩ :=
    hsynced.prefix_rows (h.fitsCache env _ t) hlayer (h.stepLens_le env hok)
      (fun r hr => lensAt_eq hr t) args.requests
    hdecoded
  refine ⟨qData, hq, fun r hr head hhead d hd => ?_⟩
  have hlens : stepLens args.requests t r = promptLength r + t := if_pos hr
  have hout := hrows r hr (streamRow env r) (fun isKey x hx => ?_) head hhead d hd
  · rw [hout, hcfg, hlens]
  · rw [hlens] at hx
    exact h.rowAt_run env hok hr isKey (by omega)

/-! ## Results -/

/-- The plan covers requests whose prompts are not longer than `--max-kv`. -/
theorem demand_le (hpos : 0 < args.requests) (hnew : 0 ≤ args.maxNewTokens)
    (hprompt : ∀ r < args.requests, (promptLength r : ℤ) ≤ args.maxKvLen) :
    (demand args : ℤ) ≤ (kvConfig args).numBlocks := by
  have hn : (args.requests : ℤ) = args.numRequests := Int.toNat_of_nonneg (by
    rw [Args.requests] at hpos
    omega)
  have hsteps : (args.steps : ℤ) = args.maxNewTokens := Int.toNat_of_nonneg hnew
  have hmax : 0 ≤ args.maxKvLen := (Int.natCast_nonneg _).trans (hprompt 0 hpos)
  -- a request wastes less than a block
  have hrequest : ∀ r ∈ Finset.range args.requests,
      (((promptLength r + args.steps) ⌈/⌉ blockSize : ℕ) : ℤ) * 16 ≤
        args.maxKvLen + args.maxNewTokens + 15 := by
    intro r hr
    have hle := hprompt r (Finset.mem_range.mp hr)
    rw [Nat.ceilDiv_eq_add_pred_div, show blockSize = 16 from rfl]
    omega
  have hdemand : (demand args : ℤ) * 16 ≤
      args.numRequests * (args.maxKvLen + args.maxNewTokens) + 15 * args.numRequests := by
    rw [demand, Nat.cast_sum, Finset.sum_mul]
    refine (Finset.sum_le_sum hrequest).trans_eq ?_
    rw [Finset.sum_const, Finset.card_range, nsmul_eq_mul, hn]
    ring
  have htokens : 0 ≤ args.numRequests * (args.maxKvLen + args.maxNewTokens) :=
    mul_nonneg (hn ▸ Int.natCast_nonneg _) (add_nonneg hmax hnew)
  have hnum : (kvConfig args).numBlocks =
      (args.numRequests * (args.maxKvLen + args.maxNewTokens) + 16 - 1) / 16 + args.numRequests := by
    rw [← Int.tdiv_eq_ediv_of_nonneg (by omega)]
    rfl
  omega

/-- The loops succeed on such a device exactly when the plan covers the demand. -/
theorem Planned.main_isOk_iff_demand (h : Planned args env.paged c) (hready : Ready env args c) :
    (∃ st, main env num args = .ok st) ↔ (demand args : ℤ) ≤ (kvConfig args).numBlocks := by
  rw [← h.cfg_eq.2.2.2.2.2.2, Nat.cast_le, demand, ← h.allOk_iff env hready.appends]
  constructor
  · rintro ⟨st, hst⟩
    obtain ⟨-, -, c', -, -, hcreate, hloops⟩ := (main_eq_ok env num).mp hst
    obtain rfl : c = c' := Except.ok.inj (h.create.symm.trans hcreate)
    exact ((loops_eq_ok env num h).mp hloops).1
  · intro hok
    obtain ⟨prefills, hprefills⟩ := exists_mapM_range fun r hr => hready.prefillAnswer_isOk env num hr
    obtain ⟨decodes, hdecodes⟩ := exists_mapM_range fun t ht =>
      hready.decodeAt_isOk env num h ht (allOk_callsBefore_of_le env ht hok)
    exact ⟨_, (main_eq_ok env num).mpr ⟨hready.cuda, _, c, h.bytes_eq, hready.budget, h.create,
      (loops_eq_ok env num h).mpr ⟨hok, prefills, decodes, hprefills, hdecodes, rfl⟩⟩⟩

end Answers

/-! ## A run -/

/-- One request of 32 tokens and two decode steps. -/
def oneRequest : Args := { numRequests := 1, maxNewTokens := 2, maxKvLen := 32 }

/-- The sample device during a run of the engine, with ones for all tensors. -/
noncomputable def sampleRollout : Env ℝ sampleDevice where
  paged := zeroEnv
  half _ _ := onesHalf
  prefill _ := sampleEnv
  append _ := appendOk
  stepAppend _ _ := appendOk
  decode _ := readyEnv

theorem exists_planned_oneRequest :
    ∃ c, Planned oneRequest sampleRollout.paged c ∧ Ready sampleRollout oneRequest c := by
  have hcreate : PagedKVCache.create (kvConfig oneRequest) sampleRollout.paged = .ok _ := rfl
  have hscratch : ∀ splits, 0 < splits → splits ≤ 16 →
      0 < partialElements 1 headsQ splits headDim ∧ partialElements 1 headsQ splits headDim ≤ 2 ^ 18 := by
    intro splits hpos hle
    simp only [partialElements, headsQ, headDim]
    omega
  refine ⟨_, ⟨hcreate, by decide⟩, ?_⟩
  exact
    { cuda := rfl
      budget := by decide
      smem := by
        intro tile htile
        cases htile
        decide
      prefill := fun r hr => by
        obtain rfl : r = 0 := Nat.lt_one_iff.mp hr
        refine ⟨⟨?_, fun h => by cases h⟩, rfl⟩
        simp [sampleRollout, sampleEnv, outDims, prefillShape, promptLength, headsQ, headDim]
      appends := ⟨fun _ _ => ⟨rfl, rfl⟩, fun _ _ _ _ => ⟨rfl, rfl⟩⟩
      decode := fun t _ =>
        { query := ⟨_, rfl⟩
          out := ⟨_, rfl⟩
          scratch := by
            obtain ⟨hpos, hle⟩ := hscratch _ (resolveSplits_pos _ _ _) (resolveSplits_le _ _ _)
            exact ⟨_, readyEnv_scratch hpos hle⟩
          launch := fun _ => rfl } }

section Results

variable [IsStrictOrderedRing 𝕜]

/-- On a device that serves it, the engine completes exactly when the blocks of all requests fit the plan;
they do when no prompt is longer than `--max-kv`. -/
theorem main_isOk_iff (h : Planned args env.paged c) (hready : Ready env args c) :
    ((∃ st, main env num args = .ok st) ↔ (demand args : ℤ) ≤ (kvConfig args).numBlocks) ∧
      (0 ≤ args.maxNewTokens → (∀ r < args.requests, (promptLength r : ℤ) ≤ args.maxKvLen) →
        ∃ st, main env num args = .ok st) := by
  have hiff := h.main_isOk_iff_demand env num hready
  exact ⟨hiff, fun hnew hprompt => hiff.mpr (demand_le h.requests_pos hnew hprompt)⟩

/-- One request of 32 tokens fits a plan for 32. -/
theorem main_isOk_oneRequest : ((∃ st, main sampleRollout realNumerics oneRequest = .ok st) ↔
      (demand oneRequest : ℤ) ≤ (kvConfig oneRequest).numBlocks) ∧
    ∃ st, main sampleRollout realNumerics oneRequest = .ok st := by
  obtain ⟨c, h, hready⟩ := exists_planned_oneRequest
  obtain ⟨hiff, hmain⟩ := main_isOk_iff sampleRollout realNumerics h hready
  refine ⟨hiff, hmain (by decide) fun r hr => ?_⟩
  obtain rfl : r = 0 := Nat.lt_one_iff.mp hr
  decide

/-- A run that completes has computed what its requests ask for. -/
theorem main_outcome (hslots : (kvConfig args).numBlocks * blockSize < 2 ^ 31) {st : State 𝕜}
    (hst : main env num args = .ok st) : Outcome env num args st := by
  obtain ⟨-, -, c, -, -, hcreate, hloops⟩ := (main_eq_ok env num).mp hst
  have h : Planned args env.paged c := ⟨hcreate, hslots⟩
  obtain ⟨hok, prefills, decodes, hprefills, hdecodes, rfl⟩ := (loops_eq_ok env num h).mp hloops
  exact
    { generatedTokens := rfl
      seqLengths := fun r hr => h.seqLengths_run env hok hr
      usedBlocks := h.usedBlocks_run env hok
      kvPeakBytes := h.bytes_eq
      prefill := fun r hr => by
        obtain ⟨prefill, hget, hprefill⟩ := (getElem?_of_mapM_range hprefills).2 r hr
        refine ⟨prefill, hget, fun head hhead i hi => ?_⟩
        exact (flashForward_answers (inferShape_prefill env r) (validate_prefill num r) one_pos hhead hi
          hprefill).1
      decode := fun t ht => by
        obtain ⟨decoded, hget, hdecoded⟩ := (getElem?_of_mapM_range hdecodes).2 t ht
        obtain ⟨qData, hq, hrows⟩ :=
          h.decodeAt_rows env num (allOk_callsBefore_of_le env ht hok) hdecoded
        refine ⟨decoded, qData, hget, hq, ?_⟩
        have hcfg : (stateAfter env c args.requests args.steps prefills decodes).cache.cfg = c.cfg :=
          h.inv.run_cfg _
        rw [hcfg]
        exact hrows }

/-- A run of one request and two decode steps. -/
theorem main_outcome_oneRequest : ∃ st, main sampleRollout realNumerics oneRequest = .ok st ∧
    Outcome sampleRollout realNumerics oneRequest st := by
  obtain ⟨c, h, hready⟩ := exists_planned_oneRequest
  obtain ⟨st, hst⟩ := (h.main_isOk_iff_demand sampleRollout realNumerics hready).mpr (by decide)
  exact ⟨st, hst, main_outcome sampleRollout realNumerics (by decide) hst⟩

end Results

end Main

end Rollout

end SciAttention

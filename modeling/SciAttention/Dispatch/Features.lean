import SciAttention.Dispatch.Agreement
import SciAttention.Dispatch.Success

/-!
# Requested features

What a caller may ask for beside the output: the log-sum-exp of every row, capped logits, a bound on the
workspace. Each is checked in another place. No kernel has a parameter for the cap, the decode backend has
no LSE buffer and no workspace check, and the naive softmax grid ends at `2 ^ 24` blocks.
-/

namespace SciAttention

open Flt Softmax Results

section Features

variable {𝕜 : Type} [Field 𝕜] [LinearOrder 𝕜] {dev : Device}

/-! ## The cap -/

/-- The configuration without the soft cap. -/
def AttentionConfig.uncapped (cfg : AttentionConfig 𝕜) : AttentionConfig 𝕜 := { cfg with softcap := 0 }

/-- There is a request whose output is not the one without the cap. -/
def SoftCapped (num : Numerics 𝕜) (dev : Device) (cfg : AttentionConfig 𝕜) : Prop :=
  ∃ (env : ForwardEnv 𝕜 dev) (q k v : Tensor) (r : AttentionResult 𝕜),
    attention num env q k v cfg = .ok r ∧
      ∀ r', attention num env q k v cfg.uncapped = .ok r' → r'.out ≠ r.out

variable {num : Numerics 𝕜} {env : ForwardEnv 𝕜 dev} {q k v : Tensor} {cfg : AttentionConfig 𝕜}
  {shape : AttentionShape} {r : AttentionResult 𝕜}

theorem ValidRequest.uncapped (h : ValidRequest cfg shape) : ValidRequest cfg.uncapped shape where
  validShape := h.validShape
  causal_le := h.causal_le
  slidingWindow_le := h.slidingWindow_le
  softcap_nonneg := le_rfl
  softcap_backend hpos := absurd hpos (lt_irrefl 0)
  scale_nonneg := h.scale_nonneg
  numSplits_nonneg := h.numSplits_nonneg
  cuSeqlens := h.cuSeqlens

omit [LinearOrder 𝕜] in
/-- Support does not depend on the cap. -/
theorem supports_uncapped (b : BackendKind) :
    supports dev cfg.uncapped shape b = supports dev cfg shape b := by
  cases b <;> rfl

omit [LinearOrder 𝕜] in
theorem route_uncapped : route dev cfg.uncapped shape = route dev cfg shape := by
  have hcandidates : routeCandidates cfg.uncapped shape = routeCandidates cfg shape := rfl
  have hpref : preference cfg.uncapped shape = preference cfg shape := rfl
  simp only [route, hcandidates, hpref, supports_uncapped]

/-- Past validation no backend reads the cap. -/
theorem forward_uncapped (hshape : inferShape q k v cfg.layout = .ok shape)
    (hvalid : ValidRequest cfg shape) (b : BackendKind) :
    forward num env q k v cfg.uncapped b = forward num env q k v cfg b := by
  have hinfer : inferValid num q k v cfg = .ok shape :=
    inferValid_of_valid hshape (validate_isOk_iff.mpr hvalid)
  have hinfer' : inferValid num q k v cfg.uncapped = .ok shape :=
    inferValid_of_valid hshape (validate_isOk_iff.mpr hvalid.uncapped)
  cases b <;> simp only [forward, naiveForward, tiledForward, flashForward, decodeForward, hinfer, hinfer']
  all_goals rfl

/-- A call that succeeds returns what it returns without the cap. -/
theorem attention_uncapped (h : attention num env q k v cfg = .ok r) :
    attention num env q k v cfg.uncapped = .ok r := by
  cases hshape : inferShape q k v cfg.layout with
  | error e => simp [attention, dispatcherForward, hshape] at h
  | ok shape =>
    obtain ⟨hvalid, hsup, hforward⟩ := dispatcherForward_eq_ok hshape h
    have hreq := validate_isOk_iff.mp hvalid
    have hshape' : inferShape q k v cfg.uncapped.layout = .ok shape := hshape
    rw [attention, dispatcherForward_valid hshape' (validate_isOk_iff.mpr hreq.uncapped),
      supports_uncapped, route_uncapped, if_pos hsup, forward_uncapped hshape hreq]
    exact hforward

/-- No logit is ever capped. -/
theorem not_softCapped : ¬ SoftCapped num dev cfg := by
  rintro ⟨env, q, k, v, r, hr, hne⟩
  exact hne r (attention_uncapped hr) rfl

/-! ## The log-sum-exp -/

/-- The LSE tensor is there, has the dimensions `[B, H_q, S_q]` and holds the log-sum-exp of every row.
A query and a key have a dot product only when they have the same length. -/
def LseHonored (num : Numerics 𝕜) (q k v : Tensor) (cfg : AttentionConfig 𝕜) (shape : AttentionShape)
    (r : AttentionResult 𝕜) : Prop :=
  q.dim 3 = k.dim 3 ∧ ∃ mem, r.lse = some ⟨lseDims shape, mem⟩ ∧
    ∀ b < shape.batch, ∀ h < shape.numHeads, ∀ i < shape.seqQ, mem (shape.rowIndex b h i) =
      ofBot ((requestProblem num q k v cfg shape).lse num.E num.log b h i)

/-- The rows of a valid shape are answered when each of them is. -/
theorem lseHonored_of_rows (hvalid : ValidShape shape) (hdim : q.dim 3 = k.dim 3)
    (h : ∀ b < shape.batch, ∀ h < shape.numHeads, ∀ i < shape.seqQ,
      LseAnswers num (requestProblem num q k v cfg shape) shape r.lse b h i) :
    LseHonored num q k v cfg shape r := by
  obtain ⟨mem, hmem, -⟩ := h 0 hvalid.batch_pos 0 hvalid.numHeads_pos 0 hvalid.seqQ_pos
  refine ⟨hdim, mem, hmem, fun b hb head hh i hi => ?_⟩
  obtain ⟨mem', hmem', hvalue⟩ := h b hb head hh i hi
  rw [hmem] at hmem'
  cases hmem'
  exact hvalue

/-- The environment with an LSE buffer that starts as `nan`. -/
def ForwardEnv.dirty (env : ForwardEnv 𝕜 dev) : ForwardEnv 𝕜 dev :=
  { env with lseAlloc := fun n => (env.lseAlloc n).map fun _ _ => nan }

/-- A naive launch does not look at what the LSE buffer starts with. -/
theorem launchNaiveForward_lse {p : NaiveFwdParams 𝕜} {launch : ℕ → LaunchOutcome}
    {res : (ℕ → Flt 𝕜) × Option (ℕ → Flt 𝕜)} (h : launchNaiveForward num p launch = .ok res)
    (lse : Option (ℕ → Flt 𝕜)) :
    ∃ buf, launchNaiveForward num { p with lse } launch =
      .ok (naivePipeline num { p with lse } buf (softmaxBlocks p)) := by
  unfold launchNaiveForward at h
  split at h
  · next q k v out scores hq hk hv ho hs =>
    refine ⟨⟨q, k, v, out, scores⟩, ?_⟩
    simp only [launchNaiveTyped] at h
    split_ifs at h with h0 h1 h2 h3
    simp only [launchNaiveForward, hq, hk, hv, ho, hs, launchNaiveTyped]
    exact (if_neg (not_not.mpr h0)).trans ((if_neg (not_not.mpr h1)).trans
      ((if_neg (not_not.mpr h2)).trans (if_neg (not_not.mpr h3))))
  · cases h

/-- The rows behind the softmax grid keep what their memory held. -/
theorem naiveForward_dirty (hshape : inferShape q k v cfg.layout = .ok shape)
    (hvalid : (validate num cfg shape).isOk) (hret : cfg.returnLse = true)
    (hr : naiveForward num env q k v cfg = .ok r) :
    ∃ r' mem, naiveForward num env.dirty q k v cfg = .ok r' ∧ r'.lse = some ⟨lseDims shape, mem⟩ ∧
      ∀ row, 2 ^ 24 ≤ row → mem row = nan := by
  obtain ⟨id, scores, out, lse, res, hid, hfit, hscores, hout, hlse, hlaunch, -⟩ :=
    naiveForward_eq_ok hshape hvalid hr
  have hlse' : allocLse env.dirty cfg shape = .ok (some fun _ => nan) := by
    obtain ⟨mem, rfl⟩ := exists_lse hlse hret
    simp only [allocLse, hret, if_true, ForwardEnv.dirty] at hlse ⊢
    cases halloc : env.lseAlloc (lseDims shape).prod with
    | none => simp [halloc] at hlse
    | some _ => rfl
  obtain ⟨buf, hbuf⟩ := launchNaiveForward_lse hlaunch (some fun _ => nan)
  set p := naiveParams num q k v cfg shape id scores out lse with hp
  have hrun : launchNaiveForward num
      (naiveParams num q k v cfg shape id scores out (some fun _ => nan)) env.dirty.launch =
        .ok (naivePipeline num { p with lse := some fun _ => nan } buf (softmaxBlocks p)) := hbuf
  have hchecks := naiveChecks_eq_ok (validate_isOk_iff.mp hvalid) hid hfit
  have hscores' : acquireScratchFp32 env.dirty.scratch (scoreBytes shape / 4) = .ok scores := hscores
  have hout' : allocOut env.dirty shape "allocation of the attention output failed" = .ok out := hout
  simp only [naiveForward, inferValid_of_valid hshape hvalid, ok_bind, hchecks, hscores', hout', hlse', hrun,
    pure_eq_ok]
  refine ⟨_, _, rfl, rfl, fun row hrow => ?_⟩
  refine Scatter.apply_of_forall_ne fun w hw haddr => ?_
  -- the grid has at most `2 ^ 24` blocks, one for each row that it writes
  simp only [naiveSoftmax, naiveRowSoftmaxKernel] at hw
  split_ifs at hw
  · obtain ⟨row', hrow', rfl⟩ := List.mem_map.mp hw
    have hlt : row' < softmaxBlocks p := List.mem_range.mp (List.mem_filter.mp hrow').1
    have hmax : softmaxBlocks p ≤ 2 ^ 24 := min_le_right _ _
    simp only at haddr
    omega
  · exact absurd hw List.not_mem_nil

/-! ## The three options -/

/-- What the caller asked for was done. -/
structure Honored (num : Numerics 𝕜) (dev : Device) (q k v : Tensor) (cfg : AttentionConfig 𝕜)
    (shape : AttentionShape) (r : AttentionResult 𝕜) : Prop where
  lse : cfg.returnLse = true → LseHonored num q k v cfg shape r
  softcap : 0 < cfg.softcap → SoftCapped num dev cfg
  workspace : cfg.workspaceLimitBytes ≠ 0 → r.stats.workspaceBytes ≤ cfg.workspaceLimitBytes

/-- The requests whose options the routed backend honours: no cap; with an LSE tensor, rows of one length
on a backend other than decode, at most `2 ^ 24` of them on the naive one; with a workspace limit, partials
within it on the decode backend. -/
structure Honorable (dev : Device) (q k : Tensor) (cfg : AttentionConfig 𝕜) (shape : AttentionShape) :
    Prop where
  softcap : cfg.softcap = 0
  lse_dim : cfg.returnLse = true → q.dim 3 = k.dim 3
  lse_route : cfg.returnLse = true → route dev cfg shape ≠ .decode
  lse_rows : cfg.returnLse = true → route dev cfg shape = .naive → shape.rows ≤ 2 ^ 24
  workspace : cfg.workspaceLimitBytes ≠ 0 → route dev cfg shape = .decode →
    partialBytes shape (decodeSplits dev cfg shape) ≤ cfg.workspaceLimitBytes

variable [IsStrictOrderedRing 𝕜]

/-- On such a request every call that succeeds does what it was asked for. -/
theorem Honorable.honored (hh : Honorable dev q k cfg shape)
    (hshape : inferShape q k v cfg.layout = .ok shape) (hr : attention num env q k v cfg = .ok r) :
    Honored num dev q k v cfg shape r := by
  obtain ⟨hvalid, -, hforward⟩ := dispatcherForward_eq_ok hshape hr
  have hreq := validate_isOk_iff.mp hvalid
  -- no soft cap is ever asked for
  have hcap : 0 < cfg.softcap → SoftCapped num dev cfg := fun h => absurd hh.softcap h.ne'
  cases hroute : route dev cfg shape with
  | auto => exact absurd hroute route_ne_auto
  | naive =>
    rw [hroute] at hforward
    obtain ⟨_, _, _, _, _, -, hfit, -, -, -, -, -, -, -, -, hbytes⟩ :=
      naiveForward_eq_ok hshape hvalid hforward
    refine ⟨fun hret => ?_, hcap, fun hlimit => ?_⟩
    · refine lseHonored_of_rows hreq.validShape (hh.lse_dim hret) fun b hb h hh' i hi => ?_
      have hrow := (AttentionShape.rowIndex_lt hb hh' hi).trans_le (hh.lse_rows hret hroute)
      exact (naiveForward_answers hshape hvalid hb hh' hi hforward hrow).2 hret
    · rw [hbytes]
      rw [ScoresFit, effectiveWorkspaceLimit, if_pos hlimit] at hfit
      exact hfit.resolve_left hlimit
  | tiled =>
    rw [hroute] at hforward
    obtain ⟨_, _, _, _, _, -, -, -, -, -, -, -, -, -, -, hbytes⟩ :=
      tiledForward_eq_ok hshape hvalid hforward
    refine ⟨fun hret => ?_, hcap, fun _ => hbytes ▸ Nat.zero_le _⟩
    exact lseHonored_of_rows hreq.validShape (hh.lse_dim hret) fun b hb h hh' i hi =>
      (tiledForward_answers hshape hvalid hb hh' hi hforward).2 hret
  | flash =>
    rw [hroute] at hforward
    obtain ⟨_, _, _, _, -, -, -, -, -, -, -, -, -, -, -, hbytes⟩ :=
      flashForward_eq_ok hshape hvalid hforward
    refine ⟨fun hret => ?_, hcap, fun _ => hbytes ▸ Nat.zero_le _⟩
    exact lseHonored_of_rows hreq.validShape (hh.lse_dim hret) fun b hb h hh' i hi =>
      (flashForward_answers hshape hvalid hb hh' hi hforward).2 hret
  | decode =>
    rw [hroute] at hforward
    obtain ⟨_, _, _, _, -, -, -, -, -, -, -, -, -, hbytes⟩ := decodeForward_eq_ok hshape hvalid hforward
    exact ⟨fun hret => absurd hroute (hh.lse_route hret), hcap,
      fun hlimit => hbytes ▸ hh.workspace hlimit hroute⟩
  | paged =>
    rw [hroute] at hforward
    cases hforward

end Features

/-- The flash backend with an LSE tensor, a workspace limit and the given cap. -/
noncomputable def featureConfig (softcap : ℝ) : AttentionConfig ℝ :=
  { sampleConfig .flash false with returnLse := true, softcap, workspaceLimitBytes := 1 }

theorem route_feature (softcap : ℝ) :
    route sampleDevice (featureConfig softcap) (sampleShape 64 64 64) = .flash :=
  route_explicit rfl (by decide) rfl

/-- A half-precision request with these options succeeds. -/
theorem attention_feature {softcap : ℝ} (h : 0 ≤ softcap) :
    ∃ r, attention realNumerics sampleEnv (sampleTensor .float16) (sampleTensor .float16)
      (sampleTensor .float16) (featureConfig softcap) = .ok r := by
  have hsample : ValidRequest (sampleConfig .flash false) (sampleShape 64 64 64) :=
    validRequest_sample (by decide) (by decide) (by decide)
  have hreq : ValidRequest (featureConfig softcap) (sampleShape 64 64 64) :=
    ⟨hsample.validShape, hsample.causal_le, hsample.slidingWindow_le, h, fun _ => rfl,
      hsample.scale_nonneg, hsample.numSplits_nonneg, hsample.cuSeqlens⟩
  have hvalid : (validate realNumerics (featureConfig softcap) (sampleShape 64 64 64)).isOk :=
    validate_isOk_iff.mpr hreq
  have hshape : inferShape (sampleTensor .float16) (sampleTensor .float16) (sampleTensor .float16)
      (featureConfig softcap).layout = .ok (sampleShape 64 64 64) := inferShape_sample .float16 rfl
  rw [attention, dispatcherForward_valid hshape hvalid, route_feature,
    if_pos (flash_supported hreq rfl (by decide))]
  exact (flashForward_isOk_iff hshape hvalid
    (show findFlashTile 64 = some ⟨64, 64, 4, 2, 1⟩ from rfl)).mpr
    ⟨⟨rfl, by decide, by decide⟩, ⟨rfl, fun _ => rfl⟩, ⟨rfl, rfl, rfl⟩, rfl⟩

end SciAttention

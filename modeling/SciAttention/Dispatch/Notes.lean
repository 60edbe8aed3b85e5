import SciAttention.Dispatch.Features

/-!
# The note

`AttentionRuntimeStats::note` is documented as the place where a run says how it departed from its
request, and as empty when it did not. It is written by `Forward` of the backend that ran, from the shape,
the layout and its own split count. `Forward` does not know what the dispatcher preferred and keeps no
trace of the split count it was asked for, so the run that asks for that backend and that split count
returns the very same result.
-/

namespace SciAttention

open Results

section Notes

variable {𝕜 : Type} [Field 𝕜] [LinearOrder 𝕜] {dev : Device}

/-! ## What a note is for -/

/-- The run used the backend that was asked for, or the one that the thresholds prefer, and the split
count that was asked for. -/
structure AsRequested (cfg : AttentionConfig 𝕜) (shape : AttentionShape) (r : AttentionResult 𝕜) :
    Prop where
  backend : r.stats.usedBackend = (preference cfg shape).backend
  numSplits : 0 < cfg.numSplits → r.stats.numSplits = cfg.numSplits

/-- The note is empty on a run as requested, and every other note differs from the one of a run on the
same tensors that asks for the backend and the split count that were used. -/
structure DegradationReported (num : Numerics 𝕜) (env : ForwardEnv 𝕜 dev) (q k v : Tensor)
    (cfg : AttentionConfig 𝕜) (shape : AttentionShape) (r : AttentionResult 𝕜) : Prop where
  note_eq_empty_iff : r.stats.note = "" ↔ AsRequested cfg shape r
  note_ne : ¬ AsRequested cfg shape r → ∀ (cfg' : AttentionConfig 𝕜) (r' : AttentionResult 𝕜),
    cfg'.backend = r.stats.usedBackend → cfg'.numSplits = r.stats.numSplits →
      attention num env q k v cfg' = .ok r' → r'.stats.note ≠ r.stats.note

variable {num : Numerics 𝕜} {env : ForwardEnv 𝕜 dev} {q k v : Tensor} {cfg : AttentionConfig 𝕜}
  {shape : AttentionShape} {r : AttentionResult 𝕜}

/-! ## What a backend writes -/

/-- The split count that a backend reports; only the decode backend splits. -/
def reportedSplits (dev : Device) (cfg : AttentionConfig 𝕜) (shape : AttentionShape) : BackendKind → ℕ
  | .decode => decodeSplits dev cfg shape
  | _ => 0

/-- The statistics of a backend: its own kind, its split count, and a text that is never empty. -/
theorem forward_stats (hshape : inferShape q k v cfg.layout = .ok shape)
    (hvalid : (validate num cfg shape).isOk) {b : BackendKind} (hne : b ≠ .auto)
    (h : forward num env q k v cfg b = .ok r) :
    r.stats.usedBackend = b ∧ r.stats.numSplits = reportedSplits dev cfg shape b ∧
      r.stats.note ≠ "" := by
  have hinfer : inferValid num q k v cfg = .ok shape := inferValid_of_valid hshape hvalid
  cases b with
  | auto => exact absurd rfl hne
  | naive =>
    simp only [forward, naiveForward, hinfer, ok_bind, bind_eq_ok, pure_eq_ok] at h
    obtain ⟨_, -, _, -, _, -, _, -, _, -, h⟩ := h
    cases h
    simp [reportedSplits]
  | tiled =>
    simp only [forward, tiledForward, hinfer, ok_bind, bind_eq_ok, pure_eq_ok] at h
    obtain ⟨_, -, _, -, _, -, _, -, h⟩ := h
    cases h
    simp [reportedSplits]
  | flash =>
    simp only [forward, flashForward, hinfer, ok_bind, bind_eq_ok, pure_eq_ok] at h
    obtain ⟨_, -, _, -, _, -, _, -, h⟩ := h
    cases h
    simp [reportedSplits]
  | decode =>
    simp only [forward, decodeForward, hinfer, ok_bind, bind_eq_ok, pure_eq_ok] at h
    obtain ⟨_, -, _, -, _, -, _, -, h⟩ := h
    cases h
    simp [reportedSplits]
  | paged => cases h

/-- A call that succeeds reports the backend it was routed to, and its note is never empty. -/
theorem attention_stats (hshape : inferShape q k v cfg.layout = .ok shape)
    (h : attention num env q k v cfg = .ok r) :
    r.stats.usedBackend = route dev cfg shape ∧
      r.stats.numSplits = reportedSplits dev cfg shape (route dev cfg shape) ∧ r.stats.note ≠ "" := by
  obtain ⟨hvalid, -, hforward⟩ := dispatcherForward_eq_ok hshape h
  exact forward_stats hshape hvalid route_ne_auto hforward

/-! ## Asking for what was executed -/

/-- The configuration that asks for the backend and the split count of a run. The cap is dropped: no kernel
reads it, and most backends refuse it when they are named. -/
def AttentionConfig.asExecuted (cfg : AttentionConfig 𝕜) (r : AttentionResult 𝕜) :
    AttentionConfig 𝕜 :=
  { cfg.uncapped with backend := r.stats.usedBackend, numSplits := r.stats.numSplits }

theorem ValidRequest.asExecuted (h : ValidRequest cfg shape) (r : AttentionResult 𝕜) :
    ValidRequest (cfg.asExecuted r) shape where
  validShape := h.validShape
  causal_le := h.causal_le
  slidingWindow_le := h.slidingWindow_le
  softcap_nonneg := le_rfl
  softcap_backend h := absurd h (lt_irrefl 0)
  scale_nonneg := h.scale_nonneg
  numSplits_nonneg := Int.natCast_nonneg _
  cuSeqlens := h.cuSeqlens

omit [LinearOrder 𝕜] in
/-- Which backends support a shape depends neither on the backend asked for nor on the split count. -/
theorem supported_asExecuted (r : AttentionResult 𝕜) (b : BackendKind) :
    (supports dev (cfg.asExecuted r) shape b).supported = (supports dev cfg shape b).supported := by
  cases b <;> rfl

omit [LinearOrder 𝕜] in
/-- A split count that was executed is not clamped again. -/
theorem decodeSplits_asExecuted (h : r.stats.numSplits = decodeSplits dev cfg shape) :
    decodeSplits dev (cfg.asExecuted r) shape = decodeSplits dev cfg shape := by
  have hpos : 0 < r.stats.numSplits := h ▸ resolveSplits_pos cfg _ _
  have hle : r.stats.numSplits ≤ maxSplits := h ▸ resolveSplits_le cfg _ _
  have hasked : (cfg.asExecuted r).numSplits = r.stats.numSplits := rfl
  rw [← h, decodeSplits, resolveSplits, hasked, if_pos (by omega), Int.toNat_natCast, min_eq_left hle]

omit [Field 𝕜] [LinearOrder 𝕜] in
/-- A backend that supports the request is the one a request for it is routed to. -/
theorem route_eq_of_supported {b : BackendKind} (hb : cfg.backend = b) (hne : b ≠ .auto)
    (h : (supports dev cfg shape b).supported = true) : route dev cfg shape = b := by
  have hpref : (preference cfg shape).backend = b := by
    rw [preference, if_pos (hb ▸ hne), hb]
  simp only [route, routeCandidates, hpref, List.find?_cons, h, Option.getD_some]

/-- A backend executes the two requests alike when they resolve to one split count. -/
theorem forward_asExecuted (hshape : inferShape q k v cfg.layout = .ok shape)
    (hvalid : ValidRequest cfg shape) {b : BackendKind}
    (hsplits : r.stats.numSplits = reportedSplits dev cfg shape b) :
    forward num env q k v (cfg.asExecuted r) b = forward num env q k v cfg b := by
  have hinfer : inferValid num q k v cfg = .ok shape :=
    inferValid_of_valid hshape (validate_isOk_iff.mpr hvalid)
  have hinfer' : inferValid num q k v (cfg.asExecuted r) = .ok shape :=
    inferValid_of_valid hshape (validate_isOk_iff.mpr (hvalid.asExecuted r))
  cases b with
  | auto | naive => simp only [forward, naiveForward, hinfer, hinfer']; rfl
  | tiled => simp only [forward, tiledForward, hinfer, hinfer']; rfl
  | flash => simp only [forward, flashForward, hinfer, hinfer']; rfl
  | decode =>
    simp only [forward, decodeForward, hinfer, hinfer', ok_bind, decodeSplits_asExecuted hsplits]
    rfl
  | paged => rfl

/-- The request for what was executed returns the same result. -/
theorem attention_asExecuted (hshape : inferShape q k v cfg.layout = .ok shape)
    (h : attention num env q k v cfg = .ok r) : attention num env q k v (cfg.asExecuted r) = .ok r := by
  obtain ⟨hbackend, hsplits, -⟩ := attention_stats hshape h
  obtain ⟨hvalid, hsup, hforward⟩ := dispatcherForward_eq_ok hshape h
  have hreq := validate_isOk_iff.mp hvalid
  have hshape' : inferShape q k v (cfg.asExecuted r).layout = .ok shape := hshape
  have hsup' : (supports dev (cfg.asExecuted r) shape (route dev cfg shape)).supported = true :=
    (supported_asExecuted r _).trans hsup
  have hroute : route dev (cfg.asExecuted r) shape = route dev cfg shape :=
    route_eq_of_supported hbackend route_ne_auto hsup'
  rw [attention, dispatcherForward_valid hshape' (validate_isOk_iff.mpr (hreq.asExecuted r)), hroute,
    if_pos hsup', forward_asExecuted hshape hreq hsplits]
  exact hforward

/-! ## No note reports a degradation -/

/-- No run reports its degradation: a run as requested has a note, and the note of any other run is also
the note of the request for what was executed. -/
theorem not_degradationReported (hshape : inferShape q k v cfg.layout = .ok shape)
    (hr : attention num env q k v cfg = .ok r) :
    ¬ DegradationReported num env q k v cfg shape r := by
  intro h
  by_cases hasked : AsRequested cfg shape r
  · exact (attention_stats hshape hr).2.2 (h.note_eq_empty_iff.mpr hasked)
  · exact h.note_ne hasked (cfg.asExecuted r) r rfl rfl (attention_asExecuted hshape hr) rfl

end Notes

/-- A run of the flash backend that was asked for has a note. -/
theorem not_degradationReported_feature :
    ∃ r, attention realNumerics sampleEnv (sampleTensor .float16) (sampleTensor .float16)
        (sampleTensor .float16) (featureConfig 0) = .ok r ∧
      ¬ DegradationReported realNumerics sampleEnv (sampleTensor .float16) (sampleTensor .float16)
        (sampleTensor .float16) (featureConfig 0) (sampleShape 64 64 64) r := by
  obtain ⟨r, hr⟩ := attention_feature le_rfl
  exact ⟨r, hr, not_degradationReported (inferShape_sample .float16 rfl) hr⟩

/-- A prefill asked of the decode backend falls back to the flash backend. -/
theorem route_fallback :
    route sampleDevice (sampleConfig .decode true) (sampleShape 64 64 64) = .flash := by
  have hreq : ValidRequest (sampleConfig .decode true) (sampleShape 64 64 64) :=
    validRequest_sample (by decide) (by decide) (by decide)
  have hdecode : (supports sampleDevice (sampleConfig .decode true) (sampleShape 64 64 64)
      .decode).supported = false := rfl
  have hflash : (supports sampleDevice (sampleConfig .decode true) (sampleShape 64 64 64)
      .flash).supported = true := flash_supported hreq rfl (by decide)
  have hcandidates : routeCandidates (sampleConfig .decode true) (sampleShape 64 64 64) =
      [.decode, .flash, .tiled, .naive] := rfl
  simp only [route, hcandidates, List.find?_cons, hdecode, hflash, Option.getD_some]

/-- The fallback is not reported: asking for the flash backend gives the same note. -/
theorem not_degradationReported_fallback :
    ∃ r, attention realNumerics sampleEnv (sampleTensor .float16) (sampleTensor .float16)
        (sampleTensor .float16) (sampleConfig .decode true) = .ok r ∧
      ¬ DegradationReported realNumerics sampleEnv (sampleTensor .float16) (sampleTensor .float16)
        (sampleTensor .float16) (sampleConfig .decode true) (sampleShape 64 64 64) r := by
  have hreq : ValidRequest (sampleConfig .decode true) (sampleShape 64 64 64) :=
    validRequest_sample (by decide) (by decide) (by decide)
  have hvalid : (validate realNumerics (sampleConfig .decode true) (sampleShape 64 64 64)).isOk :=
    validate_isOk_iff.mpr hreq
  have hshape : inferShape (sampleTensor .float16) (sampleTensor .float16) (sampleTensor .float16)
      (sampleConfig .decode true).layout = .ok (sampleShape 64 64 64) := inferShape_sample .float16 rfl
  obtain ⟨r, hr⟩ : ∃ r, attention realNumerics sampleEnv (sampleTensor .float16) (sampleTensor .float16)
      (sampleTensor .float16) (sampleConfig .decode true) = .ok r := by
    rw [attention, dispatcherForward_valid hshape hvalid, route_fallback,
      if_pos (flash_supported hreq rfl (by decide))]
    exact (flashForward_isOk_iff hshape hvalid
      (show findFlashTile 64 = some ⟨64, 64, 4, 2, 1⟩ from rfl)).mpr
      ⟨⟨rfl, by decide, by decide⟩, ⟨rfl, fun h => by cases h⟩, ⟨rfl, rfl, rfl⟩, rfl⟩
  have hused : r.stats.usedBackend = .flash := (attention_stats hshape hr).1.trans route_fallback
  refine ⟨r, hr, fun h => h.note_ne (fun hasked => ?_) _ r rfl rfl (attention_asExecuted hshape hr) rfl⟩
  have hpref := hused.symm.trans hasked.backend
  cases hpref

end SciAttention

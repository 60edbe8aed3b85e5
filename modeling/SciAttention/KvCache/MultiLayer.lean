import SciAttention.KvCache.Refinement
import Mathlib.Algebra.Group.Action.Defs

/-!
# Appending a step to every layer

A model step appends its tokens to each layer of a sequence, one `AppendTokens` call per layer. The
sequence has one length for all layers, and each call advances it, so after steps of `T` tokens on
`L` layers the length is `L * T`. The law that a caller expects holds for one layer.
-/

namespace SciAttention

namespace PagedKVCache

open BlockManager

/-- One step: the same number of tokens for every layer, in some order of the layers. -/
structure LayerStep where
  tokens : ℕ
  order : List ℕ
  kNew : ℕ → Tensor
  vNew : ℕ → Tensor
  env : ℕ → AppendEnv

namespace LayerStep

/-- The calls of a step on sequence `s`. -/
def calls (step : LayerStep) (s : ℕ) : List Call :=
  step.order.map fun l : ℕ => .appendTokens s l (step.kNew l) (step.vNew l) (step.env l)

/-- Each of the `numLayers` layers gets `tokens` tokens once. -/
structure Covers (step : LayerStep) (numLayers : ℕ) : Prop where
  order_perm : step.order.Perm (List.range numLayers)
  tokens_eq : ∀ l < numLayers, (step.kNew l).dim 0 = step.tokens

/-- The rows the step brings for one side of a layer. -/
def rows (step : LayerStep) (isKey : Bool) (layer : ℕ) : List (List UInt8) :=
  (List.range step.tokens).map fun t =>
    (if isKey then step.kNew layer else step.vNew layer).tokenRow t

end LayerStep

/-- The number of tokens of a list of steps. -/
def totalTokens (steps : List LayerStep) : ℕ := (steps.map LayerStep.tokens).sum

/-- What a caller expects of sequence `s` after the steps: length, block count and contents of every
layer. -/
def MultiLayerLaw (c : PagedKVCache) (s : ℕ) (steps : List LayerStep) : Prop :=
  c.seqLength s = totalTokens steps ∧
  c.logicalBlockCount s = (totalTokens steps + c.cfg.blockSize - 1) / c.cfg.blockSize ∧
  ∀ isKey, ∀ layer < c.cfg.numLayers, ∀ p < totalTokens steps,
    ∃ b, (c.seqBlocks s)[p / c.cfg.blockSize]? = some b ∧
      (steps.flatMap fun step => step.rows isKey layer)[p]? =
        some (c.rowAt isKey layer (b.toNat * c.cfg.blockSize + p % c.cfg.blockSize))

/-! ## Lengths along a run -/

/-- A successful append was made on a valid sequence. -/
theorem Inv.append_step_ok {c : PagedKVCache} (h : Inv c) {seqId layer : ℤ} {kNew vNew : Tensor}
    {env : AppendEnv} (hok : (c.appendTokens seqId layer kNew vNew env).2.isOk) :
    ∃ t : ℕ, seqId = t ∧ t < c.cfg.maxNumSeqs ∧ 0 < kNew.dim 0 ∧ 0 ≤ layer ∧
      (c.appendTokens seqId layer kNew vNew env).1.seqLengths =
        Function.update c.seqLengths t (c.seqLengths t + kNew.dim 0) ∧
      (∀ u, u ≠ t → (c.appendTokens seqId layer kNew vNew env).1.seqBlocks u = c.seqBlocks u) ∧
      ((c.appendTokens seqId layer kNew vNew env).1.seqBlocks t).length =
        max (c.seqBlocks t).length (c.neededBlocks t (kNew.dim 0)) := by
  rcases appendTokens_cases h seqId layer kNew vNew env with
    ⟨e, failures, hbad, heq⟩ |
      ⟨t, m, ids, c₂, hargs, hr, rfl, ⟨e, st, dev, cap, hbad, -, -, heq⟩ |
      ⟨slots, cells, cap, -, -, -, heq⟩⟩
  · exact absurd (by simpa [heq] using hok) hbad
  · exact absurd (by simpa [heq] using hok) hbad
  · rw [heq]
    refine ⟨t, hargs.seqId_eq, hargs.seq_lt, hargs.tokens_pos, hargs.layer_nonneg, rfl, ?_, ?_⟩
    · intro u hu
      simp [PagedKVCache.stored, refreshRow, attach, Function.update_of_ne hu]
    · simp only [PagedKVCache.stored, refreshRow, attach, Function.update_self]
      exact hr.length_eq

/-- A call on another sequence keeps the length and the blocks of `s`. -/
theorem Inv.step_frame {c : PagedKVCache} (h : Inv c) {s : ℕ} {call : Call}
    (hs : touches s call = false) :
    (c.step call).1.seqLengths s = c.seqLengths s ∧
      (c.step call).1.seqBlocks s = c.seqBlocks s := by
  cases call with
  | appendTokens seqId layer kNew vNew env =>
    have hne : seqId ≠ s := by simpa [touches] using hs
    simp only [PagedKVCache.step]
    rcases appendTokens_cases h seqId layer kNew vNew env with
      ⟨e, failures, -, heq⟩ | ⟨t, m, ids, c₂, hargs, -, rfl, hrest⟩
    · rw [heq]
      exact ⟨rfl, rfl⟩
    have hst : s ≠ t := by
      rintro rfl
      exact hne hargs.seqId_eq
    rcases hrest with ⟨e, st, dev, cap, -, -, -, heq⟩ | ⟨slots, cells, cap, -, -, -, heq⟩
    · rw [heq]
      simp [refreshRow, attach, Function.update_of_ne hst]
    · rw [heq]
      simp [PagedKVCache.stored, refreshRow, attach, Function.update_of_ne hst]
  | resetSeq seqId env =>
    have hne : seqId ≠ s := by simpa [touches] using hs
    simp only [PagedKVCache.step]
    rcases c.resetSeq_cases seqId env with ⟨e, -, heq⟩ |
      ⟨t, rfl, -, ⟨-, -, heq⟩ | ⟨st, -, -, heq⟩⟩
    · rw [heq]
      exact ⟨rfl, rfl⟩
    · rw [heq]
      exact ⟨rfl, rfl⟩
    · have hst : s ≠ t := by
        rintro rfl
        exact hne rfl
      rw [heq]
      simp [PagedKVCache.releaseSeq, Function.update_of_ne hst]
  | syncPageTable =>
    obtain ⟨device, synced, heq⟩ := c.syncPageTable_eq
    rw [PagedKVCache.step, heq]
    exact ⟨rfl, rfl⟩
  | forceSyncPageTable =>
    obtain ⟨device, synced, heq⟩ := c.forceSyncPageTable_eq
    rw [PagedKVCache.step, heq]
    exact ⟨rfl, rfl⟩

/-- A call keeps the configuration. -/
theorem Inv.step_cfg {c : PagedKVCache} (h : Inv c) (call : Call) : (c.step call).1.cfg = c.cfg := by
  cases call with
  | appendTokens seqId layer kNew vNew env =>
    simp only [PagedKVCache.step]
    rcases appendTokens_cases h seqId layer kNew vNew env with
      ⟨e, failures, -, heq⟩ | ⟨t, m, ids, c₂, -, -, rfl, ⟨e, st, dev, cap, -, -, -, heq⟩ |
        ⟨slots, cells, cap, -, -, -, heq⟩⟩
    all_goals rw [heq]
    all_goals rfl
  | resetSeq seqId env =>
    simp only [PagedKVCache.step]
    rcases c.resetSeq_cases seqId env with
      ⟨e, -, heq⟩ | ⟨t, -, -, ⟨-, -, heq⟩ | ⟨st, -, -, heq⟩⟩
    all_goals rw [heq]
    rfl
  | syncPageTable =>
    obtain ⟨device, synced, heq⟩ := c.syncPageTable_eq
    rw [PagedKVCache.step, heq]
  | forceSyncPageTable =>
    obtain ⟨device, synced, heq⟩ := c.forceSyncPageTable_eq
    rw [PagedKVCache.step, heq]

theorem Inv.run_cfg {c : PagedKVCache} (h : Inv c) (calls : List Call) :
    (c.run calls).cfg = c.cfg := by
  induction calls generalizing c with
  | nil => rfl
  | cons call calls ih => exact (ih (h.step call)).trans (h.step_cfg call)

/-- The tokens a call appends. -/
def callTokens : Call → ℕ
  | .appendTokens _ _ kNew _ _ => kNew.dim 0
  | _ => 0

/-- When all calls on a sequence are successful appends, its length grows by all their tokens and it
owns exactly the blocks that length needs. -/
theorem Inv.run_lengths {c : PagedKVCache} (h : Inv c) {s : ℕ} (calls : List Call)
    (happend : ∀ call ∈ calls, touches s call = true → isAppend call = true)
    (hok : Along (fun c call => touches s call = true → (c.step call).2.isOk) c calls)
    (hblocks : (c.seqBlocks s).length =
      (c.seqLengths s + c.cfg.blockSize - 1) / c.cfg.blockSize) :
    (c.run calls).seqLengths s =
        c.seqLengths s + ((calls.filter (touches s)).map callTokens).sum ∧
      ((c.run calls).seqBlocks s).length =
        ((c.run calls).seqLengths s + c.cfg.blockSize - 1) / c.cfg.blockSize := by
  induction calls generalizing c with
  | nil => exact ⟨by simp, hblocks⟩
  | cons call calls ih =>
    have hcfg := h.step_cfg call
    have hrec := fun hb => ih (h.step call) (fun d hd => happend d (by simp [hd])) hok.2 hb
    rw [hcfg] at hrec
    rw [run_cons]
    -- only appends touch the sequence, and each adds its tokens
    cases htouch : touches s call with
    | false =>
      obtain ⟨hlen, hown⟩ := h.step_frame htouch
      rw [List.filter_cons_of_neg (by simp [htouch])]
      rw [← hlen]
      exact hrec (by rw [hown, hlen, hblocks])
    | true =>
      have hcall := happend call (by simp) htouch
      cases call with
      | appendTokens seqId layer kNew vNew env =>
        have hokc := hok.1 htouch
        simp only [PagedKVCache.step] at hokc hrec ⊢
        obtain ⟨t, ht, -, -, -, hlens, -, hown⟩ := h.append_step_ok hokc
        obtain rfl : t = s := by
          have : seqId = s := by simpa [touches] using htouch
          omega
        rw [List.filter_cons_of_pos htouch, List.map_cons, List.sum_cons]
        have hlen : (c.appendTokens seqId layer kNew vNew env).1.seqLengths t =
            c.seqLengths t + kNew.dim 0 := by rw [hlens, Function.update_self]
        obtain ⟨hsum, hlast⟩ := hrec (by
          rw [hown, hlen, hblocks]
          refine max_eq_right (Nat.div_le_div_right ?_)
          omega)
        refine ⟨?_, hlast⟩
        rw [hsum, hlen]
        simp only [callTokens]
        omega
      | resetSeq seqId env => simp [isAppend] at hcall
      | syncPageTable => simp [isAppend] at hcall
      | forceSyncPageTable => simp [isAppend] at hcall

/-- On `L` layers every step counts `L` times. -/
theorem sum_callTokens_steps {steps : List LayerStep} {numLayers : ℕ} (s : ℕ)
    (hcovers : ∀ step ∈ steps, step.Covers numLayers) :
    ((steps.flatMap fun step => step.calls s).map callTokens).sum =
      numLayers * totalTokens steps := by
  induction steps with
  | nil => simp [totalTokens]
  | cons step steps ih =>
    have hstep := hcovers step (by simp)
    have hsum : ((step.calls s).map callTokens).sum = numLayers * step.tokens := by
      have hmap : (step.calls s).map callTokens = step.order.map fun _ => step.tokens := by
        simp only [LayerStep.calls, List.map_map]
        refine List.map_congr_left fun l hl => ?_
        exact hstep.tokens_eq l (List.mem_range.mp (hstep.order_perm.mem_iff.mp hl))
      rw [hmap, List.map_const', List.sum_replicate, hstep.order_perm.length_eq, List.length_range,
        smul_eq_mul]
    rw [List.flatMap_cons, List.map_append, List.sum_append, hsum,
      ih fun d hd => hcovers d (by simp [hd])]
    simp [totalTokens, Nat.mul_add]

/-! ## Contents of a single layer -/

/-- The rows a call appends to one side. -/
def callRows (isKey : Bool) : Call → List (List UInt8)
  | .appendTokens _ _ kNew vNew _ =>
    (List.range (kNew.dim 0)).map fun t => (if isKey then kNew else vNew).tokenRow t
  | _ => []

/-- The layer a call appends to. -/
def callLayer : Call → ℕ
  | .appendTokens _ layer _ _ _ => layer.toNat
  | _ => 0

/-- One side of a layer holds `rows` at the positions of the sequence, in order. -/
def HoldsRows (c : PagedKVCache) (s : ℕ) (isKey : Bool) (layer : ℕ) (rows : List (List UInt8)) :
    Prop :=
  c.seqLengths s = rows.length ∧ ∀ p < rows.length,
    ∃ b, (c.seqBlocks s)[p / c.cfg.blockSize]? = some b ∧
      rows[p]? = some (c.rowAt isKey layer (b.toNat * c.cfg.blockSize + p % c.cfg.blockSize))

/-- A call on another sequence keeps the rows. -/
theorem HoldsRows.frame {c : PagedKVCache} {s layer : ℕ} {isKey : Bool} {rows : List (List UInt8)}
    (hrows : HoldsRows c s isKey layer rows) (h : Inv c) {call : Call}
    (hs : touches s call = false) (hids : ReadsOwnedIds c call) (hfit : SlotsSound c call) :
    HoldsRows (c.step call).1 s isKey layer rows := by
  obtain ⟨hlen, hown⟩ := h.step_frame hs
  refine ⟨hlen.trans hrows.1, fun p hp => ?_⟩
  obtain ⟨b, hb, hrow⟩ := hrows.2 p hp
  rw [h.step_cfg, hown]
  refine ⟨b, hb, ?_⟩
  rw [h.step_rowAt hids hfit hb (Nat.mod_lt _ c.cfg.blockSize_pos) (.inl hs), hrow]

/-- A successful append adds its rows at the end. -/
theorem HoldsRows.append {c : PagedKVCache} {s : ℕ} {isKey : Bool} {rows : List (List UInt8)}
    {layer : ℤ} {kNew vNew : Tensor} {env : AppendEnv}
    (hrows : HoldsRows c s isKey layer.toNat rows) (h : Inv c)
    (hok : (c.appendTokens s layer kNew vNew env).2.isOk)
    (hsound : AppendSound c (.appendTokens s layer kNew vNew env)) :
    HoldsRows (c.step (.appendTokens s layer kNew vNew env)).1 s isKey layer.toNat
      (rows ++ callRows isKey (.appendTokens s layer kNew vNew env)) := by
  have hnew : (callRows isKey (.appendTokens s layer kNew vNew env)).length = kNew.dim 0 := by
    simp [callRows]
  have hbs := c.cfg.blockSize_pos
  have hids : ReadsOwnedIds c (.appendTokens s layer kNew vNew env) := trivial
  have hold : ∀ {j o : ℕ} {b : ℤ}, (c.seqBlocks s)[j]? = some b → o < c.cfg.blockSize →
      j * c.cfg.blockSize + o < c.seqLengths s →
      (c.appendTokens s layer kNew vNew env).1.rowAt isKey layer.toNat
          (b.toNat * c.cfg.blockSize + o) =
        c.rowAt isKey layer.toNat (b.toNat * c.cfg.blockSize + o) :=
    fun hb ho hlt => h.step_rowAt hids hsound.slotsSound hb ho (.inr ⟨rfl, hlt⟩) isKey _
  simp only [PagedKVCache.step]
  rcases appendTokens_cases h s layer kNew vNew env with
    ⟨e, failures, hbad, heq⟩ |
      ⟨t, m, ids, c₂, hargs, hr, rfl, ⟨e, st, dev, cap, hbad, -, -, heq⟩ |
      ⟨slots, cells, cap, hslots, hcells, hst, heq⟩⟩
  · exact absurd (by simpa [heq] using hok) hbad
  · exact absurd (by simpa [heq] using hok) hbad
  obtain rfl : t = s := by exact_mod_cast hargs.seqId_eq.symm
  obtain ⟨kd, vd, hkd, hvd, -, hdtype, hshape, hside⟩ := KVCache.append_ok hst
  rw [h.storageCfg_eq] at hdtype hshape
  simp only [h.storageCfg_eq, Int.toNat_natCast] at hside
  obtain ⟨hv, hfit⟩ := hsound ⟨hargs, hdtype.1, hdtype.2, hshape.2.2.1, hshape.2.2.2⟩
  have hinv₂ := hr.inv h hargs.seq_lt
  have hslotCells := hinv₂.slotCells hargs.seq_lt hslots hcells
  rw [heq] at hold ⊢
  refine ⟨?_, fun p hp => ?_⟩
  · simp [PagedKVCache.stored, refreshRow, attach, hrows.1, hnew]
  · rw [List.length_append, hnew] at hp
    rcases lt_or_ge p rows.length with hp' | hp'
    · obtain ⟨b, hb, hrow⟩ := hrows.2 p hp'
      refine ⟨b, ?_, ?_⟩
      · obtain ⟨hlt, -⟩ := List.getElem?_eq_some_iff.mp hb
        simp only [PagedKVCache.stored, refreshRow, attach, Function.update_self]
        rw [List.getElem?_append_left hlt, hb]
      · rw [List.getElem?_append_left hp', hrow]
        have hpos : p / c.cfg.blockSize * c.cfg.blockSize + p % c.cfg.blockSize = p := by
          rw [Nat.mul_comm]
          exact Nat.div_add_mod _ _
        exact congrArg some (hold hb (Nat.mod_lt _ hbs) (by rw [hpos, hrows.1]; exact hp')).symm
    · -- a new position: the one token whose slot it is brought its row
      have hi : p - rows.length < kNew.dim 0 := by omega
      obtain ⟨b, hb, -⟩ := hslotCells.eq hinv₂ (hfit.reserved hr) hi
      have hp₂ : c.seqLengths t + (p - rows.length) = p := by rw [hrows.1]; omega
      dsimp only [refreshRow, attach] at hb
      rw [hp₂] at hb
      refine ⟨b, hb, ?_⟩
      rw [List.getElem?_append_right hp']
      have hhit := hslotCells.hit hinv₂ (hfit.reserved hr) hb (Nat.mod_lt p hbs) hi
        (by rw [Nat.mul_comm]; exact hp₂.trans (Nat.div_add_mod _ _).symm)
        (if isKey then kd else vd) (c.storage.side isKey layer.toNat)
      have hrow : (if isKey then kNew else vNew).tokenRow (p - rows.length) =
          sourceRow c.cfg.toDeviceShape c.cfg.elemBytes (if isKey then kd else vd)
            (p - rows.length) := by
        cases isKey
        · exact (sourceRow_eq_tokenRow hvd hdtype.2 hv _).symm
        · exact (sourceRow_eq_tokenRow hkd hdtype.1 (by rw [hshape.2.2.1, hshape.2.2.2]) _).symm
      simp only [callRows, List.getElem?_map, List.getElem?_range hi, Option.map_some, hrow]
      refine congrArg some (hhit.symm.trans ?_)
      dsimp only [PagedKVCache.stored, refreshRow, attach, rowAt]
      rw [hside, if_pos rfl]

/-- When all calls on a sequence are successful appends to one layer, the layer holds their rows in
order. -/
theorem HoldsRows.run {c : PagedKVCache} {s layer : ℕ} {isKey : Bool} {rows : List (List UInt8)}
    (hrows : HoldsRows c s isKey layer rows) (h : Inv c) (calls : List Call)
    (happend : ∀ call ∈ calls, touches s call = true → isAppend call = true ∧ callLayer call = layer)
    (hok : Along (fun c call => touches s call = true → (c.step call).2.isOk) c calls)
    (hids : Along ReadsOwnedIds c calls) (hsound : Along AppendSound c calls) :
    HoldsRows (c.run calls) s isKey layer
      (rows ++ (calls.filter (touches s)).flatMap (callRows isKey)) := by
  induction calls generalizing c rows with
  | nil => simpa using hrows
  | cons call calls ih =>
    have hrec : ∀ new, HoldsRows (c.step call).1 s isKey layer new →
        HoldsRows ((c.step call).1.run calls) s isKey layer
          (new ++ (calls.filter (touches s)).flatMap (callRows isKey)) :=
      fun new hnew => ih hnew (h.step call) (fun d hd => happend d (by simp [hd])) hok.2 hids.2
        hsound.2
    rw [run_cons]
    cases htouch : touches s call with
    | false =>
      rw [List.filter_cons_of_neg (by simp [htouch])]
      exact hrec _ (hrows.frame h htouch hids.1 hsound.1.slotsSound)
    | true =>
      obtain ⟨hcall, hlayer⟩ := happend call (by simp) htouch
      rw [List.filter_cons_of_pos htouch, List.flatMap_cons, ← List.append_assoc]
      cases call with
      | appendTokens seqId l kNew vNew env =>
        obtain rfl : seqId = s := by simpa [touches] using htouch
        obtain rfl : l.toNat = layer := hlayer
        exact hrec _ (hrows.append h (hok.1 htouch) hsound.1)
      | resetSeq seqId env => simp [isAppend] at hcall
      | syncPageTable => simp [isAppend] at hcall
      | forceSyncPageTable => simp [isAppend] at hcall

/-! ## The law -/

/-- All calls of the steps are appends to `s`. -/
theorem steps_calls_append {calls : List Call} {s : ℕ} {steps : List LayerStep}
    (hcalls : calls.filter (touches s) = steps.flatMap fun step => step.calls s) {call : Call}
    (hmem : call ∈ calls) (htouch : touches s call = true) :
    ∃ step ∈ steps, ∃ l ∈ step.order,
      call = .appendTokens s (l : ℕ) (step.kNew l) (step.vNew l) (step.env l) := by
  have hfilter : call ∈ calls.filter (touches s) := List.mem_filter.mpr ⟨hmem, htouch⟩
  rw [hcalls, List.mem_flatMap] at hfilter
  obtain ⟨step, hstep, hcall⟩ := hfilter
  obtain ⟨l, hl, rfl⟩ := List.mem_map.mp hcall
  exact ⟨step, hstep, l, hl, rfl⟩

/-- On one layer the rows of the calls are the rows of the steps. -/
theorem flatMap_callRows_steps {steps : List LayerStep} (s : ℕ)
    (hcovers : ∀ step ∈ steps, step.Covers 1) (isKey : Bool) :
    (steps.flatMap fun step => step.calls s).flatMap (callRows isKey) =
      steps.flatMap fun step => step.rows isKey 0 := by
  rw [List.flatMap_assoc]
  refine List.flatMap_congr fun step hstep => ?_
  have horder : step.order = [0] := List.perm_singleton.mp (hcovers step hstep).order_perm
  have htokens := (hcovers step hstep).tokens_eq 0 (by decide)
  simp [LayerStep.calls, horder, callRows, LayerStep.rows, htokens]

/-- Every state reached by steps on all layers of `s`, interleaved with anything on other sequences,
has length `L * T`; the caller's law holds exactly for one layer, or when there is no token. -/
theorem multiLayerLaw_iff {cfg : KVCacheConfig} {env : PagedEnv} {c : PagedKVCache}
    (hcreate : PagedKVCache.create cfg env = .ok c) (hsmall : cfg.numBlocks ≤ 2 ^ 31) {s : ℕ}
    (hs : s < c.cfg.maxNumSeqs) (steps : List LayerStep) (calls : List Call)
    (hcovers : ∀ step ∈ steps, step.Covers c.cfg.numLayers)
    (hcalls : calls.filter (touches s) = steps.flatMap fun step => step.calls s)
    (hok : Along (fun c call => touches s call = true → (c.step call).2.isOk) c calls)
    (hids : Along ReadsOwnedIds c calls) (hsound : Along AppendSound c calls) :
    MultiLayerLaw (c.run calls) s steps ↔
      c.cfg.numLayers = 1 ∨ totalTokens steps = 0 := by
  have h := Inv.create hsmall hcreate
  obtain ⟨_, _, _, _, hc⟩ := create_eq_ok hcreate
  have hempty : c.seqLengths s = 0 ∧ c.seqBlocks s = [] := by rw [hc]; exact ⟨rfl, rfl⟩
  have hbs := c.cfg.blockSize_pos
  have hcfg := h.run_cfg calls
  have happend : ∀ call ∈ calls, touches s call = true → isAppend call = true := by
    intro call hmem htouch
    obtain ⟨_, _, _, _, rfl⟩ := steps_calls_append hcalls hmem htouch
    rfl
  obtain ⟨hlen, hblocks⟩ := h.run_lengths calls happend hok (by
    rw [hempty.1, hempty.2, Nat.zero_add, Nat.div_eq_of_lt (by omega)]
    rfl)
  rw [hempty.1, Nat.zero_add, hcalls, sum_callTokens_steps s hcovers] at hlen
  -- the sequence is in range, so the accessors return the fields
  have hseqLength : (c.run calls).seqLength s = (c.run calls).seqLengths s := by
    simp only [seqLength, Int.toNat_natCast, hcfg]
    exact if_neg (by omega)
  have hcount : (c.run calls).logicalBlockCount s = ((c.run calls).seqBlocks s).length := by
    simp only [logicalBlockCount, Int.toNat_natCast, hcfg]
    exact if_neg (by omega)
  constructor
  · rintro ⟨hlaw, -, -⟩
    -- every layer of a step adds its tokens to the one length
    rw [hseqLength, hlen] at hlaw
    rcases Nat.eq_zero_or_pos (totalTokens steps) with hzero | hpos
    · exact .inr hzero
    · exact .inl (Nat.eq_of_mul_eq_mul_right hpos (by rw [hlaw, Nat.one_mul]))
  · intro hcond
    have htotal : (c.run calls).seqLengths s = totalTokens steps := by
      rcases hcond with hone | hzero
      · rw [hlen, hone, Nat.one_mul]
      · rw [hlen, hzero, Nat.mul_zero]
    refine ⟨by rw [hseqLength, htotal], by rw [hcount, hblocks, htotal, hcfg], ?_⟩
    intro isKey layer hlayer p hp
    rcases hcond with hone | hzero
    · have hlayer0 : layer = 0 := by rw [hcfg, hone] at hlayer; omega
      subst hlayer0
      have happend0 : ∀ call ∈ calls, touches s call = true →
          isAppend call = true ∧ callLayer call = 0 := by
        intro call hmem htouch
        obtain ⟨step, hstep, l, hl, rfl⟩ := steps_calls_append hcalls hmem htouch
        have hl0 := List.mem_range.mp ((hcovers step hstep).order_perm.mem_iff.mp hl)
        refine ⟨rfl, ?_⟩
        simp only [callLayer, Int.toNat_natCast]
        omega
      have hrows : HoldsRows c s isKey 0 [] := ⟨hempty.1, fun p hp => absurd hp (by simp)⟩
      have hall := hrows.run h calls happend0 hok hids hsound
      rw [List.nil_append, hcalls, flatMap_callRows_steps s (hone ▸ hcovers)] at hall
      exact hall.2 p (by rw [← hall.1, htotal]; exact hp)
    · omega

/-- One token for each of `numLayers` layers, in order. -/
def oneToken (numLayers : ℕ) : LayerStep :=
  { tokens := 1
    order := List.range numLayers
    kNew := fun _ => tokenTensor 1 1 fun _ => 1
    vNew := fun _ => tokenTensor 1 1 fun _ => 2
    env := fun _ => appendOk }

/-- On two layers one step of one token is counted twice. -/
theorem not_multiLayerLaw_two_layers : ∃ c,
    PagedKVCache.create (tinyConfig 2 16 2) zeroEnv = .ok c ∧
    (oneToken 2).Covers c.cfg.numLayers ∧
    Along (fun c call => (c.step call).2.isOk) c ((oneToken 2).calls 0) ∧
    (c.run ((oneToken 2).calls 0)).seqLength 0 = 2 ∧
    ¬ MultiLayerLaw (c.run ((oneToken 2).calls 0)) 0 [oneToken 2] := by
  refine ⟨_, rfl, ⟨List.Perm.refl _, fun _ _ => rfl⟩,
    ⟨by decide +kernel, by decide +kernel, trivial⟩, by decide +kernel, fun hlaw => ?_⟩
  have hlen := hlaw.1
  revert hlen
  decide +kernel

/-- The law on a cache of one layer. -/
theorem multiLayerLaw_one_layer : ∃ c,
    PagedKVCache.create (tinyConfig 1 16 2) zeroEnv = .ok c ∧
    MultiLayerLaw (c.run ((oneToken 1).calls 0)) 0 [oneToken 1] := by
  have hcreate : PagedKVCache.create (tinyConfig 1 16 2) zeroEnv = .ok _ := rfl
  have hsmall : (tinyConfig 1 16 2).numBlocks ≤ 2 ^ 31 := by decide
  have hfit := (Inv.create hsmall hcreate).nextSlotsFit (by decide)
  refine ⟨_, hcreate, (multiLayerLaw_iff hcreate hsmall (by decide) [oneToken 1]
    ((oneToken 1).calls 0) ?_ rfl ?_ ⟨trivial, trivial⟩
    ⟨fun _ => ⟨by decide, hfit _ _⟩, trivial⟩).mpr (.inl rfl)⟩
  · intro step hstep
    rw [List.mem_singleton.mp hstep]
    exact ⟨List.Perm.refl _, fun _ _ => rfl⟩
  · exact ⟨fun _ => by decide +kernel, trivial⟩

end PagedKVCache

end SciAttention

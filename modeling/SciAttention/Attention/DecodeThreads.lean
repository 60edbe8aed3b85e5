import SciAttention.Attention.BlockReduce
import SciAttention.Attention.RealNumerics
import SciAttention.Attention.SplitK

/-!
# The decode kernels, thread by thread

`decode_partial_kernel` and `decode_reduce_kernel` as the programs of their threads, over one memory with the
scratch buffer of the partials and the output. The lanes of a warp run the token loop in step and meet in the
exchanges of `WarpReduceDot`; the warps of a launch, four to a block, run at their own pace, over splits of
different lengths. `Decode` gives each kernel as the writes of its warps: every interleaving ends with them.
-/

namespace SciAttention

open Simt Flt DecodeFwdParams Softmax

/-- The cells that the kernels share. -/
inductive DecodeCell where
  | partials (idx : ℕ)
  | out (idx : ℕ)
deriving DecidableEq

/-- `kThreads`: four warps to a block. -/
def decodeThreads : ℕ := 128

variable {𝕜 : Type*} [Field 𝕜] [LinearOrder 𝕜]

/-- A program of a thread in a launch of `blocks` blocks. -/
abbrev DecodeProg (𝕜 : Type*) (blocks : ℕ) := Prog (Tid blocks decodeThreads) DecodeCell (Flt 𝕜)

/-- `flat`: the warps of a launch, numbered through. -/
def flatWarp {blocks : ℕ} (w : Fin blocks × ℕ) : ℕ := w.1 * 4 + w.2

section Programs

variable (num : Numerics 𝕜) (p : DecodeFwdParams 𝕜) (buf : DecodeBuffers 𝕜) {blocks : ℕ}

/-- The products of a lane, before the warp adds them up. -/
def laneDot (batch head : ℕ) (kRow : ℤ) (lane : ℕ) : Flt 𝕜 :=
  (List.range p.laneElems).foldl (fun dot i =>
    dot + fin (num.load p.dtype.elem buf.q (p.qRow batch head + (lane * p.laneElems + i))) *
      fin (num.load p.dtype.elem buf.k (kRow + (lane * p.laneElems + i : ℕ)).toNat)) 0

/-- An iteration of the token loop. -/
def tokenThread (batch head : ℕ) (i : Tid blocks decodeThreads) (st : LaneState 𝕜) (j : ℤ) :
    DecodeProg 𝕜 blocks (LaneState 𝕜) :=
  let lane := i.tid % 32
  match p.kvRowPtr (p.kBase batch head) j p.kStride.sS batch with
  | none => return st
  | some kRow =>
    match p.kvRowPtr (p.vBase batch head) j p.vStride.sS batch with
    | none => return st
    | some vRow => do
      let dot ← shflReduce (· + ·) Butterfly.warp i (laneDot num p buf batch head kRow lane)
      return st.absorb num.E (dot * fin p.scale) fun i =>
        num.load p.dtype.elem buf.v (vRow + (lane * p.laneElems + i : ℕ)).toNat

/-- The stores of a lane. -/
def storePartials (flat lane : ℕ) (st : LaneState 𝕜) : DecodeProg 𝕜 blocks PUnit := do
  .when (lane = 0) (do
    .put (.partials (p.partialM + flat)) st.m
    .put (.partials (p.partialL + flat)) st.l)
  forM (List.range p.laneElems) fun i =>
    .put (.partials (p.partialO + (flat * p.headDim + (lane * p.laneElems + i)))) (st.acc i)

/-- A thread of `decode_partial_kernel`. -/
def decodePartialThread (i : Tid blocks decodeThreads) : DecodeProg 𝕜 blocks PUnit :=
  let flat := flatWarp i.warp
  if flat ≥ p.requests then return ⟨⟩
  else do
    let st ← (p.tokens (p.batchOf flat) (p.splitOf flat)).foldlM
      (tokenThread num p buf (p.batchOf flat) (p.headOf flat) i) .init
    storePartials p flat (i.tid % 32) st

/-- A cell of the scratch buffer. -/
def getPartial (idx : ℕ) : DecodeProg 𝕜 blocks (Flt 𝕜) := .get (.partials idx)

/-- `m_all`. -/
def maxLoopOfSplits (blocks base : ℕ) : DecodeProg 𝕜 blocks (Flt 𝕜) :=
  (List.range p.numSplits).foldlM (fun m s => do
    return fmaxf m (← getPartial (p.partialM + (base + s)))) negInf

/-- A loop over the splits that adds up what those that saw something left at `cell`. -/
def sumLoopOfSplits (blocks base : ℕ) (mAll : Flt 𝕜) (cell : ℕ → ℕ) :
    DecodeProg 𝕜 blocks (Flt 𝕜) :=
  (List.range p.numSplits).foldlM (fun total s => do
    let mS ← getPartial (p.partialM + (base + s))
    if mS = negInf then return total
    else return total + (← getPartial (cell s)) * expf num.E.exp (mS - mAll)) 0

/-- A thread of `decode_reduce_kernel`. -/
def decodeReduceThread (i : Tid blocks decodeThreads) : DecodeProg 𝕜 blocks PUnit :=
  let flat := flatWarp i.warp
  if flat ≥ p.batch * p.numHeads then return ⟨⟩
  else do
    let head := flat % p.numHeads
    let batch := flat / p.numHeads
    let base := flat * p.numSplits
    let mAll ← maxLoopOfSplits p blocks base
    let lAll ← sumLoopOfSplits num p blocks base mAll fun s => p.partialL + (base + s)
    let invL := if gtZero lAll then recip lAll else 0
    forM (List.range p.laneElems) fun k => do
      let d := i.tid % 32 * p.laneElems + k
      let total ← sumLoopOfSplits num p blocks base mAll fun s =>
        p.partialO + ((base + s) * p.headDim + d)
      .put (.out (batch * p.oStride.sB + head * p.oStride.sH + d)) (total * invL)

end Programs

/-! ## The partial kernel: rights -/

section Partial

variable {p : DecodeFwdParams 𝕜} {blocks : ℕ}

/-- The partials that lane `lane` of warp `flat` stores. -/
def OwnPartial (p : DecodeFwdParams 𝕜) (flat lane idx : ℕ) : Prop :=
  flat < p.requests ∧ (lane = 0 ∧ (idx = p.partialM + flat ∨ idx = p.partialL + flat) ∨
    ∃ k < p.laneElems, idx = p.partialO + (flat * p.headDim + (lane * p.laneElems + k)))

omit [Field 𝕜] [LinearOrder 𝕜] in
/-- No two lanes store the same partial. -/
theorem ownPartial_inj (hlay : PartialLayout p) {flat flat' lane lane' idx : ℕ} (hlane : lane < 32)
    (hlane' : lane' < 32) (h : OwnPartial p flat lane idx) (h' : OwnPartial p flat' lane' idx) :
    flat = flat' ∧ lane = lane' := by
  have hl := hlay.l_eq
  have ho := hlay.o_eq
  obtain ⟨hlt, h⟩ := h
  obtain ⟨hlt', h'⟩ := h'
  rcases h with ⟨hz, hidx⟩ | ⟨k, hk, hidx⟩
  · rcases h' with ⟨hz', hidx'⟩ | ⟨k', hk', hidx'⟩
    · exact ⟨by omega, hz.trans hz'.symm⟩
    · omega
  · rcases h' with ⟨hz', hidx'⟩ | ⟨k', hk', hidx'⟩
    · omega
    · obtain ⟨hflat, hcol⟩ := Strided.mul_add_inj (p.lane_lt hlane hk) (p.lane_lt hlane' hk')
        (Nat.add_left_cancel (hidx.symm.trans hidx'))
      exact ⟨hflat, (Strided.mul_add_inj hk hk' hcol).1⟩

/-- A thread is the lane of a warp. -/
theorem eq_of_flatWarp {i j : Tid blocks decodeThreads} (hflat : flatWarp i.warp = flatWarp j.warp)
    (hlane : i.tid % 32 = j.tid % 32) : i = j := by
  have hi : i.tid / 32 < 4 := Nat.div_lt_of_lt_mul i.tid_lt
  have hj : j.tid / 32 < 4 := Nat.div_lt_of_lt_mul j.tid_lt
  obtain ⟨hblock, hwarp⟩ := Strided.mul_add_inj hi hj hflat
  have htid : i.tid = j.tid := by
    rw [← Nat.div_add_mod i.tid 32, ← Nat.div_add_mod j.tid 32, hwarp, hlane]
  exact Prod.ext (Fin.ext hblock) (Fin.ext htid)

/-- The rights of the partial kernel: a lane writes its own partials, and nothing is read. -/
def partialRights (hlay : PartialLayout p) (blocks : ℕ) : TidRights DecodeCell blocks decodeThreads where
  read i _ := {a | ∃ idx, OwnPartial p (flatWarp i.warp) (i.tid % 32) idx ∧ a = .partials idx}
  write i _ := {a | ∃ idx, OwnPartial p (flatWarp i.warp) (i.tid % 32) idx ∧ a = .partials idx}
  write_subset _ _ := subset_rfl
  apart := by
    intro i j t t' hij _ _ a ha ha'
    obtain ⟨idx, hown, rfl⟩ := ha
    obtain ⟨idx', hown', heq⟩ := ha'
    cases heq
    obtain ⟨hflat, hlane⟩ := ownPartial_inj hlay (Nat.mod_lt _ (by decide)) (Nat.mod_lt _ (by decide))
      hown hown'
    exact hij (eq_of_flatWarp hflat hlane)

variable (num : Numerics 𝕜) (buf : DecodeBuffers 𝕜) {hlay : PartialLayout p}
  {i : Tid blocks decodeThreads} {t : Clock}

theorem tokenThread_keeps {batch head : ℕ} {st : LaneState 𝕜} {j : ℤ} :
    (tokenThread num p buf batch head i st j).Keeps (partialRights hlay blocks) i t fun _ _ => True := by
  unfold tokenThread
  dsimp only
  split
  · trivial
  · split
    · trivial
    · exact .bind (shflReduce_keeps fun _ => trivial)

omit [Field 𝕜] [LinearOrder 𝕜] in
theorem storePartials_keeps {st : LaneState 𝕜} (hflat : flatWarp i.warp < p.requests) :
    (storePartials p (flatWarp i.warp) (i.tid % 32) st).Keeps (partialRights hlay blocks) i t
      fun _ _ => True := by
  have hrest : Prog.Keeps (partialRights hlay blocks) i (forM (List.range p.laneElems) fun k =>
      (.put (.partials (p.partialO + (flatWarp i.warp * p.headDim + (i.tid % 32 * p.laneElems + k))))
        (st.acc k) : DecodeProg 𝕜 blocks PUnit)) t fun _ _ => True :=
    .forM (fun k hk => .put ⟨_, ⟨hflat, .inr ⟨k, List.mem_range.mp hk, rfl⟩⟩, rfl⟩ rfl) trivial
  refine .bind (.when (fun hz => .bind ?_) fun _ => hrest)
  exact .put ⟨_, ⟨hflat, .inl ⟨hz, .inl rfl⟩⟩, rfl⟩
    (.put ⟨_, ⟨hflat, .inl ⟨hz, .inr rfl⟩⟩, rfl⟩ hrest)

/-- A thread of the partial kernel keeps to its rights. -/
theorem decodePartialThread_keeps :
    (decodePartialThread num p buf i).Keeps (partialRights hlay blocks) i t fun _ _ => True := by
  unfold decodePartialThread
  dsimp only
  split_ifs with hflat
  · trivial
  · refine .bind (.foldlM_of_invariant (fun _ _ _ => True) (fun _ _ _ _ _ => tokenThread_keeps num buf)
      (fun _ _ _ => storePartials_keeps (not_le.mp hflat)) trivial)

/-! ## The partial kernel: one warp -/

variable {mem : DecodeCell → Flt 𝕜} {w : Fin blocks × ℕ}
  {f : Tid blocks decodeThreads → Thread (Tid blocks decodeThreads) DecodeCell (Flt 𝕜)}

/-- The lanes of a warp make an iteration of the token loop. -/
theorem goes_token {batch head : ℕ} {st : ℕ → LaneState 𝕜} {j : ℤ}
    {k : Tid blocks decodeThreads → LaneState 𝕜 → DecodeProg 𝕜 blocks PUnit}
    (hf : ∀ i : Tid blocks decodeThreads, i.warp = w →
      f i = (tokenThread num p buf batch head i (st (i.tid % 32)) j).bind (k i)) :
    Goes Tid.block Tid.warp {i | i.warp = w} mem f mem fun i =>
      k i (tokenStep num p buf batch head st j (i.tid % 32)) := by
  cases hk : p.kvRowPtr (p.kBase batch head) j p.kStride.sS batch with
  | none =>
    refine .refl fun i hi => ?_
    rw [hf i hi]
    simp only [tokenThread, tokenStep, hk, Prog.pure_eq, Prog.ret_bind]
  | some kRow =>
    cases hv : p.kvRowPtr (p.vBase batch head) j p.vStride.sS batch with
    | none =>
      refine .refl fun i hi => ?_
      rw [hf i hi]
      simp only [tokenThread, tokenStep, hk, hv, Prog.pure_eq, Prog.ret_bind]
    | some vRow =>
      let v : Tid blocks decodeThreads → ℕ → 𝕜 := fun i e =>
        num.load p.dtype.elem buf.v (vRow + (i.tid % 32 * p.laneElems + e : ℕ)).toNat
      have hprog : ∀ i : Tid blocks decodeThreads, i.warp = w →
          f i = (shflReduce (· + ·) Butterfly.warp i (laneDot num p buf batch head kRow (i.tid % 32))).bind
            fun dot => k i ((st (i.tid % 32)).absorb num.E (dot * fin p.scale) (v i)) := by
        intro i hi
        rw [hf i hi]
        simp only [tokenThread, hk, hv, Prog.bind_eq, Prog.pure_eq, Prog.bind_assoc, Prog.ret_bind, v]
      have hstep : ∀ i : Tid blocks decodeThreads,
          k i (tokenStep num p buf batch head st j (i.tid % 32)) =
            k i ((st (i.tid % 32)).absorb num.E (Butterfly.reduce (· + ·) Butterfly.warp (fun lane =>
              laneDot num p buf batch head kRow ((i.tid / 32 * 32 + lane) % 32)) (i.tid % 32) *
                fin p.scale) (v i)) := by
        intro i
        have hdot : Butterfly.reduce (· + ·) Butterfly.warp (fun lane =>
            laneDot num p buf batch head kRow ((i.tid / 32 * 32 + lane) % 32)) (i.tid % 32) =
            warpReduceDot (laneDot num p buf batch head kRow) (i.tid % 32) :=
          Butterfly.reduce_congr (by decide)
            (fun lane hlane => congrArg _ (Strided.flat_mod _ hlane)) (Nat.mod_lt _ (by decide))
        rw [hdot, tokenStep, hk, hv]
        rfl
      exact goes_shflReduce (u := fun t => laneDot num p buf batch head kRow (t % 32)) (by decide)
        (by decide) subset_rfl (fun i j hij hi => hij.symm.trans hi) hprog (fun i _ => hstep i)
        fun i hi hi' => absurd hi hi'

/-- The lanes of a warp run the token loop. -/
theorem goes_tokens {batch head : ℕ} {js : List ℤ} {st : ℕ → LaneState 𝕜}
    {k : Tid blocks decodeThreads → LaneState 𝕜 → DecodeProg 𝕜 blocks PUnit}
    (hf : ∀ i : Tid blocks decodeThreads, i.warp = w →
      f i = (js.foldlM (tokenThread num p buf batch head i) (st (i.tid % 32))).bind (k i)) :
    Goes Tid.block Tid.warp {i | i.warp = w} mem f mem fun i =>
      k i (js.foldl (tokenStep num p buf batch head) st (i.tid % 32)) := by
  induction js generalizing f st with
  | nil => exact .refl fun i hi => hf i hi
  | cons j js ih =>
    have hfirst : Goes Tid.block Tid.warp {i | i.warp = w} mem f mem fun i =>
        (js.foldlM (tokenThread num p buf batch head i)
          (tokenStep num p buf batch head st j (i.tid % 32))).bind (k i) := by
      refine goes_token num buf (k := fun i st =>
        (js.foldlM (tokenThread num p buf batch head i) st).bind (k i)) fun i hi => ?_
      rw [hf i hi, List.foldlM_cons, Prog.bind_eq, Prog.bind_assoc]
    exact hfirst.trans (ih fun _ _ => rfl)

/-- What a lane stores. -/
def laneWrites (p : DecodeFwdParams 𝕜) (flat lane : ℕ) (st : LaneState 𝕜) : List (ℕ × Flt 𝕜) :=
  (if lane = 0 then [(p.partialM + flat, st.m), (p.partialL + flat, st.l)] else []) ++
    (List.range p.laneElems).map fun k =>
      (p.partialO + (flat * p.headDim + (lane * p.laneElems + k)), st.acc k)

/-- The writes of a warp are those of its lanes. -/
theorem flatMap_laneWrites {flat : ℕ} (hflat : flat < p.requests) :
    ((List.range 32).flatMap fun lane => laneWrites p flat lane (warpState num p buf flat lane)) =
      decodePartialKernel num p buf flat := by
  rw [decodePartialKernel, if_neg (not_le.mpr hflat), List.range_succ_eq_map]
  simp only [List.flatMap_cons, List.flatMap_map, laneWrites, Nat.succ_ne_zero, if_true, if_false,
    List.nil_append, List.append_assoc]
  rfl

/-- A kind of write as a write to a cell. -/
def toPartials (w : ℕ × Flt 𝕜) : DecodeCell × Flt 𝕜 := (.partials w.1, w.2)

omit [Field 𝕜] [LinearOrder 𝕜] in
theorem storePartials_local (flat lane : ℕ) (st : LaneState 𝕜) :
    Local (storePartials p flat lane st : DecodeProg 𝕜 blocks PUnit) mem
      ((laneWrites p flat lane st).map toPartials) ⟨⟩ := by
  have hfirst : Local (Prog.when (lane = 0) (do
      .put (.partials (p.partialM + flat)) st.m
      .put (.partials (p.partialL + flat)) st.l) : DecodeProg 𝕜 blocks PUnit) mem
      (if lane = 0 then [(.partials (p.partialM + flat), st.m), (.partials (p.partialL + flat), st.l)]
        else []) ⟨⟩ := .when (.bind (.put _ _) (.put _ _))
  have hwrites : (laneWrites p flat lane st).map toPartials =
      (if lane = 0 then [(.partials (p.partialM + flat), st.m), (.partials (p.partialL + flat), st.l)]
        else []) ++ (List.range p.laneElems).map fun k =>
          (.partials (p.partialO + (flat * p.headDim + (lane * p.laneElems + k))), st.acc k) := by
    rw [laneWrites, List.map_append, List.map_map]
    split_ifs
    · rfl
    · rfl
  rw [hwrites]
  exact .bind hfirst (.forM_apart (s := ∅) (fun _ => Set.notMem_empty _) fun _ _ _ _ => .put _ _)

/-- A warp runs to its end. -/
theorem goes_partialWarp (hlay : PartialLayout p) (hw : w.2 < 4)
    (hf : ∀ i : Tid blocks decodeThreads, i.warp = w → f i = decodePartialThread num p buf i) :
    Goes Tid.block Tid.warp {i | i.warp = w} mem f
      (Scatter.apply mem ((decodePartialKernel num p buf (flatWarp w)).map toPartials))
      fun _ => .ret ⟨⟩ := by
  by_cases hflat : flatWarp w ≥ p.requests
  · rw [decodePartialKernel, if_pos hflat]
    refine .refl fun i hi => ?_
    rw [hf i hi, decodePartialThread]
    exact if_pos (hi ▸ hflat)
  · have hpos : 0 < decodeThreads := by decide
    have hfit : w.2 * 32 + 32 ≤ decodeThreads := by
      have hthreads : decodeThreads = 128 := rfl
      omega
    let st : ℕ → LaneState 𝕜 := warpState num p buf (flatWarp w)
    let store : Tid blocks decodeThreads → LaneState 𝕜 → DecodeProg 𝕜 blocks PUnit := fun i st =>
      storePartials p (flatWarp i.warp) (i.tid % 32) st
    have htokens : Goes Tid.block Tid.warp {i | i.warp = w} mem f mem fun i =>
        store i (st (i.tid % 32)) := by
      refine goes_tokens num buf (k := store) fun i hi => ?_
      rw [hf i hi, decodePartialThread]
      subst hi
      exact if_neg hflat
    have hstore : Goes Tid.block Tid.warp {i | i.warp = w} mem (fun i => store i (st (i.tid % 32)))
        (Scatter.apply mem ((Tid.ofWarp hpos w).flatMap fun i =>
          (laneWrites p (flatWarp w) (i.tid % 32) (st (i.tid % 32))).map toPartials))
        fun _ => .ret ⟨⟩ := by
      refine Goes.threads (R := partialRights hlay blocks) (t := .start)
        (p := fun i => store i (st (i.tid % 32))) (k := fun _ r => .ret r) (Q := fun _ _ _ => True)
        (fun _ => Tid.mem_ofWarp hpos hfit) (Tid.nodup_ofWarp hpos hfit)
        (fun i _ => (Prog.bind_ret _).symm) (fun i hi => ?_) fun i hi => ?_
      · obtain rfl := hi
        exact storePartials_local _ _ _
      · obtain rfl := hi
        exact storePartials_keeps (not_le.mp hflat)
    have hwrites : ((Tid.ofWarp hpos w).flatMap fun i =>
        (laneWrites p (flatWarp w) (i.tid % 32) (st (i.tid % 32))).map toPartials) =
          (decodePartialKernel num p buf (flatWarp w)).map toPartials := by
      rw [Tid.flatMap_ofWarp hpos hfit fun lane =>
        (laneWrites p (flatWarp w) lane (st lane)).map toPartials,
        ← flatMap_laneWrites num buf (not_le.mp hflat), List.map_flatMap]
    rw [hwrites] at hstore
    exact htokens.trans hstore

/-! ## The partial kernel: the grid -/

/-- The warps of a launch. -/
def launchWarps (blocks : ℕ) : List (Fin blocks × ℕ) :=
  (List.finRange blocks).flatMap fun b => (List.range 4).map fun w => (b, w)

theorem mem_launchWarps {w : Fin blocks × ℕ} : w ∈ launchWarps blocks ↔ w.2 < 4 := by
  simp only [launchWarps, List.mem_flatMap, List.mem_map, List.mem_range]
  constructor
  · rintro ⟨b, -, x, hx, rfl⟩
    exact hx
  · intro hw
    exact ⟨w.1, List.mem_finRange _, w.2, hw, rfl⟩

theorem nodup_launchWarps : (launchWarps blocks).Nodup := by
  refine Strided.nodup_flatMap_of_key Prod.fst (List.nodup_finRange blocks) (fun b _ w hw => ?_)
    fun b _ => List.nodup_range.map fun x y heq => (Prod.mk.inj heq).2
  obtain ⟨x, -, rfl⟩ := List.mem_map.mp hw
  rfl

/-- The warps of a launch, one after another. -/
theorem flatMap_launchWarps {γ : Type*} (kernel : ℕ → List γ) :
    ((launchWarps blocks).flatMap fun w => kernel (flatWarp w)) = onWarps blocks kernel := by
  rw [launchWarps, List.flatMap_assoc, onWarps, ← List.map_coe_finRange_eq_range (n := blocks),
    List.flatMap_map]
  refine Strided.flatMap_congr fun b _ => ?_
  rw [List.flatMap_map]
  rfl

/-- The cells that the lanes of a warp write. -/
def warpCells (p : DecodeFwdParams 𝕜) (w : Fin blocks × ℕ) : Set DecodeCell :=
  {a | ∃ lane < 32, ∃ idx, OwnPartial p (flatWarp w) lane idx ∧ a = .partials idx}

omit [Field 𝕜] [LinearOrder 𝕜] in
/-- The warps of a launch write different cells. -/
theorem warpCells_pairwise (hlay : PartialLayout p) :
    (launchWarps blocks).Pairwise fun w w' => ∀ a ∈ warpCells p w, a ∉ warpCells p w' := by
  refine nodup_launchWarps.imp_of_mem fun {w w'} hw hw' hne a ha ha' => hne ?_
  obtain ⟨lane, hlane, idx, hown, rfl⟩ := ha
  obtain ⟨lane', hlane', idx', hown', heq⟩ := ha'
  cases heq
  have hflat := (ownPartial_inj hlay hlane hlane' hown hown').1
  obtain ⟨hblock, hwarp⟩ := Strided.mul_add_inj (mem_launchWarps.mp hw) (mem_launchWarps.mp hw') hflat
  exact Prod.ext (Fin.ext hblock) hwarp

variable (p) in
/-- The first launch. -/
def partialLaunch (blocks : ℕ) (mem : DecodeCell → Flt 𝕜) :
    Config (Tid blocks decodeThreads) DecodeCell (Flt 𝕜) := ⟨mem, decodePartialThread num p buf⟩

/-- Every interleaving of `decode_partial_kernel` ends with the writes of its warps. -/
theorem decodePartial_ends (hlay : PartialLayout p) (blocks : ℕ) (mem : DecodeCell → Flt 𝕜) :
    Ends Tid.block Tid.warp (partialLaunch p num buf blocks mem)
      (Scatter.apply mem ((onWarps blocks (decodePartialKernel num p buf)).map toPartials)) := by
  have hcells : ∀ w ∈ launchWarps blocks,
    ∀ v ∈ (decodePartialKernel num p buf (flatWarp w)).map toPartials,
      v.1 ∈ warpCells p w := by
    intro w _ v hv
    obtain ⟨u, hu, rfl⟩ := List.mem_map.mp hv
    obtain ⟨hlt, rfl | rfl | ⟨lane, hlane, k, hk, rfl⟩⟩ := mem_decodePartialKernel.mp hu
    · exact ⟨0, by decide, _, ⟨hlt, .inl ⟨rfl, .inl rfl⟩⟩, rfl⟩
    · exact ⟨0, by decide, _, ⟨hlt, .inl ⟨rfl, .inr rfl⟩⟩, rfl⟩
    · exact ⟨lane, hlane, _, ⟨hlt, .inr ⟨k, hk, rfl⟩⟩, rfl⟩
  have hends : Ends Tid.block Tid.warp (partialLaunch p num buf blocks mem)
      (Scatter.apply mem ((launchWarps blocks).flatMap fun w =>
        (decodePartialKernel num p buf (flatWarp w)).map toPartials)) :=
    ends_of_parts (c := partialLaunch p num buf blocks mem) (R := partialRights hlay blocks)
      (fun i => mem_launchWarps.mpr (Nat.div_lt_of_lt_mul i.tid_lt)) nodup_launchWarps hcells
      (warpCells_pairwise hlay)
      (fun w hw mem' _ => goes_partialWarp num buf hlay (mem_launchWarps.mp hw) fun _ _ => rfl)
      fun i => decodePartialThread_keeps num buf
  have hmap : (onWarps blocks fun flat => (decodePartialKernel num p buf flat).map toPartials) =
      (onWarps blocks (decodePartialKernel num p buf)).map toPartials := by
    simp only [onWarps, List.map_flatMap]
  rwa [flatMap_launchWarps fun flat => (decodePartialKernel num p buf flat).map toPartials, hmap] at hends

end Partial

/-! ## The reduce kernel -/

section Reduce

variable (num : Numerics 𝕜) (p : DecodeFwdParams 𝕜) {blocks : ℕ}

/-- The output elements of a lane. -/
def OwnOut (p : DecodeFwdParams 𝕜) (flat lane idx : ℕ) : Prop :=
  flat < p.batch * p.numHeads ∧ ∃ k < p.laneElems,
    idx = outIndex p (flat / p.numHeads) (flat % p.numHeads) (lane * p.laneElems + k)

variable {p} in
omit [Field 𝕜] [LinearOrder 𝕜] in
/-- No two lanes store the same element. -/
theorem ownOut_inj (hinj : OutInjective p) {flat flat' lane lane' idx : ℕ} (hlane : lane < 32)
    (hlane' : lane' < 32) (h : OwnOut p flat lane idx) (h' : OwnOut p flat' lane' idx) :
    flat = flat' ∧ lane = lane' := by
  obtain ⟨hlt, k, hk, hidx⟩ := h
  obtain ⟨-, k', hk', hidx'⟩ := h'
  have hheads : 0 < p.numHeads := Nat.pos_of_mul_pos_left (Nat.zero_lt_of_lt hlt)
  obtain ⟨hbatch, hhead, hd⟩ := hinj _ _ _ _ _ _ (Nat.mod_lt _ hheads) (Nat.mod_lt _ hheads)
    (p.lane_lt hlane hk) (p.lane_lt hlane' hk') (hidx.symm.trans hidx')
  have hflat : flat = flat' := by
    rw [← Nat.div_add_mod flat p.numHeads, hbatch, hhead, Nat.div_add_mod]
  exact ⟨hflat, (Strided.mul_add_inj hk hk' hd).1⟩

variable {p} in
/-- The rights of the reduce kernel: a lane writes its own elements, and all of them read the partials. -/
def reduceRights (hinj : OutInjective p) (blocks : ℕ) : TidRights DecodeCell blocks decodeThreads where
  read i _ := {a | ∃ idx, OwnOut p (flatWarp i.warp) (i.tid % 32) idx ∧ a = .out idx} ∪
    {a | ∃ idx, a = .partials idx}
  write i _ := {a | ∃ idx, OwnOut p (flatWarp i.warp) (i.tid % 32) idx ∧ a = .out idx}
  write_subset _ _ := Set.subset_union_left
  apart := by
    intro i j t t' hij _ _ a ha ha'
    obtain ⟨idx, hown, rfl⟩ := ha
    rcases ha' with ⟨idx', hown', heq⟩ | ⟨idx', heq⟩
    · cases heq
      obtain ⟨hflat, hlane⟩ := ownOut_inj hinj (Nat.mod_lt _ (by decide)) (Nat.mod_lt _ (by decide))
        hown hown'
      exact hij (eq_of_flatWarp hflat hlane)
    · cases heq

section Loops

variable {num p} {i : Tid blocks decodeThreads} {t : Clock} {hinj : OutInjective p} {base : ℕ}

omit [Field 𝕜] [LinearOrder 𝕜] in
theorem getPartial_keeps {idx : ℕ} {Q : Clock → Flt 𝕜 → Prop} (hQ : ∀ v, Q t v) :
    (getPartial idx).Keeps (reduceRights hinj blocks) i t Q := .get (.inr ⟨idx, rfl⟩) hQ

omit [Field 𝕜] in
theorem maxLoopOfSplits_keeps {Q : Clock → Flt 𝕜 → Prop} (hQ : ∀ r, Q t r) :
    (maxLoopOfSplits p blocks base).Keeps (reduceRights hinj blocks) i t Q :=
  .foldlM (fun _ _ _ => .bind (getPartial_keeps fun _ => .ret rfl)) hQ _

theorem sumLoopOfSplits_keeps {mAll : Flt 𝕜} {cell : ℕ → ℕ} {Q : Clock → Flt 𝕜 → Prop}
    (hQ : ∀ r, Q t r) :
    (sumLoopOfSplits num p blocks base mAll cell).Keeps (reduceRights hinj blocks) i t Q := by
  refine .foldlM (fun s _ total => .bind (getPartial_keeps fun mS => ?_)) hQ _
  split_ifs
  · exact .ret rfl
  · exact .bind (getPartial_keeps fun _ => .ret rfl)

/-- A thread of the reduce kernel keeps to its rights. -/
theorem decodeReduceThread_keeps :
    (decodeReduceThread num p i).Keeps (reduceRights hinj blocks) i t fun _ _ => True := by
  unfold decodeReduceThread
  dsimp only
  split_ifs with hflat
  · trivial
  · refine .bind (maxLoopOfSplits_keeps fun mAll => .bind (sumLoopOfSplits_keeps fun lAll => ?_))
    refine .forM (fun k hk => .bind (sumLoopOfSplits_keeps fun total => ?_)) trivial
    exact .put ⟨_, ⟨not_le.mp hflat, k, List.mem_range.mp hk, rfl⟩, rfl⟩ rfl

variable {mem : DecodeCell → Flt 𝕜} {partials : ℕ → Flt 𝕜}
    (hmem : ∀ idx, mem (.partials idx) = partials idx)

include hmem

omit [Field 𝕜] [LinearOrder 𝕜] in
theorem getPartial_local (idx : ℕ) :
    Local (getPartial idx : DecodeProg 𝕜 blocks (Flt 𝕜)) mem [] (partials idx) :=
  hmem idx ▸ .get _

omit [Field 𝕜] in
theorem maxLoopOfSplits_local :
    Local (maxLoopOfSplits p blocks base) mem [] (maxOfSplits p partials base) :=
  .foldlM_read fun _ _ _ => .bind (getPartial_local hmem _) .ret

theorem sumLoopOfSplits_local (cell : ℕ → ℕ) :
    Local (sumLoopOfSplits num p blocks base (maxOfSplits p partials base) cell) mem []
      (sumOfSplits num p partials base fun s => partials (cell s)) := by
  refine .foldlM_read fun s _ total => .read_bind (getPartial_local hmem _) ?_
  dsimp only
  split_ifs
  · exact .ret
  · exact .bind (getPartial_local hmem _) .ret

end Loops

/-- What a lane stores. -/
def laneOuts (partials : ℕ → Flt 𝕜) (flat lane : ℕ) : List (ℕ × Flt 𝕜) :=
  if flat ≥ p.batch * p.numHeads then []
  else
    let base := flat * p.numSplits
    let lAll := sumOfSplits num p partials base fun s => partials (p.partialL + (base + s))
    let invL := if gtZero lAll then recip lAll else 0
    (List.range p.laneElems).map fun k =>
      let d := lane * p.laneElems + k
      let total := sumOfSplits num p partials base fun s =>
        partials (p.partialO + ((base + s) * p.headDim + d))
      (flat / p.numHeads * p.oStride.sB + flat % p.numHeads * p.oStride.sH + d, total * invL)

/-- The writes of a warp are those of its lanes. -/
theorem flatMap_laneOuts (partials : ℕ → Flt 𝕜) (flat : ℕ) :
    (List.range 32).flatMap (laneOuts num p partials flat) = decodeReduceKernel num p partials flat := by
  by_cases hflat : flat ≥ p.batch * p.numHeads
  · rw [decodeReduceKernel, if_pos hflat]
    exact List.flatMap_eq_nil_iff.mpr fun lane _ => if_pos hflat
  · rw [decodeReduceKernel, if_neg hflat]
    exact Strided.flatMap_congr fun lane _ => if_neg hflat

/-- A write to the output as a write to a cell. -/
def toOut (w : ℕ × Flt 𝕜) : DecodeCell × Flt 𝕜 := (.out w.1, w.2)

variable {num p} in
theorem decodeReduceThread_local {mem : DecodeCell → Flt 𝕜} {partials : ℕ → Flt 𝕜}
    (hmem : ∀ idx, mem (.partials idx) = partials idx) (i : Tid blocks decodeThreads) :
    Local (decodeReduceThread num p i) mem
      ((laneOuts num p partials (flatWarp i.warp) (i.tid % 32)).map toOut) ⟨⟩ := by
  by_cases hflat : flatWarp i.warp ≥ p.batch * p.numHeads
  · rw [decodeReduceThread, if_pos hflat, laneOuts, if_pos hflat]
    exact .ret
  · rw [decodeReduceThread, if_neg hflat, laneOuts, if_neg hflat]
    dsimp only
    rw [List.map_map]
    refine .read_bind (maxLoopOfSplits_local hmem) (.read_bind
      (sumLoopOfSplits_local hmem fun s => p.partialL + (flatWarp i.warp * p.numSplits + s)) ?_)
    refine .forM_apart (s := {a | ∃ idx, a = .partials idx})
      (fun _ ⟨_, heq⟩ => DecodeCell.noConfusion heq) fun k _ mem' hmem' => ?_
    exact .read_bind (sumLoopOfSplits_local (fun idx => (hmem' _ ⟨idx, rfl⟩).trans (hmem idx)) _)
      (.put _ _)

/-- The second launch. -/
def reduceLaunch (blocks : ℕ) (mem : DecodeCell → Flt 𝕜) :
    Config (Tid blocks decodeThreads) DecodeCell (Flt 𝕜) := ⟨mem, decodeReduceThread num p⟩

variable {p} in
/-- Every interleaving of `decode_reduce_kernel` ends with the writes of its warps. -/
theorem decodeReduce_ends (hinj : OutInjective p) (blocks : ℕ) (mem : DecodeCell → Flt 𝕜) :
    Ends Tid.block Tid.warp (reduceLaunch num p blocks mem)
      (Scatter.apply mem
        ((onWarps blocks (decodeReduceKernel num p fun idx => mem (.partials idx))).map toOut)) := by
  have hends : Ends Tid.block Tid.warp (reduceLaunch num p blocks mem)
      (Scatter.apply mem ((Tid.all blocks decodeThreads).flatMap fun i =>
        (laneOuts num p (fun idx => mem (.partials idx)) (flatWarp i.warp) (i.tid % 32)).map toOut)) :=
    ends_of_local (c := reduceLaunch num p blocks mem) (R := reduceRights hinj blocks) Tid.mem_all
      Tid.nodup_all (fun i => decodeReduceThread_local (fun _ => rfl) i) fun i => decodeReduceThread_keeps
  let lanes : ℕ → List (DecodeCell × Flt 𝕜) := fun t =>
    (laneOuts num p (fun idx => mem (.partials idx)) (t / 32) (t % 32)).map toOut
  have hall : (Tid.all blocks decodeThreads).flatMap (fun i =>
      (laneOuts num p (fun idx => mem (.partials idx)) (flatWarp i.warp) (i.tid % 32)).map toOut) =
        (onWarps blocks (decodeReduceKernel num p fun idx => mem (.partials idx))).map toOut := by
    calc (Tid.all blocks decodeThreads).flatMap (fun i =>
          (laneOuts num p (fun idx => mem (.partials idx)) (flatWarp i.warp) (i.tid % 32)).map toOut)
        = (Tid.all blocks decodeThreads).flatMap fun i => lanes (i.block * decodeThreads + i.tid) := by
          refine Strided.flatMap_congr fun i _ => ?_
          have hdiv : (i.block * 128 + i.tid) / 32 = i.block * 4 + i.tid / 32 := by omega
          have hmod : (i.block * 128 + i.tid) % 32 = i.tid % 32 := by omega
          exact congrArg₂ (fun flat lane =>
            (laneOuts num p (fun idx => mem (.partials idx)) flat lane).map toOut) hdiv.symm hmod.symm
      _ = (List.range (blocks * 4 * 32)).flatMap lanes := by
          rw [Tid.flatMap_all lanes, Nat.mul_assoc]
          rfl
      _ = (List.range (blocks * 4)).flatMap fun flat =>
            (List.range 32).flatMap fun lane => lanes (flat * 32 + lane) :=
          (Strided.range_mul_flatMap (blocks * 4) 32 lanes).symm
      _ = (List.range (blocks * 4)).flatMap fun flat =>
            (decodeReduceKernel num p (fun idx => mem (.partials idx)) flat).map toOut := by
          refine Strided.flatMap_congr fun flat _ => ?_
          rw [← flatMap_laneOuts, List.map_flatMap]
          refine Strided.flatMap_congr fun lane hlane => ?_
          simp only [lanes, Strided.flat_div flat (List.mem_range.mp hlane),
            Strided.flat_mod flat (List.mem_range.mp hlane)]
      _ = _ := by
          rw [onWarps, Strided.range_mul_flatMap, List.map_flatMap]
  rwa [hall] at hends

end Reduce

/-! ## The two launches -/

section Launches

variable (num : Numerics 𝕜) {p : DecodeFwdParams 𝕜} (buf : DecodeBuffers 𝕜)

/-- The memory before the first launch. -/
def decodeMemory : DecodeCell → Flt 𝕜
  | .partials idx => buf.partials idx
  | .out idx => buf.out idx

theorem partialsCell_injective : Function.Injective DecodeCell.partials := fun _ _ => DecodeCell.partials.inj

theorem decodeOutCell_injective : Function.Injective DecodeCell.out := fun _ _ => DecodeCell.out.inj

/-- Every interleaving of the two launches ends with the output of `LaunchForDim`: the softmax averages over
the mapped positions of the requests. -/
theorem decodeKernels_interleaved [IsStrictOrderedRing 𝕜] (hlay : PartialLayout p) (hinj : OutInjective p)
    (hdim : 32 ∣ p.headDim) (hs : 0 < p.numSplits) (hgrid : p.requests + 3 < 2 ^ 33)
    {launch : ℕ → LaunchOutcome} {out : ℕ → Flt 𝕜}
    (hok : launchForDim num p buf launch = .ok out) :
    ∃ mem₁ mem₂,
      Ends Tid.block Tid.warp (partialLaunch p num buf ((p.requests + 3) / 4) (decodeMemory buf)) mem₁ ∧
      Ends Tid.block Tid.warp (reduceLaunch num p ((p.batch * p.numHeads + 3) / 4) mem₁) mem₂ ∧
      (∀ idx, mem₂ (.out idx) = out idx) ∧
      ∀ b < p.batch, ∀ h < p.numHeads, ∀ d < p.headDim, mem₂ (.out (outIndex p b h d)) =
        fin (average num.E (scores num p buf b h) (fun j => valueAt num p buf b h j d) (p.visible b)) := by
  have hrows : p.batch * p.numHeads ≤ p.requests := Nat.le_mul_of_pos_right _ hs
  have hpartial := decodePartial_ends num buf hlay ((p.requests + 3) / 4) (decodeMemory buf)
  set mem₁ := Scatter.apply (decodeMemory buf)
    ((onWarps ((p.requests + 3) / 4) (decodePartialKernel num p buf)).map toPartials) with hmem₁
  have hreduce := decodeReduce_ends num hinj ((p.batch * p.numHeads + 3) / 4) mem₁
  -- what the first launch leaves in the two buffers
  have hpartials : (fun idx => mem₁ (.partials idx)) = Scatter.apply buf.partials
      (onWarps ((p.requests + 3) / 4) (decodePartialKernel num p buf)) :=
    funext fun idx => Scatter.apply_map partialsCell_injective _ _ idx
  have hout₁ : (fun idx => mem₁ (.out idx)) = buf.out := by
    refine funext fun idx => Scatter.apply_of_forall_ne fun w hw heq => ?_
    obtain ⟨v, -, rfl⟩ := List.mem_map.mp hw
    cases heq
  have hout : ∀ idx, Scatter.apply mem₁ ((onWarps ((p.batch * p.numHeads + 3) / 4)
      (decodeReduceKernel num p fun idx => mem₁ (.partials idx))).map toOut) (.out idx) = out idx := by
    intro idx
    have hview := Scatter.apply_map decodeOutCell_injective mem₁ (onWarps ((p.batch * p.numHeads + 3) / 4)
      (decodeReduceKernel num p fun idx => mem₁ (.partials idx))) idx
    refine hview.trans ?_
    rw [hout₁, hpartials]
    have hok := hok
    simp only [launchForDim] at hok
    split_ifs at hok
    rw [int32Cast_grid hgrid, int32Cast_grid (show p.batch * p.numHeads + 3 < 2 ^ 33 by omega),
      Int.toNat_natCast, Int.toNat_natCast] at hok
    exact congrFun (Except.ok.inj hok) idx
  refine ⟨mem₁, _, hpartial, hreduce, hout, fun b hb h hh d hd => ?_⟩
  rw [hout]
  exact launchForDim_out hlay hinj hdim hs hgrid hok hb hh hd

end Launches

/-- One head over three positions in two splits. -/
noncomputable def decodeSample : DecodeFwdParams ℝ where
  q := none
  k := none
  v := none
  out := none
  partials := none
  partialM := 0
  partialL := 2
  partialO := 4
  batch := 1
  numHeads := 1
  numKvHeads := 1
  seqKv := 3
  headDim := 32
  numSplits := 2
  qStride := ⟨32, 32, 32⟩
  kStride := ⟨96, 96, 32⟩
  vStride := ⟨96, 96, 32⟩
  oStride := ⟨32, 32, 32⟩
  scale := 1
  dtype := .fp16

/-- The kernels on this request, with all values one. -/
theorem decodeKernels_interleaved_sample :
    let buf : DecodeBuffers ℝ := ⟨onesHalf, onesHalf, onesHalf, fun _ => 0, fun _ => 0⟩
    ∃ mem₁ mem₂,
      Ends Tid.block Tid.warp (partialLaunch decodeSample realNumerics buf 1 (decodeMemory buf)) mem₁ ∧
      Ends Tid.block Tid.warp (reduceLaunch realNumerics decodeSample 1 mem₁) mem₂ ∧
      mem₂ (.out 5) = fin (average realNumerics.E (scores realNumerics decodeSample buf 0 0)
        (fun j => valueAt realNumerics decodeSample buf 0 0 j 5) (decodeSample.visible 0)) := by
  intro buf
  have hinj : OutInjective decodeSample := by
    intro b h d b' h' d' hh hh' hd hd' heq
    simp only [outIndex, decodeSample] at hh hh' hd hd' heq
    omega
  have hlaunch : ∃ out, launchForDim realNumerics decodeSample buf (fun _ => .ok) = .ok out :=
    launchForDim_isOk (fun _ => rfl) (by decide) (by decide) (by decide)
  obtain ⟨out, hok⟩ := hlaunch
  obtain ⟨mem₁, mem₂, hpartial, hreduce, -, hrows⟩ := decodeKernels_interleaved realNumerics buf
    (p := decodeSample) ⟨rfl, rfl⟩ hinj ⟨1, rfl⟩ (by decide) (by decide) hok
  exact ⟨mem₁, mem₂, hpartial, hreduce, hrows 0 (by decide) 0 (by decide) 5 (by decide)⟩

end SciAttention

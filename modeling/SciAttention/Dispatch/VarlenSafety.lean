import SciAttention.Dispatch.Agreement
import SciAttention.Dispatch.Varlen

/-!
# Packed batches stay inside their tensors, or do not

`ForwardVarlen` trusts the offsets: it never compares their ends with the first dimensions of the tensors,
and it reduces the number of heads modulo the number of KV heads before anything says that there is one.
For offsets that `ValidateVarlenHost` accepts, the requests that this is fine for are exactly those with KV
heads and with enough tokens behind all three pointers.
-/

namespace SciAttention

open Results

/-! ## Checks -/

section Checks

variable {𝕜 : Type} {q k v : Tensor} {cfg : AttentionConfig 𝕜} {numSeqs maxSeqQ maxSeqKv : ℤ}

/-- A request that gets to the modulus. -/
structure VarlenForm (q k v : Tensor) (cfg : AttentionConfig 𝕜) (maxSeqQ maxSeqKv : ℤ) : Prop where
  noLse : cfg.returnLse = false
  causal_le : cfg.causal = true → maxSeqQ ≤ maxSeqKv
  packed : ∀ t ∈ [q, k, v], t.ndims = 3 ∧ t.deviceType = .cuda
  half : flashDtypeIdFor q.dtype ≠ 0
  dtype_eq : q.dtype = k.dtype ∧ q.dtype = v.dtype
  dims_eq : k.dim 2 = q.dim 2 ∧ v.dim 2 = q.dim 2 ∧ v.dim 1 = k.dim 1

theorem varlenTensorChecks_eq_ok {t : Tensor} {u : Unit} :
    varlenTensorChecks t = .ok u ↔ t.ndims = 3 ∧ t.deviceType = .cuda := by
  simp only [varlenTensorChecks, bind_eq_ok, failIf_eq_ok, exists_const, ne_eq, not_not]

/-- The checks pass. -/
theorem varlenChecks_eq_ok (hseqs : 1 ≤ numSeqs) {u : Unit} :
    varlenChecks q k v cfg numSeqs maxSeqQ maxSeqKv = .ok u ↔
      VarlenForm q k v cfg maxSeqQ maxSeqKv := by
  simp only [varlenChecks, bind_eq_ok, failIf_eq_ok, varlenTensorChecks_eq_ok, exists_const, not_or,
    ne_eq, not_not, not_and, not_lt]
  constructor
  · rintro ⟨-, hlse, hcausal, hq, hk, hv, hhalf, hdtype, hdims⟩
    exact ⟨by simpa using hlse, hcausal, by simp [hq, hk, hv], hhalf, hdtype, hdims⟩
  · rintro ⟨hlse, hcausal, hpacked, hhalf, hdtype, hdims⟩
    exact ⟨hseqs, by simp [hlse], hcausal, hpacked q (by simp), hpacked k (by simp), hpacked v (by simp),
      hhalf, hdtype, hdims⟩

theorem orAbort_eq_ok {α : Type} {x : Except Status α} {a : α} : orAbort x = .ok a ↔ x = .ok a := by
  cases x <;> simp [orAbort, Except.mapError]

theorem orAbort_ne_divisionByZero {α : Type} (x : Except Status α) :
    orAbort x ≠ .error .divisionByZero := by
  cases x <;> simp [orAbort, Except.mapError]

theorem hostMod_eq_ok {a b r : ℕ} : hostMod a b = .ok r ↔ b ≠ 0 ∧ a % b = r := by
  by_cases h : b = 0 <;> simp [hostMod, h]

theorem hostMod_eq_divisionByZero {a b : ℕ} : hostMod a b = .error .divisionByZero ↔ b = 0 := by
  by_cases h : b = 0 <;> simp [hostMod, h]

end Checks

section Safety

variable {𝕜 : Type} [Field 𝕜] [LinearOrder 𝕜] {dev : Device} {num : Numerics 𝕜}
  {env : VarlenEnv 𝕜 dev} {q k v : Tensor} {cfg : AttentionConfig 𝕜}
  {numSeqs maxSeqQ maxSeqKv : ℤ} {cuQ cuKv : ℕ → Int32}

omit [Field 𝕜] [LinearOrder 𝕜] in
theorem allocVarlenOut_eq_ok {out : ℕ → Flt 𝕜} :
    allocVarlenOut env q = .ok out ↔ env.outAlloc (varlenOutDims q).prod = some out := by
  unfold allocVarlenOut
  cases env.outAlloc (varlenOutDims q).prod <;> simp

omit [Field 𝕜] [LinearOrder 𝕜] in
/-- A request gets to the loop. -/
theorem varlenPrepare_eq_ok (hseqs : 1 ≤ numSeqs) {tile : FlashTile} {out : ℕ → Flt 𝕜} :
    varlenPrepare env q k v cfg numSeqs maxSeqQ maxSeqKv = .ok (tile, out) ↔
      VarlenForm q k v cfg maxSeqQ maxSeqKv ∧ (k.dim 1 ≠ 0 ∧ k.dim 1 ∣ q.dim 1) ∧
        (dev.cudaAvailable = true ∧ FlashTileFits dev q.dtype (q.dim 2) tile ∧
          cfg.slidingWindow ≤ 0) ∧
          env.outAlloc (varlenOutDims q).prod = some out := by
  simp only [varlenPrepare, bind_eq_ok, orAbort_eq_ok, varlenChecks_eq_ok hseqs, hostMod_eq_ok,
    failIf_eq_ok, exists_const, validateFlashRequest_eq_ok, allocVarlenOut_eq_ok, pure_eq_ok,
    Except.ok.injEq, Prod.mk.injEq, ne_eq, not_not, Nat.dvd_iff_mod_eq_zero, varlenShape]
  constructor
  · rintro ⟨hform, _, ⟨hkv, rfl⟩, hmod, tile', ⟨hcuda, -, htile, hwindow⟩, out', hout, rfl, rfl⟩
    exact ⟨hform, ⟨hkv, hmod⟩, ⟨hcuda, htile, hwindow⟩, hout⟩
  · rintro ⟨hform, ⟨hkv, hmod⟩, ⟨hcuda, htile, hwindow⟩, hout⟩
    exact ⟨hform, _, ⟨hkv, rfl⟩, hmod, tile, ⟨hcuda, hform.half, htile, hwindow⟩, out, hout, rfl,
      rfl⟩

omit [Field 𝕜] [LinearOrder 𝕜] in
/-- The host traps on a request without KV heads that gets to the modulus. -/
theorem varlenPrepare_eq_divisionByZero (hseqs : 1 ≤ numSeqs) :
    varlenPrepare env q k v cfg numSeqs maxSeqQ maxSeqKv = .error .divisionByZero ↔
      VarlenForm q k v cfg maxSeqQ maxSeqKv ∧ k.dim 1 = 0 := by
  simp only [varlenPrepare, bind_eq_error, orAbort_eq_ok, varlenChecks_eq_ok hseqs, hostMod_eq_ok,
    orAbort_ne_divisionByZero, hostMod_eq_divisionByZero, false_or, exists_const, pure_eq_ok, reduceCtorEq,
    and_false, exists_false, or_false]

/-! ## The loop -/

/-- Every sequence can be launched: no tensor is null, and the grid has a positive number of heads. -/
def VarlenLaunchable (q k v : Tensor) : Prop := HasData q k v ∧ 0 < int32Cast (q.dim 1)

omit [LinearOrder 𝕜] [Field 𝕜] in
/-- A tile of the table is that of a valid shape. -/
theorem validShape_of_tile {headDim : ℕ} {tile : FlashTile} (h : findFlashTile headDim = some tile) :
    ValidShape ⟨1, 1, 1, 1, 1, headDim⟩ := by
  refine ⟨one_pos, one_pos, one_pos, one_pos, one_pos, ?_, one_dvd 1⟩
  obtain ⟨entry, hfind, -⟩ := Option.map_eq_some_iff.mp h
  have hkey := List.find?_some hfind
  have hmem := List.mem_of_find?_eq_some hfind
  obtain rfl : entry.1 = headDim := by simpa using hkey
  have hall : ∀ e ∈ flashTiles, (e.1 : ℤ) ∈ supportedHeadDims := by decide
  exact hall entry hmem

/-- The sequence of two increasing offsets has positive lengths that do not wrap. -/
theorem varlenSeq_pos {n : ℕ} (hq : Offsets cuQ n) (hkv : Offsets cuKv n) {s : ℕ} (hs : s < n) :
    0 < (varlenSeq cuQ cuKv s).seqQ ∧ 0 < (varlenSeq cuQ cuKv s).seqKv ∧
      (varlenSeq cuQ cuKv s).seqQ < 2 ^ 31 := by
  have hhi := (cuQ (s + 1)).toInt_lt
  have hlo := hq.nonneg hs.le
  have hltq := hq.lt_succ s hs
  have hltkv := hkv.lt_succ s hs
  simp only [varlenSeq, hq.toInt_sub hs, hkv.toInt_sub hs]
  omega

/-- One iteration succeeds when the sequence can be launched and the device runs its kernel. -/
theorem varlenStep_isOk_iff {n : ℕ} (hq : Offsets cuQ n) (hkv : Offsets cuKv n) {s : ℕ} (hs : s < n)
    (hhalf : flashDtypeIdFor q.dtype ≠ 0) {tile : FlashTile} (htile : findFlashTile (q.dim 2) = some tile)
    (scale : 𝕜) (out : ℕ → Flt 𝕜) :
    (∃ out', varlenStep num env q k v cfg scale cuQ cuKv s out = .ok out') ↔
      VarlenLaunchable q k v ∧ env.launch s = .ok := by
  obtain ⟨hposq, hposkv, hlt⟩ := varlenSeq_pos hq hkv hs
  have hshape := validShape_of_tile htile
  obtain ⟨-, -, hM, -⟩ := flashTile_compiles hshape htile (show dtypeSize .float16 = 2 from rfl)
  set p := varlenParams q k v cfg scale (varlenSeq cuQ cuKv s) out with hp
  have hseq : p.seqQ = (varlenSeq cuQ cuKv s).seqQ.toNat := rfl
  have hgrid : int32Cast (flashGridX p tile) = flashGridX p tile := by
    have hle : flashGridX p tile ≤ p.seqQ := rowBlocks_le hM
    exact int32Cast_of_lt (by omega) (by omega)
  have hgridPos : 0 < flashGridX p tile := rowBlocks_pos (by omega) hM
  have hdtype := (flashDtype_cases hhalf).1
  have hraw : (launchRaw (int32Cast (flashGridX p tile)) (int32Cast p.numHeads) (int32Cast p.batch)
      (env.launch s)).isOk ↔ 0 < int32Cast (q.dim 1) ∧ env.launch s = .ok := by
    rw [launchRaw_isOk, hgrid, show p.batch = 1 from rfl, show p.numHeads = q.dim 1 from rfl]
    have hone : 0 < int32Cast ((1 : ℕ) : ℤ) := by decide
    simp only [Int.natCast_pos, hgridPos, hone, true_and, and_true]
  have hlaunch := launchFlashFwd_isOk_iff_launchRaw num p (env.launchSmem s) (env.launch s) hshape rfl htile
  rw [hraw] at hlaunch
  have hsome : p.q.isSome = q.data.isSome ∧ p.k.isSome = k.data.isSome ∧ p.v.isSome = v.data.isSome := by
    simp only [hp, varlenParams, Option.isSome_map, and_self]
  have hstep : (∃ out', varlenStep num env q k v cfg scale cuQ cuKv s out = .ok out') ↔
      ∃ res, launchFlashFwd num p (env.launchSmem s) (env.launch s) = .ok res := by
    have hlen : ¬ ((varlenSeq cuQ cuKv s).seqQ ≤ 0 ∨ (varlenSeq cuQ cuKv s).seqKv ≤ 0) := by omega
    simp only [varlenStep, failIf, if_neg hlen, ok_bind, bind_eq_ok, pure_eq_ok, ← hp]
    constructor
    · rintro ⟨_, res, hres, -⟩
      exact ⟨res, hres⟩
    · rintro ⟨res, hres⟩
      exact ⟨_, res, hres, rfl⟩
  rw [hstep, hlaunch, hsome.1, hsome.2.1, hsome.2.2]
  simp only [VarlenLaunchable, HasData]
  constructor
  · rintro ⟨⟨h1, h2, h3, -⟩, -, h4, h5⟩
    exact ⟨⟨⟨h1, h2, h3⟩, h4⟩, h5⟩
  · rintro ⟨⟨⟨h1, h2, h3⟩, h4⟩, h5⟩
    exact ⟨⟨h1, h2, h3, rfl⟩, hdtype, h4, h5⟩

/-- The launches of a batch of `n` sequences before one fails. -/
def launchesRun (env : VarlenEnv 𝕜 dev) (n : ℕ) : ℕ :=
  ((List.range n).takeWhile fun s => env.launch s = .ok).length

omit [Field 𝕜] [LinearOrder 𝕜] in
theorem takeWhile_launch (env : VarlenEnv 𝕜 dev) (n : ℕ) :
    (List.range n).takeWhile (fun s => env.launch s = .ok) = List.range (launchesRun env n) ∧
      launchesRun env n ≤ n := by
  obtain ⟨m, hm, heq, -⟩ := Strided.takeWhile_range (fun s => decide (env.launch s = .ok)) n
  have hlen : launchesRun env n = m := by rw [launchesRun, heq, List.length_range]
  exact ⟨hlen ▸ heq, hlen ▸ hm⟩

variable (num env q k v cfg cuQ cuKv) in
/-- The trace of the loop: the sequences up to the first whose iteration fails. -/
theorem varlenLoop_launched {l : List ℕ} {scale : 𝕜} (good : ℕ → Bool)
    (hstep : ∀ s ∈ l, ∀ out,
      (∃ out', varlenStep num env q k v cfg scale cuQ cuKv s out = .ok out') ↔
      good s = true) (out : ℕ → Flt 𝕜) :
    (varlenLoop num env q k v cfg scale cuQ cuKv l out).1 =
      (l.takeWhile good).map (varlenSeq cuQ cuKv) := by
  induction l generalizing out with
  | nil => rfl
  | cons s l ih =>
    have hs := hstep s List.mem_cons_self out
    cases hrun : varlenStep num env q k v cfg scale cuQ cuKv s out with
    | error e =>
      have hbad : good s = false := by
        rw [Bool.eq_false_iff]
        intro hgood
        obtain ⟨out', hout'⟩ := hs.mpr hgood
        cases hrun.symm.trans hout'
      simp only [varlenLoop, hrun, List.takeWhile_cons_of_neg (Bool.eq_false_iff.mp hbad), List.map_nil]
    | ok out' =>
      have hgood : good s = true := hs.mp ⟨out', hrun⟩
      have hrest := ih (fun t ht => hstep t (List.mem_cons_of_mem _ ht)) out'
      simp only [varlenLoop, hrun, List.takeWhile_cons_of_pos hgood, List.map_cons, hrest]

/-! ## Runs -/

/-- A request is served up to its launches. -/
structure VarlenServed (env : VarlenEnv 𝕜 dev) (q k v : Tensor) (cfg : AttentionConfig 𝕜) : Prop where
  group_dvd : k.dim 1 ∣ q.dim 1
  cudaAvailable : dev.cudaAvailable = true
  tile_fits : ∃ tile, FlashTileFits dev q.dtype (q.dim 2) tile
  slidingWindow_le : cfg.slidingWindow ≤ 0
  alloc : (env.outAlloc (varlenOutDims q).prod).isSome
  launchable : VarlenLaunchable q k v

/-- The tokens that the kernel of a sequence addresses lie inside the tensors: query tokens in `q` and the
output, which has as many, and KV tokens in `k` and `v`. -/
def VarlenSeq.Inside (seq : VarlenSeq) (q k v : Tensor) : Prop :=
  (∀ i : ℤ, 0 ≤ i → i < seq.seqQ → 0 ≤ seq.qToken + i ∧ seq.qToken + i < q.dim 0) ∧
    ∀ j : ℤ, 0 ≤ j → j < seq.seqKv →
      0 ≤ seq.kvToken + j ∧ seq.kvToken + j < k.dim 0 ∧ seq.kvToken + j < v.dim 0

/-- A run that divides by nothing, neither on the host nor in a kernel, which divides by the number of KV
heads and by the size of a group, and whose launches stay inside the tensors. -/
structure VarlenSafe (q k v : Tensor) (run : VarlenRun 𝕜) : Prop where
  noTrap : run.outcome ≠ .error .divisionByZero
  divisors : ∀ seq ∈ run.launched, k.dim 1 ≠ 0 ∧ q.dim 1 / k.dim 1 ≠ 0
  inside : ∀ seq ∈ run.launched, seq.Inside q k v

/-- The first `m` sequences end inside the tensors. -/
def EndsInside (q k v : Tensor) (cuQ cuKv : ℕ → Int32) (m : ℕ) : Prop :=
  (cuQ m).toInt ≤ q.dim 0 ∧ (cuKv m).toInt ≤ k.dim 0 ∧ (cuKv m).toInt ≤ v.dim 0

/-- The first sequences of a batch stay inside the tensors when their ends do. -/
theorem forall_inside_iff {n m : ℕ} (hq : Offsets cuQ n) (hkv : Offsets cuKv n) (hm : m ≤ n) :
    (∀ s < m, (varlenSeq cuQ cuKv s).Inside q k v) ↔ EndsInside q k v cuQ cuKv m := by
  constructor
  · intro h
    cases m with
    | zero =>
      rw [EndsInside, hq.zero, hkv.zero, Int32.toInt_zero]
      omega
    | succ m =>
      have hlast := h m m.lt_succ_self
      have hltq := hq.lt_succ m hm
      have hltkv := hkv.lt_succ m hm
      simp only [VarlenSeq.Inside, varlenSeq, hq.toInt_sub hm, hkv.toInt_sub hm] at hlast
      have hendq := hlast.1 ((cuQ (m + 1)).toInt - (cuQ m).toInt - 1) (by omega) (by omega)
      have hendkv := hlast.2 ((cuKv (m + 1)).toInt - (cuKv m).toInt - 1) (by omega) (by omega)
      refine ⟨?_, ?_, ?_⟩ <;> omega
  · rintro ⟨hendq, hendk, hendv⟩ s hs
    have hsn : s < n := hs.trans_le hm
    have hmonoq := hq.mono (show s + 1 ≤ m from hs) hm
    have hmonokv := hkv.mono (show s + 1 ≤ m from hs) hm
    have hposq := hq.nonneg hsn.le
    have hposkv := hkv.nonneg hsn.le
    simp only [VarlenSeq.Inside, varlenSeq, hq.toInt_sub hsn, hkv.toInt_sub hsn]
    exact ⟨fun i h0 hi => ⟨by omega, by omega⟩, fun j h0 hj => ⟨by omega, by omega, by omega⟩⟩

section Run

variable (hseqs : 1 ≤ numSeqs) (hq : Offsets cuQ numSeqs.toNat) (hkv : Offsets cuKv numSeqs.toNat)

include hseqs

/-- A run traps exactly where its request gets to the modulus without KV heads. -/
theorem forwardVarlen_eq_divisionByZero :
    (forwardVarlen num env q k v cfg numSeqs (some cuQ) (some cuKv) maxSeqQ maxSeqKv).outcome =
        .error .divisionByZero ↔ VarlenForm q k v cfg maxSeqQ maxSeqKv ∧ k.dim 1 = 0 := by
  rw [← varlenPrepare_eq_divisionByZero hseqs]
  cases hprep : varlenPrepare env q k v cfg numSeqs maxSeqQ maxSeqKv with
  | error e => simp only [forwardVarlen, hprep, Except.error.injEq]
  | ok r =>
    simp only [forwardVarlen, hprep, reduceCtorEq, iff_false]
    exact orAbort_ne_divisionByZero _

include hq hkv

/-- The trace of a request that is served: the sequences up to the first that the device does not run. -/
theorem forwardVarlen_launched (hform : VarlenForm q k v cfg maxSeqQ maxSeqKv) (hne : k.dim 1 ≠ 0)
    (hserved : VarlenServed env q k v cfg) :
    (forwardVarlen num env q k v cfg numSeqs (some cuQ) (some cuKv) maxSeqQ maxSeqKv).launched =
      (List.range (launchesRun env numSeqs.toNat)).map (varlenSeq cuQ cuKv) := by
  obtain ⟨tile, htile⟩ := hserved.tile_fits
  obtain ⟨out, hout⟩ := Option.isSome_iff_exists.mp hserved.alloc
  have hprep := (varlenPrepare_eq_ok hseqs).mpr ⟨hform, ⟨hne, hserved.group_dvd⟩,
    ⟨hserved.cudaAvailable, htile, hserved.slidingWindow_le⟩, hout⟩
  simp only [forwardVarlen, hprep]
  rw [varlenLoop_launched num env q k v cfg cuQ cuKv (fun s => decide (env.launch s = .ok)) ?_ out,
    (takeWhile_launch env _).1]
  intro s hs out'
  rw [varlenStep_isOk_iff hq hkv (List.mem_range.mp hs) hform.half htile.1, decide_eq_true_iff]
  exact and_iff_right hserved.launchable

/-- A request that is not served launches nothing. -/
theorem forwardVarlen_launched_eq_nil
    (hnot : ¬ (VarlenForm q k v cfg maxSeqQ maxSeqKv ∧ k.dim 1 ≠ 0 ∧ VarlenServed env q k v cfg)) :
    (forwardVarlen num env q k v cfg numSeqs (some cuQ) (some cuKv) maxSeqQ maxSeqKv).launched = [] := by
  cases hprep : varlenPrepare env q k v cfg numSeqs maxSeqQ maxSeqKv with
  | error e => simp only [forwardVarlen, hprep]
  | ok r =>
    obtain ⟨tile, out⟩ := r
    obtain ⟨hform, ⟨hne, hdvd⟩, ⟨hcuda, htile, hwindow⟩, hout⟩ :=
      (varlenPrepare_eq_ok hseqs).mp hprep
    -- what is left to fail is the launch of the first sequence
    have hlaunch : ¬ VarlenLaunchable q k v := fun h =>
      hnot ⟨hform, hne, hdvd, hcuda, ⟨tile, htile⟩, hwindow, Option.isSome_of_eq_some hout, h⟩
    simp only [forwardVarlen, hprep]
    rw [varlenLoop_launched num env q k v cfg cuQ cuKv (fun _ => false) ?_ out]
    · cases List.range numSeqs.toNat <;> rfl
    · intro s hs out'
      rw [varlenStep_isOk_iff hq hkv (List.mem_range.mp hs) hform.half htile.1]
      simp only [hlaunch, false_and, Bool.false_eq_true]

/-- The launches of a run stay inside the tensors when its request is not served, or the sequences that the
device ran end inside them. -/
theorem forwardVarlen_inside_iff :
    (∀ seq ∈ (forwardVarlen num env q k v cfg numSeqs (some cuQ) (some cuKv) maxSeqQ maxSeqKv).launched,
        seq.Inside q k v) ↔
      (VarlenForm q k v cfg maxSeqQ maxSeqKv → k.dim 1 ≠ 0 → VarlenServed env q k v cfg →
        EndsInside q k v cuQ cuKv (launchesRun env numSeqs.toNat)) := by
  by_cases hserved : VarlenForm q k v cfg maxSeqQ maxSeqKv ∧ k.dim 1 ≠ 0 ∧ VarlenServed env q k v cfg
  · obtain ⟨hform, hne, hserved⟩ := hserved
    rw [forwardVarlen_launched hseqs hq hkv hform hne hserved]
    simp only [List.forall_mem_map, List.mem_range]
    rw [forall_inside_iff hq hkv (takeWhile_launch env _).2]
    exact ⟨fun h _ _ _ => h, fun h => h hform hne hserved⟩
  · rw [forwardVarlen_launched_eq_nil hseqs hq hkv hserved]
    simp only [List.not_mem_nil, false_implies, implies_true, true_iff]
    exact fun hform hne hs => absurd ⟨hform, hne, hs⟩ hserved

/-- A kernel divides by nothing. -/
theorem forwardVarlen_divisors {seq : VarlenSeq}
    (hseq : seq ∈ (forwardVarlen num env q k v cfg numSeqs (some cuQ) (some cuKv) maxSeqQ
      maxSeqKv).launched) : k.dim 1 ≠ 0 ∧ q.dim 1 / k.dim 1 ≠ 0 := by
  by_cases hserved : VarlenForm q k v cfg maxSeqQ maxSeqKv ∧ k.dim 1 ≠ 0 ∧ VarlenServed env q k v cfg
  · obtain ⟨-, hne, hserved⟩ := hserved
    have hheads : q.dim 1 ≠ 0 := by
      intro h
      have hpos := hserved.launchable.2
      rw [h] at hpos
      exact absurd hpos (by decide)
    have hle := Nat.le_of_dvd (Nat.pos_of_ne_zero hheads) hserved.group_dvd
    exact ⟨hne, (Nat.div_pos hle (Nat.pos_of_ne_zero hne)).ne'⟩
  · rw [forwardVarlen_launched_eq_nil hseqs hq hkv hserved] at hseq
    exact absurd hseq List.not_mem_nil

end Run

variable (num env q k v cfg maxSeqQ maxSeqKv) in
/-- For offsets that `ValidateVarlenHost` accepts, `ForwardVarlen` is safe exactly when a request that gets
to the modulus has KV heads, and the sequences that are launched of one that is served end inside `q`, `k`
and `v`. -/
theorem varlenSafe_iff (hq : ∃ m, validateVarlenHost (some cuQ) numSeqs = .ok m)
    (hkv : ∃ m, validateVarlenHost (some cuKv) numSeqs = .ok m) :
    VarlenSafe q k v
        (forwardVarlen num env q k v cfg numSeqs (some cuQ) (some cuKv) maxSeqQ maxSeqKv) ↔
      (VarlenForm q k v cfg maxSeqQ maxSeqKv → k.dim 1 ≠ 0 ∧ (VarlenServed env q k v cfg →
        EndsInside q k v cuQ cuKv (launchesRun env numSeqs.toNat))) := by
  obtain ⟨_, hq⟩ := hq
  obtain ⟨_, hkv⟩ := hkv
  obtain ⟨hseqs, hoffq, -⟩ := validateVarlenHost_eq_ok_iff.mp hq
  obtain ⟨-, hoffkv, -⟩ := validateVarlenHost_eq_ok_iff.mp hkv
  constructor
  · rintro ⟨hno, -, hinside⟩ hform
    have hne : k.dim 1 ≠ 0 := fun h =>
      hno ((forwardVarlen_eq_divisionByZero hseqs).mpr ⟨hform, h⟩)
    exact ⟨hne, (forwardVarlen_inside_iff hseqs hoffq hoffkv).mp hinside hform hne⟩
  · intro h
    refine ⟨fun hcrash => ?_, fun seq => forwardVarlen_divisors hseqs hoffq hoffkv,
      (forwardVarlen_inside_iff hseqs hoffq hoffkv).mpr fun hform _ => (h hform).2⟩
    obtain ⟨hform, hzero⟩ := (forwardVarlen_eq_divisionByZero hseqs).mp hcrash
    exact (h hform).1 hzero

end Safety

/-! ## Small batches -/

/-- The sample device. -/
noncomputable def sampleVarlenEnv : VarlenEnv ℝ sampleDevice :=
  { sampleEnv with launchSmem := fun _ _ _ _ _ => 0 }

/-- A zeroed half-precision tensor of packed tokens. -/
def packedTensor (tokens heads : ℕ) : Tensor :=
  { dims := [tokens, heads, 32], dtype := .float16, data := some fun _ => 0 }

/-- The query offsets of sequences of two and one tokens. -/
def shortOffsets (i : ℕ) : Int32 := if i = 0 then 0 else if i = 1 then 2 else 3

/-- The key offsets of sequences of one and three tokens. -/
def longOffsets (i : ℕ) : Int32 := if i = 0 then 0 else if i = 1 then 1 else 4

/-- Two sequences of different lengths. -/
theorem varlenSafe_pair :
    VarlenSafe (packedTensor 3 1) (packedTensor 4 1) (packedTensor 4 1)
      (forwardVarlen realNumerics sampleVarlenEnv (packedTensor 3 1) (packedTensor 4 1) (packedTensor 4 1)
        (sampleConfig .flash false) 2 (some shortOffsets) (some longOffsets) 2 3) :=
  (varlenSafe_iff _ _ _ _ _ _ 2 3 ⟨2, by decide⟩ ⟨3, by decide⟩).mpr fun _ =>
    ⟨by decide, fun _ => by
      have hrun : launchesRun sampleVarlenEnv 2 = 2 := rfl
      rw [show (2 : ℤ).toNat = 2 from rfl, hrun]
      exact ⟨by decide, by decide, by decide⟩⟩

/-- The offsets of one sequence of two tokens. -/
def pairOffsets (i : ℕ) : Int32 := if i = 0 then 0 else 2

theorem validate_pairOffsets : validateVarlenHost (some pairOffsets) 1 = .ok 2 := by decide

/-- The run on a sequence of two tokens. -/
noncomputable def pairRun (q k v : Tensor) : VarlenRun ℝ :=
  forwardVarlen realNumerics sampleVarlenEnv q k v (sampleConfig .flash false) 1 (some pairOffsets)
    (some pairOffsets) 2 2

theorem varlenForm_packed (tokens kvTokens kvHeads : ℕ) :
    VarlenForm (packedTensor tokens 1) (packedTensor kvTokens kvHeads) (packedTensor kvTokens kvHeads)
      (sampleConfig .flash false) 2 2 where
  noLse := rfl
  causal_le _ := le_rfl
  packed := by simp [packedTensor, Tensor.ndims]
  half := by simp [packedTensor, flashDtypeIdFor]
  dtype_eq := ⟨rfl, rfl⟩
  dims_eq := ⟨rfl, rfl, rfl⟩

/-- The offsets are accepted, but a query tensor of one token is read and the output written behind its
end, and the host divides by zero for keys without heads. -/
theorem varlen_overrun : validateVarlenHost (some pairOffsets) 1 = .ok 2 ∧
    ¬ VarlenSafe (packedTensor 1 1) (packedTensor 2 1) (packedTensor 2 1)
      (pairRun (packedTensor 1 1) (packedTensor 2 1) (packedTensor 2 1)) ∧
    ¬ VarlenSafe (packedTensor 2 1) (packedTensor 2 0) (packedTensor 2 0)
      (pairRun (packedTensor 2 1) (packedTensor 2 0) (packedTensor 2 0)) := by
  obtain ⟨hseqs, hoff, -⟩ := validateVarlenHost_eq_ok_iff.mp validate_pairOffsets
  refine ⟨validate_pairOffsets, fun hsafe => ?_, fun hsafe => ?_⟩
  · have hserved : VarlenServed sampleVarlenEnv (packedTensor 1 1) (packedTensor 2 1) (packedTensor 2 1)
        (sampleConfig .flash false) :=
      { group_dvd := one_dvd 1
        cudaAvailable := rfl
        tile_fits := ⟨⟨64, 64, 4, 2, 1⟩, rfl, by decide⟩
        slidingWindow_le := le_rfl
        alloc := by simp [sampleVarlenEnv, sampleEnv, varlenOutDims, packedTensor, Tensor.dim]
        launchable := ⟨⟨rfl, rfl, rfl⟩, by decide⟩ }
    have hends := (forwardVarlen_inside_iff hseqs hoff hoff).mp hsafe.inside (varlenForm_packed 1 2 1)
      (by decide) hserved
    exact absurd hends.1 (by decide)
  · exact hsafe.noTrap ((forwardVarlen_eq_divisionByZero hseqs).mpr ⟨varlenForm_packed 2 2 0, rfl⟩)

end SciAttention

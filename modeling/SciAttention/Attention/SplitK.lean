import SciAttention.Attention.Decode
import Mathlib.Data.Int.ConditionallyCompleteOrder
import Mathlib.Data.Int.Interval
import Mathlib.Tactic.Linarith
import Mathlib.Tactic.Positivity

/-!
# What split-K decode computes

The splits of a request cut the positions below its length into disjoint chunks. A warp's registers
hold the maximum and the weighted sums over the mapped positions of its chunk (`Holds`), which one
token keeps; the reduce kernel adds the rescaled parts up. `launchForDim_out` is the whole: every
output row is the softmax average over the request's mapped positions.
-/

namespace SciAttention

open Flt Softmax

namespace DecodeFwdParams

variable {𝕜 : Type*} (p : DecodeFwdParams 𝕜)

/-! ## Mapped tokens -/

/-- The physical row of a token; without a page table the token itself. -/
def kvRow (batch : ℕ) (j : ℤ) : ℤ :=
  match p.pageTable with
  | none => j
  | some table => pageTableRow table batch j p.blockSize p.maxBlocksPerSeq p.numKvBlocks

/-- The token has a physical row. -/
def Mapped (batch : ℕ) (j : ℤ) : Prop := p.pageTable.isSome → 0 ≤ p.kvRow batch j

instance (batch : ℕ) : DecidablePred (p.Mapped batch) :=
  fun _ => inferInstanceAs (Decidable (_ → _))

theorem kvRowPtr_of_mapped {batch : ℕ} {j : ℤ} (h : p.Mapped batch j) (base stride : ℕ) :
    p.kvRowPtr base j stride batch = some (base + p.kvRow batch j * stride) := by
  unfold Mapped kvRow at h
  unfold kvRowPtr kvRow
  cases htable : p.pageTable with
  | none => rfl
  | some table =>
    simp only [htable, Option.isSome_some, true_implies] at h
    exact if_neg (by omega)

theorem kvRowPtr_of_not_mapped {batch : ℕ} {j : ℤ} (h : ¬ p.Mapped batch j) (base stride : ℕ) :
    p.kvRowPtr base j stride batch = none := by
  unfold Mapped kvRow at h
  unfold kvRowPtr
  cases htable : p.pageTable with
  | none => simp [htable] at h
  | some table =>
    simp only [htable, Option.isSome_some, true_implies, not_le] at h
    exact if_pos h

/-- The lanes' slices lie inside the head dimension. -/
theorem lane_lt {lane i : ℕ} (hlane : lane < 32) (hi : i < p.laneElems) :
    lane * p.laneElems + i < p.headDim := by
  have hle : 32 * p.laneElems ≤ p.headDim := Nat.mul_div_le _ _
  have hmul : lane * p.laneElems ≤ 31 * p.laneElems := Nat.mul_le_mul_right _ (by omega)
  omega

/-- The warp of `(batch, head, split)`. -/
def flatOf (batch head split : ℕ) : ℕ := (batch * p.numHeads + head) * p.numSplits + split

theorem flatOf_lt {batch head split : ℕ} (hb : batch < p.batch) (hh : head < p.numHeads)
    (hs : split < p.numSplits) : p.flatOf batch head split < p.requests := by
  have hrow : batch * p.numHeads + head < p.batch * p.numHeads := by
    have : (batch + 1) * p.numHeads ≤ p.batch * p.numHeads := Nat.mul_le_mul_right _ hb
    linarith
  have : (batch * p.numHeads + head + 1) * p.numSplits ≤ p.batch * p.numHeads * p.numSplits :=
    Nat.mul_le_mul_right _ hrow
  rw [flatOf, requests]
  linarith

theorem splitOf_flatOf {batch head split : ℕ} (hs : split < p.numSplits) :
    p.splitOf (p.flatOf batch head split) = split := by
  rw [splitOf, flatOf, Strided.flat_mod _ hs]

theorem flatOf_div {batch head split : ℕ} (hs : split < p.numSplits) :
    p.flatOf batch head split / p.numSplits = batch * p.numHeads + head := by
  rw [flatOf, Strided.flat_div _ hs]

theorem headOf_flatOf {batch head split : ℕ} (hh : head < p.numHeads) (hs : split < p.numSplits) :
    p.headOf (p.flatOf batch head split) = head := by
  rw [headOf, p.flatOf_div hs, Strided.flat_mod _ hh]

theorem batchOf_flatOf {batch head split : ℕ} (hh : head < p.numHeads) (hs : split < p.numSplits) :
    p.batchOf (p.flatOf batch head split) = batch := by
  rw [batchOf, ← Nat.div_div_eq_div_mul, p.flatOf_div hs, Strided.flat_div _ hh]

/-! ## Chunks -/

theorem mem_tokens {batch split : ℕ} {j : ℤ} : j ∈ p.tokens batch split ↔
    p.jBegin batch split ≤ j ∧ j < p.jBegin batch split + p.chunk batch ∧ j < p.seqLen batch := by
  have hend : j < p.jEnd batch split ↔
      j < p.jBegin batch split + p.chunk batch ∧ j < p.seqLen batch := by
    unfold jEnd
    split_ifs with h <;> omega
  rw [← hend]
  simp only [tokens, List.mem_map, List.mem_range]
  constructor
  · rintro ⟨n, hn, rfl⟩
    omega
  · intro hj
    exact ⟨(j - p.jBegin batch split).toNat, by omega, by omega⟩

theorem nodup_tokens (batch split : ℕ) : (p.tokens batch split).Nodup :=
  List.nodup_range.map fun a b hab => by simpa using hab

/-- Every position below the length is in a chunk, and no chunk has another. -/
theorem exists_mem_tokens (hs : 0 < p.numSplits) {batch : ℕ} {j : ℤ} :
    (∃ split < p.numSplits, j ∈ p.tokens batch split) ↔ 0 ≤ j ∧ j < p.seqLen batch := by
  have hs' : (0 : ℤ) < p.numSplits := by exact_mod_cast hs
  simp only [mem_tokens, jBegin]
  constructor
  · rintro ⟨split, -, hbegin, hend, hlen⟩
    have hchunk : 0 ≤ p.chunk batch := by omega
    exact ⟨le_trans (by positivity) hbegin, hlen⟩
  · -- the chunks are rounded up, so they cover the length
    rintro ⟨hj, hlen⟩
    have hdiv : p.chunk batch = (p.seqLen batch + p.numSplits - 1) / p.numSplits := by
      rw [chunk, Int.tdiv_eq_ediv_of_nonneg (by omega)]
    have hcover : p.seqLen batch ≤ p.chunk batch * p.numSplits := by
      have := Int.lt_ediv_add_one_mul_self (p.seqLen batch + p.numSplits - 1) hs'
      rw [← hdiv] at this
      linarith
    have hchunk : 0 < p.chunk batch := by
      by_contra hle
      have : p.chunk batch * p.numSplits ≤ 0 := by nlinarith
      omega
    have hmod := Int.emod_add_mul_ediv j (p.chunk batch)
    have hmod0 := Int.emod_nonneg j hchunk.ne'
    have hmod1 := Int.emod_lt_of_pos j hchunk
    have hsplit0 : 0 ≤ j / p.chunk batch := Int.ediv_nonneg hj hchunk.le
    have hsplit1 : j / p.chunk batch < p.numSplits :=
      Int.ediv_lt_of_lt_mul hchunk (by linarith)
    refine ⟨(j / p.chunk batch).toNat, by omega, ?_⟩
    rw [Int.toNat_of_nonneg hsplit0]
    have hcomm : p.chunk batch * (j / p.chunk batch) = j / p.chunk batch * p.chunk batch :=
      mul_comm _ _
    exact ⟨by omega, by omega, hlen⟩

/-- Chunks of different splits share no position. -/
theorem tokens_disjoint {batch s t : ℕ} {j : ℤ} (hs : j ∈ p.tokens batch s)
    (ht : j ∈ p.tokens batch t) : s = t := by
  rw [mem_tokens] at hs ht
  simp only [jBegin] at hs ht
  have hchunk : 0 < p.chunk batch := by omega
  have hle : ∀ {a b : ℕ}, (a : ℤ) * p.chunk batch ≤ j → j < b * p.chunk batch + p.chunk batch →
      a ≤ b := by
    intro a b ha hb
    have : (a : ℤ) * p.chunk batch < (b + 1) * p.chunk batch := by linarith
    have := lt_of_mul_lt_mul_right this hchunk.le
    omega
  exact le_antisymm (hle hs.1 ht.2.1) (hle ht.1 hs.2.1)

/-- The mapped positions of a split. -/
def part (batch split : ℕ) : Finset ℤ := {j ∈ (p.tokens batch split).toFinset | p.Mapped batch j}

/-- The mapped positions of a request. -/
noncomputable def visible (batch : ℕ) : Finset ℤ :=
  {j ∈ Finset.Ico 0 (p.seqLen batch) | p.Mapped batch j}

theorem pairwiseDisjoint_part (batch : ℕ) (S : Set ℕ) : S.PairwiseDisjoint (p.part batch) := by
  intro s _ t _ hst
  refine Finset.disjoint_left.mpr fun j hs ht => hst ?_
  simp only [part, Finset.mem_filter, List.mem_toFinset] at hs ht
  exact p.tokens_disjoint hs.1 ht.1

theorem biUnion_part (hs : 0 < p.numSplits) (batch : ℕ) :
    (Finset.range p.numSplits).biUnion (p.part batch) = p.visible batch := by
  ext j
  simp only [part, visible, Finset.mem_biUnion, Finset.mem_range, Finset.mem_filter,
    List.mem_toFinset, Finset.mem_Ico, ← p.exists_mem_tokens hs]
  constructor
  · rintro ⟨s, hs, hj, hm⟩
    exact ⟨⟨s, hs, hj⟩, hm⟩
  · rintro ⟨⟨s, hs, hj⟩, hm⟩
    exact ⟨s, hs, hj, hm⟩

end DecodeFwdParams

/-! ## One warp -/

section Warp

/-- The lanes' slices and the shuffles together form the whole dot product. -/
theorem warpReduceDot_eq {𝕜 : Type*} [Field 𝕜] {f : ℕ → 𝕜} {n lane : ℕ} (hlane : lane < 32) :
    warpReduceDot (fun lane => (List.range n).foldl
      (fun dot i => dot + fin (f (lane * n + i))) (0 : Flt 𝕜)) lane =
      fin (∑ d ∈ Finset.range (32 * n), f d) := by
  have hslice : ∀ lane, (List.range n).foldl (fun dot i => dot + fin (f (lane * n + i)))
      (0 : Flt 𝕜) = fin (∑ i ∈ Finset.range n, f (lane * n + i)) := by
    intro lane
    rw [zero_def, foldl_add_fin, zero_add]
    rfl
  simp only [hslice, warpReduceDot]
  rw [Butterfly.reduce_warp_add _ hlane, Strided.sum_windows]

variable {𝕜 : Type*} [Field 𝕜] [LinearOrder 𝕜] (num : Numerics 𝕜) (p : DecodeFwdParams 𝕜)
  (buf : DecodeBuffers 𝕜) (batch head : ℕ)

/-- Element `d` of the query row. -/
def queryAt (d : ℕ) : 𝕜 := num.load p.dtype.elem buf.q (p.qRow batch head + d)

/-- Element `d` of the key row of token `j`. -/
def keyAt (j : ℤ) (d : ℕ) : 𝕜 :=
  num.load p.dtype.elem buf.k (p.kBase batch head + p.kvRow batch j * p.kStride.sS + d).toNat

/-- Element `d` of the value row of token `j`. -/
def valueAt (j : ℤ) (d : ℕ) : 𝕜 :=
  num.load p.dtype.elem buf.v (p.vBase batch head + p.kvRow batch j * p.vStride.sS + d).toNat

/-- The scaled score of token `j`. -/
def scoreAt (j : ℤ) : 𝕜 :=
  (∑ d ∈ Finset.range p.headDim, queryAt num p buf batch head d * keyAt num p buf batch head j d) *
    p.scale

/-- The scores of a request as numbers extended with `-inf`. -/
def scores (j : ℤ) : WithBot 𝕜 := ((scoreAt num p buf batch head j : 𝕜) : WithBot 𝕜)

/-- The registers of a warp hold the maximum and the weighted sums over the positions `J`, for
scores `s` and value rows `v`; every lane has `n` columns. -/
structure Holds (E : ExactExp 𝕜) (s : ℤ → WithBot 𝕜) (v : ℤ → ℕ → 𝕜) (n : ℕ)
    (st : ℕ → LaneState 𝕜) (J : Finset ℤ) : Prop where
  m_eq : ∀ lane < 32, (st lane).m = ofBot (J.sup s)
  l_eq : ∀ lane < 32, (st lane).l = fin (mass E s 1 J (J.sup s))
  acc_eq : ∀ lane < 32, ∀ i < n,
    (st lane).acc i = fin (mass E s (fun j => v j (lane * n + i)) J (J.sup s))

/-- `Holds` for the scores and values of `(batch, head)`. -/
def HoldsFor (st : ℕ → LaneState 𝕜) (J : Finset ℤ) : Prop :=
  Holds num.E (scores num p buf batch head) (valueAt num p buf batch head) p.laneElems st J

theorem Holds.init (E : ExactExp 𝕜) (s : ℤ → WithBot 𝕜) (v : ℤ → ℕ → 𝕜) (n : ℕ) :
    Holds E s v n (fun _ => .init) ∅ where
  m_eq _ _ := rfl
  l_eq _ _ := rfl
  acc_eq _ _ _ _ := rfl

/-- A new position joins the positions the registers hold. -/
theorem Holds.absorb {E : ExactExp 𝕜} {s : ℤ → WithBot 𝕜} {v : ℤ → ℕ → 𝕜} {n : ℕ}
    {st st' : ℕ → LaneState 𝕜} {J : Finset ℤ} (h : Holds E s v n st J) {j : ℤ} (hj : j ∉ J)
    (hfin : s j ≠ ⊥)
    (hst : ∀ lane < 32, st' lane = (st lane).absorb E (ofBot (s j)) fun i => v j (lane * n + i)) :
    Holds E s v n st' (insert j J) := by
  have hsup : (insert j J).sup s = J.sup s ⊔ s j := by rw [Finset.sup_insert, sup_comm]
  have hne : J.sup s ⊔ s j ≠ ⊥ := fun hbot => hfin (le_bot_iff.mp (hbot ▸ le_sup_right))
  constructor
  · intro lane hlane
    rw [hst lane hlane, LaneState.absorb, h.m_eq lane hlane, fmaxf_ofBot, hsup]
  · intro lane hlane
    simp only [hst lane hlane, LaneState.absorb, h.m_eq lane hlane, h.l_eq lane hlane, fmaxf_ofBot]
    rw [rescale_ofBot E le_sup_left, expf_sub_ofBot E _ hne, fin_mul_fin, fin_add_fin,
      ← rescale_add_single E s 1 hj, Pi.one_apply, mul_one]
  · intro lane hlane i hi
    simp only [hst lane hlane, LaneState.absorb, h.m_eq lane hlane, h.acc_eq lane hlane i hi,
      fmaxf_ofBot]
    rw [rescale_ofBot E le_sup_left, expf_sub_ofBot E _ hne, fin_mul_fin, fin_mul_fin,
      fin_add_fin, ← rescale_add_single E s _ hj]

variable {num p buf batch head}

/-- A token whose page is not mapped changes nothing. -/
theorem tokenStep_of_not_mapped (st : ℕ → LaneState 𝕜) {j : ℤ} (h : ¬ p.Mapped batch j) :
    tokenStep num p buf batch head st j = st := by
  rw [tokenStep, p.kvRowPtr_of_not_mapped h]

/-- A mapped token joins the positions the registers hold. -/
theorem HoldsFor.token {st : ℕ → LaneState 𝕜} {J : Finset ℤ}
    (h : HoldsFor num p buf batch head st J) (hdim : 32 ∣ p.headDim) {j : ℤ} (hj : j ∉ J)
    (hmap : p.Mapped batch j) :
    HoldsFor num p buf batch head (tokenStep num p buf batch head st j) (insert j J) := by
  refine Holds.absorb h hj WithBot.coe_ne_bot fun lane hlane => ?_
  have hdot := warpReduceDot_eq (f := fun d => queryAt num p buf batch head d *
    keyAt num p buf batch head j d) (n := p.laneElems) hlane
  simp only [queryAt, keyAt] at hdot
  have hslices : 32 * p.laneElems = p.headDim := Nat.mul_div_cancel' hdim
  rw [tokenStep, p.kvRowPtr_of_mapped hmap, p.kvRowPtr_of_mapped hmap]
  simp only [fin_mul_fin, hdot, hslices]
  rfl

/-- The token loop collects the mapped tokens. -/
theorem HoldsFor.tokens {st : ℕ → LaneState 𝕜} {J : Finset ℤ}
    (h : HoldsFor num p buf batch head st J) (hdim : 32 ∣ p.headDim) {js : List ℤ}
    (hnd : js.Nodup) (hnew : ∀ j ∈ js, j ∉ J) :
    HoldsFor num p buf batch head (js.foldl (tokenStep num p buf batch head) st)
      (J ∪ js.toFinset.filter (p.Mapped batch)) := by
  induction js generalizing st J with
  | nil => simpa using h
  | cons j js ih =>
    obtain ⟨hj, hnd⟩ := List.nodup_cons.mp hnd
    rw [List.foldl_cons, List.toFinset_cons, Finset.filter_insert]
    by_cases hmap : p.Mapped batch j
    · rw [if_pos hmap, Finset.union_insert, ← Finset.insert_union]
      refine ih (h.token hdim (hnew j (by simp)) hmap) hnd fun i hi => ?_
      rw [Finset.mem_insert, not_or]
      exact ⟨fun hij => hj (hij ▸ hi), hnew i (by simp [hi])⟩
    · rw [if_neg hmap, tokenStep_of_not_mapped st hmap]
      exact ih h hnd fun i hi => hnew i (by simp [hi])

/-- A warp ends with the maximum and the weighted sums over its part. -/
theorem partialState_holds (hdim : 32 ∣ p.headDim) (split : ℕ) :
    HoldsFor num p buf batch head (partialState num p buf batch head split)
      (p.part batch split) := by
  have hinit : HoldsFor num p buf batch head (fun _ => .init) ∅ := Holds.init _ _ _ _
  have h := hinit.tokens hdim (p.nodup_tokens batch split) (by simp)
  rwa [Finset.empty_union] at h

end Warp

/-! ## The scratch buffer -/

/-- The warps of a grid, as one list. -/
theorem mem_onWarps {α : Type*} {blocks : ℕ} {kernel : ℕ → List α} {w : α} :
    w ∈ onWarps blocks kernel ↔ ∃ flat < blocks * 4, w ∈ kernel flat := by
  rw [onWarps, Strided.range_mul_flatMap]
  simp only [List.mem_flatMap, List.mem_range]

/-- The three kinds of partials lie one after the other. -/
structure PartialLayout {𝕜 : Type*} (p : DecodeFwdParams 𝕜) : Prop where
  l_eq : p.partialL = p.partialM + p.requests
  o_eq : p.partialO = p.partialM + 2 * p.requests

section Scratch

variable {𝕜 : Type*} [Field 𝕜] [LinearOrder 𝕜] {num : Numerics 𝕜} {p : DecodeFwdParams 𝕜}
  {buf : DecodeBuffers 𝕜}

/-- The registers a warp stores. -/
def warpState (num : Numerics 𝕜) (p : DecodeFwdParams 𝕜) (buf : DecodeBuffers 𝕜) (flat : ℕ) :
    ℕ → LaneState 𝕜 :=
  partialState num p buf (p.batchOf flat) (p.headOf flat) (p.splitOf flat)

theorem mem_decodePartialKernel {flat : ℕ} {w : ℕ × Flt 𝕜} :
    w ∈ decodePartialKernel num p buf flat ↔ flat < p.requests ∧
      (w = (p.partialM + flat, (warpState num p buf flat 0).m) ∨
        w = (p.partialL + flat, (warpState num p buf flat 0).l) ∨
        ∃ lane < 32, ∃ i < p.laneElems,
          w = (p.partialO + (flat * p.headDim + (lane * p.laneElems + i)),
            (warpState num p buf flat lane).acc i)) := by
  unfold decodePartialKernel
  split_ifs with h
  · simp only [List.not_mem_nil, false_iff]
    rintro ⟨hlt, -⟩
    omega
  · simp only [List.cons_append, List.nil_append, List.mem_cons, List.mem_flatMap, List.mem_range,
      List.mem_map, warpState, show flat < p.requests by omega, true_and, eq_comm (a := w)]

variable {mem : ℕ → Flt 𝕜} {blocks : ℕ}

/-- Every partial cell holds the registers of its own warp. -/
theorem partials_cells (num : Numerics 𝕜) (buf : DecodeBuffers 𝕜) (mem : ℕ → Flt 𝕜)
    (hlay : PartialLayout p) (hcover : p.requests ≤ blocks * 4) {flat : ℕ}
    (hflat : flat < p.requests) :
    let partials := Scatter.apply mem (onWarps blocks (decodePartialKernel num p buf))
    partials (p.partialM + flat) = (warpState num p buf flat 0).m ∧
      partials (p.partialL + flat) = (warpState num p buf flat 0).l ∧
      ∀ lane < 32, ∀ i < p.laneElems,
        partials (p.partialO + (flat * p.headDim + (lane * p.laneElems + i))) =
          (warpState num p buf flat lane).acc i := by
  have hwrite : ∀ {w : ℕ × Flt 𝕜}, w ∈ decodePartialKernel num p buf flat →
      w ∈ onWarps blocks (decodePartialKernel num p buf) := fun hw =>
    mem_onWarps.mpr ⟨flat, by omega, hw⟩
  have hl := hlay.l_eq
  have ho := hlay.o_eq
  -- each region is written at `flat` by this warp only, and the regions do not meet
  refine ⟨?_, ?_, ?_⟩
  · refine Scatter.apply_of_agree (hwrite (mem_decodePartialKernel.mpr ⟨hflat, .inl rfl⟩)) ?_
    intro w hw haddr
    obtain ⟨flat', -, hw⟩ := mem_onWarps.mp hw
    obtain ⟨hlt, rfl | rfl | ⟨lane, -, i, -, rfl⟩⟩ := mem_decodePartialKernel.mp hw
    · rw [show flat' = flat by simpa using haddr]
    · simp only at haddr
      omega
    · simp only at haddr
      omega
  · refine Scatter.apply_of_agree (hwrite (mem_decodePartialKernel.mpr ⟨hflat, .inr (.inl rfl)⟩)) ?_
    intro w hw haddr
    obtain ⟨flat', -, hw⟩ := mem_onWarps.mp hw
    obtain ⟨hlt, rfl | rfl | ⟨lane, -, i, -, rfl⟩⟩ := mem_decodePartialKernel.mp hw
    · simp only at haddr
      omega
    · rw [show flat' = flat by simpa using haddr]
    · simp only at haddr
      omega
  · intro lane hlane i hi
    refine Scatter.apply_of_agree (hwrite (mem_decodePartialKernel.mpr
      ⟨hflat, .inr (.inr ⟨lane, hlane, i, hi, rfl⟩)⟩)) ?_
    intro w hw haddr
    obtain ⟨flat', -, hw⟩ := mem_onWarps.mp hw
    obtain ⟨hlt, rfl | rfl | ⟨lane', hlane', i', hi', rfl⟩⟩ := mem_decodePartialKernel.mp hw
    · simp only at haddr
      omega
    · simp only at haddr
      omega
    · obtain ⟨rfl, hcol⟩ := Strided.mul_add_inj (p.lane_lt hlane' hi') (p.lane_lt hlane hi)
        (by simpa using haddr)
      obtain ⟨rfl, rfl⟩ := Strided.mul_add_inj hi' hi hcol
      rfl

/-! ## Merging the splits -/

variable {batch head : ℕ}

/-- The partials of one `(batch, head)`, split by split, as the reduce kernel finds them. -/
structure SplitsHeld (num : Numerics 𝕜) (p : DecodeFwdParams 𝕜) (buf : DecodeBuffers 𝕜)
    (partials : ℕ → Flt 𝕜) (batch head : ℕ) : Prop where
  m_eq : ∀ split < p.numSplits, partials (p.partialM + p.flatOf batch head split) =
    ofBot ((p.part batch split).sup (scores num p buf batch head))
  l_eq : ∀ split < p.numSplits, partials (p.partialL + p.flatOf batch head split) =
    fin (mass num.E (scores num p buf batch head) 1 (p.part batch split)
      ((p.part batch split).sup (scores num p buf batch head)))
  o_eq : ∀ split < p.numSplits, ∀ d < p.headDim,
    partials (p.partialO + (p.flatOf batch head split * p.headDim + d)) =
      fin (mass num.E (scores num p buf batch head) (fun j => valueAt num p buf batch head j d)
        (p.part batch split) ((p.part batch split).sup (scores num p buf batch head)))

theorem SplitsHeld.of_partialKernel (hlay : PartialLayout p) (hcover : p.requests ≤ blocks * 4)
    (hdim : 32 ∣ p.headDim) (hb : batch < p.batch) (hh : head < p.numHeads) :
    SplitsHeld num p buf (Scatter.apply mem (onWarps blocks (decodePartialKernel num p buf)))
      batch head := by
  have hcells := fun split (hs : split < p.numSplits) =>
    partials_cells num buf mem hlay hcover (p.flatOf_lt hb hh hs)
  have hstate : ∀ split < p.numSplits, HoldsFor num p buf batch head
      (warpState num p buf (p.flatOf batch head split)) (p.part batch split) := by
    intro split hs
    rw [warpState, p.batchOf_flatOf hh hs, p.headOf_flatOf hh hs, p.splitOf_flatOf hs]
    exact partialState_holds hdim split
  refine ⟨fun split hs => ?_, fun split hs => ?_, fun split hs d hd => ?_⟩
  · exact (hcells split hs).1.trans ((hstate split hs).m_eq 0 (by omega))
  · exact (hcells split hs).2.1.trans ((hstate split hs).l_eq 0 (by omega))
  · have hslices : 32 * p.laneElems = p.headDim := Nat.mul_div_cancel' hdim
    have hpos : 0 < p.laneElems := by omega
    have hlane : d / p.laneElems < 32 := (Nat.div_lt_iff_lt_mul hpos).mpr (by omega)
    have hcol : d / p.laneElems * p.laneElems + d % p.laneElems = d := Nat.div_add_mod' d _
    have hi : d % p.laneElems < p.laneElems := Nat.mod_lt d hpos
    have hcell := (hcells split hs).2.2 _ hlane _ hi
    have hacc := (hstate split hs).acc_eq _ hlane _ hi
    rw [hcol] at hcell hacc
    exact hcell.trans hacc

namespace SplitsHeld

variable {partials : ℕ → Flt 𝕜}

/-- The common maximum is the maximum over the request. -/
theorem maxOfSplits_eq (h : SplitsHeld num p buf partials batch head) (hs : 0 < p.numSplits) :
    maxOfSplits p partials ((batch * p.numHeads + head) * p.numSplits) =
      ofBot ((p.visible batch).sup (scores num p buf batch head)) := by
  have hfold : maxOfSplits p partials ((batch * p.numHeads + head) * p.numSplits) =
      (List.range p.numSplits).foldl (fun m s => fmaxf m
        (ofBot ((p.part batch s).sup (scores num p buf batch head)))) (ofBot ⊥) :=
    List.foldl_ext _ _ _ fun m s hmem => by
      rw [← h.m_eq s (List.mem_range.mp hmem)]
      rfl
  rw [hfold, foldl_fmaxf_ofBot, bot_sup_eq, List.toFinset_range, ← p.biUnion_part hs,
    Finset.sup_biUnion]

/-- Rescaled parts add up to the weighted sum over the request. -/
theorem sumOfSplits_eq (h : SplitsHeld num p buf partials batch head) (hs : 0 < p.numSplits)
    {term : ℕ → Flt 𝕜} {w : ℤ → 𝕜}
    (hterm : ∀ split < p.numSplits, term split =
      fin (mass num.E (scores num p buf batch head) w (p.part batch split)
        ((p.part batch split).sup (scores num p buf batch head)))) :
    sumOfSplits num p partials ((batch * p.numHeads + head) * p.numSplits) term =
      fin (mass num.E (scores num p buf batch head) w (p.visible batch)
        ((p.visible batch).sup (scores num p buf batch head))) := by
  have hle : ∀ split ∈ List.range p.numSplits,
      (p.part batch split).sup (scores num p buf batch head) ≤
        (p.visible batch).sup (scores num p buf batch head) := by
    intro split hmem
    rw [← p.biUnion_part hs]
    exact Finset.sup_mono (Finset.subset_biUnion_of_mem (p.part batch)
      (Finset.mem_range.mpr (List.mem_range.mp hmem)))
  rw [sumOfSplits, h.maxOfSplits_eq hs, zero_def]
  have hfold := foldl_rescaled num.E (fun s => mass num.E (scores num p buf batch head) w
    (p.part batch s) ((p.part batch s).sup (scores num p buf batch head))) _ _ hle 0
  refine (List.foldl_ext _ _ _ fun total s hmem => ?_).trans (hfold.trans ?_)
  · rw [← hterm s (List.mem_range.mp hmem), ← h.m_eq s (List.mem_range.mp hmem)]
    rfl
  · rw [zero_add, ← p.biUnion_part hs, ← sum_mass_mul_weight num.E _ w _
      (p.pairwiseDisjoint_part batch _)]
    rfl

end SplitsHeld

/-! ## The output -/

/-- The output address of `(batch, head, d)`. -/
def outIndex (p : DecodeFwdParams 𝕜) (batch head d : ℕ) : ℕ :=
  batch * p.oStride.sB + head * p.oStride.sH + d

/-- Different output elements have different addresses. -/
def OutInjective (p : DecodeFwdParams 𝕜) : Prop :=
  ∀ batch head d batch' head' d', head < p.numHeads → head' < p.numHeads → d < p.headDim →
    d' < p.headDim → outIndex p batch head d = outIndex p batch' head' d' →
    batch = batch' ∧ head = head' ∧ d = d'

/-- What the reduce kernel stores for `(batch, head, d)`. -/
def reducedAt (num : Numerics 𝕜) (p : DecodeFwdParams 𝕜) (partials : ℕ → Flt 𝕜)
    (batch head d : ℕ) : Flt 𝕜 :=
  let base := (batch * p.numHeads + head) * p.numSplits
  let lAll := sumOfSplits num p partials base fun s => partials (p.partialL + (base + s))
  (sumOfSplits num p partials base fun s => partials (p.partialO + ((base + s) * p.headDim + d))) *
    if gtZero lAll then recip lAll else 0

theorem mem_decodeReduceKernel {partials : ℕ → Flt 𝕜} {flat : ℕ} {w : ℕ × Flt 𝕜} :
    w ∈ decodeReduceKernel num p partials flat ↔ flat < p.batch * p.numHeads ∧
      ∃ lane < 32, ∃ i < p.laneElems,
        w = (outIndex p (flat / p.numHeads) (flat % p.numHeads) (lane * p.laneElems + i),
          reducedAt num p partials (flat / p.numHeads) (flat % p.numHeads)
            (lane * p.laneElems + i)) := by
  unfold decodeReduceKernel
  split_ifs with h
  · simp only [List.not_mem_nil, false_iff]
    rintro ⟨hlt, -⟩
    omega
  · simp only [List.mem_flatMap, List.mem_range, List.mem_map, reducedAt, outIndex,
      Nat.div_add_mod', show flat < p.batch * p.numHeads by omega, true_and, eq_comm (a := w)]

/-- Every output element is stored by the reduce kernel. -/
theorem reduce_cell (num : Numerics 𝕜) (partials out : ℕ → Flt 𝕜) (hinj : OutInjective p)
    (hdim : 32 ∣ p.headDim) (hcover : p.batch * p.numHeads ≤ blocks * 4) (hb : batch < p.batch)
    (hh : head < p.numHeads) {d : ℕ} (hd : d < p.headDim) :
    Scatter.apply out (onWarps blocks (decodeReduceKernel num p partials))
      (outIndex p batch head d) = reducedAt num p partials batch head d := by
  have hslices : 32 * p.laneElems = p.headDim := Nat.mul_div_cancel' hdim
  have hpos : 0 < p.laneElems := by omega
  have hlane : d / p.laneElems < 32 := (Nat.div_lt_iff_lt_mul hpos).mpr (by omega)
  have hcol : d / p.laneElems * p.laneElems + d % p.laneElems = d := Nat.div_add_mod' d _
  have hflat : batch * p.numHeads + head < p.batch * p.numHeads := by
    have : (batch + 1) * p.numHeads ≤ p.batch * p.numHeads := Nat.mul_le_mul_right _ hb
    linarith
  have hdiv : (batch * p.numHeads + head) / p.numHeads = batch := Strided.flat_div batch hh
  have hmod : (batch * p.numHeads + head) % p.numHeads = head := Strided.flat_mod batch hh
  refine Scatter.apply_of_agree (mem_onWarps.mpr ⟨batch * p.numHeads + head, by omega,
    mem_decodeReduceKernel.mpr ⟨hflat, d / p.laneElems, hlane, d % p.laneElems,
      Nat.mod_lt d hpos, ?_⟩⟩) ?_
  · rw [hdiv, hmod, hcol]
  · intro w hw haddr
    obtain ⟨flat', -, hw⟩ := mem_onWarps.mp hw
    obtain ⟨hflat', lane', hlane', i', hi', rfl⟩ := mem_decodeReduceKernel.mp hw
    obtain ⟨hb', hh', hd'⟩ := hinj _ _ _ _ _ _ (Nat.mod_lt _ (by omega)) hh
      (p.lane_lt hlane' hi') hd haddr
    rw [← hb', ← hh', ← hd']

/-- A grid of four warps to a block that fits an `int`. -/
theorem int32Cast_grid {n : ℕ} (h : n + 3 < 2 ^ 33) :
    int32Cast ((n + 3) / 4 : ℕ) = ((n + 3) / 4 : ℕ) :=
  int32Cast_of_lt (by omega) (by omega)

/-- The launch succeeds when the device runs both kernels. -/
theorem launchForDim_isOk {launch : ℕ → LaunchOutcome} (hlaunch : ∀ n, launch n = .ok)
    (hrows : 0 < p.batch * p.numHeads) (hs : 0 < p.numSplits) (hgrid : p.requests + 3 < 2 ^ 33) :
    ∃ out, launchForDim num p buf launch = .ok out := by
  have hle : p.batch * p.numHeads ≤ p.requests := Nat.le_mul_of_pos_right _ hs
  have hraw : ∀ {n : ℕ}, 0 < n → n + 3 < 2 ^ 33 →
      (launchRaw (int32Cast ((n + 3) / 4 : ℕ)) 1 1 .ok).isOk := by
    intro n hn hle
    rw [int32Cast_grid hle, launchRaw_isOk]
    exact ⟨⟨by omega, by omega, by omega⟩, rfl⟩
  simp only [launchForDim, hlaunch]
  rw [if_neg (not_not.mpr (hraw (by omega) hgrid)),
    if_neg (not_not.mpr (hraw hrows (by omega))),
    if_neg (not_not.mpr ((LaunchOutcome.isOk_status_iff _).mpr rfl))]
  exact ⟨_, rfl⟩

variable [IsStrictOrderedRing 𝕜]

/-- The merged and normalised partials are the softmax average over the request. -/
theorem SplitsHeld.reducedAt_eq {partials : ℕ → Flt 𝕜} (h : SplitsHeld num p buf partials batch head)
    (hs : 0 < p.numSplits) {d : ℕ} (hd : d < p.headDim) :
    reducedAt num p partials batch head d = fin (average num.E (scores num p buf batch head)
      (fun j => valueAt num p buf batch head j d) (p.visible batch)) := by
  have hl := h.sumOfSplits_eq hs h.l_eq
  have ho := h.sumOfSplits_eq hs fun split hsplit => h.o_eq split hsplit d hd
  simp only [DecodeFwdParams.flatOf] at hl ho
  rw [reducedAt, hl, ho, recip_mass, fin_mul_fin, average, div_eq_mul_inv]

/-- Split-K decode is exact: every output element is the softmax average over the mapped positions
below the request's length. -/
theorem launchForDim_out {launch : ℕ → LaunchOutcome} {out : ℕ → Flt 𝕜} (hlay : PartialLayout p)
    (hinj : OutInjective p) (hdim : 32 ∣ p.headDim) (hs : 0 < p.numSplits)
    (hgrid : p.requests + 3 < 2 ^ 33) (hok : launchForDim num p buf launch = .ok out)
    (hb : batch < p.batch) (hh : head < p.numHeads) {d : ℕ} (hd : d < p.headDim) :
    out (outIndex p batch head d) = fin (average num.E (scores num p buf batch head)
      (fun j => valueAt num p buf batch head j d) (p.visible batch)) := by
  have hrows : p.batch * p.numHeads ≤ p.requests := Nat.le_mul_of_pos_right _ hs
  simp only [launchForDim] at hok
  split_ifs at hok
  rw [int32Cast_grid hgrid, int32Cast_grid (show p.batch * p.numHeads + 3 < 2 ^ 33 by omega),
    Int.toNat_natCast,
    Int.toNat_natCast] at hok
  cases hok
  rw [reduce_cell num _ _ hinj hdim (by omega) hb hh hd]
  exact (SplitsHeld.of_partialKernel hlay (by omega) hdim hb hh).reducedAt_eq hs hd

end Scratch

end SciAttention

import SciAttention.Attention.Addressing
import SciAttention.Attention.Naive

/-!
# What the naive pipeline computes

The first kernel stores the scores of the reference, the second turns every row it owns into the softmax
weights of its scores, and the third sums the values with the weights it finds. A row with a visible key
ends as attention. A grid with fewer blocks than rows leaves the last rows as scores.
-/

namespace SciAttention

open Flt Softmax

variable {𝕜 : Type*} [Field 𝕜] [LinearOrder 𝕜]

/-! ## Row softmax -/

section Row

variable {num : Numerics 𝕜} {data : ℕ → Flt 𝕜} {cols : ℕ} {s : ℕ → WithBot 𝕜}

omit [Field 𝕜] in
/-- The row maximum. -/
theorem rowMax_eq (h : ∀ c < cols, data c = ofBot (s c)) :
    rowMax data cols = ofBot ((Finset.range cols).sup s) := by
  have hthread : ∀ tid, (Strided.loop tid naiveThreads cols).foldl
      (fun m c => fmaxf m (data c)) negInf =
        ofBot ((Strided.loop tid naiveThreads cols).toFinset.sup s) := by
    intro tid
    rw [List.foldl_ext _ (fun m c => fmaxf m (ofBot (s c))) _ fun m c hc => by
      rw [h c ((Strided.mem_loop (by decide)).mp hc).2.1]]
    exact (foldl_fmaxf_ofBot s _ ⊥).trans (by rw [bot_sup_eq])
  simp only [rowMax, hthread]
  exact (Butterfly.block_fmaxf (n := 8) (by decide) _).trans
    (congrArg ofBot (Strided.sup_threads (by decide) cols s))

variable (hmax : (Finset.range cols).sup s ≠ ⊥) (h : ∀ c < cols, data c = ofBot (s c))

include hmax h

omit [Field 𝕜] in
theorem isFinite_rowMax : isFinite (rowMax data cols) = true := by
  obtain ⟨m, hm⟩ := WithBot.ne_bot_iff_exists.mp hmax
  rw [rowMax_eq h, ← hm]
  rfl

/-- The exponentials of a row. -/
theorem rowExp_eq {c : ℕ} (hc : c < cols) :
    rowExp num data cols c = fin (weight num.E (s c) ((Finset.range cols).sup s)) := by
  rw [rowExp, if_pos (isFinite_rowMax hmax h), rowMax_eq h, h c hc, expf_sub_ofBot num.E _ hmax]

/-- The row sum. -/
theorem rowSum_eq :
    rowSum num data cols =
      fin (mass num.E s 1 (Finset.range cols) ((Finset.range cols).sup s)) := by
  have hthread : ∀ tid, (Strided.loop tid naiveThreads cols).foldl
      (fun acc c => acc + rowExp num data cols c) 0 =
        fin (((Strided.loop tid naiveThreads cols).map fun c =>
          weight num.E (s c) ((Finset.range cols).sup s)).sum) := by
    intro tid
    rw [List.foldl_ext _ (fun acc c =>
      acc + fin (weight num.E (s c) ((Finset.range cols).sup s))) _ fun acc c hc => by
        rw [rowExp_eq hmax h ((Strided.mem_loop (by decide)).mp hc).2.1]]
    exact (foldl_add_fin _ _ 0).trans (by rw [zero_add])
  rw [rowSum, if_pos (isFinite_rowMax hmax h)]
  simp only [hthread]
  refine (Butterfly.block_add (n := 8) (by decide) _).trans (congrArg fin ?_)
  refine (Strided.sum_threads (by decide) cols _).trans (Finset.sum_congr rfl fun c _ => ?_)
  rw [Pi.one_apply, mul_one]

variable [IsStrictOrderedRing 𝕜]

/-- The probabilities of a row. -/
theorem rowProb_eq {c : ℕ} (hc : c < cols) :
    rowProb num data cols c =
      fin (weight num.E (s c) ((Finset.range cols).sup s) *
        (mass num.E s 1 (Finset.range cols) ((Finset.range cols).sup s))⁻¹) := by
  have hpos := (mass_one_pos_iff num.E s (Finset.range cols)).mpr hmax
  rw [rowProb, if_pos (isFinite_rowMax hmax h), rowExp_eq hmax h hc, rowSum_eq hmax h,
    recip_fin hpos.ne', fin_mul_fin]

/-- The log-sum-exp of a row. -/
theorem rowLse_eq :
    rowLse num data cols = ofBot (logSumExp num.E num.log s (Finset.range cols)) := by
  have hpos := (mass_one_pos_iff num.E s (Finset.range cols)).mpr hmax
  rw [rowLse, if_pos (isFinite_rowMax hmax h), rowMax_eq h, rowSum_eq hmax h, ← lse_mass, gtZero_fin,
    decide_eq_true hpos, if_pos rfl]

end Row

/-! ## Flat indices -/

namespace NaiveFwdParams

omit [Field 𝕜] [LinearOrder 𝕜] in
/-- The coordinates of a flat index over rows of the given width. -/
theorem coords_flat (p : NaiveFwdParams 𝕜) {width b h i x : ℕ} (hh : h < p.numHeads)
    (hi : i < p.seqQ) (hx : x < width) :
    p.iOf width (((b * p.numHeads + h) * p.seqQ + i) * width + x) = i ∧
      p.hOf width (((b * p.numHeads + h) * p.seqQ + i) * width + x) = h ∧
      p.bOf width (((b * p.numHeads + h) * p.seqQ + i) * width + x) = b := by
  refine ⟨?_, ?_, ?_⟩
  · rw [iOf, Strided.flat_div _ hx, Strided.flat_mod _ hi]
  · rw [hOf, ← Nat.div_div_eq_div_mul, Strided.flat_div _ hx, Strided.flat_div _ hi,
      Strided.flat_mod _ hh]
  · rw [bOf, ← Nat.div_div_eq_div_mul, ← Nat.div_div_eq_div_mul, Strided.flat_div _ hx,
      Strided.flat_div _ hi, Strided.flat_div _ hh]

omit [Field 𝕜] [LinearOrder 𝕜] in
/-- A flat index is that of its coordinates. -/
theorem flat_coords (p : NaiveFwdParams 𝕜) (width idx : ℕ) :
    ((p.bOf width idx * p.numHeads + p.hOf width idx) * p.seqQ + p.iOf width idx) * width +
      idx % width = idx := by
  rw [bOf, hOf, iOf, ← Nat.div_div_eq_div_mul, ← Nat.div_div_eq_div_mul, Nat.div_add_mod',
    Nat.div_add_mod', Nat.div_add_mod']

omit [Field 𝕜] [LinearOrder 𝕜] in
/-- The rows of the score matrix. -/
theorem row_lt (p : NaiveFwdParams 𝕜) {b h i : ℕ} (hb : b < p.batch) (hh : h < p.numHeads)
    (hi : i < p.seqQ) : (b * p.numHeads + h) * p.seqQ + i < p.rows :=
  Strided.flat_lt (Strided.flat_lt hb hh) hi

/-- The shape of a request. -/
def shape (p : NaiveFwdParams 𝕜) : AttentionShape :=
  { batch := p.batch, seqQ := p.seqQ, seqKv := p.seqKv, numHeads := p.numHeads
    numKvHeads := p.numKvHeads, headDim := p.headDim }

/-- The attention problem of a request. -/
def problem (num : Numerics 𝕜) (p : NaiveFwdParams 𝕜) (buf : NaiveBuffers 𝕜) : AttnProblem 𝕜 :=
  AttnProblem.ofMemory num p.dtype.elem buf.q buf.k buf.v p.qStride p.kStride p.vStride p.shape p.scale
    p.causal p.diagonal

end NaiveFwdParams

/-! ## The pipeline -/

section Pipeline

variable {num : Numerics 𝕜} {p : NaiveFwdParams 𝕜} {buf : NaiveBuffers 𝕜} {b h i : ℕ}

/-- The first kernel's value for a query and a key. -/
theorem naiveScore_eq (hh : h < p.numHeads) (hi : i < p.seqQ) {j : ℕ} (hj : j < p.seqKv) :
    naiveScore num p buf (((b * p.numHeads + h) * p.seqQ + i) * p.seqKv + j) =
      ofBot ((p.problem num buf).score b h i j) := by
  obtain ⟨hiOf, hhOf, hbOf⟩ := p.coords_flat (b := b) hh hi hj
  have hdot : ∀ x : 𝕜, x = (p.problem num buf).dot b h i j →
      fin x * fin p.scale = fin ((p.problem num buf).logit b h i j) := by
    rintro x rfl
    rw [fin_mul_fin, mul_comm]
    rfl
  have hacc : (List.range p.headDim).foldl (fun acc d =>
      acc + fin (num.load p.dtype.elem buf.q (p.qRow b h i + d)) *
        fin (num.load p.dtype.elem buf.k (p.kRow b h j + d))) 0 =
      fin ((p.problem num buf).dot b h i j) := by
    simp only [fin_mul_fin]
    exact (foldl_add_fin _ _ 0).trans (by rw [zero_add]; rfl)
  -- the mask of the kernel is the negation of visibility, inside the tensor
  have hsees : (p.problem num buf).Sees i j ↔
      ¬ (p.causal = true ∧ (j : ℤ) > i + p.diagonal) := by
    constructor
    · rintro ⟨-, hcausal⟩ ⟨hc, hgt⟩
      exact absurd (hcausal hc) (not_le.mpr hgt)
    · intro hnot
      refine ⟨hj, fun hc => not_lt.mp fun hgt => hnot ⟨hc, hgt⟩⟩
  simp only [naiveScore, hiOf, hhOf, hbOf, Strided.flat_mod _ hj, hacc]
  by_cases hmask : p.causal = true ∧ (j : ℤ) > i + p.diagonal
  · rw [if_pos hmask, AttnProblem.score, if_neg (by rw [hsees]; exact not_not.mpr hmask), ofBot_bot]
  · rw [if_neg hmask, AttnProblem.score, if_pos (hsees.mpr hmask), ofBot_coe, hdot _ rfl]

omit [Field 𝕜] [LinearOrder 𝕜] in
theorem naiveBlocks_pos (total : ℕ) : 0 < naiveBlocks total * naiveThreads :=
  Nat.mul_pos (lt_min (by omega) (by decide)) (by decide)

/-- The score matrix. -/
theorem naiveScores_eq (hb : b < p.batch) (hh : h < p.numHeads) (hi : i < p.seqQ) {j : ℕ}
    (hj : j < p.seqKv) :
    naiveScores num p buf (((b * p.numHeads + h) * p.seqQ + i) * p.seqKv + j) =
      ofBot ((p.problem num buf).score b h i j) := by
  rw [← naiveScore_eq hh hi hj]
  refine Scatter.apply_map_of_mem (f := fun idx => idx) ?_ fun _ _ heq => by rw [heq]
  exact (Strided.mem_gridStride (naiveBlocks_pos _)).mpr (Strided.flat_lt (p.row_lt hb hh hi) hj)

/-- The score matrix after the softmax kernel, in a row that a block owns. -/
theorem naiveRowSoftmax_probs {scores : ℕ → Flt 𝕜} {rows cols blocks r j : ℕ} {writeLse : Bool}
    (hblocks : r < blocks) (hrows : r < rows) (hj : j < cols) :
    Scatter.apply scores (naiveRowSoftmaxKernel num scores rows cols writeLse blocks).1 (r * cols + j) =
      rowProb num (fun c => scores (r * cols + c)) cols j := by
  have hthreads : ∀ {c}, c ∈ Strided.threads naiveThreads cols ↔ c < cols := by
    intro c
    rw [(Strided.threads_perm (by decide) _).mem_iff, List.mem_range]
  refine Scatter.apply_of_agree ?_ fun w hw haddr => ?_
  · simp only [naiveRowSoftmaxKernel, List.mem_flatMap, List.mem_filter, List.mem_range,
      decide_eq_true_eq, List.mem_map]
    exact ⟨r, ⟨hblocks, hrows⟩, j, hthreads.mpr hj, rfl⟩
  · simp only [naiveRowSoftmaxKernel, List.mem_flatMap, List.mem_map] at hw
    obtain ⟨r', -, c, hc, rfl⟩ := hw
    obtain ⟨rfl, rfl⟩ := Strided.mul_add_inj (hthreads.mp hc) hj haddr
    rfl

/-- The LSE buffer after the softmax kernel, in a row that a block owns. -/
theorem naiveRowSoftmax_lse (scores : ℕ → Flt 𝕜) {rows cols blocks r : ℕ} {writeLse : Bool}
    (hblocks : r < blocks) (hrows : r < rows) (hret : writeLse = true) (lse : ℕ → Flt 𝕜) :
    Scatter.apply lse (naiveRowSoftmaxKernel num scores rows cols writeLse blocks).2 r =
      rowLse num (fun c => scores (r * cols + c)) cols := by
  simp only [naiveRowSoftmaxKernel, hret, if_true]
  refine Scatter.apply_map_of_mem (f := fun row => row) ?_ fun _ _ heq => by rw [heq]
  rw [List.mem_filter, List.mem_range, decide_eq_true_eq]
  exact ⟨hblocks, hrows⟩

/-- A visible key gives the row a maximum. -/
theorem sup_score_ne_bot (hvis : ((p.problem num buf).visible i).Nonempty) :
    (Finset.range p.seqKv).sup ((p.problem num buf).score b h i) ≠ ⊥ := by
  obtain ⟨j, hj⟩ := hvis
  have hmem : j ∈ Finset.range p.seqKv := Finset.mem_range.mpr (AttnProblem.mem_visible.mp hj).1
  intro hbot
  have hscore := (Finset.sup_eq_bot_iff _ _).mp hbot j hmem
  rw [AttnProblem.score_of_visible hj] at hscore
  cases hscore

theorem visible_subset_range : (p.problem num buf).visible i ⊆ Finset.range p.seqKv :=
  Finset.filter_subset _ _

variable [IsStrictOrderedRing 𝕜]

omit [IsStrictOrderedRing 𝕜] in
/-- The third kernel's value, from what it finds in its row. -/
theorem naiveValue_flat {probs : ℕ → Flt 𝕜} {d : ℕ} (hh : h < p.numHeads) (hi : i < p.seqQ)
    (hd : d < p.headDim) :
    naiveValue num p buf probs (((b * p.numHeads + h) * p.seqQ + i) * p.headDim + d) =
      (List.range p.seqKv).foldl (fun acc j =>
        acc + probs (((b * p.numHeads + h) * p.seqQ + i) * p.seqKv + j) *
          fin ((p.problem num buf).v b (h / p.group) j d)) 0 := by
  obtain ⟨hiOf, hhOf, hbOf⟩ := p.coords_flat (b := b) hh hi hd
  have hload : ∀ j, num.load p.dtype.elem buf.v (p.vCol b h d + j * p.vStride.sS) =
      (p.problem num buf).v b (h / p.group) j d := by
    intro j
    change _ = num.load _ _ _
    rw [NaiveFwdParams.vCol]
    congr 1
    ring
  simp only [naiveValue, hiOf, hhOf, hbOf, Strided.flat_mod _ hd, hload]

omit [IsStrictOrderedRing 𝕜] in
/-- The third kernel's value, from the weights of its row. -/
theorem naiveValue_eq {probs : ℕ → Flt 𝕜} {d : ℕ} (hh : h < p.numHeads) (hi : i < p.seqQ)
    (hd : d < p.headDim) (w : ℕ → 𝕜)
    (hprobs : ∀ j < p.seqKv,
      probs (((b * p.numHeads + h) * p.seqQ + i) * p.seqKv + j) = fin (w j)) :
    naiveValue num p buf probs (((b * p.numHeads + h) * p.seqQ + i) * p.headDim + d) =
      fin (∑ j ∈ Finset.range p.seqKv, w j * (p.problem num buf).v b (h / p.group) j d) := by
  rw [naiveValue_flat hh hi hd,
    List.foldl_ext _ (fun acc j => acc + fin (w j * (p.problem num buf).v b (h / p.group) j d)) _
      fun acc j hj => by rw [hprobs j (List.mem_range.mp hj), fin_mul_fin]]
  exact (foldl_add_fin _ _ 0).trans (by rw [zero_add]; rfl)

omit [Field 𝕜] [LinearOrder 𝕜] [IsStrictOrderedRing 𝕜] in
/-- The output is laid out as `[B, H_q, S_q, D]`. -/
theorem outOffset_eq (ho : p.oStride = stridesFor .bhsd p.seqQ p.numHeads p.headDim) (b h i d : ℕ) :
    p.outOffset b h i d = ((b * p.numHeads + h) * p.seqQ + i) * p.headDim + d := by
  rw [NaiveFwdParams.outOffset, ho, stridesFor]
  ring

omit [IsStrictOrderedRing 𝕜] in
variable (num p buf) in
/-- The third kernel stores the value of a flat index at that index. -/
theorem naivePv_out {blocks d : ℕ} (ho : p.oStride = stridesFor .bhsd p.seqQ p.numHeads p.headDim)
    (hblocks : 0 < blocks * naiveThreads) (probs out : ℕ → Flt 𝕜) (hb : b < p.batch)
    (hh : h < p.numHeads) (hi : i < p.seqQ) (hd : d < p.headDim) :
    Scatter.apply out (naivePvKernel num p buf probs blocks) (p.outOffset b h i d) =
      naiveValue num p buf probs (((b * p.numHeads + h) * p.seqQ + i) * p.headDim + d) := by
  have haddr : ∀ idx, p.outOffset (p.bOf p.headDim idx) (p.hOf p.headDim idx) (p.iOf p.headDim idx)
      (idx % p.headDim) = idx := by
    intro idx
    rw [outOffset_eq ho, p.flat_coords]
  rw [outOffset_eq ho]
  simp only [naivePvKernel, haddr]
  refine Scatter.apply_map_of_mem (f := fun idx => idx) ?_ fun _ _ heq => by rw [heq]
  exact (Strided.mem_gridStride hblocks).mpr (Strided.flat_lt (p.row_lt hb hh hi) hd)

/-- The output of the pipeline at a row that was processed. -/
theorem naivePipeline_out {blocks d : ℕ}
    (ho : p.oStride = stridesFor .bhsd p.seqQ p.numHeads p.headDim)
    (hb : b < p.batch) (hh : h < p.numHeads) (hi : i < p.seqQ) (hd : d < p.headDim)
    (hblocks : (b * p.numHeads + h) * p.seqQ + i < blocks)
    (hvis : ((p.problem num buf).visible i).Nonempty) :
    (naivePipeline num p buf blocks).1 (p.outOffset b h i d) =
      fin ((p.problem num buf).attention num.E b h i d) := by
  set s := (p.problem num buf).score b h i with hs
  set J := Finset.range p.seqKv with hJ
  have hmax : J.sup s ≠ ⊥ := sup_score_ne_bot hvis
  have hscores : ∀ c < p.seqKv,
      naiveScores num p buf (((b * p.numHeads + h) * p.seqQ + i) * p.seqKv + c) = ofBot (s c) :=
    fun c hc => naiveScores_eq hb hh hi hc
  have hprobs : ∀ j < p.seqKv,
      Scatter.apply (naiveScores num p buf) (naiveSoftmax num p buf blocks).1
          (((b * p.numHeads + h) * p.seqQ + i) * p.seqKv + j) =
        fin (weight num.E (s j) (J.sup s) * (mass num.E s 1 J (J.sup s))⁻¹) := by
    intro j hj
    rw [naiveSoftmax, naiveRowSoftmax_probs hblocks (p.row_lt hb hh hi) hj, rowProb_eq hmax hscores hj]
  refine (naivePv_out num p buf ho (naiveBlocks_pos _) _ _ hb hh hi hd).trans ?_
  rw [naiveValue_eq hh hi hd _ hprobs]
  congr 1
  rw [← AttnProblem.average_score visible_subset_range, average_eq_sum]
  rfl

variable (num p buf) in
/-- The LSE of the pipeline at a row that was processed. -/
theorem naivePipeline_lse {blocks : ℕ} (hret : p.returnLse = true) {lse : ℕ → Flt 𝕜}
    (hlse : p.lse = some lse) (hb : b < p.batch) (hh : h < p.numHeads) (hi : i < p.seqQ)
    (hblocks : (b * p.numHeads + h) * p.seqQ + i < blocks)
    (hvis : ((p.problem num buf).visible i).Nonempty) :
    ∃ mem, (naivePipeline num p buf blocks).2 = some mem ∧
      mem ((b * p.numHeads + h) * p.seqQ + i) =
        ofBot ((p.problem num buf).lse num.E num.log b h i) := by
  refine ⟨Scatter.apply lse (naiveSoftmax num p buf blocks).2, by rw [naivePipeline, hlse]; rfl, ?_⟩
  rw [naiveSoftmax, naiveRowSoftmax_lse _ hblocks (p.row_lt hb hh hi) hret,
    rowLse_eq (sup_score_ne_bot hvis) fun c hc => naiveScores_eq hb hh hi hc,
    AttnProblem.logSumExp_score visible_subset_range]

end Pipeline

/-! ## Other operands -/

section Operands

/-- The same request over tensors that lie elsewhere. -/
def NaiveFwdParams.over (p : NaiveFwdParams 𝕜) (q k v : Option Bytes) (qs ks vs : Strides) :
    NaiveFwdParams 𝕜 :=
  { p with q, k, v, qStride := qs, kStride := ks, vStride := vs }

/-- The same memory with other tensors. -/
def NaiveBuffers.over (buf : NaiveBuffers 𝕜) (q k v : Bytes) : NaiveBuffers 𝕜 := { buf with q, k, v }

variable {num : Numerics 𝕜} {p : NaiveFwdParams 𝕜} {buf : NaiveBuffers 𝕜} {q k v : Option Bytes}
  {qMem kMem vMem : Bytes} {qs ks vs : Strides}
  (hvalid : ValidShape p.shape)
  (hA : AttnProblem.Agree p.shape (p.problem num buf)
    ((p.over q k v qs ks vs).problem num (buf.over qMem kMem vMem)))

include hvalid hA

/-- The score matrix is that of the other tensors. -/
theorem naiveScores_over :
    naiveScores num (p.over q k v qs ks vs) (buf.over qMem kMem vMem) = naiveScores num p buf := by
  refine congrArg (Scatter.apply buf.scores) (List.map_congr_left fun idx hidx => ?_)
  have hlt : idx < p.batch * p.numHeads * p.seqQ * p.seqKv :=
    (Strided.mem_gridStride (naiveBlocks_pos _)).mp hidx
  obtain ⟨⟨b, h, i, j⟩, ⟨hb, hh, hi, hj⟩, rfl⟩ := (bijOn_flat _ _ _ _).surjOn hlt
  have hscore := hA.score_eq hb hh (hvalid.kvHead_lt hh) hi j
  exact congrArg (Prod.mk _) ((naiveScore_eq (p := p.over q k v qs ks vs) hh hi hj).trans
    ((congrArg ofBot hscore).trans (naiveScore_eq hh hi hj).symm))

/-- The pipeline, row without a block included, leaves what it leaves over the other tensors. -/
theorem naivePipeline_over (blocks : ℕ) :
    naivePipeline num (p.over q k v qs ks vs) (buf.over qMem kMem vMem) blocks =
      naivePipeline num p buf blocks := by
  have hscores := naiveScores_over hvalid hA
  have hsoftmax : naiveSoftmax num (p.over q k v qs ks vs) (buf.over qMem kMem vMem) blocks =
      naiveSoftmax num p buf blocks := by
    rw [naiveSoftmax, hscores]
    rfl
  simp only [naivePipeline, hsoftmax, hscores]
  refine Prod.ext (congrArg (Scatter.apply buf.out) (List.map_congr_left fun idx hidx => ?_)) rfl
  have hlt : idx < p.batch * p.numHeads * p.seqQ * p.headDim :=
    (Strided.mem_gridStride (naiveBlocks_pos _)).mp hidx
  obtain ⟨⟨b, h, i, d⟩, ⟨hb, hh, hi, hd⟩, rfl⟩ := (bijOn_flat _ _ _ _).surjOn hlt
  refine congrArg (Prod.mk _) ((naiveValue_flat (p := p.over q k v qs ks vs) hh hi hd).trans ?_)
  refine Eq.trans ?_ (naiveValue_flat hh hi hd).symm
  refine List.foldl_ext _ _ _ fun acc j hj => ?_
  have hvalue := hA.v_eq b hb _ (hvalid.kvHead_lt hh) j (List.mem_range.mp hj) d hd
  exact congrArg (fun x => acc + _ * fin x) hvalue

end Operands

end SciAttention

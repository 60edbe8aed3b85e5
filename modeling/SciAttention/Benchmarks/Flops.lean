import SciAttention.Attention.Reference

/-!
# The FLOP model of the benchmarks

Model of `AttentionFlops` (`benchmarks/common/bench_utils.hpp`), from which every reported TFLOPS number is
made. Its doubles hold integers and are taken as integers here. `docs/attention_math.md` defines the count by
the pairs of a query and a key that it sees.
-/

namespace SciAttention

/-- `bench::Shape`. -/
structure BenchShape where
  batch : ℤ := 1
  headsQ : ℤ := 8
  headsKv : ℤ := 8
  seqQ : ℤ := 512
  seqKv : ℤ := 512
  headDim : ℤ := 128
deriving DecidableEq, Repr

namespace BenchShape

/-- The loop of `AttentionFlops`: row `i` adds the keys it sees. -/
def visibleSum (s : BenchShape) : ℤ :=
  (List.range s.seqQ.toNat).foldl
    (fun pairs (i : ℕ) => pairs + max (min s.seqKv (i + (s.seqKv - s.seqQ) + 1)) 0) 0

/-- `AttentionFlops`. -/
def attentionFlops (s : BenchShape) (causal : Bool) : ℤ :=
  let qk := 2 * s.batch * s.headsQ * s.headDim
  let pv := qk
  if ¬ causal then (qk + pv) * (s.seqQ * s.seqKv)
  else
    let pairs := s.visibleSum
    let pairs := pairs * (s.batch * s.headsQ)
    (qk + pv) * pairs

/-- The dimensions are positive. -/
structure Positive (s : BenchShape) : Prop where
  batch : 1 ≤ s.batch
  headsQ : 1 ≤ s.headsQ
  headsKv : 1 ≤ s.headsKv
  seqQ : 1 ≤ s.seqQ
  seqKv : 1 ≤ s.seqKv
  headDim : 1 ≤ s.headDim

/-- The pairs of a query and a key that it sees. -/
def visiblePairs (s : BenchShape) (causal : Bool) : Finset (ℕ × ℕ) :=
  (Finset.range s.seqQ.toNat ×ˢ Finset.range s.seqKv.toNat).filter fun p =>
    causal = true → (p.2 : ℤ) ≤ p.1 + s.seqKv - s.seqQ

/-! ## Counting -/

/-- The pairs, row by row. -/
theorem card_visiblePairs (s : BenchShape) (causal : Bool) :
    (s.visiblePairs causal).card = ∑ i ∈ Finset.range s.seqQ.toNat,
      ((Finset.range s.seqKv.toNat).filter fun j : ℕ =>
        causal = true → (j : ℤ) ≤ i + s.seqKv - s.seqQ).card := by
  simp only [visiblePairs, Finset.card_filter, Finset.sum_product]

/-- The keys of one causal row. -/
theorem card_row (n d i : ℤ) :
    (((Finset.range n.toNat).filter fun j : ℕ => (j : ℤ) ≤ i + d).card : ℤ) =
      max (min n (i + d + 1)) 0 := by
  have hrow : ((Finset.range n.toNat).filter fun j : ℕ => (j : ℤ) ≤ i + d) =
      Finset.range (min n (i + d + 1)).toNat := by
    ext j
    rw [Finset.mem_filter, Finset.mem_range, Finset.mem_range]
    omega
  rw [hrow, Finset.card_range]
  omega

/-- The loop counts the pairs of the causal mask. -/
theorem visibleSum_eq (s : BenchShape) : s.visibleSum = (s.visiblePairs true).card := by
  have hloop : ∀ n : ℕ, (List.range n).foldl
      (fun pairs (i : ℕ) => pairs + max (min s.seqKv (i + (s.seqKv - s.seqQ) + 1)) 0) 0 =
        ∑ i ∈ Finset.range n, max (min s.seqKv (i + (s.seqKv - s.seqQ) + 1)) 0 := by
    intro n
    induction n with
    | zero => rfl
    | succ n ih =>
      rw [List.range_succ, List.foldl_append, ih, Finset.sum_range_succ]
      rfl
  rw [visibleSum, hloop, card_visiblePairs, Nat.cast_sum]
  refine Finset.sum_congr rfl fun i _ => ?_
  simp only [forall_const, add_sub_assoc]
  exact (card_row s.seqKv (s.seqKv - s.seqQ) i).symm

/-- Without a mask every pair is seen. -/
theorem card_visiblePairs_false {s : BenchShape} (h : s.Positive) :
    ((s.visiblePairs false).card : ℤ) = s.seqQ * s.seqKv := by
  have hq := h.seqQ
  have hkv := h.seqKv
  simp only [visiblePairs, Bool.false_eq_true, false_implies, Finset.filter_true, Finset.card_product,
    Finset.card_range, Nat.cast_mul]
  rw [Int.toNat_of_nonneg (by omega), Int.toNat_of_nonneg (by omega)]

/-- The last query sees the first key. -/
theorem visiblePairs_pos {s : BenchShape} (h : s.Positive) (causal : Bool) :
    0 < (s.visiblePairs causal).card := by
  have hq := h.seqQ
  have hkv := h.seqKv
  refine Finset.card_pos.2 ⟨(s.seqQ.toNat - 1, 0), ?_⟩
  simp only [visiblePairs, Finset.mem_filter, Finset.mem_product, Finset.mem_range]
  omega

/-- The pairs are those of the mathematical definition of attention. -/
theorem card_visiblePairs_eq_visible {𝕜 : Type*} (s : BenchShape) (P : AttnProblem 𝕜)
    (hkv : s.seqKv = P.seqKv) (hdiagonal : P.diagonal = s.seqKv - s.seqQ) :
    (s.visiblePairs P.causal).card = ∑ i ∈ Finset.range s.seqQ.toNat, (P.visible i).card := by
  rw [card_visiblePairs]
  refine Finset.sum_congr rfl fun i _ => congrArg Finset.card ?_
  ext j
  rw [AttnProblem.mem_visible, Finset.mem_filter, Finset.mem_range, AttnProblem.Sees, hkv,
    Int.toNat_natCast, hdiagonal, hkv, add_sub_assoc]

/-! ## The two branches -/

/-- The causal branch multiplies by the batch and the heads once more. -/
theorem attentionFlops_eq {s : BenchShape} (h : s.Positive) (causal : Bool) :
    s.attentionFlops causal = 4 * s.batch * s.headsQ * s.headDim * (s.visiblePairs causal).card *
      if causal = true then s.batch * s.headsQ else 1 := by
  cases causal with
  | false =>
    simp only [attentionFlops, card_visiblePairs_false h, Bool.false_eq_true, not_false_eq_true, if_true,
      if_false]
    ring
  | true =>
    simp only [attentionFlops, visibleSum_eq, not_true, if_true, if_false]
    ring

/-- The count is that of the visible pairs exactly where the extra factor is one; and the causal count is the
smaller one exactly as far as the factor allows. -/
theorem attentionFlops_counts_iff {s : BenchShape} (h : s.Positive) :
    (∀ causal, s.attentionFlops causal =
        4 * s.batch * s.headsQ * s.headDim * (s.visiblePairs causal).card ↔
      (causal = true → s.batch * s.headsQ = 1)) ∧
    (s.attentionFlops true ≤ s.attentionFlops false ↔
      s.batch * s.headsQ * (s.visiblePairs true).card ≤ s.seqQ * s.seqKv) := by
  have hbatch := h.batch
  have hheads := h.headsQ
  have hdim := h.headDim
  have hunit : 0 < 4 * s.batch * s.headsQ * s.headDim := by positivity
  refine ⟨fun causal => ?_, ?_⟩
  · have hpairs : (0 : ℤ) < (s.visiblePairs causal).card := Int.natCast_pos.2 (visiblePairs_pos h causal)
    rw [attentionFlops_eq h, mul_eq_left₀ (mul_pos hunit hpairs).ne']
    cases causal <;> simp
  · rw [attentionFlops_eq h, attentionFlops_eq h, if_pos rfl, if_neg Bool.false_ne_true, mul_one,
      mul_assoc, mul_le_mul_iff_right₀ hunit, card_visiblePairs_false h, mul_comm (Nat.cast _)]

/-- Two heads of two queries and two keys: 3 pairs are seen. -/
def twoHeads : BenchShape :=
  { batch := 1, headsQ := 2, headsKv := 1, seqQ := 2, seqKv := 2, headDim := 1 }

/-- The causal count is 48 for 3 pairs of 8 operations each, and 32 without the mask. -/
theorem not_attentionFlops_counts_twoHeads :
    twoHeads.attentionFlops true ≠
        4 * twoHeads.batch * twoHeads.headsQ * twoHeads.headDim * (twoHeads.visiblePairs true).card ∧
      ¬ twoHeads.attentionFlops true ≤ twoHeads.attentionFlops false := by
  decide

theorem attentionFlops_counts_oneHead :
    ({ batch := 1, headsQ := 1, headsKv := 1, seqQ := 3, seqKv := 2, headDim := 1 } :
      BenchShape).attentionFlops true = 12 := by
  have hpos : Positive { batch := 1, headsQ := 1, headsKv := 1, seqQ := 3, seqKv := 2, headDim := 1 } := by
    constructor <;> decide
  rw [((attentionFlops_counts_iff hpos).1 true).2 fun _ => rfl]
  decide

end BenchShape

end SciAttention

import SciAttention.Attention.Isolation
import SciAttention.Dispatch.Chunks
import Mathlib.Tactic.IntervalCases

/-!
# Decoding from the cache

A causal pass over a prompt gives each token attention over the tokens up to it. Decoding gives the last token
attention over the rows that its sequence has in the cache. When those rows are the keys and values of the
prompt up to a token, and the query is that token's, the two answers are the same: whatever the cache went
through on the way, and whichever backend, layout and batch the pass has.
-/

namespace SciAttention

open Flt Softmax PagedKVCache

section Incremental

variable {𝕜 : Type} [Field 𝕜] [LinearOrder 𝕜] {num : Numerics 𝕜}

/-- Sequence `s` of a paged request asks row `(b, i)` of a dense one: it holds the keys and values that the
row sees, in the order of their positions, and the query is the row's. -/
structure DecodesRow (A : PagedAnswer num) (s : ℕ) (B : DenseAnswer num) (b i : ℕ) : Prop where
  heads_eq : A.q.dim 1 = B.shape.numHeads
  kvHeads_eq : A.start.cfg.numKvHeads = B.shape.numKvHeads
  headDim_eq : A.start.cfg.headDim = B.shape.headDim
  scale_eq : A.cfg.scale = B.cfg.scale
  -- the row sees exactly the first positions
  length_eq : A.lens s = if B.cfg.causal then i + 1 + (B.shape.seqKv - B.shape.seqQ) else B.shape.seqKv
  query_eq : ∀ h < B.shape.numHeads, ∀ d < B.shape.headDim, A.queryAt s h d = B.problem.q b h i d
  key_eq : ∀ x < A.lens s, ∀ g < B.shape.numKvHeads, ∀ d < B.shape.headDim,
    rowElem num A.start.cfg (A.historyRows (A.history s) true x) g d = B.problem.k b g x d
  value_eq : ∀ x < A.lens s, ∀ g < B.shape.numKvHeads, ∀ d < B.shape.headDim,
    rowElem num A.start.cfg (A.historyRows (A.history s) false x) g d = B.problem.v b g x d

/-- The rows of a sequence whose tokens were appended to the layer piece by piece. -/
theorem PagedAnswer.historyRows_of_pieces {A : PagedAnswer num} {s : ℕ} {pieces : List (Tensor × Tensor)}
    (h : sinceReset (A.history s) = pieces.map fun piece => .append A.layer piece.1 piece.2) {isKey : Bool}
    {x : ℕ} (hx : x < (pieceRows isKey pieces).length) :
    A.historyRows (A.history s) isKey x = (pieceRows isKey pieces).getD x [] := by
  rw [historyRows, ← replay_sinceReset, h, (replay_pieces A.layer isKey pieces).2 x hx, Option.getD_some]

namespace DecodesRow

variable {A : PagedAnswer num} {B : DenseAnswer num} {s b i : ℕ}

/-- The keys that the row sees are the positions below the sequence's length. -/
theorem visible_eq (h : DecodesRow A s B b i) (hi : i < B.shape.seqQ) :
    B.problem.visible i = Finset.range (A.lens s) := by
  have hlen := h.length_eq
  ext j
  rw [B.mem_visible, Finset.mem_range, hlen]
  split_ifs with hcausal
  · have hle : B.shape.seqQ ≤ B.shape.seqKv := (validate_isOk B.valid).2 hcausal
    simp only [hcausal, forall_const]
    omega
  · simp only [hcausal, Bool.false_eq_true, false_implies, and_true]

/-- Attention over the rows of the cache is the row's attention. -/
theorem attention_eq (h : DecodesRow A s B b i) {head d : ℕ} (hrow : B.HasRow b head i)
    (hd : d < B.shape.headDim) :
    attentionOverRows num A.start.cfg A.cfg A.q A.qData (A.historyRows (A.history s)) (A.lens s) s head d =
      B.problem.attention num.E b head i d := by
  have hgroup : A.q.dim 1 / A.start.cfg.numKvHeads = B.problem.group := by
    rw [h.heads_eq, h.kvHeads_eq]
    rfl
  have hscale : effectiveScale num A.cfg (⟨A.q.dim 0, 1, A.lens s, A.q.dim 1, A.start.cfg.numKvHeads,
      A.start.cfg.headDim⟩ : AttentionShape) = B.problem.scale :=
    effectiveScale_congr h.scale_eq h.headDim_eq
  have hg := hrow.kvHead_lt
  unfold attentionOverRows decodeAttention
  dsimp only
  rw [hscale, hgroup, AttnProblem.attention, h.visible_eq hrow.seq]
  refine average_congr num.E (fun x hx => congrArg WithBot.some ?_) fun x hx => ?_
  · rw [AttnProblem.logit, AttnProblem.dot, mul_comm, h.headDim_eq]
    refine congrArg (B.problem.scale * ·) (Finset.sum_congr rfl fun e he => ?_)
    have he : e < B.shape.headDim := Finset.mem_range.mp he
    exact congrArg₂ (· * ·) (h.query_eq head hrow.head e he)
      (h.key_eq x (Finset.mem_range.mp hx) _ hg e he)
  · exact h.value_eq x (Finset.mem_range.mp hx) _ hg d hd

end DecodesRow

variable [IsStrictOrderedRing 𝕜]

end Incremental

/-! ## Two tokens -/

end SciAttention

import SciAttention.Dispatch.Layouts

/-!
# Rows of dense requests

`AttnProblem.SameRow` says when a row of one problem asks what a row of another asks: the same query over the
same visible keys and values. A dense request that was answered, whatever its backend, its layout and its
device, is a `DenseAnswer`; its rows are those of its problem, so requests that share a row answer it alike.
-/

namespace SciAttention

open Flt Softmax Results

/-! ## Equal rows -/

namespace AttnProblem

variable {𝕜 : Type*}

/-- Row `(b', h', i')` of `P'` asks what row `(b, h, i)` of `P` asks. -/
structure SameRow (P P' : AttnProblem 𝕜) (b h i b' h' i' : ℕ) : Prop where
  visible_eq : P'.visible i' = P.visible i
  headDim_eq : P'.headDim = P.headDim
  scale_eq : P'.scale = P.scale
  q_eq : ∀ d < P.headDim, P'.q b' h' i' d = P.q b h i d
  k_eq : ∀ j ∈ P.visible i, ∀ d < P.headDim, P'.k b' (h' / P'.group) j d = P.k b (h / P.group) j d
  v_eq : ∀ j ∈ P.visible i, ∀ d < P.headDim, P'.v b' (h' / P'.group) j d = P.v b (h / P.group) j d

namespace SameRow

variable [Field 𝕜] {P P' : AttnProblem 𝕜} {b h i b' h' i' : ℕ}

theorem logit_eq (hrow : SameRow P P' b h i b' h' i') {j : ℕ} (hj : j ∈ P.visible i) :
    P'.logit b' h' i' j = P.logit b h i j := by
  rw [logit, logit, dot, dot, hrow.scale_eq, hrow.headDim_eq]
  refine congrArg (P.scale * ·) (Finset.sum_congr rfl fun d hd => ?_)
  rw [hrow.q_eq d (Finset.mem_range.mp hd), hrow.k_eq j hj d (Finset.mem_range.mp hd)]

variable [LinearOrder 𝕜] {E : ExactExp 𝕜} {L : 𝕜 → 𝕜}

theorem attention_eq (hrow : SameRow P P' b h i b' h' i') {d : ℕ} (hd : d < P.headDim) :
    P'.attention E b' h' i' d = P.attention E b h i d := by
  rw [attention, attention, hrow.visible_eq]
  exact average_congr E (fun j hj => by rw [hrow.logit_eq hj]) fun j hj => hrow.v_eq j hj d hd

theorem lse_eq (hrow : SameRow P P' b h i b' h' i') : P'.lse E L b' h' i' = P.lse E L b h i := by
  rw [lse, lse, hrow.visible_eq]
  exact logSumExp_congr E L fun j hj => by rw [hrow.logit_eq hj]

end SameRow

end AttnProblem

/-! ## Answered requests -/

section Answers

variable {𝕜 : Type} [Field 𝕜] [LinearOrder 𝕜]

/-- The scale of a request depends on its configuration's and on the head dimension. -/
theorem effectiveScale_congr {num : Numerics 𝕜} {cfg cfg' : AttentionConfig 𝕜}
    {shape shape' : AttentionShape} (hscale : cfg'.scale = cfg.scale)
    (hdim : shape'.headDim = shape.headDim) :
    effectiveScale num cfg' shape' = effectiveScale num cfg shape := by
  simp only [effectiveScale, hscale, hdim]

/-- A dense request that was answered. -/
structure DenseAnswer (num : Numerics 𝕜) where
  dev : Device
  env : ForwardEnv 𝕜 dev
  q : Tensor
  k : Tensor
  v : Tensor
  cfg : AttentionConfig 𝕜
  shape : AttentionShape
  backend : BackendKind
  result : AttentionResult 𝕜
  dense : backend ∈ denseBackends
  inferred : inferShape q k v cfg.layout = .ok shape
  valid : (validate num cfg shape).isOk
  answered : forward num env q k v cfg backend = .ok result

namespace DenseAnswer

variable {num : Numerics 𝕜}

/-- The problem of the request. -/
def problem (A : DenseAnswer num) : AttnProblem 𝕜 := requestProblem num A.q A.k A.v A.cfg A.shape

/-- An output element. -/
def out (A : DenseAnswer num) (b h i d : ℕ) : Flt 𝕜 :=
  A.result.out (A.shape.rowIndex b h i * A.shape.headDim + d)

/-- The rows of a request; the softmax of the naive backend stops at `2 ^ 24`. -/
structure HasRow (A : DenseAnswer num) (b h i : ℕ) : Prop where
  batch : b < A.shape.batch
  head : h < A.shape.numHeads
  seq : i < A.shape.seqQ
  naive : A.backend = .naive → A.shape.rowIndex b h i < 2 ^ 24

theorem validShape (A : DenseAnswer num) : ValidShape A.shape := (validate_isOk A.valid).1

/-- The query heads of a group share a head of keys and values. -/
theorem HasRow.kvHead_lt {A : DenseAnswer num} {b h i : ℕ} (hrow : A.HasRow b h i) :
    h / A.problem.group < A.shape.numKvHeads := A.validShape.kvHead_lt hrow.head

/-- The keys that a row of a request sees. -/
theorem mem_visible (A : DenseAnswer num) {i j : ℕ} : j ∈ A.problem.visible i ↔
    j < A.shape.seqKv ∧ (A.cfg.causal = true → j + A.shape.seqQ ≤ i + A.shape.seqKv) := by
  rw [AttnProblem.mem_visible]
  refine and_congr_right fun _ => ?_
  refine forall_congr' fun hcausal => ?_
  have hc : A.cfg.causal = true := hcausal
  change (j : ℤ) ≤ i + diagonalOf A.cfg A.shape ↔ _
  rw [diagonalOf, if_pos hc]
  omega

variable [IsStrictOrderedRing 𝕜]

/-- The backends answer their rows. -/
theorem answers (A : DenseAnswer num) {b h i : ℕ} (hrow : A.HasRow b h i) :
    OutAnswers num A.problem A.shape A.result.out b h i ∧
      (A.cfg.returnLse = true → A.backend ≠ .decode →
        LseAnswers num A.problem A.shape A.result.lse b h i) := by
  obtain ⟨hb, hh, hi, hnaive⟩ := hrow
  have hforward := A.answered
  have hdense := A.dense
  cases hkind : A.backend with
  | auto => exact absurd (hkind ▸ hdense) (by decide)
  | naive =>
    rw [hkind] at hforward
    obtain ⟨hout, hlse⟩ := naiveForward_answers A.inferred A.valid hb hh hi hforward (hnaive hkind)
    exact ⟨hout, fun hret _ => hlse hret⟩
  | tiled =>
    rw [hkind] at hforward
    obtain ⟨hout, hlse⟩ := tiledForward_answers A.inferred A.valid hb hh hi hforward
    exact ⟨hout, fun hret _ => hlse hret⟩
  | flash =>
    rw [hkind] at hforward
    obtain ⟨hout, hlse⟩ := flashForward_answers A.inferred A.valid hb hh hi hforward
    exact ⟨hout, fun hret _ => hlse hret⟩
  | decode =>
    rw [hkind] at hforward
    obtain ⟨-, -, -, -, -, hseq, -⟩ := decodeForward_eq_ok A.inferred A.valid hforward
    obtain rfl : i = 0 := by omega
    exact ⟨(decodeForward_answers A.inferred A.valid hb hh hforward).1, fun _ hne => absurd rfl hne⟩
  | paged => exact absurd (hkind ▸ hdense) (by decide)

theorem out_eq (A : DenseAnswer num) {b h i d : ℕ} (hrow : A.HasRow b h i) (hd : d < A.shape.headDim) :
    A.out b h i d = fin (A.problem.attention num.E b h i d) := (A.answers hrow).1 d hd

/-- Requests that share a row answer it alike. -/
theorem out_eq_of_sameRow {A B : DenseAnswer num} {b h i b' h' i' d : ℕ} (hA : A.HasRow b h i)
    (hB : B.HasRow b' h' i') (hrow : AttnProblem.SameRow A.problem B.problem b h i b' h' i')
    (hd : d < A.shape.headDim) : B.out b' h' i' d = A.out b h i d := by
  have hdim : B.shape.headDim = A.shape.headDim := hrow.headDim_eq
  rw [A.out_eq hA hd, B.out_eq hB (hdim ▸ hd), hrow.attention_eq hd]

end DenseAnswer

end Answers

end SciAttention

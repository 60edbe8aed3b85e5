import SciAttention.Attention.Config

/-!
# Attention as a mathematical function

What every backend is meant to compute, after `docs/attention_math.md`: query `i` of a head sees the keys
`j < S_kv`, under the causal mask those with `j ≤ i + diagonal`; its output is the average of the values
it sees, weighted by the softmax of the scaled dot products, and zero when it sees nothing. Tensors are
functions of their logical coordinates here; `AttnProblem.ofMemory` reads them through strides.
-/

namespace SciAttention

open Softmax

/-- One attention problem: tensors by logical coordinates `(b, h, t, d)`, keys and values by kv head. -/
structure AttnProblem (𝕜 : Type*) where
  q : ℕ → ℕ → ℕ → ℕ → 𝕜
  k : ℕ → ℕ → ℕ → ℕ → 𝕜
  v : ℕ → ℕ → ℕ → ℕ → 𝕜
  group : ℕ
  seqKv : ℕ
  headDim : ℕ
  scale : 𝕜
  causal : Bool
  diagonal : ℤ

namespace AttnProblem

variable {𝕜 : Type*}

/-- Query `i` sees key `j`. -/
def Sees (P : AttnProblem 𝕜) (i j : ℕ) : Prop :=
  j < P.seqKv ∧ (P.causal = true → (j : ℤ) ≤ i + P.diagonal)

instance (P : AttnProblem 𝕜) (i j : ℕ) : Decidable (P.Sees i j) := inferInstanceAs (Decidable (_ ∧ _))

/-- The keys that query `i` sees. -/
def visible (P : AttnProblem 𝕜) (i : ℕ) : Finset ℕ := (Finset.range P.seqKv).filter (P.Sees i)

theorem mem_visible {P : AttnProblem 𝕜} {i j : ℕ} : j ∈ P.visible i ↔ P.Sees i j := by
  rw [visible, Finset.mem_filter, Finset.mem_range]
  exact ⟨fun h => h.2, fun h => ⟨h.1, h⟩⟩

/-- A query of a bottom-right aligned mask sees the first key. -/
theorem visible_nonempty {P : AttnProblem 𝕜} (hkv : 0 < P.seqKv)
    (hdiag : P.causal = true → 0 ≤ P.diagonal) (i : ℕ) : (P.visible i).Nonempty := by
  refine ⟨0, mem_visible.mpr ⟨hkv, fun hc => ?_⟩⟩
  have := hdiag hc
  omega

section Scores

variable [Field 𝕜]

/-- The dot product of query `i` and key `j`. -/
def dot (P : AttnProblem 𝕜) (b h i j : ℕ) : 𝕜 :=
  ∑ d ∈ Finset.range P.headDim, P.q b h i d * P.k b (h / P.group) j d

/-- The scaled dot product. -/
def logit (P : AttnProblem 𝕜) (b h i j : ℕ) : 𝕜 := P.scale * P.dot b h i j

/-- The score of key `j`; a key that is not visible has none. -/
def score (P : AttnProblem 𝕜) (b h i j : ℕ) : WithBot 𝕜 :=
  if P.Sees i j then (P.logit b h i j : WithBot 𝕜) else ⊥

variable {P : AttnProblem 𝕜}

theorem score_of_visible {b h i j : ℕ} (hj : j ∈ P.visible i) :
    P.score b h i j = (P.logit b h i j : WithBot 𝕜) := if_pos (mem_visible.mp hj)

theorem score_of_not_visible {b h i j : ℕ} (hj : j ∉ P.visible i) : P.score b h i j = ⊥ :=
  if_neg fun hsees => hj (mem_visible.mpr hsees)

/-- A row of scores without a number in it sees no key. -/
theorem visible_eq_empty {b h i : ℕ} (hmasked : ∀ j < P.seqKv, P.score b h i j = ⊥) :
    P.visible i = ∅ := by
  refine Finset.eq_empty_of_forall_notMem fun j hj => ?_
  have hscore := hmasked j (mem_visible.mp hj).1
  rw [score_of_visible hj] at hscore
  cases hscore

end Scores

variable [Field 𝕜] [LinearOrder 𝕜]

/-- The output: the softmax-weighted average of the visible values. -/
def attention (E : ExactExp 𝕜) (P : AttnProblem 𝕜) (b h i d : ℕ) : 𝕜 :=
  average E (fun j => (P.logit b h i j : WithBot 𝕜)) (fun j => P.v b (h / P.group) j d) (P.visible i)

/-- The log-sum-exp of the visible logits; `⊥` when nothing is visible. -/
def lse (E : ExactExp 𝕜) (L : 𝕜 → 𝕜) (P : AttnProblem 𝕜) (b h i : ℕ) : WithBot 𝕜 :=
  logSumExp E L (fun j => (P.logit b h i j : WithBot 𝕜)) (P.visible i)

variable {E : ExactExp 𝕜} {L : 𝕜 → 𝕜} {P : AttnProblem 𝕜}

/-- Any set of positions that holds the visible keys gives the output. -/
theorem average_score {b h i d : ℕ} {J : Finset ℕ} (hJ : P.visible i ⊆ J) :
    average E (P.score b h i) (fun j => P.v b (h / P.group) j d) J = P.attention E b h i d := by
  rw [← average_subset E _ _ hJ fun j _ hj => score_of_not_visible hj, attention]
  exact average_congr E (fun j hj => score_of_visible hj) fun _ _ => rfl

/-- Any set of positions that holds the visible keys gives the log-sum-exp. -/
theorem logSumExp_score {b h i : ℕ} {J : Finset ℕ} (hJ : P.visible i ⊆ J) :
    logSumExp E L (P.score b h i) J = P.lse E L b h i := by
  rw [← logSumExp_subset E L _ hJ fun j _ hj => score_of_not_visible hj, lse]
  exact logSumExp_congr E L fun j hj => score_of_visible hj

/-- A query that sees nothing gets zero. -/
theorem attention_of_visible_eq_empty {b h i d : ℕ} (hnone : P.visible i = ∅) :
    P.attention E b h i d = 0 := by
  simp [attention, average, hnone]

/-- A query that sees nothing has no log-sum-exp. -/
theorem lse_of_visible_eq_empty {b h i : ℕ} (hnone : P.visible i = ∅) : P.lse E L b h i = ⊥ := by
  rw [lse, logSumExp, hnone, Finset.sup_empty]
  rfl

/-! ## Problems that agree -/

/-- Two problems with the same scale and mask whose tensors agree on the coordinates of a shape. -/
structure Agree (shape : AttentionShape) (P P' : AttnProblem 𝕜) : Prop where
  group_eq : P'.group = P.group
  seqKv_eq : P'.seqKv = P.seqKv
  headDim_eq : P'.headDim = P.headDim
  scale_eq : P'.scale = P.scale
  causal_eq : P'.causal = P.causal
  diagonal_eq : P'.diagonal = P.diagonal
  q_eq : ∀ b < shape.batch, ∀ h < shape.numHeads, ∀ i < shape.seqQ, ∀ d < P.headDim,
    P'.q b h i d = P.q b h i d
  k_eq : ∀ b < shape.batch, ∀ h < shape.numKvHeads, ∀ j < P.seqKv, ∀ d < P.headDim,
    P'.k b h j d = P.k b h j d
  v_eq : ∀ b < shape.batch, ∀ h < shape.numKvHeads, ∀ j < P.seqKv, ∀ d < P.headDim,
    P'.v b h j d = P.v b h j d

namespace Agree

variable {shape : AttentionShape} {P' : AttnProblem 𝕜} {b h i : ℕ}

omit [Field 𝕜] [LinearOrder 𝕜] in
theorem visible_eq (hA : Agree shape P P') (i : ℕ) : P'.visible i = P.visible i := by
  ext j
  rw [mem_visible, mem_visible, Sees, Sees, hA.seqKv_eq, hA.causal_eq, hA.diagonal_eq]

variable (hA : Agree shape P P') (hb : b < shape.batch) (hh : h < shape.numHeads)
  (hg : h / P.group < shape.numKvHeads) (hi : i < shape.seqQ)

include hA hb hh hg hi

omit [LinearOrder 𝕜] in
theorem logit_eq {j : ℕ} (hj : j ∈ P.visible i) : P'.logit b h i j = P.logit b h i j := by
  rw [logit, logit, hA.scale_eq, dot, dot, hA.headDim_eq, hA.group_eq]
  refine congrArg (P.scale * ·) (Finset.sum_congr rfl fun d hd => ?_)
  rw [hA.q_eq b hb h hh i hi d (Finset.mem_range.mp hd),
    hA.k_eq b hb _ hg j (mem_visible.mp hj).1 d (Finset.mem_range.mp hd)]

omit [LinearOrder 𝕜] in
theorem score_eq (j : ℕ) : P'.score b h i j = P.score b h i j := by
  by_cases hj : j ∈ P.visible i
  · rw [score_of_visible hj, score_of_visible (hA.visible_eq i ▸ hj), hA.logit_eq hb hh hg hi hj]
  · rw [score_of_not_visible hj, score_of_not_visible (hA.visible_eq i ▸ hj)]

theorem attention_eq {d : ℕ} (hd : d < P.headDim) :
    P'.attention E b h i d = P.attention E b h i d := by
  rw [attention, attention, hA.visible_eq, hA.group_eq]
  refine average_congr E (fun j hj => ?_) fun j hj => ?_
  · rw [hA.logit_eq hb hh hg hi hj]
  · exact hA.v_eq b hb _ hg j (mem_visible.mp hj).1 d hd

theorem lse_eq : P'.lse E L b h i = P.lse E L b h i := by
  rw [lse, lse, hA.visible_eq]
  exact logSumExp_congr E L fun j hj => by rw [hA.logit_eq hb hh hg hi hj]

end Agree

/-! ## Problems in memory -/

/-- The problem whose tensors lie in memory with the given strides. -/
def ofMemory (num : Numerics 𝕜) (elem : DType) (q k v : Bytes) (qs ks vs : Strides)
    (shape : AttentionShape) (scale : 𝕜) (causal : Bool) (diagonal : ℤ) : AttnProblem 𝕜 where
  q b h t d := num.load elem q (b * qs.sB + h * qs.sH + t * qs.sS + d)
  k b h t d := num.load elem k (b * ks.sB + h * ks.sH + t * ks.sS + d)
  v b h t d := num.load elem v (b * vs.sB + h * vs.sH + t * vs.sS + d)
  group := shape.numHeads / shape.numKvHeads
  seqKv := shape.seqKv
  headDim := shape.headDim
  scale := scale
  causal := causal
  diagonal := diagonal

end AttnProblem

end SciAttention

import SciAttention.Attention.PagedEntry
import SciAttention.KvCache.MultiLayer

/-!
# Paged attention over the rows of a sequence

Explicit lengths need not be the stored ones: below them, a paged request reads a prefix of each sequence.
Its answer is then attention over the rows of that prefix, whatever describes them: the tensors that were
appended (`HoldsRows.rowAt_slotOf`) or an abstract store (`Refines.rowAt_slotOf`).
-/

namespace SciAttention

open Flt Softmax PagedKVCache

/-! ## Elements of rows -/

section Rows

variable {𝕜 : Type*} [Field 𝕜] [LinearOrder 𝕜] (num : Numerics 𝕜)

/-- Element `d` of kv head `g` in a row of a cache. -/
def rowElem (kv : ValidConfig) (row : List UInt8) (g d : ℕ) : 𝕜 :=
  num.toFloat kv.dtype ((row.drop ((g * kv.headDim + d) * kv.elemBytes)).take kv.elemBytes)

/-- Decode attention of row `(i, h)` of a query over the first `n` of some key and value rows. -/
def attentionOverRows (kv : ValidConfig) (cfg : AttentionConfig 𝕜) (q : Tensor) (qData : Bytes)
    (rows : Bool → ℕ → List UInt8) (n i h d : ℕ) : 𝕜 :=
  let g := h / (q.dim 1 / kv.numKvHeads)
  let shape : AttentionShape :=
    { batch := q.dim 0, seqQ := 1, seqKv := n, numHeads := q.dim 1, numKvHeads := kv.numKvHeads
      headDim := kv.headDim }
  decodeAttention num (effectiveScale num cfg shape) kv.headDim (queryElem num q qData i h)
    (fun x e => rowElem num kv (rows true x) g e) (fun x e => rowElem num kv (rows false x) g e) n d

variable {num}

/-- Decode attention looks at the first `n` rows only. -/
theorem decodeAttention_congr {scale : 𝕜} {headDim n d : ℕ} {query query' : ℕ → 𝕜}
    {key key' value value' : ℕ → ℕ → 𝕜} (hquery : ∀ e < headDim, query e = query' e)
    (hkey : ∀ x < n, ∀ e < headDim, key x e = key' x e) (hvalue : ∀ x < n, value x d = value' x d) :
    decodeAttention num scale headDim query key value n d =
      decodeAttention num scale headDim query' key' value' n d := by
  refine average_congr num.E (fun x hx => congrArg WithBot.some ?_) fun x hx => ?_
  · congr 1
    refine Finset.sum_congr rfl fun e he => ?_
    rw [hquery e (Finset.mem_range.mp he), hkey x (Finset.mem_range.mp hx) e (Finset.mem_range.mp he)]
  · exact hvalue x (Finset.mem_range.mp hx)

/-- The row of a token is made of the elements of its tensor. -/
theorem rowElem_tokenRow {kv : ValidConfig} {t : Tensor} {data : Bytes} (hdata : t.data = some data)
    (hdtype : t.dtype = kv.dtype) {n : ℕ} (hdims : t.dims = [n, kv.numKvHeads, kv.headDim]) {g d : ℕ}
    (hg : g < kv.numKvHeads) (hd : d < kv.headDim) (i : ℕ) :
    rowElem num kv (t.tokenRow i) g d =
      num.load kv.dtype data ((i * kv.numKvHeads + g) * kv.headDim + d) := by
  have hindex : g * kv.headDim + d < kv.numKvHeads * kv.headDim := Strided.flat_lt hg hd
  have hrow : t.tokenRow i = sourceRow kv.toDeviceShape kv.elemBytes data i := by
    refine (sourceRow_eq_tokenRow hdata hdtype ?_ i).symm
    simp [Tensor.dim, hdims]
  have hroom : (g * kv.headDim + d) * kv.elemBytes + kv.elemBytes ≤
      kv.numKvHeads * (kv.headDim * kv.elemBytes) := by
    rw [← Nat.succ_mul, ← Nat.mul_assoc]
    exact Nat.mul_le_mul_right _ hindex
  rw [rowElem, Numerics.load, hrow]
  refine congrArg _ (List.ext_getElem ?_ fun b hb hb' => ?_)
  · simp only [List.length_take, List.length_drop, sourceRow, List.length_map, List.length_range,
      slotRowBytes, ValidConfig.toDeviceShape, ValidConfig.elemBytes] at hroom ⊢
    omega
  · simp only [List.getElem_take, List.getElem_drop, sourceRow, List.getElem_map, List.getElem_range,
      slotRowBytes, ValidConfig.toDeviceShape, ValidConfig.elemBytes]
    congr 1
    ring

end Rows

/-! ## Prefixes -/

namespace PagedKVCache

variable {c : PagedKVCache} {table : HostTable}

/-- The cache with shorter sequences. -/
def truncate (c : PagedKVCache) (lens : ℕ → ℕ) : PagedKVCache := { c with seqLengths := lens }

/-- A synchronised cache stays so when its sequences are cut. -/
theorem Synced.truncate (h : Synced c table) {lens : ℕ → ℕ} (hle : ∀ s, lens s ≤ c.seqLengths s) :
    Synced (c.truncate lens) table := by
  refine ⟨{ h.inv with length_le := fun s => ?_ }, h.device_eq, fun s hs j hj => ?_⟩
  · exact (hle s).trans (h.inv.length_le s)
  · exact h.current s hs j (hj.trans_le (hle s))

/-- The stored row of each position below a length. -/
theorem HoldsRows.rowAt_slotOf {s layer : ℕ} {isKey : Bool} {rows : List (List UInt8)}
    (h : HoldsRows c s isKey layer rows) {x : ℕ} (hx : x < rows.length) :
    c.rowAt isKey layer (c.slotOf s x) = rows.getD x [] := by
  obtain ⟨b, hb, hrow⟩ := h.2 x hx
  rw [slotOf, List.getD_eq_getElem?_getD, hb, Option.getD_some, List.getD_eq_getElem?_getD, hrow,
    Option.getD_some]

/-- The stored row of each position below a length is that of the abstract store. -/
theorem Refines.rowAt_slotOf {a : Store} (href : Refines c a) (h : Inv c) {isKey : Bool} {layer s x : ℕ}
    (hlayer : layer < c.cfg.numLayers) (hx : x < c.seqLengths s) :
    c.rowAt isKey layer (c.slotOf s x) = (a.row s (isKey, layer) x).getD c.blankRow := by
  have hbs := c.cfg.blockSize_pos
  have hblock : x / c.cfg.blockSize < (c.seqBlocks s).length := by
    rw [Nat.div_lt_iff_lt_mul hbs]
    exact hx.trans_le (h.length_le s)
  have hb := List.getElem?_eq_getElem hblock
  have hrow := href.live isKey layer s _ _ _ hlayer hb (Nat.mod_lt x hbs)
  rw [Nat.div_add_mod'] at hrow
  rw [slotOf, List.getD_eq_getElem _ _ hblock, hrow]

end PagedKVCache

section Prefix

variable {𝕜 : Type*} [Field 𝕜] [LinearOrder 𝕜] {num : Numerics 𝕜} {c : PagedKVCache}
  {table : HostTable}

/-- Attention over a prefix of a sequence, by the rows it holds. -/
theorem attentionOf_truncate (c : PagedKVCache) (lens : ℕ → ℕ) {layer : ℕ}
    (cfg : AttentionConfig 𝕜)
    {q : Tensor} (qData : Bytes) {rows : Bool → ℕ → List UInt8} {i h d : ℕ}
    (hrows : ∀ isKey, ∀ x < lens i, c.rowAt isKey layer (c.slotOf i x) = rows isKey x) :
    (c.truncate lens).attentionOf num layer cfg q qData i h d =
      attentionOverRows num c.cfg cfg q qData rows (lens i) i h d := by
  refine decodeAttention_congr (fun _ _ => rfl) (fun x hx e _ => ?_) fun x hx => ?_
  · exact congrArg (fun row => rowElem num c.cfg row _ e) (hrows true x hx)
  · exact congrArg (fun row => rowElem num c.cfg row _ d) (hrows false x hx)

variable [IsStrictOrderedRing 𝕜]

/-- Explicit lengths that are not above the stored ones attend to the first rows of every sequence. -/
theorem PagedKVCache.Synced.prefix_answers (h : Synced c table) {q : Tensor} (hfits : FitsCache q c)
    {layer : ℕ} (hlayer : layer < c.cfg.numLayers) {lens : ℕ → ℕ}
    (hle : ∀ s, lens s ≤ c.seqLengths s)
    {given : ℕ → ℤ} (hgiven : ∀ i < q.dim 0, given i = lens i) (numSeqs : ℤ)
    (env : AttentionEnv 𝕜) (cfg : AttentionConfig 𝕜) :
    Answers num env q (c.truncate lens) layer cfg c.cfg.blockSize
      (pagedAttention num env q c (explicitParams c given numSeqs layer) cfg) := by
  have hfits' : FitsCache q (c.truncate lens) := { hfits with }
  refine (h.truncate hle).explicit_answers num env hfits' hlayer (fun i hi => ?_) numSeqs cfg
  rw [hgiven i hi, hfits'.seqLength_eq hi]
  rfl

/-- The output element that a request writes for row `(i, h)`. -/
def outElem (q : Tensor) (r : AttentionResult 𝕜) (i h d : ℕ) : Flt 𝕜 :=
  r.out ((i * q.dim 1 + h) * q.dim 3 + d)

/-- The outputs of such a request, by the rows that its sequences hold. -/
theorem PagedKVCache.Synced.prefix_rows (h : Synced c table) {q : Tensor} (hfits : FitsCache q c)
    {layer : ℕ} (hlayer : layer < c.cfg.numLayers) {lens : ℕ → ℕ}
    (hle : ∀ s, lens s ≤ c.seqLengths s)
    {given : ℕ → ℤ} (hgiven : ∀ i < q.dim 0, given i = lens i) (numSeqs : ℤ)
    {env : AttentionEnv 𝕜}
    {cfg : AttentionConfig 𝕜} {r : AttentionResult 𝕜}
    (hr : pagedAttention num env q c (explicitParams c given numSeqs layer) cfg = .ok r) :
    ∃ qData, q.data = some qData ∧ ∀ i < q.dim 0, ∀ rows : Bool → ℕ → List UInt8,
      (∀ isKey, ∀ x < lens i, c.rowAt isKey layer (c.slotOf i x) = rows isKey x) →
      ∀ h < q.dim 1, ∀ d < q.dim 3,
        outElem q r i h d = fin (attentionOverRows num c.cfg cfg q qData rows (lens i) i h d) := by
  obtain ⟨-, qData, hq, hout⟩ :=
    (h.prefix_answers hfits hlayer hle hgiven numSeqs env cfg).1 r hr
  refine ⟨qData, hq, fun i hi rows hrows head hhead d hd => ?_⟩
  rw [outElem, (hout i hi head hhead d hd).1, attentionOf_truncate c lens cfg qData hrows]

end Prefix

end SciAttention

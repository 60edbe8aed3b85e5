import SciAttention.KvCache.MultiLayer

/-!
# The history of one sequence

Of a run, what matters to sequence `s` is the list of successful calls on it. `replay` runs such a list on
a store with a single sequence, and `view_spec` says that the abstract store of any run shows sequence `s`
what its own history gives: neither the other sequences nor failed calls leave a trace.
-/

namespace SeqStore

variable {ι κ ρ : Type*} [DecidableEq ι]

/-- What a store shows of one sequence, as a store with this one. -/
def view (s : ι) (a : SeqStore ι κ ρ) : SeqStore Unit κ ρ := ⟨fun _ => a.length s, fun _ => a.row s⟩

theorem view_append_self (a : SeqStore ι κ ρ) (s : ι) (n : ℕ) (source : κ → Option (ℕ → ρ)) :
    (a.append s n source).view s = (a.view s).append () n source := by
  simp only [view, append, Function.update_self, true_and, SeqStore.mk.injEq]
  exact ⟨funext fun _ => rfl, trivial⟩

theorem view_append_of_ne {a : SeqStore ι κ ρ} {s t : ι} (h : s ≠ t) (n : ℕ)
    (source : κ → Option (ℕ → ρ)) : (a.append t n source).view s = a.view s := by
  simp only [view, append, Function.update_of_ne h, h, false_and, if_false]

theorem view_reset_self (a : SeqStore ι κ ρ) (s : ι) : (a.reset s).view s = (a.view s).reset () := by
  simp only [view, reset, Function.update_self, if_true, SeqStore.mk.injEq]
  exact ⟨funext fun _ => rfl, trivial⟩

theorem view_reset_of_ne {a : SeqStore ι κ ρ} {s t : ι} (h : s ≠ t) :
    (a.reset t).view s = a.view s := by
  simp only [view, reset, Function.update_of_ne h, h, if_false]

end SeqStore

namespace SciAttention

namespace PagedKVCache

/-- What a successful call did to its sequence. -/
inductive SeqOp where
  | append (layer : ℕ) (kNew vNew : Tensor)
  | reset

/-- What a call does to sequence `s` when it succeeds. -/
def seqOpOf (s : ℕ) : Call → Option SeqOp
  | .appendTokens seqId layer kNew vNew _ =>
    if seqId = s then some (.append layer.toNat kNew vNew) else none
  | .resetSeq seqId _ => if seqId = s then some .reset else none
  | .syncPageTable => none
  | .forceSyncPageTable => none

/-- The successful calls of a run on sequence `s`, in order. -/
def history (s : ℕ) : PagedKVCache → List Call → List SeqOp
  | _, [] => []
  | c, call :: calls =>
    (if (c.step call).2.isOk then (seqOpOf s call).toList else []) ++ history s (c.step call).1 calls

/-- A store with one sequence. -/
abbrev OneSeq := SeqStore Unit (Bool × ℕ) (List UInt8)

/-- An operation on the one sequence. -/
def SeqOp.apply (a : OneSeq) : SeqOp → OneSeq
  | .append layer kNew vNew => a.append () (kNew.dim 0) (appendSource layer kNew vNew)
  | .reset => a.reset ()

/-- The sequence that a history leaves. -/
def replay (ops : List SeqOp) : OneSeq := ops.foldl SeqOp.apply SeqStore.empty

/-- The operations since the last reset. -/
def sinceReset (ops : List SeqOp) : List SeqOp :=
  ops.foldl (fun since op => match op with
    | .append layer kNew vNew => since ++ [.append layer kNew vNew]
    | .reset => []) []

theorem apply_reset (a : OneSeq) : SeqOp.apply a .reset = SeqStore.empty := by
  simp only [SeqOp.apply, SeqStore.reset, SeqStore.empty, if_true, SeqStore.mk.injEq]
  exact ⟨funext fun _ => rfl, trivial⟩

/-- What a history leaves is what it leaves since its last reset. -/
theorem replay_sinceReset (ops : List SeqOp) : replay (sinceReset ops) = replay ops := by
  induction ops using List.reverseRecOn with
  | nil => rfl
  | append_singleton ops op ih =>
    cases op with
    | append layer kNew vNew =>
      simp only [replay, sinceReset, List.foldl_append, List.foldl_cons, List.foldl_nil] at ih ⊢
      rw [ih]
    | reset =>
      simp only [replay, sinceReset, List.foldl_append, List.foldl_cons, List.foldl_nil, apply_reset]

/-- The rows of some pieces of keys and values, one piece after the other. -/
def pieceRows (isKey : Bool) (pieces : List (Tensor × Tensor)) : List (List UInt8) :=
  pieces.flatMap fun piece =>
    (List.range (piece.1.dim 0)).map (if isKey then piece.1.tokenRow else piece.2.tokenRow)

/-- Appends of pieces to one layer store their rows in order. -/
theorem replay_pieces (layer : ℕ) (isKey : Bool) (pieces : List (Tensor × Tensor)) :
    (replay (pieces.map fun piece => .append layer piece.1 piece.2)).length () =
        (pieceRows isKey pieces).length ∧
      ∀ x < (pieceRows isKey pieces).length,
        (replay (pieces.map fun piece => .append layer piece.1 piece.2)).row () (isKey, layer) x =
          some ((pieceRows isKey pieces).getD x []) := by
  induction pieces using List.reverseRecOn with
  | nil => exact ⟨rfl, fun x hx => absurd hx (Nat.not_lt_zero x)⟩
  | append_singleton pieces piece ih =>
    obtain ⟨hlen, hrows⟩ := ih
    set before := replay (pieces.map fun piece => .append layer piece.1 piece.2) with hbefore
    have hreplay : replay ((pieces ++ [piece]).map fun piece => .append layer piece.1 piece.2) =
        before.append () (piece.1.dim 0) (appendSource layer piece.1 piece.2) := by
      rw [hbefore, replay, List.map_append, List.foldl_append]
      rfl
    have hsplit : pieceRows isKey (pieces ++ [piece]) = pieceRows isKey pieces ++
        (List.range (piece.1.dim 0)).map (if isKey then piece.1.tokenRow else piece.2.tokenRow) := by
      simp only [pieceRows, List.flatMap_append, List.flatMap_singleton]
    rw [hreplay, hsplit, List.length_append, List.length_map, List.length_range, ← hlen]
    refine ⟨by simp only [SeqStore.append, Function.update_self], fun x hx => ?_⟩
    by_cases hold : x < before.length ()
    · rw [SeqStore.append_row_old _ _ fun hc => absurd hc.1 (not_le.mpr hold), hrows x (hlen ▸ hold),
        List.getD_append _ _ _ _ (hlen ▸ hold)]
    · rw [SeqStore.append_row_new _ _ (not_lt.mp hold) hx, List.getD_append_right _ _ _ _ (by omega),
        ← hlen, List.getD_eq_getElem _ _ (by rw [List.length_map, List.length_range]; omega),
        List.getElem_map, List.getElem_range]
      simp only [appendSource, if_true, Option.map_some]

/-- A successful call is about a sequence of the cache. -/
theorem Inv.seqId_nonneg_of_isOk {c : PagedKVCache} (h : Inv c) {seqId : ℤ} :
    (∀ {layer kNew vNew env}, (c.appendTokens seqId layer kNew vNew env).2.isOk → 0 ≤ seqId) ∧
      ∀ {env}, (c.resetSeq seqId env).2.isOk → 0 ≤ seqId := by
  constructor
  · intro layer kNew vNew env hok
    obtain ⟨t, rfl, -⟩ := h.append_step_ok hok
    exact Int.natCast_nonneg t
  · intro env hok
    rcases c.resetSeq_cases seqId env with ⟨e, hbad, heq⟩ | ⟨t, rfl, -⟩
    · exact absurd (by simpa [heq] using hok) hbad
    · exact Int.natCast_nonneg t

/-- A call shows sequence `s` what it did to it. -/
theorem Inv.view_advance {c : PagedKVCache} (h : Inv c) (call : Call) (a : Store) (s : ℕ) :
    (advance a call (c.step call).2).view s =
      (if (c.step call).2.isOk then (seqOpOf s call).toList else []).foldl SeqOp.apply (a.view s) := by
  by_cases hok : (c.step call).2.isOk
  · rw [advance, if_pos hok, if_pos hok]
    cases call with
    | appendTokens seqId layer kNew vNew env =>
      have hnonneg : 0 ≤ seqId := h.seqId_nonneg_of_isOk.1 hok
      by_cases hs : seqId = s
      · subst hs
        simp only [specStep, seqOpOf, if_true, Int.toNat_natCast, Option.toList_some, List.foldl_cons,
          List.foldl_nil, SeqOp.apply]
        exact SeqStore.view_append_self a s _ _
      · simp only [specStep, seqOpOf, hs, if_false, Option.toList_none, List.foldl_nil]
        exact SeqStore.view_append_of_ne (by omega) _ _
    | resetSeq seqId env =>
      have hnonneg : 0 ≤ seqId := h.seqId_nonneg_of_isOk.2 hok
      by_cases hs : seqId = s
      · subst hs
        simp only [specStep, seqOpOf, if_true, Int.toNat_natCast, Option.toList_some, List.foldl_cons,
          List.foldl_nil, SeqOp.apply]
        exact SeqStore.view_reset_self a s
      · simp only [specStep, seqOpOf, hs, if_false, Option.toList_none, List.foldl_nil]
        exact SeqStore.view_reset_of_ne (by omega)
    | syncPageTable => rfl
    | forceSyncPageTable => rfl
  · rw [advance_of_not_isOk _ _ hok, if_neg hok]
    rfl

/-- The abstract store of a run shows sequence `s` what its history gives. -/
theorem Inv.view_spec {c : PagedKVCache} (h : Inv c) (calls : List Call) (a : Store) (s : ℕ) :
    (spec c calls a).view s = (history s c calls).foldl SeqOp.apply (a.view s) := by
  induction calls generalizing c a with
  | nil => rfl
  | cons call calls ih =>
    rw [spec, ih (h.step call), h.view_advance, history, List.foldl_append]

/-- From an empty store, the length and the rows of sequence `s` are those of its replayed history. -/
theorem Inv.spec_eq_replay {c : PagedKVCache} (h : Inv c) (calls : List Call) (s : ℕ) :
    (spec c calls SeqStore.empty).length s = (replay (history s c calls)).length () ∧
      (spec c calls SeqStore.empty).row s = (replay (history s c calls)).row () := by
  have hview := h.view_spec calls SeqStore.empty s
  exact ⟨congrFun (congrArg SeqStore.length hview) (), congrFun (congrArg SeqStore.row hview) ()⟩

/-- The V rows of an append have `elements` elements each. -/
def ValueRows (elements : ℕ) : Call → Prop
  | .appendTokens _ _ _ vNew _ => vNew.dim 1 * vNew.dim 2 = elements
  | _ => True

/-- Along a run of a pool whose slots fit `int32_t`, appends are sound when their V rows have the length of a
cache row. -/
theorem Inv.appendSound_run {c : PagedKVCache} (h : Inv c)
    (hsmall : c.cfg.numBlocks * c.cfg.blockSize ≤ 2 ^ 31) {calls : List Call}
    (hvalues : ∀ call ∈ calls, ValueRows (c.cfg.numKvHeads * c.cfg.headDim) call) :
    Along AppendSound c calls := by
  induction calls generalizing c with
  | nil => trivial
  | cons call calls ih =>
    have hcfg := h.step_cfg call
    have hfirst := hvalues call List.mem_cons_self
    refine ⟨?_, ih (h.step call) (hcfg ▸ hsmall) fun d hd => ?_⟩
    · cases call with
      | appendTokens seqId layer kNew vNew env => exact fun _ => ⟨hfirst, h.nextSlotsFit hsmall _ _⟩
      | resetSeq seqId env => trivial
      | syncPageTable => trivial
      | forceSyncPageTable => trivial
    · rw [hcfg]
      exact hvalues d (List.mem_cons_of_mem _ hd)

end PagedKVCache

end SciAttention

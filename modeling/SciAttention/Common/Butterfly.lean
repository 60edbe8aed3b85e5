import SciAttention.Common.Flt
import SciAttention.Common.Strided
import Mathlib.Data.List.Perm.Subperm

/-!
# Butterfly reductions

A warp reduces one value per lane by exchanging with lane `lane ^^^ offset`, offset after offset.
For a commutative and associative operation every lane ends with the combination of all lanes that
the offsets reach from it. `warp` is the exchange over 32 lanes, `quad` the one over groups of four.
-/

namespace Butterfly

variable {α β : Type*}

/-- One exchange: every lane combines its value with that of the lane at distance `offset`. -/
def exchange (op : α → α → α) (v : ℕ → α) (offset : ℕ) : ℕ → α :=
  fun lane => op (v lane) (v (lane ^^^ offset))

/-- The exchanges of a list of offsets, in order. -/
def reduce (op : α → α → α) (offsets : List ℕ) (v : ℕ → α) : ℕ → α :=
  offsets.foldl (exchange op) v

/-- The distances that a list of offsets reaches. -/
def span : List ℕ → List ℕ
  | [] => [0]
  | offset :: offsets => span offsets ++ (span offsets).map fun x => x ^^^ offset

/-- A map that respects the operation can be pulled out of the exchanges. -/
theorem reduce_comp {op : α → α → α} {op' : β → β → β} (g : α → β)
    (hg : ∀ a b, op' (g a) (g b) = g (op a b)) (offsets : List ℕ) (v : ℕ → α) (lane : ℕ) :
    reduce op' offsets (fun l => g (v l)) lane = g (reduce op offsets v lane) := by
  induction offsets generalizing v with
  | nil => rfl
  | cons offset offsets ih =>
    have hfirst : exchange op' (fun l => g (v l)) offset = fun l => g (exchange op v offset l) :=
      funext fun l => hg _ _
    simp only [reduce, List.foldl_cons, hfirst]
    exact ih (exchange op v offset)

section Fold

variable {op : α → α → α} [Std.Commutative op] [Std.Associative op] {e : α}

/-- Folding a list of pairwise combinations folds the two lists. -/
theorem foldr_map_op {ι : Type*} (he : ∀ a, op e a = a) (f g : ι → α) (l : List ι) :
    (l.map fun i => op (f i) (g i)).foldr op e =
      op ((l.map f).foldr op e) ((l.map g).foldr op e) := by
  induction l with
  | nil => exact (he e).symm
  | cons i l ih =>
    simp only [List.map_cons, List.foldr_cons, ih]
    ac_rfl

theorem foldr_append_op (he : ∀ a, op e a = a) (l l' : List α) :
    (l ++ l').foldr op e = op (l.foldr op e) (l'.foldr op e) := by
  induction l with
  | nil => exact (he _).symm
  | cons a l ih =>
    simp only [List.cons_append, List.foldr_cons, ih]
    ac_rfl

/-- After the exchanges a lane holds the combination of all lanes in its span. -/
theorem reduce_eq_foldr (he : ∀ a, op e a = a) (offsets : List ℕ) (v : ℕ → α) (lane : ℕ) :
    reduce op offsets v lane =
      ((span offsets).map fun x => v (lane ^^^ x)).foldr op e := by
  induction offsets generalizing v with
  | nil =>
    have he' : op (v lane) e = v lane := (Std.Commutative.comm (v lane) e).trans (he _)
    simpa [reduce, span] using he'.symm
  | cons offset offsets ih =>
    have hstep := ih (exchange op v offset)
    simp only [exchange, foldr_map_op he] at hstep
    simp only [reduce, List.foldl_cons] at hstep ⊢
    rw [hstep, span, List.map_append, foldr_append_op he, List.map_map]
    simp only [Function.comp_def, Nat.xor_assoc]

/-- The same over any list that enumerates the lane's span. -/
theorem reduce_of_perm (he : ∀ a, op e a = a) {offsets lanes : List ℕ} {lane : ℕ}
    (hperm : ((span offsets).map fun x => lane ^^^ x).Perm lanes) (v : ℕ → α) :
    reduce op offsets v lane = (lanes.map v).foldr op e := by
  rw [reduce_eq_foldr he, show (fun x => v (lane ^^^ x)) = v ∘ fun x => lane ^^^ x from rfl,
    ← List.map_map]
  exact (hperm.map v).foldr_op_eq

end Fold

/-! ## Warps and quads -/

/-- The offsets `16, 8, 4, 2, 1`. -/
def warp : List ℕ := [16, 8, 4, 2, 1]

/-- The offsets `1, 2`. -/
def quad : List ℕ := [1, 2]

/-- The distances below `2 ^ n` lead a lane through its own block of `2 ^ n` lanes. -/
theorem xor_range_perm (n lane : ℕ) : ((List.range (2 ^ n)).map fun x => lane ^^^ x).Perm
    ((List.range (2 ^ n)).map fun c => lane / 2 ^ n * 2 ^ n + c) := by
  have hinj : Function.Injective fun x => lane ^^^ x := fun x y hxy => by
    simpa [← Nat.xor_assoc] using congrArg (lane ^^^ ·) hxy
  have hsub : (List.range (2 ^ n)).map (fun x => lane ^^^ x) ⊆
      (List.range (2 ^ n)).map fun c => lane / 2 ^ n * 2 ^ n + c := by
    intro y hy
    obtain ⟨x, hx, rfl⟩ := List.mem_map.mp hy
    have hblock : (lane ^^^ x) / 2 ^ n = lane / 2 ^ n := by
      rw [Nat.xor_div_two_pow, Nat.div_eq_of_lt (List.mem_range.mp hx), Nat.xor_zero]
    exact List.mem_map.mpr ⟨(lane ^^^ x) % 2 ^ n,
      List.mem_range.mpr (Nat.mod_lt _ (Nat.two_pow_pos n)), hblock ▸ Nat.div_add_mod' _ _⟩
  -- an injective map into a list that is no longer misses none of it
  exact ((List.nodup_range.map hinj).subperm hsub).perm_of_length_le (by simp)

/-- The warp offsets reach every lane of the warp. -/
theorem span_warp_perm {lane : ℕ} (h : lane < 32) :
    ((span warp).map fun x => lane ^^^ x).Perm (List.range 32) := by
  have hspan : (span warp).Perm (List.range 32) := by decide
  simpa [Nat.div_eq_of_lt h] using (hspan.map _).trans (xor_range_perm 5 lane)

/-- The quad offsets reach the four lanes of a quad. -/
theorem span_quad_perm (lane : ℕ) :
    ((span quad).map fun x => lane ^^^ x).Perm ((List.range 4).map fun c => lane / 4 * 4 + c) := by
  have hspan : (span quad).Perm (List.range 4) := by decide
  exact (hspan.map _).trans (xor_range_perm 2 lane)

/-- The lanes of a warp reduce among themselves. -/
theorem reduce_congr {op : α → α → α} {offsets : List ℕ} (hoffsets : ∀ x ∈ offsets, x < 32)
    {v v' : ℕ → α} (h : ∀ lane < 32, v lane = v' lane) {lane : ℕ} (hlane : lane < 32) :
    reduce op offsets v lane = reduce op offsets v' lane := by
  induction offsets generalizing v v' with
  | nil => exact h lane hlane
  | cons x offsets ih =>
    refine ih (fun y hy => hoffsets y (List.mem_cons_of_mem _ hy)) fun l hl => ?_
    have hxor : l ^^^ x < 32 := Nat.xor_lt_two_pow (n := 5) hl (hoffsets x List.mem_cons_self)
    rw [exchange, exchange, h l hl, h _ hxor]

/-- Every lane of a warp ends with the sum over the warp. -/
theorem reduce_warp_add {𝕜 : Type*} [Field 𝕜] (f : ℕ → 𝕜) {lane : ℕ} (h : lane < 32) :
    reduce (· + ·) warp (fun l => Flt.fin (f l)) lane =
      Flt.fin (∑ l ∈ Finset.range 32, f l) := by
  rw [reduce_comp Flt.fin Flt.fin_add_fin, reduce_of_perm zero_add (span_warp_perm h)]
  rfl

/-- Every lane of a quad ends with the sum over the quad. -/
theorem reduce_quad_add {𝕜 : Type*} [Field 𝕜] (f : ℕ → 𝕜) (lane : ℕ) :
    reduce (· + ·) quad (fun l => Flt.fin (f l)) lane =
      Flt.fin (∑ c ∈ Finset.range 4, f (lane / 4 * 4 + c)) := by
  rw [reduce_comp Flt.fin Flt.fin_add_fin, reduce_of_perm zero_add (span_quad_perm lane),
    List.map_map]
  rfl

/-- Every lane of a warp ends with the maximum over the warp. -/
theorem reduce_warp_fmaxf {𝕜 : Type*} [LinearOrder 𝕜] (f : ℕ → WithBot 𝕜) {lane : ℕ}
    (h : lane < 32) :
    reduce Flt.fmaxf warp (fun l => Flt.ofBot (f l)) lane =
      Flt.ofBot ((Finset.range 32).sup f) := by
  rw [reduce_comp Flt.ofBot Flt.fmaxf_ofBot, reduce_of_perm bot_sup_eq (span_warp_perm h)]
  rfl

/-- Every lane of a quad ends with the maximum over the quad. -/
theorem reduce_quad_fmaxf {𝕜 : Type*} [LinearOrder 𝕜] (f : ℕ → WithBot 𝕜) (lane : ℕ) :
    reduce Flt.fmaxf quad (fun l => Flt.ofBot (f l)) lane =
      Flt.ofBot ((Finset.range 4).sup fun c => f (lane / 4 * 4 + c)) := by
  rw [reduce_comp Flt.ofBot Flt.fmaxf_ofBot, reduce_of_perm bot_sup_eq (span_quad_perm lane),
    List.map_map]
  rfl

/-! ## Blocks -/

/-- A reduction over the threads of a block in two stages: every warp leaves its value in a scratch
cell, and the first warp reduces the cells, `e` standing in for the warps the block does not have. -/
def block (op : α → α → α) (e : α) (threads : ℕ) (v : ℕ → α) : α :=
  let scratch : ℕ → α := fun w => reduce op warp (fun lane => v (w * 32 + lane)) 0
  reduce op warp (fun lane => if lane < (threads + 31) / 32 then scratch lane else e) 0

/-- A block of up to 32 whole warps ends with the sum over its threads. -/
theorem block_add {𝕜 : Type*} [Field 𝕜] {n : ℕ} (hn : n ≤ 32) (f : ℕ → 𝕜) :
    block (· + ·) 0 (n * 32) (fun t => Flt.fin (f t)) = Flt.fin (∑ t ∈ Finset.range (n * 32), f t) := by
  have hwarps : (n * 32 + 31) / 32 = n := by omega
  have hlane : ∀ lane, (if lane < (n * 32 + 31) / 32 then
      reduce (· + ·) warp (fun l => Flt.fin (f (lane * 32 + l))) 0 else 0) =
      Flt.fin (if lane < n then ∑ l ∈ Finset.range 32, f (lane * 32 + l) else 0) := by
    intro lane
    rw [hwarps, reduce_warp_add _ (by decide)]
    split_ifs
    · rfl
    · rfl
  rw [block]
  simp only [hlane]
  rw [reduce_warp_add _ (by decide), ← Strided.sum_windows, ← Finset.sum_filter]
  have hfirst : (Finset.range 32).filter (fun w => w < n) = Finset.range n := by
    ext w
    simp only [Finset.mem_filter, Finset.mem_range]
    omega
  rw [hfirst]

/-- A block of up to 32 whole warps ends with the maximum over its threads. -/
theorem block_fmaxf {𝕜 : Type*} [LinearOrder 𝕜] {n : ℕ} (hn : n ≤ 32) (f : ℕ → WithBot 𝕜) :
    block Flt.fmaxf Flt.negInf (n * 32) (fun t => Flt.ofBot (f t)) =
      Flt.ofBot ((Finset.range (n * 32)).sup f) := by
  have hwarps : (n * 32 + 31) / 32 = n := by omega
  have hlane : ∀ lane, (if lane < (n * 32 + 31) / 32 then
      reduce Flt.fmaxf warp (fun l => Flt.ofBot (f (lane * 32 + l))) 0 else Flt.negInf) =
      Flt.ofBot (if lane < n then (Finset.range 32).sup fun l => f (lane * 32 + l) else ⊥) := by
    intro lane
    rw [hwarps, reduce_warp_fmaxf _ (by decide)]
    split_ifs
    · rfl
    · rfl
  rw [block]
  simp only [hlane]
  rw [reduce_warp_fmaxf _ (by decide)]
  congr 1
  refine le_antisymm (Finset.sup_le fun w _ => ?_) (Finset.sup_le fun t ht => ?_)
  · split_ifs with hw
    · refine Finset.sup_le fun l hl => Finset.le_sup ?_
      rw [Finset.mem_range] at hl ⊢
      omega
    · exact bot_le
  · rw [Finset.mem_range] at ht
    have hsplit : t / 32 * 32 + t % 32 = t := Nat.div_add_mod' t 32
    have hw : t / 32 < n := by omega
    calc f t = f (t / 32 * 32 + t % 32) := by rw [hsplit]
      _ ≤ (Finset.range 32).sup fun l => f (t / 32 * 32 + l) :=
        Finset.le_sup (f := fun l => f (t / 32 * 32 + l))
          (Finset.mem_range.mpr (Nat.mod_lt t (by decide)))
      _ = if t / 32 < n then (Finset.range 32).sup fun l => f (t / 32 * 32 + l) else ⊥ :=
        (if_pos hw).symm
      _ ≤ _ := Finset.le_sup (f := fun w => if w < n then (Finset.range 32).sup fun l =>
          f (w * 32 + l) else ⊥) (Finset.mem_range.mpr (by omega))

end Butterfly

import Mathlib.Algebra.Order.Field.Basic
import Mathlib.Algebra.BigOperators.Group.Finset.Basic
import Mathlib.Order.WithBot
import Mathlib.Data.Finset.Lattice.Fold

/-!
# Exact floating-point arithmetic with infinities

Floating-point arithmetic without rounding over an ordered field: finite numbers, the two infinities
and `nan`, with the operations of the hardware on the special values. A computation that would make a
`nan` makes one here, so that a result `fin x` says that it made none. `Flt.ofBot` embeds the numbers
extended with `-inf`, on which `fmaxf` is the lattice maximum.
-/

/-- A number, an infinity or `nan`. -/
inductive Flt (𝕜 : Type*) where
  | nan
  | negInf
  | fin (x : 𝕜)
  | posInf
deriving DecidableEq

namespace Flt

variable {𝕜 : Type*}

/-- The numbers extended with `-inf`. -/
def ofBot : WithBot 𝕜 → Flt 𝕜
  | none => negInf
  | some x => fin x

@[simp] theorem ofBot_bot : (ofBot ⊥ : Flt 𝕜) = negInf := rfl

@[simp] theorem ofBot_coe (x : 𝕜) : ofBot (x : WithBot 𝕜) = fin x := rfl

theorem ofBot_injective : Function.Injective (ofBot : WithBot 𝕜 → Flt 𝕜) := by
  intro a b h
  cases a <;> cases b <;> simp_all [ofBot]

@[simp] theorem ofBot_eq_negInf {m : WithBot 𝕜} : ofBot m = negInf ↔ m = ⊥ :=
  ofBot_injective.eq_iff' rfl

section Order

variable [LinearOrder 𝕜]

/-- `fmaxf`: a `nan` loses against anything. -/
def fmaxf : Flt 𝕜 → Flt 𝕜 → Flt 𝕜
  | nan, y => y
  | x, nan => x
  | posInf, _ => posInf
  | _, posInf => posInf
  | negInf, y => y
  | x, negInf => x
  | fin x, fin y => fin (max x y)

/-- On numbers extended with `-inf`, `fmaxf` is the maximum. -/
@[simp] theorem fmaxf_ofBot (a b : WithBot 𝕜) : fmaxf (ofBot a) (ofBot b) = ofBot (max a b) := by
  induction a with
  | bot => induction b <;> simp [fmaxf]
  | coe x =>
    induction b with
    | bot => simp [fmaxf]
    | coe y => exact congrArg ofBot (WithBot.coe_max x y)

/-- A running maximum of numbers extended with `-inf`. -/
theorem foldl_fmaxf_ofBot {ι : Type*} [DecidableEq ι] (f : ι → WithBot 𝕜) (l : List ι)
    (m : WithBot 𝕜) :
    l.foldl (fun acc i => fmaxf acc (ofBot (f i))) (ofBot m) = ofBot (m ⊔ l.toFinset.sup f) := by
  induction l generalizing m with
  | nil => simp
  | cons i l ih =>
    rw [List.foldl_cons, fmaxf_ofBot, ih, List.toFinset_cons, Finset.sup_insert, ← sup_assoc]

end Order

section Arithmetic

variable [Field 𝕜]

instance : Zero (Flt 𝕜) := ⟨fin 0⟩

/-- Addition; opposite infinities give `nan`. -/
def add : Flt 𝕜 → Flt 𝕜 → Flt 𝕜
  | nan, _ => nan
  | _, nan => nan
  | negInf, posInf => nan
  | posInf, negInf => nan
  | negInf, _ => negInf
  | _, negInf => negInf
  | posInf, _ => posInf
  | _, posInf => posInf
  | fin x, fin y => fin (x + y)

instance : Add (Flt 𝕜) := ⟨add⟩

/-- Negation. -/
def neg : Flt 𝕜 → Flt 𝕜
  | nan => nan
  | negInf => posInf
  | fin x => fin (-x)
  | posInf => negInf

instance : Neg (Flt 𝕜) := ⟨neg⟩

instance : Sub (Flt 𝕜) := ⟨fun a b => a + -b⟩

/-- The exponential: `E` on numbers, `0` at `-inf`. -/
def expf (E : 𝕜 → 𝕜) : Flt 𝕜 → Flt 𝕜
  | nan => nan
  | negInf => fin 0
  | fin x => fin (E x)
  | posInf => posInf

theorem zero_def : (0 : Flt 𝕜) = fin 0 := rfl

@[simp] theorem fin_add_fin (x y : 𝕜) : fin x + fin y = fin (x + y) := rfl

@[simp] theorem fin_sub_fin (x y : 𝕜) : fin x - fin y = fin (x - y) := by
  rw [sub_eq_add_neg]
  rfl

@[simp] theorem negInf_sub_fin (y : 𝕜) : (negInf : Flt 𝕜) - fin y = negInf := rfl

@[simp] theorem expf_fin (E : 𝕜 → 𝕜) (x : 𝕜) : expf E (fin x) = fin (E x) := rfl

@[simp] theorem expf_negInf (E : 𝕜 → 𝕜) : expf E (negInf : Flt 𝕜) = fin 0 := rfl

/-- Sums do not depend on the order: `nan` and opposite infinities absorb everything. -/
instance : AddCommMonoid (Flt 𝕜) where
  add_assoc a b c := by
    cases a <;> cases b <;> cases c <;> first | rfl | exact congrArg fin (add_assoc _ _ _)
  zero_add a := by
    cases a <;> first | rfl | exact congrArg fin (zero_add _)
  add_zero a := by
    cases a <;> first | rfl | exact congrArg fin (add_zero _)
  add_comm a b := by
    cases a <;> cases b <;> first | rfl | exact congrArg fin (add_comm _ _)
  nsmul := nsmulRec

/-- A sum of finite numbers. -/
theorem sum_fin {ι : Type*} (f : ι → 𝕜) (s : Finset ι) :
    ∑ i ∈ s, fin (f i) = fin (∑ i ∈ s, f i) := by
  classical
  induction s using Finset.induction_on with
  | empty => rfl
  | insert i s hi ih => rw [Finset.sum_insert hi, Finset.sum_insert hi, ih, fin_add_fin]

/-- A running sum of finite numbers. -/
theorem foldl_add_fin {ι : Type*} (f : ι → 𝕜) (l : List ι) (x : 𝕜) :
    l.foldl (fun acc i => acc + fin (f i)) (fin x) = fin (x + (l.map f).sum) := by
  induction l generalizing x with
  | nil => simp
  | cons i l ih => simp [ih, add_assoc]

@[simp] theorem nan_add (y : Flt 𝕜) : nan + y = nan := by cases y <;> rfl

@[simp] theorem add_nan (x : Flt 𝕜) : x + nan = nan := by cases x <;> rfl

/-- A running sum of `nan`s that is not empty. -/
theorem foldl_add_nan {ι : Type*} {f : ι → Flt 𝕜} {l : List ι} (hl : l ≠ [])
    (h : ∀ i ∈ l, f i = nan)
    (x : Flt 𝕜) : l.foldl (fun acc i => acc + f i) x = nan := by
  induction l using List.reverseRecOn with
  | nil => exact absurd rfl hl
  | append_singleton l i ih =>
    rw [List.foldl_append, List.foldl_cons, List.foldl_nil, h i (by simp), add_nan]

variable [LinearOrder 𝕜]

/-- An infinity times a number: the sign rule, and `nan` for zero. -/
def infMul (positive : Bool) (x : 𝕜) : Flt 𝕜 :=
  if x = 0 then nan else if decide (0 < x) = positive then posInf else negInf

/-- Multiplication. -/
def mul : Flt 𝕜 → Flt 𝕜 → Flt 𝕜
  | nan, _ => nan
  | _, nan => nan
  | fin x, fin y => fin (x * y)
  | posInf, fin y => infMul true y
  | negInf, fin y => infMul false y
  | fin x, posInf => infMul true x
  | fin x, negInf => infMul false x
  | posInf, posInf => posInf
  | negInf, negInf => posInf
  | posInf, negInf => negInf
  | negInf, posInf => negInf

instance : Mul (Flt 𝕜) := ⟨mul⟩

/-- `1.0f / x`, with an unsigned zero. -/
def recip : Flt 𝕜 → Flt 𝕜
  | nan => nan
  | fin x => if x = 0 then posInf else fin x⁻¹
  | _ => fin 0

/-- `x > 0.0f`. -/
def gtZero : Flt 𝕜 → Bool
  | fin x => decide (0 < x)
  | posInf => true
  | _ => false

/-- The logarithm: `L` on positive numbers, `-inf` at zero. -/
def logf (L : 𝕜 → 𝕜) : Flt 𝕜 → Flt 𝕜
  | fin x => if 0 < x then fin (L x) else if x = 0 then negInf else nan
  | posInf => posInf
  | _ => nan

@[simp] theorem fin_mul_fin (x y : 𝕜) : fin x * fin y = fin (x * y) := rfl

@[simp] theorem nan_mul (y : Flt 𝕜) : nan * y = nan := by cases y <;> rfl

/-- The product that makes a `nan` out of a masked score. -/
@[simp] theorem negInf_mul_zero : (negInf : Flt 𝕜) * 0 = nan := if_pos rfl

theorem recip_fin {x : 𝕜} (h : x ≠ 0) : recip (fin x) = fin x⁻¹ := if_neg h

@[simp] theorem gtZero_fin (x : 𝕜) : gtZero (fin x) = decide (0 < x) := rfl

end Arithmetic

end Flt

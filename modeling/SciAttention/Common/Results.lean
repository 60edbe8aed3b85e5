import Mathlib.Data.List.Forall2
import Mathlib.Tactic.Common

/-!
# Chains of fallible steps

A chain in `Except` succeeds when every step does, and fails with the error of the first step that
fails.
-/

namespace Results

universe u

variable {ε : Type*} {α β : Type u}

/-- A chain succeeds when its first step does and the rest does on the result. -/
theorem bind_eq_ok {x : Except ε α} {f : α → Except ε β} {b : β} :
    (x >>= f) = .ok b ↔ ∃ a, x = .ok a ∧ f a = .ok b := by
  cases x <;> simp [bind, Except.bind]

/-- A chain fails with the error of its first step, or with that of the rest. -/
theorem bind_eq_error {x : Except ε α} {f : α → Except ε β} {e : ε} :
    (x >>= f) = .error e ↔ x = .error e ∨ ∃ a, x = .ok a ∧ f a = .error e := by
  cases x <;> simp [bind, Except.bind]

@[simp] theorem ok_bind (a : α) (f : α → Except ε β) : ((.ok a : Except ε α) >>= f) = f a := rfl

@[simp] theorem error_bind (e : ε) (f : α → Except ε β) :
    ((.error e : Except ε α) >>= f) = .error e := rfl

@[simp] theorem pure_eq_ok (a : α) : (pure a : Except ε α) = .ok a := rfl

/-- A loop of fallible steps succeeds when every step does. -/
theorem mapM_eq_ok {f : α → Except ε β} {l : List α} {r : List β} :
    l.mapM f = .ok r ↔ List.Forall₂ (fun a b => f a = .ok b) l r := by
  induction l generalizing r with
  | nil => simp [eq_comm]
  | cons a l ih =>
    simp only [List.mapM_cons, bind_eq_ok, ih, pure_eq_ok, Except.ok.injEq, List.forall₂_cons_left_iff]
    constructor
    · rintro ⟨b, hb, bs, hbs, rfl⟩
      exact ⟨b, bs, hb, hbs, rfl⟩
    · rintro ⟨b, bs, hb, hbs, rfl⟩
      exact ⟨b, hb, bs, hbs, rfl⟩

/-- A loop over one index more. -/
theorem foldlM_range_succ {f : β → ℕ → Except ε β} {s : β} {k : ℕ} :
    (List.range (k + 1)).foldlM f s = (List.range k).foldlM f s >>= fun t => f t k := by
  rw [List.range_succ, List.foldlM_append]
  simp only [List.foldlM_cons, List.foldlM_nil, bind_pure]

/-- A collecting loop over one index more. -/
theorem mapM_range_succ_eq_ok {f : ℕ → Except ε β} {k : ℕ} {l : List β} :
    (List.range (k + 1)).mapM f = .ok l ↔
      ∃ l' b, (List.range k).mapM f = .ok l' ∧ f k = .ok b ∧ l = l' ++ [b] := by
  rw [List.range_succ, List.mapM_append, bind_eq_ok]
  simp only [List.mapM_cons, List.mapM_nil, bind_eq_ok, pure_eq_ok, Except.ok.injEq]
  constructor
  · rintro ⟨l', hl', -, ⟨b, hb, -, rfl, rfl⟩, rfl⟩
    exact ⟨l', b, hl', hb, rfl⟩
  · rintro ⟨l', b, hl', hb, rfl⟩
    exact ⟨l', hl', [b], ⟨b, hb, [], rfl, rfl⟩, rfl⟩

/-- A loop that succeeded collected the result of every step. -/
theorem getElem?_of_mapM_range {f : ℕ → Except ε β} {k : ℕ} {l : List β}
    (h : (List.range k).mapM f = .ok l) :
    l.length = k ∧ ∀ i < k, ∃ b, l[i]? = some b ∧ f i = .ok b := by
  induction k generalizing l with
  | zero =>
    obtain rfl : [] = l := Except.ok.inj h
    exact ⟨rfl, fun i hi => absurd hi (Nat.not_lt_zero i)⟩
  | succ k ih =>
    obtain ⟨l', b, hl', hb, rfl⟩ := mapM_range_succ_eq_ok.mp h
    obtain ⟨hlen, hget⟩ := ih hl'
    refine ⟨by simp [hlen], fun i hi => ?_⟩
    rcases Nat.lt_succ_iff_lt_or_eq.mp hi with hlt | rfl
    · obtain ⟨b', hb', hf⟩ := hget i hlt
      exact ⟨b', by rw [List.getElem?_append_left (hlen ▸ hlt), hb'], hf⟩
    · exact ⟨b, by rw [List.getElem?_append_right (Nat.le_of_eq hlen), hlen, Nat.sub_self]; rfl, hb⟩

/-- A collecting loop succeeds when every step does. -/
theorem exists_mapM_range {f : ℕ → Except ε β} {k : ℕ} (h : ∀ i < k, ∃ b, f i = .ok b) :
    ∃ l, (List.range k).mapM f = .ok l := by
  induction k with
  | zero => exact ⟨[], rfl⟩
  | succ k ih =>
    obtain ⟨l, hl⟩ := ih fun i hi => h i (Nat.lt_succ_of_lt hi)
    obtain ⟨b, hb⟩ := h k (Nat.lt_succ_self k)
    exact ⟨l ++ [b], mapM_range_succ_eq_ok.mpr ⟨l, b, hl, hb, rfl⟩⟩

end Results

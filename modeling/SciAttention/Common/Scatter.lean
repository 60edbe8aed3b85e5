import Mathlib.Logic.Function.Basic
import Mathlib.Data.List.Basic
import Mathlib.Tactic.Common

/-!
# Memories updated by a list of writes

A data-movement kernel that never reads what it writes is a list of `(address, value)` writes in
some order. `Scatter.apply` runs the list. A cell that no write names keeps its value; a cell on
whose value all writes agree gets it, in whatever order the list is.
-/

namespace Scatter

variable {α β : Type*} [DecidableEq α]

/-- Run the writes in order. -/
def apply (mem : α → β) (ws : List (α × β)) : α → β :=
  ws.foldl (fun m w => Function.update m w.1 w.2) mem

@[simp] theorem apply_nil (mem : α → β) : apply mem [] = mem := rfl

@[simp] theorem apply_cons (mem : α → β) (w : α × β) (ws : List (α × β)) :
    apply mem (w :: ws) = apply (Function.update mem w.1 w.2) ws := rfl

@[simp] theorem apply_append (mem : α → β) (ws ws' : List (α × β)) :
    apply mem (ws ++ ws') = apply (apply mem ws) ws' := List.foldl_append

/-- A cell that no write names keeps its value. -/
theorem apply_of_forall_ne {mem : α → β} {ws : List (α × β)} {a : α}
    (h : ∀ w ∈ ws, w.1 ≠ a) : apply mem ws a = mem a := by
  induction ws generalizing mem with
  | nil => rfl
  | cons w ws ih =>
    rw [apply_cons, ih fun v hv => h v (by simp [hv])]
    exact Function.update_of_ne (h w (by simp)).symm _ _

/-- The writes leave a cell alike in memories that agree on it. -/
theorem apply_congr {mem mem' : α → β} {a : α} (h : mem a = mem' a) (ws : List (α × β)) :
    apply mem ws a = apply mem' ws a := by
  induction ws generalizing mem mem' with
  | nil => exact h
  | cons w ws ih =>
    rw [apply_cons, apply_cons]
    refine ih ?_
    by_cases hw : a = w.1
    · rw [hw, Function.update_self, Function.update_self]
    · rwa [Function.update_of_ne hw, Function.update_of_ne hw]

/-- A cell keeps `v` when it holds `v` and no write puts anything else there. -/
theorem apply_of_agree_of_eq {mem : α → β} {ws : List (α × β)} {a : α} {v : β} (hv : mem a = v)
    (hall : ∀ w ∈ ws, w.1 = a → w.2 = v) : apply mem ws a = v := by
  induction ws generalizing mem with
  | nil => exact hv
  | cons w ws ih =>
    rw [apply_cons]
    refine ih ?_ fun u hu => hall u (by simp [hu])
    by_cases hw : w.1 = a
    · rw [← hw, Function.update_self]
      exact hall w (by simp) hw
    · rwa [Function.update_of_ne (Ne.symm hw)]

/-- A written cell holds the value all its writes agree on. -/
theorem apply_of_agree {mem : α → β} {ws : List (α × β)} {a : α} {v : β} (hmem : (a, v) ∈ ws)
    (hall : ∀ w ∈ ws, w.1 = a → w.2 = v) : apply mem ws a = v := by
  induction ws generalizing mem with
  | nil => simp at hmem
  | cons w ws ih =>
    have htail : ∀ u ∈ ws, u.1 = a → u.2 = v := fun u hu => hall u (by simp [hu])
    rw [apply_cons]
    rcases List.mem_cons.mp hmem with rfl | hmem
    · exact apply_of_agree_of_eq (by simp) htail
    · exact ih hmem htail

/-- A written cell holds the value of one of its writes. -/
theorem apply_mem {ws : List (α × β)} {a : α} (h : ∃ w ∈ ws, w.1 = a) (mem : α → β) :
    (a, apply mem ws a) ∈ ws := by
  induction ws generalizing mem with
  | nil =>
    obtain ⟨w, hw, -⟩ := h
    exact absurd hw List.not_mem_nil
  | cons w ws ih =>
    rw [apply_cons]
    by_cases hlater : ∃ u ∈ ws, u.1 = a
    · exact List.mem_cons_of_mem _ (ih hlater _)
    · obtain ⟨u, hu, rfl⟩ := h
      obtain rfl : u = w := (List.mem_cons.1 hu).resolve_right fun hu => hlater ⟨u, hu, rfl⟩
      rw [apply_of_forall_ne fun v hv heq => hlater ⟨v, hv, heq⟩, Function.update_self]
      exact List.mem_cons_self

/-- Writes that agree wherever they meet leave the same memory in every order. -/
theorem apply_eq_of_mem_iff {ws ws' : List (α × β)} (hmem : ∀ w, w ∈ ws ↔ w ∈ ws')
    (hagree : ∀ w ∈ ws, ∀ w' ∈ ws, w.1 = w'.1 → w.2 = w'.2) (mem : α → β) :
    apply mem ws = apply mem ws' := by
  funext a
  by_cases hwritten : ∃ w ∈ ws, w.1 = a
  · obtain ⟨w, hw, rfl⟩ := hwritten
    rw [apply_of_agree hw fun u hu heq => hagree u hu w hw heq,
      apply_of_agree ((hmem w).1 hw) fun u hu heq => hagree u ((hmem u).2 hu) w hw heq]
  · rw [apply_of_forall_ne fun w hw heq => hwritten ⟨w, hw, heq⟩,
      apply_of_forall_ne fun w hw heq => hwritten ⟨w, (hmem w).2 hw, heq⟩]

/-- Two lists of writes, of two memories, that write the same to a cell of each. -/
theorem apply_eq_of_cell {γ : Type*} [DecidableEq γ] {mem : α → β} {mem' : γ → β}
    {ws : List (α × β)}
    {ws' : List (γ × β)} {a : α} {c : γ} (hmem : mem a = mem' c)
    (hiff : ∀ v, (a, v) ∈ ws ↔ (c, v) ∈ ws')
    (hagree : ∀ v v', (a, v) ∈ ws → (a, v') ∈ ws → v = v') : apply mem ws a = apply mem' ws' c := by
  by_cases hwritten : ∃ v, (a, v) ∈ ws
  · obtain ⟨v, hv⟩ := hwritten
    have hall : ∀ w ∈ ws, w.1 = a → w.2 = v := by
      rintro ⟨_, v'⟩ hw rfl
      exact hagree v' v hw hv
    have hall' : ∀ w ∈ ws', w.1 = c → w.2 = v := by
      rintro ⟨_, v'⟩ hw rfl
      exact hagree v' v ((hiff v').mpr hw) hv
    rw [apply_of_agree hv hall, apply_of_agree ((hiff v).mp hv) hall']
  · rw [apply_of_forall_ne, apply_of_forall_ne, hmem]
    · rintro ⟨_, v⟩ hw rfl
      exact hwritten ⟨v, (hiff v).mpr hw⟩
    · rintro ⟨_, v⟩ hw rfl
      exact hwritten ⟨v, hw⟩

/-- The cells of one kind, seen on their own: `pre` tells them from the others. -/
theorem apply_view {γ : Type*} [DecidableEq γ] {cell : γ → α} {pre : α → Option γ}
    (hpre : ∀ a c, pre a = some c ↔ a = cell c) (mem : α → β) (ws : List (α × β)) (c : γ) :
    apply mem ws (cell c) =
      apply (fun c => mem (cell c)) (ws.filterMap fun w => (pre w.1).map fun c => (c, w.2)) c := by
  induction ws generalizing mem with
  | nil => rfl
  | cons w ws ih =>
    rw [apply_cons, ih, List.filterMap_cons]
    cases hw : pre w.1 with
    | none =>
      refine apply_congr (Function.update_of_ne (fun heq => ?_) _ _) _
      rw [(hpre w.1 c).mpr heq.symm] at hw
      exact Option.some_ne_none c hw
    | some c' =>
      have hstep : Function.update mem w.1 w.2 (cell c) =
          Function.update (fun c => mem (cell c)) c' w.2 c := by
        by_cases hc : c = c'
        · rw [hc, (hpre w.1 c').mp hw, Function.update_self, Function.update_self]
        · have hne : cell c ≠ w.1 := fun heq =>
            hc (Option.some.inj (((hpre w.1 c).mpr heq.symm).symm.trans hw))
          rw [Function.update_of_ne hne, Function.update_of_ne hc]
      exact apply_congr hstep _

/-- Writes to the cells of one kind only. -/
theorem apply_map {γ : Type*} [DecidableEq γ] {cell : γ → α} (hcell : Function.Injective cell)
    (mem : α → β) (ws : List (γ × β)) (c : γ) :
    apply mem (ws.map fun w => (cell w.1, w.2)) (cell c) = apply (fun c => mem (cell c)) ws c := by
  induction ws generalizing mem with
  | nil => rfl
  | cons w ws ih =>
    rw [List.map_cons, apply_cons, ih, apply_cons]
    refine apply_congr ?_ _
    by_cases hc : c = w.1
    · rw [hc, Function.update_self, Function.update_self]
    · rw [Function.update_of_ne (hcell.ne hc), Function.update_of_ne hc]

/-- Where one group of writes alone names a cell, it decides it. -/
theorem apply_flatMap_of_mem {ι : Type*} {l : List ι} {ws : ι → List (α × β)} {i : ι} {a : α}
    (hnodup : l.Nodup) (hi : i ∈ l) (h : ∀ j ∈ l, j ≠ i → ∀ w ∈ ws j, w.1 ≠ a)
    (mem : α → β) :
    apply mem (l.flatMap ws) a = apply mem (ws i) a := by
  induction l generalizing mem with
  | nil => exact absurd hi List.not_mem_nil
  | cons j l ih =>
    obtain ⟨hj, hl⟩ := List.nodup_cons.mp hnodup
    rw [List.flatMap_cons, apply_append]
    by_cases hij : i = j
    · subst hij
      refine apply_of_forall_ne fun w hw => ?_
      obtain ⟨k, hk, hw⟩ := List.mem_flatMap.mp hw
      exact h k (List.mem_cons_of_mem _ hk) (fun hki => hj (hki ▸ hk)) w hw
    · have hil : i ∈ l := (List.mem_cons.mp hi).resolve_left hij
      rw [ih hl hil fun k hk => h k (List.mem_cons_of_mem _ hk)]
      exact apply_congr (apply_of_forall_ne (h j List.mem_cons_self (Ne.symm hij))) _

/-- The cell of an index holds its value when the writes at that cell agree. -/
theorem apply_map_of_mem {ι : Type*} {mem : α → β} {l : List ι} {f : ι → α} {g : ι → β} {i : ι}
    (hi : i ∈ l) (h : ∀ j ∈ l, f j = f i → g j = g i) :
    apply mem (l.map fun j => (f j, g j)) (f i) = g i := by
  refine apply_of_agree (List.mem_map.mpr ⟨i, hi, rfl⟩) fun w hw hcell => ?_
  obtain ⟨j, hj, rfl⟩ := List.mem_map.mp hw
  exact h j hj hcell

/-- Cells updated in place, each by its own index: every cell is updated once. -/
theorem foldl_update_of_mem {ι : Type*} {l : List ι} {f : ι → α} {g : ι → β → β} {i : ι}
    (hnodup : l.Nodup) (hinj : ∀ j ∈ l, ∀ k ∈ l, f j = f k → j = k) (hi : i ∈ l)
    (mem : α → β) :
    l.foldl (fun m j => Function.update m (f j) (g j (m (f j)))) mem (f i) = g i (mem (f i)) := by
  induction l generalizing mem with
  | nil => simp at hi
  | cons j l ih =>
    obtain ⟨hj, hl⟩ := List.nodup_cons.mp hnodup
    have htail : ∀ x ∈ l, ∀ k ∈ l, f x = f k → x = k := fun x hx k hk =>
      hinj x (List.mem_cons_of_mem _ hx) k (List.mem_cons_of_mem _ hk)
    have hother : ∀ x ∈ l, f x ≠ f j := fun x hx heq =>
      hj (hinj x (List.mem_cons_of_mem _ hx) j List.mem_cons_self heq ▸ hx)
    rw [List.foldl_cons]
    rcases List.mem_cons.mp hi with rfl | hmem
    · -- the later updates leave this cell alone
      have hkeep : ∀ (l' : List ι), (∀ x ∈ l', f x ≠ f i) → ∀ m : α → β,
          l'.foldl (fun m j => Function.update m (f j) (g j (m (f j)))) m (f i) = m (f i) := by
        intro l' h'
        induction l' with
        | nil => exact fun m => rfl
        | cons x l' ih' =>
          intro m
          rw [List.foldl_cons, ih' fun y hy => h' y (List.mem_cons_of_mem _ hy)]
          exact Function.update_of_ne (h' x List.mem_cons_self).symm _ _
      rw [hkeep l hother, Function.update_self]
    · rw [ih hl htail hmem, Function.update_of_ne (hother i hmem)]

end Scatter

import SciAttention.Common.Diamond
import SciAttention.Common.Scatter
import Mathlib.Data.Set.Piecewise

/-!
# Threads of a grid, interleaved

A thread is a program of loads and stores, of exchanges that wait for its warp, and of barriers that wait
for its block. A step of the grid lets any one thread touch the memory, any warp whose threads all wait
make its exchange, or any block whose threads all wait pass its barrier, so that a run is an arbitrary
interleaving.

`Rights` says which cells a thread may read and write between two of its rendezvous: no thread may write what
another may touch at the same time, where only the threads of one block have passed equally many barriers, and
only those of one warp have made equally many exchanges since. Threads that keep to such rights race in no
reachable state, and their steps commute (`commutes`): by `Diamond`, one run to the end decides the memory
that every interleaving ends with.
-/

namespace Simt

universe u

variable {ι α ρ σ κ ω : Type*} {β : Type u}

/-! ## Programs -/

/-- The program of a thread that ends with a value. The threads are `ι`, the cells `α`, their
contents `β`. -/
inductive Prog (ι α β ρ : Type*) where
  | ret (r : ρ)
  | load (a : α) (k : β → Prog ι α β ρ)
  | store (a : α) (v : β) (k : Prog ι α β ρ)
  -- every thread of the warp offers a value and goes on with what all of them offered
  | shfl (v : β) (k : (ι → β) → Prog ι α β ρ)
  | sync (k : Prog ι α β ρ)

namespace Prog

/-- One program after another. -/
def bind : Prog ι α β ρ → (ρ → Prog ι α β σ) → Prog ι α β σ
  | ret r, q => q r
  | load a k, q => load a fun v => (k v).bind q
  | store a v k, q => store a v (k.bind q)
  | shfl v k, q => shfl v fun w => (k w).bind q
  | sync k, q => sync (k.bind q)

instance : Monad (Prog ι α β) where
  pure := ret
  bind := bind

@[simp] theorem ret_bind (r : ρ) (q : ρ → Prog ι α β σ) : (ret r).bind q = q r := rfl

@[simp] theorem load_bind (a : α) (k : β → Prog ι α β ρ) (q : ρ → Prog ι α β σ) :
    (load a k).bind q = load a fun v => (k v).bind q := rfl

@[simp] theorem store_bind (a : α) (v : β) (k : Prog ι α β ρ) (q : ρ → Prog ι α β σ) :
    (store a v k).bind q = store a v (k.bind q) := rfl

@[simp] theorem shfl_bind (v : β) (k : (ι → β) → Prog ι α β ρ) (q : ρ → Prog ι α β σ) :
    (shfl v k).bind q = shfl v fun w => (k w).bind q := rfl

@[simp] theorem sync_bind (k : Prog ι α β ρ) (q : ρ → Prog ι α β σ) :
    (sync k).bind q = sync (k.bind q) := rfl

theorem bind_assoc {τ : Type*} (p : Prog ι α β ρ) (q : ρ → Prog ι α β σ)
    (q' : σ → Prog ι α β τ) :
    (p.bind q).bind q' = p.bind fun r => (q r).bind q' := by
  induction p with
  | ret r => rfl
  | load a k ih => simp only [load_bind, ih]
  | store a v k ih => simp only [store_bind, ih]
  | shfl v k ih => simp only [shfl_bind, ih]
  | sync k ih => simp only [sync_bind, ih]

theorem bind_ret (p : Prog ι α β ρ) : p.bind ret = p := by
  induction p with
  | ret r => rfl
  | load a k ih => simp only [load_bind, ih]
  | store a v k ih => simp only [store_bind, ih]
  | shfl v k ih => simp only [shfl_bind, ih]
  | sync k ih => simp only [sync_bind, ih]

instance : LawfulMonad (Prog ι α β) :=
  LawfulMonad.mk' (Prog ι α β) bind_ret (fun _ _ => rfl) bind_assoc

@[simp] theorem bind_eq (p : Prog ι α β ρ) {σ : Type _} (q : ρ → Prog ι α β σ) :
    (p >>= q) = p.bind q := rfl

@[simp] theorem pure_eq (r : ρ) : (pure r : Prog ι α β ρ) = ret r := rfl

/-- A loop that carries nothing along. -/
theorem forM_eq_foldlM {γ : Type*} (l : List γ) (f : γ → Prog ι α β PUnit.{u + 1}) :
    forM l f = l.foldlM (fun _ x => f x) ⟨⟩ := by
  induction l with
  | nil => rfl
  | cons x l ih => rw [List.forM_cons, ih, List.foldlM_cons]

/-- Read a cell. -/
def get (a : α) : Prog ι α β β := load a ret

/-- Write a cell. -/
def put (a : α) (v : β) : Prog ι α β PUnit.{u + 1} := store a v (ret ⟨⟩)

/-- Offer a value to the warp and take that of one thread of it. -/
def exchange (peer : ι) (v : β) : Prog ι α β β := shfl v fun w => ret (w peer)

/-- Run a program under a condition. -/
def when (c : Prop) [Decidable c] (p : Prog ι α β PUnit.{u + 1}) : Prog ι α β PUnit.{u + 1} :=
  if c then p else ret ⟨⟩

/-- Wait for the block. -/
def barrier : Prog ι α β PUnit.{u + 1} := sync (ret ⟨⟩)

/-- The cell that a program touches next, and whether it writes it. -/
def access : Prog ι α β ρ → Option (α × Bool)
  | load a _ => some (a, false)
  | store a _ _ => some (a, true)
  | _ => none

end Prog

/-! ## Steps of a grid -/

/-- A whole thread. -/
abbrev Thread (ι α : Type*) (β : Type u) := Prog ι α β PUnit.{u + 1}

/-- The memory and what every thread has left to do. -/
structure Config (ι α : Type*) (β : Type u) where
  mem : α → β
  prog : ι → Thread ι α β

/-- What the lanes of the warp of `i` offer, as `i` sees it. -/
def lanes [DecidableEq ω] (warp : ι → ω) (v : ι → β) (i : ι) : ι → β :=
  fun j => if warp j = warp i then v j else v i

section Steps

variable [DecidableEq α] [DecidableEq ω] (block : ι → κ) (warp : ι → ω)

/-- What can happen next: the threads that go on, their programs afterwards, and the writes. -/
inductive Move (c : Config ι α β) : Set ι → (ι → Thread ι α β) → List (α × β) → Prop where
  | load {i : ι} {a : α} {k : β → Thread ι α β} (h : c.prog i = .load a k) :
      Move c {i} (fun _ => k (c.mem a)) []
  | store {i : ι} {a : α} {v : β} {k : Thread ι α β} (h : c.prog i = .store a v k) :
      Move c {i} (fun _ => k) [(a, v)]
  | shfl {w : ω} {v : ι → β} {k : ι → (ι → β) → Thread ι α β} (hw : ∃ i, warp i = w)
      (h : ∀ i, warp i = w → c.prog i = .shfl (v i) (k i)) :
      Move c {i | warp i = w} (fun i => k i (lanes warp v i)) []
  | sync {b : κ} {k : ι → Thread ι α β} (hb : ∃ i, block i = b)
      (h : ∀ i, block i = b → c.prog i = .sync (k i)) :
      Move c {i | block i = b} k []

open scoped Classical in
/-- The configuration after a move. -/
noncomputable def Config.after (c : Config ι α β) (S : Set ι) (f : ι → Thread ι α β)
    (ws : List (α × β)) : Config ι α β :=
  ⟨Scatter.apply c.mem ws, S.piecewise f c.prog⟩

omit [DecidableEq ω] in
/-- The threads of a move go on. -/
theorem Config.after_prog_of_mem {c : Config ι α β} {S : Set ι} {f : ι → Thread ι α β}
    {ws : List (α × β)} {i : ι} (hi : i ∈ S) : (c.after S f ws).prog i = f i := by
  simp [after, hi]

omit [DecidableEq ω] in
/-- The other threads wait. -/
theorem Config.after_prog_of_notMem {c : Config ι α β} {S : Set ι} {f : ι → Thread ι α β}
    {ws : List (α × β)} {i : ι} (hi : i ∉ S) : (c.after S f ws).prog i = c.prog i := by
  simp [after, hi]

omit [DecidableEq ω] in
theorem Config.after_congr {c : Config ι α β} {S : Set ι} {f f' : ι → Thread ι α β}
    {ws : List (α × β)} (h : ∀ i ∈ S, f i = f' i) : c.after S f ws = c.after S f' ws := by
  refine congrArg (Config.mk _) (funext fun i => ?_)
  by_cases hi : i ∈ S
  · simp [hi, h i hi]
  · simp [hi]

/-- A step of the grid. -/
def Step (c c' : Config ι α β) : Prop := ∃ S f ws, Move block warp c S f ws ∧ c' = c.after S f ws

/-- Any number of steps, in any order the threads may take. -/
def Steps : Config ι α β → Config ι α β → Prop := Relation.ReflTransGen (Step block warp)

omit [DecidableEq α] [DecidableEq ω]

/-- Every thread has ended. -/
def Config.Finished (c : Config ι α β) : Prop := ∀ i, c.prog i = .ret ⟨⟩

/-- Two threads are about to touch one cell, and one of them to write it. -/
def Config.Race (c : Config ι α β) : Prop :=
  ∃ i j a, i ≠ j ∧ (c.prog i).access = some (a, true) ∧ ∃ w, (c.prog j).access = some (a, w)

end Steps

/-! ## Rights -/

/-- How far a thread is: the barriers it has passed, and the exchanges it has made since the last one. -/
structure Clock where
  barriers : ℕ
  exchanges : ℕ

namespace Clock

/-- The clock of a thread that starts. -/
def start : Clock := ⟨0, 0⟩

/-- After `n` exchanges. -/
def exchanged (t : Clock) (n : ℕ) : Clock := ⟨t.barriers, t.exchanges + n⟩

/-- After an exchange. -/
def shfl (t : Clock) : Clock := t.exchanged 1

/-- After a barrier. -/
def sync (t : Clock) : Clock := ⟨t.barriers + 1, 0⟩

theorem shfl_exchanged (t : Clock) (n : ℕ) : t.shfl.exchanged n = t.exchanged (n + 1) := by
  rw [shfl, exchanged, exchanged, exchanged, Nat.add_assoc, Nat.add_comm 1]

@[simp] theorem sync_barriers (t : Clock) : t.sync.barriers = t.barriers + 1 := rfl

/-- At a barrier the exchanges before it are forgotten. -/
theorem sync_congr {t t' : Clock} (h : t.barriers = t'.barriers) : t.sync = t'.sync := by
  rw [sync, sync, h]

end Clock

/-- What each thread may read and write at each moment of its run. -/
structure Rights (α : Type*) (block : ι → κ) (warp : ι → ω) where
  read : ι → Clock → Set α
  write : ι → Clock → Set α
  write_subset : ∀ i t, write i t ⊆ read i t
  -- barriers hold the threads of a block together, exchanges those of a warp
  apart : ∀ {i j t t'}, i ≠ j → (block i = block j → t.barriers = t'.barriers) →
    (block i = block j → warp i = warp j → t = t') → ∀ a ∈ write i t, a ∉ read j t'

variable {block : ι → κ} {warp : ι → ω}

/-- From the clock `t` on, thread `i` keeps to its rights whatever it reads, and ends with `Q`. -/
def Prog.Keeps (R : Rights α block warp) (i : ι) : Prog ι α β ρ → Clock →
    (Clock → ρ → Prop) → Prop
  | .ret r, t, Q => Q t r
  | .load a k, t, Q => a ∈ R.read i t ∧ ∀ v, (k v).Keeps R i t Q
  | .store a _ k, t, Q => a ∈ R.write i t ∧ k.Keeps R i t Q
  | .shfl _ k, t, Q => ∀ w, (k w).Keeps R i t.shfl Q
  | .sync k, t, Q => k.Keeps R i t.sync Q

namespace Prog.Keeps

variable {R : Rights α block warp} {i : ι} {t : Clock}

theorem ret {r : ρ} {Q : Clock → ρ → Prop} (hQ : Q t r) :
    (Prog.ret r : Prog ι α β ρ).Keeps R i t Q := hQ

theorem get {a : α} {Q : Clock → β → Prop} (ha : a ∈ R.read i t) (hQ : ∀ v, Q t v) :
    (Prog.get a).Keeps R i t Q := ⟨ha, hQ⟩

theorem put {a : α} {v : β} {Q : Clock → PUnit.{u + 1} → Prop} (ha : a ∈ R.write i t)
    (hQ : Q t ⟨⟩) :
    (Prog.put a v).Keeps R i t Q := ⟨ha, hQ⟩

theorem exchange {peer : ι} {v : β} {Q : Clock → β → Prop} (hQ : ∀ v, Q t.shfl v) :
    (Prog.exchange peer v : Prog ι α β β).Keeps R i t Q := fun w => hQ (w peer)

theorem barrier {Q : Clock → PUnit.{u + 1} → Prop} (hQ : Q t.sync ⟨⟩) :
    (Prog.barrier : Prog ι α β PUnit).Keeps R i t Q := hQ

/-- The rule of sequencing. -/
theorem bind {p : Prog ι α β ρ} {q : ρ → Prog ι α β σ} {Q : Clock → σ → Prop}
    (h : p.Keeps R i t fun t' r => (q r).Keeps R i t' Q) : (p.bind q).Keeps R i t Q := by
  induction p generalizing t with
  | ret r => exact h
  | load a k ih => exact ⟨h.1, fun v => ih v (h.2 v)⟩
  | store a v k ih => exact ⟨h.1, ih h.2⟩
  | shfl v k ih => exact fun w => ih w (h w)
  | sync k ih => exact ih (t := t.sync) h

/-- The rule of consequence. -/
theorem mono {p : Prog ι α β ρ} {Q Q' : Clock → ρ → Prop} (h : p.Keeps R i t Q)
    (hQ : ∀ t r, Q t r → Q' t r) : p.Keeps R i t Q' := by
  induction p generalizing t with
  | ret r => exact hQ t r h
  | load a k ih => exact ⟨h.1, fun v => ih v (h.2 v)⟩
  | store a v k ih => exact ⟨h.1, ih h.2⟩
  | shfl v k ih => exact fun w => ih w (h w)
  | sync k ih => exact ih (t := t.sync) h

/-- The rule of a condition. -/
theorem when {c : Prop} [Decidable c] {p : Prog ι α β PUnit.{u + 1}} {Q : Clock → PUnit.{u + 1} → Prop}
    (hp : c → p.Keeps R i t Q) (hQ : ¬ c → Q t ⟨⟩) : (Prog.when c p).Keeps R i t Q := by
  rw [Prog.when]
  split_ifs with hc
  · exact hp hc
  · exact hQ hc

/-- The rule of a loop: `I n` is the clock and what is carried along before iteration `n`. -/
theorem foldlM_of_invariant {γ : Type*} {l : List γ} {f : ρ → γ → Prog ι α β ρ}
    {Q : Clock → ρ → Prop}
    (I : ℕ → Clock → ρ → Prop)
    (hf : ∀ n (hn : n < l.length) t r, I n t r → (f r l[n]).Keeps R i t (I (n + 1)))
    (hQ : ∀ t r, I l.length t r → Q t r) {r : ρ} (hr : I 0 t r) : (l.foldlM f r).Keeps R i t Q := by
  induction l generalizing I t r with
  | nil => exact hQ t r hr
  | cons x l ih =>
    rw [List.foldlM_cons]
    refine bind ((hf 0 (Nat.succ_pos _) t r hr).mono fun t' r' hr' => ?_)
    exact ih (fun n => I (n + 1)) (fun n hn => hf (n + 1) (Nat.succ_lt_succ hn)) hQ hr'

/-- The rule of a loop without rendezvous. -/
theorem foldlM {γ : Type*} {l : List γ} {f : ρ → γ → Prog ι α β ρ} {Q : Clock → ρ → Prop}
    (hf : ∀ x ∈ l, ∀ r, (f r x).Keeps R i t fun t' _ => t' = t) (hQ : ∀ r, Q t r) (r : ρ) :
    (l.foldlM f r).Keeps R i t Q := by
  refine foldlM_of_invariant (fun _ t' _ => t' = t) (fun n hn t' r' ht => ?_) (fun t' r' ht => ?_) rfl
  · rw [ht]
    exact hf _ (List.getElem_mem hn) r'
  · rw [ht]
    exact hQ r'

/-- The rule of a loop without rendezvous that carries nothing along. -/
theorem forM {γ : Type*} {l : List γ} {f : γ → Prog ι α β PUnit.{u + 1}}
    {Q : Clock → PUnit.{u + 1} → Prop} (hf : ∀ x ∈ l, (f x).Keeps R i t fun t' _ => t' = t)
    (hQ : Q t ⟨⟩) :
    (forM l f).Keeps R i t Q := by
  rw [Prog.forM_eq_foldlM]
  exact foldlM (fun x hx _ => hf x hx) (fun _ => hQ) ⟨⟩

end Prog.Keeps

/-! ## Steps under rights -/

section Commute

variable [DecidableEq ω] {c c' : Config ι α β} {S S' : Set ι} {f f' : ι → Thread ι α β}
  {ws ws' : List (α × β)} {R : Rights α block warp}

/-- The threads of a block have passed equally many barriers, those of a warp made equally many exchanges. -/
structure InStep (block : ι → κ) (warp : ι → ω) (clock : ι → Clock) : Prop where
  ofBlock : ∀ {i j}, block i = block j → (clock i).barriers = (clock j).barriers
  ofWarp : ∀ {i j}, block i = block j → warp i = warp j → clock i = clock j

/-- All threads keep to their rights. -/
def Config.Kept (R : Rights α block warp) (c : Config ι α β) : Prop :=
  ∃ clock, InStep block warp clock ∧ ∀ i, (c.prog i).Keeps R i (clock i) fun _ _ => True

omit [DecidableEq ω] in
/-- The threads of a launch start in step. -/
theorem InStep.start : InStep block warp fun _ => Clock.start := ⟨fun _ => rfl, fun _ _ => rfl⟩

/-- A warp makes an exchange. -/
theorem InStep.shfl {clock : ι → Clock} (h : InStep block warp clock) (w : ω) :
    InStep block warp fun i => if warp i = w then (clock i).shfl else clock i where
  ofBlock {i j} hb := by
    have hbarriers : ∀ i, (if warp i = w then (clock i).shfl else clock i).barriers =
        (clock i).barriers := by
      intro i
      split_ifs
      · rfl
      · rfl
    rw [hbarriers, hbarriers, h.ofBlock hb]
  ofWarp hb hw := by simp only [hw, h.ofWarp hb hw]

omit [DecidableEq ω] in
open scoped Classical in
/-- A block passes its barrier. -/
theorem InStep.sync {clock : ι → Clock} (h : InStep block warp clock) (b : κ) :
    InStep block warp fun i => if block i = b then (clock i).sync else clock i where
  ofBlock {i j} hb := by
    simp only [hb]
    split_ifs
    · rw [Clock.sync_congr (h.ofBlock hb)]
    · exact h.ofBlock hb
  ofWarp {i j} hb hw := by
    simp only [hb]
    split_ifs
    · exact Clock.sync_congr (h.ofBlock hb)
    · exact h.ofWarp hb hw

/-- A move stays possible, with the same effect, while its threads wait and the cell it reads is
left alone. -/
theorem Move.persists (h : Move block warp c S f ws) (hprog : ∀ i ∈ S, c'.prog i = c.prog i)
    (hmem : ∀ i ∈ S, ∀ a, (c.prog i).access = some (a, false) → c'.mem a = c.mem a) :
    Move block warp c' S f ws := by
  cases h with
  | @load i a k h =>
    rw [← hmem i rfl a (by rw [h]; rfl)]
    exact .load ((hprog i rfl).trans h)
  | @store i a v k h => exact .store ((hprog i rfl).trans h)
  | shfl hw h => exact .shfl hw fun i hi => (hprog i hi).trans (h i hi)
  | sync hb h => exact .sync hb fun i hi => (hprog i hi).trans (h i hi)

/-- What a move writes, a thread of it was about to write. -/
theorem Move.access_of_mem (h : Move block warp c S f ws) {w : α × β} (hw : w ∈ ws) :
    ∃ i ∈ S, (c.prog i).access = some (w.1, true) := by
  cases h with
  | store h =>
    obtain rfl := List.mem_singleton.mp hw
    exact ⟨_, rfl, by rw [h]; rfl⟩
  | load h => simp at hw
  | shfl _ h => simp at hw
  | sync _ h => simp at hw

omit [DecidableEq ω] in
/-- A thread is about to touch only what it may. -/
theorem Prog.Keeps.access {p : Prog ι α β ρ} {i : ι} {t : Clock} {Q : Clock → ρ → Prop}
    (h : p.Keeps R i t Q) {a : α} {w : Bool} (ha : p.access = some (a, w)) :
    a ∈ R.read i t ∧ (w = true → a ∈ R.write i t) := by
  cases p with
  | load a' k => cases ha; exact ⟨h.1, by simp⟩
  | store a' v k => cases ha; exact ⟨R.write_subset i t h.1, fun _ => h.1⟩
  | ret r => cases ha
  | shfl v k => cases ha
  | sync k => cases ha

omit [DecidableEq ω] in
/-- What a thread may write now, no other thread is about to touch. -/
theorem Config.Kept.not_race (h : c.Kept R) : ¬ c.Race := by
  obtain ⟨clock, hclock, h⟩ := h
  rintro ⟨i, j, a, hij, hi, w, hj⟩
  exact R.apart hij hclock.ofBlock hclock.ofWarp a (((h i).access hi).2 rfl) ((h j).access hj).1

/-- A move writes at most one cell. -/
theorem Move.agree (h : Move block warp c S f ws) {w u : α × β} (hw : w ∈ ws) (hu : u ∈ ws) :
    w = u := by
  cases h with
  | store h => rw [List.mem_singleton.mp hw, List.mem_singleton.mp hu]
  | load h => simp at hw
  | shfl _ h => simp at hw
  | sync _ h => simp at hw

variable [DecidableEq α]

/-- A move is determined by any of the threads that it lets go on. -/
theorem Move.unique (h : Move block warp c S f ws) (h' : Move block warp c S' f' ws') {i : ι}
    (hi : i ∈ S) (hi' : i ∈ S') : c.after S f ws = c.after S' f' ws' := by
  cases h with
  | load h =>
    obtain rfl := hi
    cases h' with
    | load h' => obtain rfl := hi'; rw [h] at h'; cases h'; rfl
    | store h' => obtain rfl := hi'; rw [h] at h'; cases h'
    | shfl _ h' => have h' := h' _ hi'; rw [h] at h'; cases h'
    | sync _ h' => have h' := h' _ hi'; rw [h] at h'; cases h'
  | store h =>
    obtain rfl := hi
    cases h' with
    | load h' => obtain rfl := hi'; rw [h] at h'; cases h'
    | store h' => obtain rfl := hi'; rw [h] at h'; cases h'; rfl
    | shfl _ h' => have h' := h' _ hi'; rw [h] at h'; cases h'
    | sync _ h' => have h' := h' _ hi'; rw [h] at h'; cases h'
  | @shfl w v k _ h =>
    obtain rfl : warp i = w := hi
    cases h' with
    | load h' => obtain rfl := hi'; rw [h _ rfl] at h'; cases h'
    | store h' => obtain rfl := hi'; rw [h _ rfl] at h'; cases h'
    | @shfl w' v' k' _ h' =>
      obtain rfl : warp i = w' := hi'
      -- the threads of the warp have one program, so one offer and one continuation
      have heq : ∀ j, warp j = warp i → v j = v' j ∧ k j = k' j := fun j hj =>
        (Prog.shfl.injEq _ _ _ _).mp ((h j hj).symm.trans (h' j hj))
      refine Config.after_congr fun j hj => ?_
      have hlanes : lanes warp v j = lanes warp v' j := by
        funext l
        simp only [lanes]
        split_ifs with hl
        · exact (heq l (hl.trans hj)).1
        · exact (heq j hj).1
      rw [(heq j hj).2, hlanes]
    | sync _ h' => have h' := h' _ hi'; rw [h _ rfl] at h'; cases h'
  | @sync b k _ h =>
    obtain rfl : block i = b := hi
    cases h' with
    | load h' => obtain rfl := hi'; rw [h _ rfl] at h'; cases h'
    | store h' => obtain rfl := hi'; rw [h _ rfl] at h'; cases h'
    | shfl _ h' => have h' := h' _ hi'; rw [h _ rfl] at h'; cases h'
    | @sync b' k' _ h' =>
      obtain rfl : block i = b' := hi'
      exact Config.after_congr fun j hj => (Prog.sync.injEq _ _).mp ((h j hj).symm.trans (h' j hj))

/-- Every step keeps the threads to their rights. -/
theorem Config.Kept.step (h : c.Kept R) (hs : Step block warp c c') : c'.Kept R := by
  classical
  obtain ⟨clock, hclock, h⟩ := h
  obtain ⟨S, f, ws, hm, rfl⟩ := hs
  cases hm with
  | @load i a k hp =>
    refine ⟨clock, hclock, fun j => ?_⟩
    by_cases hj : j ∈ ({i} : Set ι)
    · obtain rfl := hj
      have hi := h j
      rw [hp] at hi
      rw [Config.after_prog_of_mem (Set.mem_singleton j)]
      exact hi.2 (c.mem a)
    · rw [Config.after_prog_of_notMem hj]
      exact h j
  | @store i a v k hp =>
    refine ⟨clock, hclock, fun j => ?_⟩
    by_cases hj : j ∈ ({i} : Set ι)
    · obtain rfl := hj
      have hi := h j
      rw [hp] at hi
      rw [Config.after_prog_of_mem (Set.mem_singleton j)]
      exact hi.2
    · rw [Config.after_prog_of_notMem hj]
      exact h j
  | @shfl w v k _ hp =>
    refine ⟨_, hclock.shfl w, fun j => ?_⟩
    by_cases hj : warp j = w
    · have hi := h j
      rw [hp j hj] at hi
      rw [Config.after_prog_of_mem (S := {i | warp i = w}) hj, if_pos hj]
      exact hi (lanes warp v j)
    · rw [Config.after_prog_of_notMem (S := {i | warp i = w}) hj, if_neg hj]
      exact h j
  | @sync b k _ hp =>
    refine ⟨_, hclock.sync b, fun j => ?_⟩
    by_cases hj : block j = b
    · have hi := h j
      rw [hp j hj] at hi
      rw [Config.after_prog_of_mem (S := {i | block i = b}) hj, if_pos hj]
      exact hi
    · rw [Config.after_prog_of_notMem (S := {i | block i = b}) hj, if_neg hj]
      exact h j

omit [DecidableEq α] in
/-- Without a race, moves of different threads write different cells. -/
theorem Move.writes_ne (hrace : ¬ c.Race) (hm : Move block warp c S f ws)
    (hm' : Move block warp c S' f' ws') (hdisj : ∀ i ∈ S, i ∉ S') {w u : α × β} (hw : w ∈ ws)
    (hu : u ∈ ws') : w.1 ≠ u.1 := by
  intro heq
  obtain ⟨i, hi, hai⟩ := hm.access_of_mem hw
  obtain ⟨j, hj, haj⟩ := hm'.access_of_mem hu
  exact hrace ⟨i, j, w.1, fun hij => hdisj i hi (hij ▸ hj), hai, true, heq ▸ haj⟩

/-- Without a race, a move is still there after a move of other threads. -/
theorem Move.persists_after (hrace : ¬ c.Race) (hm : Move block warp c S f ws)
    (hm' : Move block warp c S' f' ws') (hdisj : ∀ i ∈ S, i ∉ S') :
    Move block warp (c.after S' f' ws') S f ws := by
  refine hm.persists (fun i hi => ?_) fun i hi a ha => ?_
  · exact Config.after_prog_of_notMem (hdisj i hi)
  · refine Scatter.apply_of_forall_ne fun w hw heq => ?_
    obtain ⟨j, hj, haj⟩ := hm'.access_of_mem hw
    exact hrace ⟨j, i, a, fun hji => hdisj i hi (hji ▸ hj), heq ▸ haj, false, ha⟩

/-- Without a race, the order of two moves of different threads does not matter. -/
theorem Move.after_comm (hrace : ¬ c.Race) (hm : Move block warp c S f ws)
    (hm' : Move block warp c S' f' ws') (hdisj : ∀ i ∈ S, i ∉ S') :
    (c.after S f ws).after S' f' ws' = (c.after S' f' ws').after S f ws := by
  refine congrArg₂ Config.mk ?_ ?_
  · refine (Scatter.apply_append _ ws ws').symm.trans
      ((Scatter.apply_eq_of_mem_iff (fun w => ?_) ?_ _).trans (Scatter.apply_append _ ws' ws))
    · rw [List.mem_append, List.mem_append, or_comm]
    · intro w hw u hu heq
      rcases List.mem_append.mp hw with hw | hw
      · rcases List.mem_append.mp hu with hu | hu
        · rw [hm.agree hw hu]
        · exact absurd heq (hm.writes_ne hrace hm' hdisj hw hu)
      · rcases List.mem_append.mp hu with hu | hu
        · exact absurd heq.symm (hm.writes_ne hrace hm' hdisj hu hw)
        · rw [hm'.agree hw hu]
  · funext i
    by_cases hi : i ∈ S
    · have hi' : i ∉ S' := hdisj i hi
      simp [Config.after, hi, hi']
    · by_cases hi' : i ∈ S'
      · simp [Config.after, hi, hi']
      · simp [Config.after, hi, hi']

/-- Threads that keep to their rights take steps that commute. -/
theorem commutes (R : Rights α block warp) :
    Diamond.Commutes (Step (β := β) block warp) (Config.Kept R) where
  keeps := Config.Kept.step
  diamond := by
    intro c c₁ c₂ hc h₁ h₂
    obtain ⟨S, f, ws, hm, rfl⟩ := h₁
    obtain ⟨S', f', ws', hm', rfl⟩ := h₂
    by_cases hdisj : ∀ i ∈ S, i ∉ S'
    · have hrace := hc.not_race
      refine .inr ⟨(c.after S f ws).after S' f' ws', ⟨S', f', ws', ?_, rfl⟩, S, f, ws, ?_, ?_⟩
      · exact hm'.persists_after hrace hm fun i hi hi' => hdisj i hi' hi
      · exact hm.persists_after hrace hm' hdisj
      · exact hm.after_comm hrace hm' hdisj
    · push Not at hdisj
      obtain ⟨i, hi, hi'⟩ := hdisj
      exact .inl (hm.unique hm' hi hi')

/-- Where every thread has ended, nothing more happens. -/
theorem Config.Finished.stuck (h : c.Finished) : Diamond.Stuck (Step block warp) c := by
  rintro _ ⟨S, f, ws, hm, -⟩
  cases hm with
  | @load i a k hp => rw [h i] at hp; cases hp
  | @store i a v k hp => rw [h i] at hp; cases hp
  | @shfl w v k hw hp =>
    obtain ⟨i, hi⟩ := hw
    have := hp i hi
    rw [h i] at this
    cases this
  | @sync b k hb hp =>
    obtain ⟨i, hi⟩ := hb
    have := hp i hi
    rw [h i] at this
    cases this

/-- What holds of every interleaving of a grid: no two threads ever race, no run is longer than a bound, and
every run can be completed to the one final memory. -/
structure Ends (block : ι → κ) (warp : ι → ω) (c : Config ι α β) (mem : α → β) : Prop where
  not_race : ∀ c', Steps block warp c c' → ¬ c'.Race
  bounded : ∃ n, ∀ m c', Diamond.StepsIn (Step block warp) m c c' → m ≤ n
  completes : ∀ c', Steps block warp c c' → ∃ z, Steps block warp c' z ∧ z.Finished ∧ z.mem = mem

/-- A run that can go no further has ended with the final memory, all threads done. -/
theorem Ends.of_stuck {mem : α → β} (h : Ends block warp c mem) (hc : Steps block warp c c')
    (hstuck : Diamond.Stuck (Step block warp) c') : c'.Finished ∧ c'.mem = mem := by
  obtain ⟨z, hz, hfin, hmem⟩ := h.completes c' hc
  rcases hz.cases_head with rfl | ⟨u, hu, -⟩
  · exact ⟨hfin, hmem⟩
  · exact absurd hu (hstuck u)

/-- One run to the end is enough, for threads that keep to their rights. -/
theorem Config.Kept.ends {z : Config ι α β} (h : c.Kept R) (hrun : Steps block warp c z)
    (hz : z.Finished) : Ends block warp c z.mem where
  not_race _ hc' := ((commutes R).keeps_run h hc').not_race
  bounded := (commutes R).exists_bound h hz.stuck hrun
  completes _ hc' := ⟨z, (commutes R).completes h hz.stuck hrun hc', hz, rfl⟩

end Commute

end Simt

import SciAttention.Common.Butterfly
import SciAttention.Common.SimtRun
import SciAttention.Common.Strided
import Mathlib.Data.Fintype.Prod
import Mathlib.Data.Fintype.EquivFin

/-!
# The block reductions, thread by thread

`BlockReduceMax` and `BlockReduceSum` of `cuda_common/numerics.cuh` as the program that every thread of a
block runs: five exchanges inside the warp, a scratch cell per warp, a second round of exchanges in the
first warp, and the result broadcast through the first scratch cell, with three barriers. `goes_blockReduce`
runs the threads of a block through it; all of them end with `Butterfly.block` of their values.
-/

namespace SciAttention

open Simt

universe u

/-! ## Threads -/

/-- A thread of a launch: `blockIdx.x` and `threadIdx.x`. -/
abbrev Tid (grid n : ℕ) : Type := Fin grid × Fin n

namespace Tid

variable {grid n : ℕ}

/-- `threadIdx.x`. -/
def tid (i : Tid grid n) : ℕ := i.2

/-- The block of a thread. -/
def block (i : Tid grid n) : Fin grid := i.1

/-- The warp of a thread, told apart from those of other blocks. -/
def warp (i : Tid grid n) : Fin grid × ℕ := (i.block, i.tid / 32)

/-- The thread whose value `__shfl_xor_sync` gives. -/
def peer (i : Tid grid n) (offset : ℕ) : Tid grid n :=
  (i.1, ⟨(i.tid ^^^ offset) % n, Nat.mod_lt _ (Nat.zero_lt_of_lt i.2.isLt)⟩)

theorem tid_lt (i : Tid grid n) : i.tid < n := i.2.isLt

/-- The threads of a block. -/
def ofBlock (b : Fin grid) : List (Tid grid n) := (List.finRange n).map fun t => (b, t)

theorem mem_ofBlock {b : Fin grid} {i : Tid grid n} : i ∈ ofBlock b ↔ i.block = b := by
  rw [ofBlock, List.mem_map]
  constructor
  · rintro ⟨t, -, rfl⟩
    rfl
  · rintro rfl
    exact ⟨i.2, List.mem_finRange _, rfl⟩

theorem nodup_ofBlock (b : Fin grid) : (ofBlock b : List (Tid grid n)).Nodup :=
  (List.nodup_finRange n).map fun _ _ h => (Prod.mk.inj h).2

/-- The threads of a block, one after another. -/
theorem flatMap_ofBlock {γ : Type*} (b : Fin grid) (g : ℕ → List γ) :
    ((ofBlock b : List (Tid grid n)).flatMap fun i => g i.tid) = (List.range n).flatMap g := by
  rw [ofBlock, List.flatMap_map, ← List.map_coe_finRange_eq_range, List.flatMap_map]
  rfl

/-- All threads of a launch. -/
def all (grid n : ℕ) : List (Tid grid n) := (List.finRange grid).flatMap ofBlock

theorem mem_all (i : Tid grid n) : i ∈ all grid n :=
  List.mem_flatMap.mpr ⟨i.block, List.mem_finRange _, mem_ofBlock.mpr rfl⟩

theorem nodup_all : (all grid n).Nodup :=
  Strided.nodup_flatMap_of_key block (List.nodup_finRange grid) (fun _ _ _ hi => mem_ofBlock.mp hi)
    fun b _ => nodup_ofBlock b

/-- All threads of a launch, numbered through. -/
theorem flatMap_all {γ : Type*} (g : ℕ → List γ) :
    ((all grid n).flatMap fun i => g (i.block * n + i.tid)) = (List.range (grid * n)).flatMap g := by
  rw [all, List.flatMap_assoc, ← Strided.range_mul_flatMap, ← List.map_coe_finRange_eq_range (n := grid),
    List.flatMap_map]
  refine Strided.flatMap_congr fun b _ => ?_
  rw [← flatMap_ofBlock b fun t => g (b * n + t)]
  exact Strided.flatMap_congr fun i hi => by rw [mem_ofBlock.mp hi]

/-- The threads of a warp. -/
def ofWarp (hpos : 0 < n) (w : Fin grid × ℕ) : List (Tid grid n) :=
  (List.range 32).map fun lane => (w.1, ⟨(w.2 * 32 + lane) % n, Nat.mod_lt _ hpos⟩)

theorem tid_ofWarp (hpos : 0 < n) {w : Fin grid × ℕ} (hw : w.2 * 32 + 32 ≤ n) {lane : ℕ}
    (h : lane < 32) :
    tid ((w.1, ⟨(w.2 * 32 + lane) % n, Nat.mod_lt _ hpos⟩) : Tid grid n) = w.2 * 32 + lane :=
  Nat.mod_eq_of_lt (by omega)

theorem mem_ofWarp (hpos : 0 < n) {w : Fin grid × ℕ} (hw : w.2 * 32 + 32 ≤ n) {i : Tid grid n} :
    i ∈ ofWarp hpos w ↔ i.warp = w := by
  rw [ofWarp, List.mem_map]
  constructor
  · rintro ⟨lane, hlane, rfl⟩
    have htid := tid_ofWarp hpos hw (List.mem_range.mp hlane)
    rw [List.mem_range] at hlane
    exact Prod.ext rfl (by rw [warp, htid]; omega)
  · rintro rfl
    refine ⟨i.tid % 32, List.mem_range.mpr (Nat.mod_lt _ (by decide)), Prod.ext rfl (Fin.ext ?_)⟩
    change (i.tid / 32 * 32 + i.tid % 32) % n = i.tid
    rw [Nat.div_add_mod', Nat.mod_eq_of_lt i.tid_lt]

theorem nodup_ofWarp (hpos : 0 < n) {w : Fin grid × ℕ} (hw : w.2 * 32 + 32 ≤ n) :
    (ofWarp hpos w).Nodup := by
  refine List.Nodup.map_on (fun x hx y hy heq => ?_) List.nodup_range
  have heq := congrArg tid heq
  rw [tid_ofWarp hpos hw (List.mem_range.mp hx), tid_ofWarp hpos hw (List.mem_range.mp hy)] at heq
  exact Nat.add_left_cancel heq

/-- The lanes of a warp, one after another. -/
theorem flatMap_ofWarp {γ : Type*} (hpos : 0 < n) {w : Fin grid × ℕ} (hw : w.2 * 32 + 32 ≤ n)
    (g : ℕ → List γ) : ((ofWarp hpos w).flatMap fun i => g (i.tid % 32)) =
      (List.range 32).flatMap g := by
  rw [ofWarp, List.flatMap_map]
  refine Strided.flatMap_congr fun lane hlane => ?_
  have htid := tid_ofWarp hpos hw (List.mem_range.mp hlane)
  rw [htid, Strided.flat_mod _ (List.mem_range.mp hlane)]

/-- An exchange stays in its warp. -/
theorem xor_eq (t : ℕ) {offset : ℕ} (h : offset < 32) :
    t ^^^ offset = t / 32 * 32 + (t % 32 ^^^ offset) := by
  have hdiv := Nat.xor_div_two_pow (a := t) (b := offset) (n := 5)
  have hmod := Nat.xor_mod_two_pow (a := t) (b := offset) (n := 5)
  have hzero : offset / 2 ^ 5 = 0 := Nat.div_eq_of_lt h
  have hself : offset % 2 ^ 5 = offset := Nat.mod_eq_of_lt h
  rw [hzero, Nat.xor_zero] at hdiv
  rw [hself] at hmod
  rw [← Nat.div_add_mod' (t ^^^ offset) 32]
  exact congrArg₂ (fun x y => x * 32 + y) hdiv hmod

/-- In a block of whole warps, the peer of a thread is a thread of its warp. -/
theorem tid_peer (hn : 32 ∣ n) (i : Tid grid n) {offset : ℕ} (h : offset < 32) :
    (i.peer offset).tid = i.tid / 32 * 32 + (i.tid % 32 ^^^ offset) := by
  have hlt : i.tid % 32 ^^^ offset < 32 :=
    Nat.xor_lt_two_pow (n := 5) (Nat.mod_lt _ (by decide)) h
  obtain ⟨m, rfl⟩ := hn
  have hi := i.tid_lt
  change (i.tid ^^^ offset) % (32 * m) = _
  rw [xor_eq i.tid h, Nat.mod_eq_of_lt (by omega)]

theorem warp_peer (hn : 32 ∣ n) (i : Tid grid n) {offset : ℕ} (h : offset < 32) :
    (i.peer offset).warp = i.warp := by
  have hlt : i.tid % 32 ^^^ offset < 32 :=
    Nat.xor_lt_two_pow (n := 5) (Nat.mod_lt _ (by decide)) h
  refine Prod.ext rfl ?_
  change (i.peer offset).tid / 32 = i.tid / 32
  rw [tid_peer hn i h]
  omega

end Tid

/-! ## The program -/

section Program

variable {α : Type*} {β : Type u} {grid n : ℕ}

/-- The loop of exchanges `value = op(value, __shfl_xor_sync(mask, value, offset))`. -/
def shflReduce (op : β → β → β) (offsets : List ℕ) (i : Tid grid n) (value : β) :
    Prog (Tid grid n) α β β :=
  offsets.foldlM (fun value offset => do return op value (← .exchange (i.peer offset) value)) value

/-- The value of a lane in the second stage: that of a warp, or the neutral element. -/
def warpValue (e : β) (scratch : ℕ → α) (i : Tid grid n) : Prog (Tid grid n) α β β :=
  if i.tid % 32 < (n + 31) / 32 then .get (scratch (i.tid % 32)) else .ret e

/-- The second stage, which only the first warp enters. -/
def firstWarp (op : β → β → β) (e : β) (scratch : ℕ → α) (i : Tid grid n) :
    Prog (Tid grid n) α β PUnit.{u + 1} := do
  let blockValue ← warpValue e scratch i
  let blockValue ← shflReduce op Butterfly.warp i blockValue
  .when (i.tid % 32 = 0) (.put (scratch 0) blockValue)

/-- `BlockReduceMax` and `BlockReduceSum`: the operation, its neutral element and the scratch cells. -/
def blockReduce (op : β → β → β) (e : β) (scratch : ℕ → α) (i : Tid grid n) (value : β) :
    Prog (Tid grid n) α β β := do
  let value ← shflReduce op Butterfly.warp i value
  .when (i.tid % 32 = 0) (.put (scratch (i.tid / 32)) value)
  .barrier
  .when (i.tid < 32) (firstWarp op e scratch i)
  .barrier
  let result ← .get (scratch 0)
  .barrier
  return result

end Program

/-! ## Rights -/

/-- What the threads of a launch may do with the cells `α`. -/
abbrev TidRights (α : Type*) (grid n : ℕ) := Rights α (Tid.block : Tid grid n → Fin grid) Tid.warp

section Keeps

variable {α : Type*} {β : Type u} {grid n : ℕ} {R : TidRights α grid n} {i : Tid grid n} {t : Clock}

theorem shflReduce_keeps {op : β → β → β} {offsets : List ℕ} {v : β} {Q : Clock → β → Prop}
    (hQ : ∀ r, Q (t.exchanged offsets.length) r) : (shflReduce op offsets i v).Keeps R i t Q := by
  induction offsets generalizing t v with
  | nil => exact hQ v
  | cons x offsets ih =>
    rw [shflReduce, List.foldlM_cons]
    refine .bind (.bind (.exchange fun _ => .ret (ih fun r => ?_)))
    rw [Clock.shfl_exchanged]
    exact hQ r

/-- What a thread of a block reduction that starts after `e` barriers may do with the scratch cells. -/
structure ScratchRights (R : TidRights α grid n) (scratch : ℕ → α) (i : Tid grid n) (e : ℕ) :
    Prop where
  ofWarp : ∀ t : Clock, t.barriers = e → i.tid % 32 = 0 → scratch (i.tid / 32) ∈ R.write i t
  ofLane : ∀ t : Clock, t.barriers = e + 1 → i.tid < 32 → i.tid < (n + 31) / 32 →
    scratch i.tid ∈ R.read i t
  first : ∀ t : Clock, t.barriers = e + 1 → i.tid = 0 → scratch 0 ∈ R.write i t
  result : ∀ t : Clock, t.barriers = e + 2 → scratch 0 ∈ R.read i t

/-- Which scratch cells thread `t` may read after `e` barriers, when every third one starts a reduction: its
own cell in the first two stages, all of them when the result is broadcast. -/
def scratchRead (e t w : ℕ) : Prop := if e % 3 = 0 then t = w * 32 else if e % 3 = 1 then t = w else True

/-- Which scratch cells thread `t` may write after `e` barriers. -/
def scratchWrite (e t w : ℕ) : Prop :=
  if e % 3 = 0 then t = w * 32 else if e % 3 = 1 then t = 0 ∧ w = 0 else False

theorem scratchRead_of_write {e t w : ℕ} (h : scratchWrite e t w) : scratchRead e t w := by
  unfold scratchWrite at h
  unfold scratchRead
  split_ifs at h ⊢ with h₀ h₁
  · exact h
  · rw [h.1, h.2]

/-- A scratch cell that a thread may write, no other thread may read. -/
theorem eq_of_scratchWrite {e t t' w : ℕ} (h : scratchWrite e t w) (h' : scratchRead e t' w) : t = t' := by
  unfold scratchWrite at h
  unfold scratchRead at h'
  split_ifs at h h' with h₀ h₁
  · rw [h, h']
  · rw [h.1, h', h.2]

/-- Rights that are these on the scratch cells are enough for a reduction. -/
theorem ScratchRights.of_phase {scratch : ℕ → α} {e : ℕ} (he : e % 3 = 0)
    (hread : ∀ (t : Clock) w, scratchRead t.barriers i.tid w → scratch w ∈ R.read i t)
    (hwrite : ∀ (t : Clock) w, scratchWrite t.barriers i.tid w → scratch w ∈ R.write i t) :
    ScratchRights R scratch i e where
  ofWarp t ht hz := hwrite t _ (by rw [ht, scratchWrite, if_pos he]; omega)
  ofLane t ht _ _ := hread t _ (by rw [ht, scratchRead, if_neg (by omega), if_pos (by omega)])
  first t ht hz :=
    hwrite t 0 (by rw [ht, scratchWrite, if_neg (by omega), if_pos (by omega)]; exact ⟨hz, rfl⟩)
  result t ht := hread t 0 (by rw [ht, scratchRead, if_neg (by omega), if_neg (by omega)]; trivial)

/-- A thread that has these rights keeps to them, and ends three barriers later. -/
theorem blockReduce_keeps {op : β → β → β} {e₀ v : β} {scratch : ℕ → α}
    {Q : Clock → β → Prop}
    (h : ScratchRights R scratch i t.barriers) (hQ : ∀ r, Q ⟨t.barriers + 3, 0⟩ r) :
    (blockReduce op e₀ scratch i v).Keeps R i t Q := by
  -- from the last stage to the first
  have hrest : ∀ t₁ : Clock, t₁.barriers = t.barriers + 1 → Prog.Keeps R i
      (Prog.barrier.bind fun _ => (Prog.get (scratch 0)).bind fun result =>
        Prog.barrier.bind fun _ => (Prog.ret result : Prog (Tid grid n) α β β)) t₁ Q := by
    intro t₁ ht₁
    refine .bind (.barrier (.bind (.get (h.result _ (by rw [Clock.sync_barriers, ht₁])) fun r => ?_)))
    refine .bind (.barrier (.ret ?_))
    rw [Clock.sync, Clock.sync_barriers, ht₁]
    exact hQ r
  have hsecond : (Prog.when (i.tid < 32) (firstWarp op e₀ scratch i)).Keeps R i t.sync
      fun t₁ _ => t₁.barriers = t.barriers + 1 := by
    refine .when (fun hfirst => ?_) fun _ => rfl
    have hlane : i.tid % 32 = i.tid := Nat.mod_eq_of_lt hfirst
    have hvalue : (warpValue e₀ scratch i).Keeps R i t.sync fun t₁ _ => t₁ = t.sync := by
      rw [warpValue, hlane]
      split_ifs with hwarp
      · exact .get (h.ofLane _ rfl hfirst hwarp) fun _ => rfl
      · exact .ret rfl
    refine .bind (hvalue.mono ?_)
    rintro _ v rfl
    refine .bind (shflReduce_keeps fun r => .when (fun hz => ?_) fun _ => rfl)
    exact .put (h.first _ rfl (hlane ▸ hz)) rfl
  have hbarrier : ∀ t₀ : Clock, t₀.barriers = t.barriers → Prog.Keeps R i (Prog.barrier.bind fun _ =>
      (Prog.when (i.tid < 32) (firstWarp op e₀ scratch i)).bind fun _ => Prog.barrier.bind fun _ =>
        (Prog.get (scratch 0)).bind fun result => Prog.barrier.bind fun _ =>
          (Prog.ret result : Prog (Tid grid n) α β β)) t₀ Q := by
    intro t₀ ht₀
    refine .bind (.barrier (.bind ?_))
    rw [Clock.sync_congr ht₀]
    exact hsecond.mono fun t₁ _ ht₁ => hrest t₁ ht₁
  refine .bind (shflReduce_keeps fun r => .bind ?_)
  exact .when (fun hz => .put (h.ofWarp _ rfl hz) (hbarrier _ rfl)) fun _ => hbarrier _ rfl

end Keeps

/-! ## Exchanges -/

section Goes

variable {α : Type*} {β : Type u} {grid n : ℕ} [DecidableEq α] {b : Fin grid} {mem : α → β}
  {f f' : Tid grid n → Thread (Tid grid n) α β}

open scoped Classical in
/-- Whole warps run through the exchanges, the values being `u` of the thread's index. -/
theorem goes_shflReduce (hn : 32 ∣ n) {op : β → β → β} {offsets : List ℕ}
    (hoffsets : ∀ x ∈ offsets, x < 32) {T P : Set (Tid grid n)} (hP : P ⊆ T)
    (hwarp : ∀ i j : Tid grid n, i.warp = j.warp → i ∈ P → j ∈ P) {u : ℕ → β}
    {k : Tid grid n → β → Thread (Tid grid n) α β}
    (hf : ∀ i ∈ P, f i = (shflReduce op offsets i (u i.tid)).bind (k i))
    (hf' : ∀ i ∈ P, f' i =
      k i (Butterfly.reduce op offsets (fun lane => u (i.tid / 32 * 32 + lane)) (i.tid % 32)))
    (hother : ∀ i ∈ T, i ∉ P → f' i = f i) :
    Goes Tid.block Tid.warp T mem f mem f' := by
  induction offsets generalizing f u with
  | nil =>
    refine .refl fun i hi => ?_
    by_cases hiP : i ∈ P
    · rw [hf i hiP, hf' i hiP]
      exact congrArg (k i) (congrArg u (Nat.div_add_mod' i.tid 32).symm)
    · exact (hother i hi hiP).symm
  | cons x offsets ih =>
    have hx : x < 32 := hoffsets x List.mem_cons_self
    -- the values behind the first exchange, again as a function of the thread's index
    let u' : ℕ → β := fun t => op (u t) (u (t / 32 * 32 + (t % 32 ^^^ x)))
    let f₁ : Tid grid n → Thread (Tid grid n) α β := fun i =>
      if i ∈ P then (shflReduce op offsets i (u' i.tid)).bind (k i) else f i
    have hfirst : Goes Tid.block Tid.warp T mem f mem f₁ := by
      refine Goes.shfl (v := fun i => u i.tid) (k := fun i w =>
        (shflReduce op offsets i (op (u i.tid) (w (i.peer x)))).bind (k i)) hP
        (Set.finite_univ.subset (Set.subset_univ P)) hwarp hf (fun i hi => ?_) fun i _ hi => if_neg hi
      have hpeer : lanes Tid.warp (fun i : Tid grid n => u i.tid) i (i.peer x) =
          u (i.tid / 32 * 32 + (i.tid % 32 ^^^ x)) := by
        rw [lanes, if_pos (Tid.warp_peer hn i hx), Tid.tid_peer hn i hx]
      simp only [f₁, u', if_pos hi, hpeer]
    refine hfirst.trans (ih (fun y hy => hoffsets y (List.mem_cons_of_mem _ hy)) (u := u')
      (fun i hi => if_pos hi) (fun i hi => ?_) fun i hb hi => ?_)
    · rw [hf' i hi]
      refine congrArg (k i) (Butterfly.reduce_congr (fun y hy => hoffsets y (List.mem_cons_of_mem _ hy))
        (fun lane hlane => ?_) (Nat.mod_lt _ (by decide)))
      have hdiv : (i.tid / 32 * 32 + lane) / 32 = i.tid / 32 := by omega
      have hmod : (i.tid / 32 * 32 + lane) % 32 = lane := by omega
      simp only [Butterfly.exchange, u', hdiv, hmod]
    · exact (hother i hb hi).trans (if_neg hi).symm

/-- What the first stage writes: the values of the warps. -/
def warpWrites (op : β → β → β) (scratch : ℕ → α) (b : Fin grid) (n : ℕ) (u : ℕ → β) :
    List (α × β) :=
  (Tid.ofBlock b : List (Tid grid n)).flatMap fun i =>
    if i.tid % 32 = 0 then
      [(scratch (i.tid / 32),
        Butterfly.reduce op Butterfly.warp (fun lane => u (i.tid / 32 * 32 + lane)) 0)]
    else []

/-- What the second stage writes: the result. -/
def resultWrites (op : β → β → β) (e₀ : β) (scratch : ℕ → α) (b : Fin grid) (n : ℕ)
    (u : ℕ → β) :
    List (α × β) :=
  (Tid.ofBlock b : List (Tid grid n)).flatMap fun i =>
    if i.tid = 0 then [(scratch 0, Butterfly.block op e₀ n u)] else []

/-- What a block reduction leaves in the scratch cells. -/
def scratchWrites (op : β → β → β) (e₀ : β) (scratch : ℕ → α) (b : Fin grid) (n : ℕ)
    (u : ℕ → β) :
    List (α × β) :=
  warpWrites op scratch b n u ++ resultWrites op e₀ scratch b n u

omit [DecidableEq α] in
theorem exists_of_mem_scratchWrites {op : β → β → β} {e₀ : β} {scratch : ℕ → α}
    {u : ℕ → β}
    {w : α × β} (hw : w ∈ scratchWrites op e₀ scratch b n u) : ∃ t, w.1 = scratch t := by
  rcases List.mem_append.mp hw with hw | hw
  · obtain ⟨i, -, hi⟩ := List.mem_flatMap.mp hw
    split_ifs at hi with h
    · exact ⟨_, congrArg Prod.fst (List.mem_singleton.mp hi)⟩
    · simp at hi
  · obtain ⟨i, -, hi⟩ := List.mem_flatMap.mp hw
    split_ifs at hi with h
    · exact ⟨_, congrArg Prod.fst (List.mem_singleton.mp hi)⟩
    · simp at hi

/-- The scratch cells before the second stage. -/
theorem apply_warpWrites (hn : 32 ∣ n) {op : β → β → β} {scratch : ℕ → α}
    (hscratch : Function.Injective scratch) {u : ℕ → β} {t : ℕ} (ht : t < (n + 31) / 32) :
    Scatter.apply mem (warpWrites op scratch b n u) (scratch t) =
      Butterfly.reduce op Butterfly.warp (fun lane => u (t * 32 + lane)) 0 := by
  have hlt : t * 32 < n := by
    obtain ⟨m, rfl⟩ := hn
    omega
  refine Scatter.apply_of_agree
    (List.mem_flatMap.mpr ⟨(b, ⟨t * 32, hlt⟩), Tid.mem_ofBlock.mpr rfl, ?_⟩)
    fun w hw heq => ?_
  · have hdiv : Tid.tid (b, (⟨t * 32, hlt⟩ : Fin n)) / 32 = t := by
      change t * 32 / 32 = t
      omega
    have hmod : Tid.tid (b, (⟨t * 32, hlt⟩ : Fin n)) % 32 = 0 := by
      change t * 32 % 32 = 0
      omega
    simp [hdiv, hmod]
  · obtain ⟨i, -, hi⟩ := List.mem_flatMap.mp hw
    split_ifs at hi with h
    · obtain rfl := List.mem_singleton.mp hi
      rw [hscratch heq]
    · simp at hi

/-- The first scratch cell at the end. -/
theorem apply_resultWrites (hpos : 0 < n) {op : β → β → β} {e₀ : β} {scratch : ℕ → α}
    {u : ℕ → β} :
    Scatter.apply mem (resultWrites op e₀ scratch b n u) (scratch 0) = Butterfly.block op e₀ n u := by
  refine Scatter.apply_of_agree (List.mem_flatMap.mpr ⟨(b, ⟨0, hpos⟩), Tid.mem_ofBlock.mpr rfl, ?_⟩)
    fun w hw _ => ?_
  · simp [Tid.tid]
  · obtain ⟨i, -, hi⟩ := List.mem_flatMap.mp hw
    split_ifs at hi with h
    · obtain rfl := List.mem_singleton.mp hi
      rfl
    · simp at hi

/-! ## Stages -/

variable {R : TidRights α grid n} {t : Clock} {e : ℕ}

/-- Threads of the block run a program without rendezvous. -/
theorem goes_threads {ρ : Type*} {p : Tid grid n → Prog (Tid grid n) α β ρ}
    {k : Tid grid n → ρ → Thread (Tid grid n) α β} {w : Tid grid n → List (α × β)}
    {r : Tid grid n → ρ}
    (hf : ∀ i, i.block = b → f i = (p i).bind (k i))
    (hlocal : ∀ i, i.block = b → Local (p i) mem (w i) (r i))
    (hkeeps : ∀ i, i.block = b → (p i).Keeps R i t fun _ _ => True) :
    Goes Tid.block Tid.warp {i | i.block = b} mem f
      (Scatter.apply mem ((Tid.ofBlock b).flatMap w)) fun i => k i (r i) :=
  .threads (fun _ => Tid.mem_ofBlock) (Tid.nodup_ofBlock b) hf hlocal hkeeps

/-- The first stage: a scratch cell per warp. -/
theorem goes_warps {op : β → β → β} {scratch : ℕ → α} {u : ℕ → β} (hn : 32 ∣ n)
    (hpos : 0 < n)
    (hR : ∀ i : Tid grid n, i.block = b → ScratchRights R scratch i e)
    {k : Tid grid n → Thread (Tid grid n) α β}
    (hf : ∀ i, i.block = b → f i = (shflReduce op Butterfly.warp i (u i.tid)).bind fun v =>
      (Prog.when (i.tid % 32 = 0) (.put (scratch (i.tid / 32)) v)).bind fun _ =>
        Prog.barrier.bind fun _ => k i) :
    Goes Tid.block Tid.warp {i | i.block = b} mem f
      (Scatter.apply mem (warpWrites op scratch b n u)) k := by
  let value : Tid grid n → β := fun i =>
    Butterfly.reduce op Butterfly.warp (fun lane => u (i.tid / 32 * 32 + lane)) (i.tid % 32)
  let f₁ : Tid grid n → Thread (Tid grid n) α β := fun i =>
    (Prog.when (i.tid % 32 = 0) (.put (scratch (i.tid / 32)) (value i))).bind fun _ =>
      Prog.barrier.bind fun _ => k i
  have hreduce : Goes Tid.block Tid.warp {i | i.block = b} mem f mem f₁ :=
    goes_shflReduce (P := {i | i.block = b}) hn (by decide) (fun _ hi => hi)
      (fun i j hij hi => (congrArg Prod.fst hij).symm.trans hi) hf (fun _ _ => rfl)
      fun i hi hi' => absurd hi hi'
  have hlocal : ∀ i : Tid grid n, i.block = b →
      Local (ι := Tid grid n) (Prog.when (i.tid % 32 = 0) (.put (scratch (i.tid / 32)) (value i))) mem
        (if i.tid % 32 = 0 then [(scratch (i.tid / 32), value i)] else []) ⟨⟩ :=
    fun i _ => .when (.put (scratch (i.tid / 32)) (value i))
  have hstore := goes_threads (R := R) (t := ⟨e, 0⟩) (f := f₁)
    (k := fun i _ => Prog.barrier.bind fun _ => k i) (fun _ _ => rfl) hlocal
    fun i hi => .when (fun hz => .put ((hR i hi).ofWarp _ rfl hz) trivial) fun _ => trivial
  -- the lanes that write are the first ones of their warps
  have hwrites : (Tid.ofBlock b : List (Tid grid n)).flatMap (fun i =>
      if i.tid % 32 = 0 then [(scratch (i.tid / 32), value i)] else []) =
        warpWrites op scratch b n u := by
    refine Strided.flatMap_congr fun i _ => ?_
    split_ifs with hz
    · simp only [value, hz]
    · rfl
  rw [hwrites] at hstore
  exact hreduce.trans (hstore.trans (.sync ⟨(b, ⟨0, hpos⟩), rfl⟩ fun _ _ => rfl))

/-- The second stage: the first warp reduces the scratch cells. -/
theorem goes_firstWarp {op : β → β → β} {e₀ : β} {scratch : ℕ → α} {u : ℕ → β}
    (hn : 32 ∣ n)
    (hpos : 0 < n) (hR : ∀ i : Tid grid n, i.block = b → ScratchRights R scratch i e)
    {k : Tid grid n → Thread (Tid grid n) α β}
    (hcells : ∀ t < (n + 31) / 32, mem (scratch t) =
      Butterfly.reduce op Butterfly.warp (fun lane => u (t * 32 + lane)) 0)
    (hf : ∀ i, i.block = b → f i = (Prog.when (i.tid < 32) (firstWarp op e₀ scratch i)).bind fun _ =>
      Prog.barrier.bind fun _ => k i) :
    Goes Tid.block Tid.warp {i | i.block = b} mem f
      (Scatter.apply mem (resultWrites op e₀ scratch b n u)) k := by
  let w : ℕ → β := fun t => if t < (n + 31) / 32 then mem (scratch t) else e₀
  let store : Tid grid n → β → Thread (Tid grid n) α β := fun i r =>
    (Prog.when (i.tid % 32 = 0) (.put (scratch 0) r)).bind fun _ => Prog.barrier.bind fun _ => k i
  let load : Tid grid n → Prog (Tid grid n) α β β := fun i =>
    if i.tid < 32 then warpValue e₀ scratch i else .ret e₀
  let next : Tid grid n → β → Thread (Tid grid n) α β := fun i v =>
    if i.tid < 32 then (shflReduce op Butterfly.warp i v).bind (store i)
    else Prog.barrier.bind fun _ => k i
  let value : Tid grid n → β := fun i => if i.tid < 32 then w i.tid else e₀
  let f₂ : Tid grid n → Thread (Tid grid n) α β := fun i =>
    if i.tid < 32 then store i (Butterfly.reduce op Butterfly.warp w i.tid)
    else Prog.barrier.bind fun _ => k i
  have hload : Goes Tid.block Tid.warp {i | i.block = b} mem f mem fun i => next i (value i) := by
    have hprog : ∀ i, i.block = b → f i = (load i).bind (next i) := by
      intro i hi
      rw [hf i hi]
      by_cases hfirst : i.tid < 32
      · simp only [load, next, store, Prog.when, firstWarp, if_pos hfirst, Prog.bind_eq, Prog.bind_assoc]
      · simp only [load, next, Prog.when, if_neg hfirst, Prog.ret_bind]
    have hlocal : ∀ i : Tid grid n, i.block = b → Local (load i) mem [] (value i) := by
      intro i _
      by_cases hfirst : i.tid < 32
      · simp only [load, value, w, warpValue, if_pos hfirst, Nat.mod_eq_of_lt hfirst]
        split_ifs with h
        · exact .get _
        · exact .ret
      · simp only [load, value, if_neg hfirst]
        exact .ret
    have hkeeps : ∀ i : Tid grid n, i.block = b → (load i).Keeps R i ⟨e + 1, 0⟩ fun _ _ => True := by
      intro i hi
      by_cases hfirst : i.tid < 32
      · simp only [load, warpValue, if_pos hfirst, Nat.mod_eq_of_lt hfirst]
        split_ifs with hwarp
        · exact .get ((hR i hi).ofLane _ rfl hfirst hwarp) fun _ => trivial
        · trivial
      · simp only [load, if_neg hfirst]
        trivial
    have hgo := goes_threads hprog hlocal hkeeps
    rwa [List.flatMap_eq_nil_iff.mpr fun _ _ => rfl] at hgo
  have hreduce : Goes Tid.block Tid.warp {i | i.block = b} mem (fun i => next i (value i)) mem f₂ := by
    have hwarp : ∀ i j : Tid grid n, i.warp = j.warp → (i.block = b ∧ i.tid < 32) →
        j.block = b ∧ j.tid < 32 := by
      rintro i j hij ⟨hi, hlt⟩
      obtain ⟨hblock, hwarp⟩ := Prod.mk.inj hij
      exact ⟨hblock.symm.trans hi, by omega⟩
    have hnext : ∀ i : Tid grid n, i.block = b ∧ i.tid < 32 →
        next i (value i) = (shflReduce op Butterfly.warp i (w i.tid)).bind (store i) := by
      intro i hi
      simp only [next, value, if_pos hi.2]
    refine goes_shflReduce (P := {i | i.block = b ∧ i.tid < 32}) hn (by decide) (fun _ hi => hi.1) hwarp
      hnext (fun i hi => ?_) fun i hi hi' => ?_
    · have hdiv : i.tid / 32 * 32 = 0 := by
        have := hi.2
        omega
      simp only [f₂, if_pos hi.2, hdiv, Nat.zero_add, Nat.mod_eq_of_lt hi.2]
    · have hlt : ¬ i.tid < 32 := fun hlt => hi' ⟨hi, hlt⟩
      simp only [f₂, next, if_neg hlt]
  have hresult : Butterfly.reduce op Butterfly.warp w 0 = Butterfly.block op e₀ n u := by
    refine Butterfly.reduce_congr (by decide) (fun t _ => ?_) (by decide)
    simp only [w]
    split_ifs with ht
    · exact hcells t ht
    · rfl
  have hstore : Goes Tid.block Tid.warp {i | i.block = b} mem f₂
      (Scatter.apply mem (resultWrites op e₀ scratch b n u)) fun i => Prog.barrier.bind fun _ => k i := by
    have hprog : ∀ i : Tid grid n, i.block = b → f₂ i =
        (Prog.when (i.tid = 0) (.put (scratch 0) (Butterfly.block op e₀ n u))).bind fun _ =>
          Prog.barrier.bind fun _ => k i := by
      intro i _
      by_cases hfirst : i.tid < 32
      · simp only [f₂, store, Prog.when, if_pos hfirst, Nat.mod_eq_of_lt hfirst]
        split_ifs with hz
        · rw [hz, hresult]
        · rfl
      · have hz : ¬ i.tid = 0 := by omega
        simp only [f₂, Prog.when, if_neg hfirst, if_neg hz, Prog.ret_bind]
    exact goes_threads (R := R) (t := ⟨e + 1, 0⟩) (r := fun _ => ⟨⟩)
      (k := fun i _ => Prog.barrier.bind fun _ => k i) hprog (fun _ _ => .when (.put _ _))
      fun i hi => .when (fun hz => .put ((hR i hi).first _ rfl hz) trivial) fun _ => trivial
  exact hload.trans (hreduce.trans (hstore.trans (.sync ⟨(b, ⟨0, hpos⟩), rfl⟩ fun _ _ => rfl)))

/-- The end: every thread reads the result. -/
theorem goes_broadcast {scratch : ℕ → α} (hpos : 0 < n)
    (hR : ∀ i : Tid grid n, i.block = b → ScratchRights R scratch i e)
    {k : Tid grid n → β → Thread (Tid grid n) α β}
    (hf : ∀ i, i.block = b → f i = (Prog.get (scratch 0)).bind fun r => Prog.barrier.bind fun _ =>
      k i r) :
    Goes Tid.block Tid.warp {i | i.block = b} mem f mem fun i => k i (mem (scratch 0)) := by
  have hget := goes_threads (t := ⟨e + 2, 0⟩) hf
    (fun i (_ : i.block = b) => (Local.get (scratch 0) : Local _ mem _ _))
    fun i hi => .get ((hR i hi).result _ rfl) fun _ => trivial
  rw [List.flatMap_eq_nil_iff.mpr fun _ _ => rfl] at hget
  exact hget.trans (.sync ⟨(b, ⟨0, hpos⟩), rfl⟩ fun _ _ => rfl)

/-- The threads of a block run through a reduction: all of them end with the same value. -/
theorem goes_blockReduce {op : β → β → β} {e₀ : β} {scratch : ℕ → α} {u : ℕ → β}
    (hn : 32 ∣ n)
    (hpos : 0 < n) (hscratch : Function.Injective scratch)
    (hR : ∀ i : Tid grid n, i.block = b → ScratchRights R scratch i e)
    {k : Tid grid n → β → Thread (Tid grid n) α β}
    (hf : ∀ i, i.block = b → f i = (blockReduce op e₀ scratch i (u i.tid)).bind (k i)) :
    Goes Tid.block Tid.warp {i | i.block = b} mem f
      (Scatter.apply mem (scratchWrites op e₀ scratch b n u)) fun i =>
        k i (Butterfly.block op e₀ n u) := by
  have hprog : ∀ i, i.block = b → f i = (shflReduce op Butterfly.warp i (u i.tid)).bind fun v =>
      (Prog.when (i.tid % 32 = 0) (.put (scratch (i.tid / 32)) v)).bind fun _ =>
        Prog.barrier.bind fun _ => (Prog.when (i.tid < 32) (firstWarp op e₀ scratch i)).bind fun _ =>
          Prog.barrier.bind fun _ => (Prog.get (scratch 0)).bind fun r =>
            Prog.barrier.bind fun _ => k i r := by
    intro i hi
    rw [hf i hi]
    simp only [blockReduce, Prog.bind_eq, Prog.pure_eq, Prog.bind_assoc, Prog.ret_bind]
  let rest₂ : Tid grid n → Thread (Tid grid n) α β := fun i =>
    (Prog.get (scratch 0)).bind fun r => Prog.barrier.bind fun _ => k i r
  let rest₁ : Tid grid n → Thread (Tid grid n) α β := fun i =>
    (Prog.when (i.tid < 32) (firstWarp op e₀ scratch i)).bind fun _ =>
      Prog.barrier.bind fun _ => rest₂ i
  let mem₁ := Scatter.apply mem (warpWrites op scratch b n u)
  let mem₂ := Scatter.apply mem₁ (resultWrites op e₀ scratch b n u)
  have hwarps : Goes Tid.block Tid.warp {i | i.block = b} mem f mem₁ rest₁ :=
    goes_warps hn hpos hR hprog
  have hfirst : Goes Tid.block Tid.warp {i | i.block = b} mem₁ rest₁ mem₂ rest₂ :=
    goes_firstWarp hn hpos hR (fun t ht => apply_warpWrites hn hscratch ht) fun _ _ => rfl
  have hlast : Goes Tid.block Tid.warp {i | i.block = b} mem₂ rest₂ mem₂ fun i =>
      k i (mem₂ (scratch 0)) := goes_broadcast hpos hR fun _ _ => rfl
  have hresult : mem₂ (scratch 0) = Butterfly.block op e₀ n u := apply_resultWrites hpos
  rw [hresult] at hlast
  rw [scratchWrites, Scatter.apply_append]
  exact hwarps.trans (hfirst.trans hlast)

end Goes

end SciAttention

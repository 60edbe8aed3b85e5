import SciAttention.Common.Simt
import Mathlib.Data.Set.Finite.Basic
import Mathlib.Data.Finset.Basic

/-!
# Running a block of threads

Rules for one particular run of the threads of a block, to which `Simt.Config.Kept.ends` reduces all the
others: between two rendezvous the threads run one after another, and as each keeps to its rights, each
computes what it would alone (`Goes.threads`); then the warps exchange (`Goes.shfl`), or the block passes its
barrier (`Goes.sync`). `Goes.parts` runs the warps of a block, or the blocks of a grid, one after another.
-/

namespace Simt

universe u

variable {ι α ρ σ κ ω : Type*} {β : Type u} [DecidableEq α] {block : ι → κ} {warp : ι → ω}

/-! ## A thread alone -/

/-- A program without rendezvous, run alone: what it writes and returns. -/
inductive Local : Prog ι α β ρ → (α → β) → List (α × β) → ρ → Prop where
  | ret {r : ρ} {mem : α → β} : Local (.ret r) mem [] r
  | load {a : α} {k : β → Prog ι α β ρ} {mem : α → β} {ws : List (α × β)} {r : ρ}
      (h : Local (k (mem a)) mem ws r) : Local (.load a k) mem ws r
  | store {a : α} {v : β} {k : Prog ι α β ρ} {mem : α → β} {ws : List (α × β)} {r : ρ}
      (h : Local k (Function.update mem a v) ws r) : Local (.store a v k) mem ((a, v) :: ws) r

namespace Local

variable {p : Prog ι α β ρ} {mem mem' : α → β} {ws ws' : List (α × β)} {r : ρ}

theorem bind {q : ρ → Prog ι α β σ} {s : σ} (hp : Local p mem ws r)
    (hq : Local (q r) (Scatter.apply mem ws) ws' s) : Local (p.bind q) mem (ws ++ ws') s := by
  induction hp with
  | ret => exact hq
  | load _ ih => exact .load (ih hq)
  | store _ ih => exact .store (ih hq)

/-- A program that only reads, and then another one. -/
theorem read_bind {q : ρ → Prog ι α β σ} {s : σ} (hp : Local p mem [] r) (hq : Local (q r) mem ws s) :
    Local (p.bind q) mem ws s := hp.bind hq

theorem get (a : α) : Local (Prog.get a : Prog ι α β β) mem [] (mem a) := .load .ret

theorem put (a : α) (v : β) : Local (Prog.put a v : Prog ι α β PUnit) mem [(a, v)] ⟨⟩ := .store .ret

/-- A program under a condition. -/
theorem when {c : Prop} [Decidable c] {p : Prog ι α β PUnit.{u + 1}} (h : Local p mem ws ⟨⟩) :
    Local (Prog.when c p) mem (if c then ws else []) ⟨⟩ := by
  rw [Prog.when]
  split_ifs
  · exact h
  · exact .ret

/-- A loop whose iterations leave alone what the later ones read. -/
theorem foldlM {γ : Type*} {l : List γ} {f : ρ → γ → Prog ι α β ρ} {g : ρ → γ → ρ}
    {out : γ → List (α × β)} {s : γ → Set α}
    (hf : ∀ x ∈ l, ∀ r mem', (∀ a ∈ s x, mem' a = mem a) → Local (f r x) mem' (out x) (g r x))
    (hout : l.Pairwise fun x y => ∀ w ∈ out x, w.1 ∉ s y) :
    Local (l.foldlM f r) mem (l.flatMap out) (l.foldl g r) := by
  induction l generalizing r mem with
  | nil => exact .ret
  | cons x l ih =>
    obtain ⟨hx, hl⟩ := List.pairwise_cons.mp hout
    rw [List.foldlM_cons, List.flatMap_cons, List.foldl_cons]
    refine bind (hf x List.mem_cons_self r mem fun _ _ => rfl) (ih (fun y hy r' mem' hmem' => ?_) hl)
    refine hf y (List.mem_cons_of_mem _ hy) r' mem' fun a ha => ?_
    exact (hmem' a ha).trans (Scatter.apply_of_forall_ne fun w hw heq => hx y hy w hw (heq ▸ ha))

/-- A loop that writes nothing. -/
theorem foldlM_read {γ : Type*} {l : List γ} {f : ρ → γ → Prog ι α β ρ} {g : ρ → γ → ρ}
    (hf : ∀ x ∈ l, ∀ r, Local (f r x) mem [] (g r x)) : Local (l.foldlM f r) mem [] (l.foldl g r) := by
  have hloop : Local (l.foldlM f r) mem (l.flatMap fun _ => []) (l.foldl g r) := by
    refine foldlM (s := fun _ => Set.univ) (fun x hx r mem' hmem' => ?_)
      (List.pairwise_of_forall fun _ _ w hw => absurd hw List.not_mem_nil)
    obtain rfl : mem' = mem := funext fun a => hmem' a trivial
    exact hf x hx r
  rwa [List.flatMap_eq_nil_iff.mpr fun _ _ => rfl] at hloop

/-- A loop whose iterations rewrite a cell each. -/
theorem foldlM_own {γ : Type*} {l : List γ} {f : ρ → γ → Prog ι α β ρ} {g : ρ → γ → ρ}
    {cell : γ → α}
    {v : γ → β} (hl : l.Nodup) (hcell : Function.Injective cell)
    (hf : ∀ x ∈ l, ∀ r mem', mem' (cell x) = mem (cell x) →
      Local (f r x) mem' [(cell x, v x)] (g r x)) :
    Local (l.foldlM f r) mem (l.map fun x => (cell x, v x)) (l.foldl g r) := by
  rw [List.map_eq_flatMap]
  refine foldlM (s := fun x => {cell x}) (fun x hx r mem' hmem' => hf x hx r mem' (hmem' _ rfl))
    (hl.imp fun {x y} hne w hw heq => hne ?_)
  obtain rfl := List.mem_singleton.mp hw
  exact hcell heq

/-- The same for a loop that carries nothing along. -/
theorem forM_writes {γ : Type*} {l : List γ} {f : γ → Prog ι α β PUnit.{u + 1}}
    {out : γ → List (α × β)}
    {s : γ → Set α}
    (hf : ∀ x ∈ l, ∀ mem', (∀ a ∈ s x, mem' a = mem a) → Local (f x) mem' (out x) ⟨⟩)
    (hout : l.Pairwise fun x y => ∀ w ∈ out x, w.1 ∉ s y) :
    Local (forM l f) mem (l.flatMap out) ⟨⟩ := by
  rw [Prog.forM_eq_foldlM]
  exact foldlM (g := fun r _ => r) (fun x hx _ => hf x hx) hout

/-- A loop that carries nothing along, writes a cell in each iteration and reads none of these cells. -/
theorem forM_apart {γ : Type*} {l : List γ} {f : γ → Prog ι α β PUnit.{u + 1}} {cell : γ → α}
    {v : γ → β}
    {s : Set α} (hcell : ∀ x, cell x ∉ s)
    (hf : ∀ x ∈ l, ∀ mem', (∀ a ∈ s, mem' a = mem a) → Local (f x) mem' [(cell x, v x)] ⟨⟩) :
    Local (forM l f) mem (l.map fun x => (cell x, v x)) ⟨⟩ := by
  rw [Prog.forM_eq_foldlM, List.map_eq_flatMap]
  refine foldlM (s := fun _ => s) (g := fun r _ => r) (fun x hx _ mem' hmem' => hf x hx mem' hmem')
    (List.pairwise_of_forall fun x _ w hw => ?_)
  rw [List.mem_singleton.mp hw]
  exact hcell x

/-- The same for a loop that carries nothing along. -/
theorem forM_own {γ : Type*} {l : List γ} {f : γ → Prog ι α β PUnit.{u + 1}} {cell : γ → α}
    {v : γ → β}
    (hl : l.Nodup) (hcell : Function.Injective cell)
    (hf : ∀ x ∈ l, ∀ mem', mem' (cell x) = mem (cell x) → Local (f x) mem' [(cell x, v x)] ⟨⟩) :
    Local (forM l f) mem (l.map fun x => (cell x, v x)) ⟨⟩ := by
  rw [Prog.forM_eq_foldlM]
  exact foldlM_own (g := fun r _ => r) hl hcell fun x hx _ => hf x hx

variable {R : Rights α block warp} {i : ι} {t : Clock} {Q : Clock → ρ → Prop}

/-- A thread writes what it may. -/
theorem mem_write (h : Local p mem ws r) (hk : p.Keeps R i t Q) : ∀ w ∈ ws, w.1 ∈ R.write i t := by
  induction h with
  | ret => simp
  | @load _ _ mem' _ _ _ ih => exact ih (hk.2 _)
  | store _ ih =>
    intro w hw
    rcases List.mem_cons.mp hw with rfl | hw
    · exact hk.1
    · exact ih hk.2 w hw

/-- A thread computes the same in a memory that agrees on what it may read. -/
theorem congr (h : Local p mem ws r) (hk : p.Keeps R i t Q) (hmem : ∀ a ∈ R.read i t, mem' a = mem a) :
    Local p mem' ws r := by
  induction h generalizing mem' with
  | ret => exact .ret
  | @load a k _ _ _ _ ih =>
    refine .load ?_
    rw [hmem a hk.1]
    exact ih (hk.2 _) hmem
  | @store a v _ _ _ _ _ ih =>
    refine .store (ih hk.2 fun a' ha' => ?_)
    by_cases heq : a' = a
    · rw [heq, Function.update_self, Function.update_self]
    · rw [Function.update_of_ne heq, Function.update_of_ne heq, hmem a' ha']

end Local

variable [DecidableEq ω]

omit [DecidableEq ω] in
/-- Two moves of sets of threads towards the same programs are one. -/
theorem Config.after_after (c : Config ι α β) (S S' : Set ι) (f : ι → Thread ι α β)
    (ws ws' : List (α × β)) : (c.after S f ws).after S' f ws' = c.after (S' ∪ S) f (ws ++ ws') := by
  refine congrArg₂ Config.mk (Scatter.apply_append _ _ _).symm (funext fun i => ?_)
  by_cases hi' : i ∈ S'
  · simp [hi']
  · by_cases hi : i ∈ S
    · simp [after, hi, hi']
    · simp [after, hi, hi']

omit [DecidableEq ω] in
theorem Config.after_self (c : Config ι α β) {S : Set ι} {f : ι → Thread ι α β}
    (h : ∀ i ∈ S, c.prog i = f i) : c.after S f [] = c := by
  refine congrArg (Config.mk c.mem) (funext fun i => ?_)
  by_cases hi : i ∈ S
  · simp [hi, h i hi]
  · simp [hi]

omit [DecidableEq ω] in
/-- The last move of a set of threads counts. -/
theorem Config.after_overwrite (c : Config ι α β) {S S' : Set ι} (hS : S ⊆ S')
    (f f' : ι → Thread ι α β) (ws ws' : List (α × β)) :
    (c.after S f ws).after S' f' ws' = c.after S' f' (ws ++ ws') := by
  refine congrArg₂ Config.mk (Scatter.apply_append _ _ _).symm (funext fun i => ?_)
  by_cases hi' : i ∈ S'
  · simp [hi']
  · have hi : i ∉ S := fun hi => hi' (hS hi)
    simp [after, hi, hi']

/-- A thread runs as it would alone while the others wait. -/
theorem Local.steps {p : Prog ι α β ρ} {mem : α → β} {ws : List (α × β)} {r : ρ}
    (h : Local p mem ws r) {c : Config ι α β} {i : ι} {k : ρ → Thread ι α β} (hmem : c.mem = mem)
    (hc : c.prog i = p.bind k) : Steps block warp c (c.after {i} (fun _ => k r) ws) := by
  induction h generalizing c with
  | ret =>
    rw [c.after_self (by rintro _ rfl; exact hc)]
    exact .refl
  | @load a k' mem ws r _ ih =>
    refine .head ⟨_, _, _, .load hc, rfl⟩ ?_
    have := ih (c := c.after {i} (fun _ => (k' (c.mem a)).bind k) []) hmem
      ((Config.after_prog_of_mem (Set.mem_singleton i)).trans (by rw [hmem]))
    rwa [c.after_overwrite subset_rfl, List.nil_append] at this
  | @store a v k' mem ws r _ ih =>
    refine .head ⟨_, _, _, .store hc, rfl⟩ ?_
    have := ih (c := c.after {i} (fun _ => k'.bind k) [(a, v)]) (by rw [← hmem]; rfl)
      (Config.after_prog_of_mem (Set.mem_singleton i))
    rwa [c.after_overwrite subset_rfl] at this

/-! ## A block of threads -/

open scoped Classical in
/-- The threads of `T` can go on from the programs `f` to the programs `f'`, whatever the others wait for. -/
def Goes (block : ι → κ) (warp : ι → ω) (T : Set ι) (mem : α → β) (f : ι → Thread ι α β)
    (mem' : α → β) (f' : ι → Thread ι α β) : Prop :=
  ∀ g, Steps block warp ⟨mem, T.piecewise f g⟩ ⟨mem', T.piecewise f' g⟩

namespace Goes

variable {T : Set ι} {mem mem' mem'' : α → β} {f f' f'' : ι → Thread ι α β}

theorem trans (h : Goes block warp T mem f mem' f') (h' : Goes block warp T mem' f' mem'' f'') :
    Goes block warp T mem f mem'' f'' := fun g => (h g).trans (h' g)

theorem refl (hf : ∀ i ∈ T, f i = f' i) : Goes block warp T mem f mem f' := by
  classical
  intro g
  have heq : T.piecewise f g = T.piecewise f' g := by
    funext i
    by_cases hi : i ∈ T
    · simp [hi, hf i hi]
    · simp [hi]
  rw [heq]
  exact .refl

/-- A run of the grid that moves threads of the block only. -/
theorem of_steps {S : Set ι} (ws : List (α × β)) (hS : S ⊆ T) {f₀ : ι → Thread ι α β}
    (hf' : ∀ i ∈ S, f' i = f₀ i) (hother : ∀ i ∈ T, i ∉ S → f' i = f i)
    (h : ∀ c : Config ι α β, c.mem = mem → (∀ i ∈ T, c.prog i = f i) →
      Steps block warp c (c.after S f₀ ws)) :
    Goes block warp T mem f (Scatter.apply mem ws) f' := by
  classical
  intro g
  have hrun := h ⟨mem, T.piecewise f g⟩ rfl fun i hi => by simp [hi]
  have heq : (⟨Scatter.apply mem ws, T.piecewise f' g⟩ : Config ι α β) =
      (⟨mem, T.piecewise f g⟩ : Config ι α β).after S f₀ ws := by
    refine congrArg (Config.mk _) (funext fun i => ?_)
    by_cases hi : i ∈ S
    · simp [hi, hS hi, hf' i hi]
    · by_cases hT : i ∈ T
      · simp [hi, hT, hother i hT hi]
      · simp [hi, hT]
  rw [heq]
  exact hrun

/-- Between two rendezvous, threads that are in step run one after another, each as it would alone. -/
theorem threads {R : Rights α block warp} {l : List ι} (hl : ∀ i, i ∈ l ↔ i ∈ T) (hnodup : l.Nodup)
    {t : Clock} {p : ι → Prog ι α β ρ} {k : ι → ρ → Thread ι α β}
    {ws : ι → List (α × β)} {r : ι → ρ} {Q : ι → Clock → ρ → Prop}
    (hf : ∀ i ∈ T, f i = (p i).bind (k i))
    (hlocal : ∀ i ∈ T, Local (p i) mem (ws i) (r i)) (hkeeps : ∀ i ∈ T, (p i).Keeps R i t (Q i)) :
    Goes block warp T mem f (Scatter.apply mem (l.flatMap ws)) fun i => k i (r i) := by
  refine of_steps (S := {i | i ∈ l}) (l.flatMap ws) (fun i hi => (hl i).mp hi) (fun _ _ => rfl)
    (fun i hi hi' => absurd ((hl i).mpr hi) hi') fun c hmem hc => ?_
  have hprog : ∀ i ∈ l, c.prog i = (p i).bind (k i) := fun i hi =>
    (hc i ((hl i).mp hi)).trans (hf i ((hl i).mp hi))
  have halone : ∀ i ∈ l, Local (p i) c.mem (ws i) (r i) := fun i hi =>
    hmem ▸ hlocal i ((hl i).mp hi)
  have hsub : ∀ i ∈ l, i ∈ T := fun i hi => (hl i).mp hi
  clear hl hmem hc
  induction l generalizing c with
  | nil =>
    rw [List.flatMap_nil, c.after_self (by simp)]
    exact .refl
  | cons i l ih =>
    obtain ⟨hi, hnodup⟩ := List.nodup_cons.mp hnodup
    have hstep : Steps block warp c (c.after {i} (fun i => k i (r i)) (ws i)) := by
      have hto : c.after {i} (fun i => k i (r i)) (ws i) = c.after {i} (fun _ => k i (r i)) (ws i) :=
        Config.after_congr (by rintro _ rfl; rfl)
      rw [hto]
      exact (halone i List.mem_cons_self).steps rfl (hprog i List.mem_cons_self)
    refine hstep.trans ?_
    have hrest := ih hnodup (c.after {i} (fun i => k i (r i)) (ws i)) (fun j hj => ?_) (fun j hj => ?_)
      fun j hj => hsub j (List.mem_cons_of_mem _ hj)
    · have hset : ({j | j ∈ l} ∪ {i} : Set ι) = {j | j ∈ i :: l} := by
        ext j
        simp
      rwa [Config.after_after, hset] at hrest
    · -- the programs of the others wait
      have hne : j ∉ ({i} : Set ι) := by rintro rfl; exact hi hj
      rw [Config.after_prog_of_notMem hne]
      exact hprog j (List.mem_cons_of_mem _ hj)
    · -- and what they may read, this thread may not write
      have hij : i ≠ j := by rintro rfl; exact hi hj
      have hiT := hsub i List.mem_cons_self
      have hjT := hsub j (List.mem_cons_of_mem _ hj)
      refine (halone j (List.mem_cons_of_mem _ hj)).congr (hkeeps j hjT) fun a ha => ?_
      refine Scatter.apply_of_forall_ne fun w hw heq => ?_
      have hwrite := (halone i List.mem_cons_self).mem_write (hkeeps i hiT) w hw
      exact R.apart hij (fun _ => rfl) (fun _ _ => rfl) _ hwrite (heq ▸ ha)

/-- Whole warps of a block make one exchange. -/
theorem shfl {P : Set ι} (hPT : P ⊆ T) (hfin : P.Finite)
    (hwarp : ∀ i j, warp i = warp j → i ∈ P → j ∈ P) {v : ι → β}
    {k : ι → (ι → β) → Thread ι α β} (hf : ∀ i ∈ P, f i = .shfl (v i) (k i))
    (hf' : ∀ i ∈ P, f' i = k i (lanes warp v i)) (hother : ∀ i ∈ T, i ∉ P → f' i = f i) :
    Goes block warp T mem f mem f' := by
  classical
  refine of_steps [] hPT hf' hother fun c _ hc => ?_
  have hwarps : ∀ s : Finset ω, (∀ w ∈ s, ∃ i ∈ P, warp i = w) →
      Steps block warp c (c.after {i | warp i ∈ s} (fun i => k i (lanes warp v i)) []) := by
    intro s
    induction s using Finset.induction_on with
    | empty =>
      intro _
      rw [c.after_self (by simp)]
      exact .refl
    | insert w s hw ih =>
      intro hs
      refine .tail (ih fun w' hw' => hs w' (Finset.mem_insert_of_mem hw')) ?_
      obtain ⟨i, hi, hiw⟩ := hs w (Finset.mem_insert_self w s)
      have hset : ({i | warp i = w} ∪ {i | warp i ∈ s} : Set ι) = {i | warp i ∈ insert w s} := by
        ext j
        simp
      refine ⟨{i | warp i = w}, fun i => k i (lanes warp v i), [], .shfl ⟨i, hiw⟩ fun j hj => ?_, ?_⟩
      · have hjs : j ∉ {i | warp i ∈ s} := by
          simp only [Set.mem_ofPred_eq, hj]
          exact hw
        have hjP : j ∈ P := hwarp i j (hiw.trans hj.symm) hi
        rw [Config.after_prog_of_notMem hjs, hc j (hPT hjP), hf j hjP]
      · rw [Config.after_after, hset, List.append_nil]
  have hset : {i | warp i ∈ hfin.toFinset.image warp} = P := by
    ext i
    simp only [Set.mem_ofPred_eq, Finset.mem_image, Set.Finite.mem_toFinset]
    constructor
    · rintro ⟨j, hj, hji⟩
      exact hwarp j i hji hj
    · exact fun hi => ⟨i, hi, rfl⟩
  have := hwarps (hfin.toFinset.image warp) fun w hw => by simpa using hw
  rwa [hset] at this

omit [DecidableEq ω] in
/-- A block passes its barrier. -/
theorem sync [DecidableEq ω] {b : κ} (hb : ∃ i, block i = b) {k : ι → Thread ι α β}
    (hf : ∀ i, block i = b → f i = .sync (k i)) :
    Goes block warp {i | block i = b} mem f mem k := by
  refine of_steps [] subset_rfl (fun _ _ => rfl) (fun i hi hi' => absurd hi hi') fun c _ hc => ?_
  exact .single ⟨_, _, _, .sync hb fun i hi => (hc i hi).trans (hf i hi), rfl⟩

/-- A loop that all threads of the block run together, whose iterations leave alone what the later
ones read. -/
theorem loop {γ : Type*} {l : List γ} {step : γ → ι → Prog ι α β PUnit.{u + 1}} {s : γ → Set α}
    {ws : γ → List (α × β)} {k : ι → PUnit.{u + 1} → Thread ι α β}
    (hs : l.Pairwise fun x y => ∀ w ∈ ws x, w.1 ∉ s y)
    (hstep : ∀ x ∈ l, ∀ mem' f (k : ι → PUnit.{u + 1} → Thread ι α β),
      (∀ a ∈ s x, mem' a = mem a) →
      (∀ i ∈ T, f i = (step x i).bind (k i)) →
        Goes block warp T mem' f (Scatter.apply mem' (ws x)) fun i => k i ⟨⟩)
    (hf : ∀ i ∈ T, f i = (forM l fun x => step x i).bind (k i)) :
    Goes block warp T mem f (Scatter.apply mem (l.flatMap ws)) fun i => k i ⟨⟩ := by
  have hrun : ∀ mem' f, (∀ x ∈ l, ∀ a ∈ s x, mem' a = mem a) →
      (∀ i ∈ T, f i = (forM l fun x => step x i).bind (k i)) →
      Goes block warp T mem' f (Scatter.apply mem' (l.flatMap ws)) fun i => k i ⟨⟩ := by
    clear hf
    induction l with
    | nil => exact fun mem' f _ hf => .refl hf
    | cons x l ih =>
      intro mem' f hmem' hf
      obtain ⟨hx, hl⟩ := List.pairwise_cons.mp hs
      rw [List.flatMap_cons, Scatter.apply_append]
      have hfirst : Goes block warp T mem' f (Scatter.apply mem' (ws x)) fun i =>
          (forM l fun x => step x i).bind (k i) := by
        refine hstep x List.mem_cons_self mem' f (fun i _ => (forM l fun x => step x i).bind (k i))
          (hmem' x List.mem_cons_self) fun i hi => ?_
        rw [hf i hi, List.forM_cons, Prog.bind_eq, Prog.bind_assoc]
      refine hfirst.trans (ih hl (fun y hy => hstep y (List.mem_cons_of_mem _ hy)) _ _ (fun y hy a ha => ?_)
        fun _ _ => rfl)
      refine (Scatter.apply_of_forall_ne fun w hw heq => ?_).trans (hmem' y (List.mem_cons_of_mem _ hy) a ha)
      exact hx y hy w hw (heq ▸ ha)
  exact hrun mem f (fun _ _ _ _ => rfl) hf

/-- Threads in parts that touch different cells: the parts run one after another, each as it would alone. -/
theorem parts {π : Type*} {part : ι → π} {ps : List π} (hnodup : ps.Nodup) {s : π → Set α}
    {ws : π → List (α × β)} (hws : ∀ p ∈ ps, ∀ w ∈ ws p, w.1 ∈ s p)
    (hs : ps.Pairwise fun p p' => ∀ a ∈ s p, a ∉ s p')
    (hpart : ∀ p ∈ ps, ∀ mem', (∀ a ∈ s p, mem' a = mem a) →
      Goes block warp {i | part i = p} mem' f (Scatter.apply mem' (ws p)) f') :
    Goes block warp {i | part i ∈ ps} mem f (Scatter.apply mem (ps.flatMap ws)) f' := by
  classical
  have hrun : ∀ ps' : List π, ps' <:+ ps → ∀ c : Config ι α β,
    (∀ p ∈ ps', ∀ a ∈ s p, c.mem a = mem a) →
      (∀ i, part i ∈ ps' → c.prog i = f i) →
      Steps block warp c (c.after {i | part i ∈ ps'} f' (ps'.flatMap ws)) := by
    intro ps'
    induction ps' with
    | nil =>
      intro _ c _ _
      rw [List.flatMap_nil, c.after_self (by simp)]
      exact .refl
    | cons p ps' ih =>
      intro hsuf c hmem hc
      have hp : p ∈ ps := hsuf.subset List.mem_cons_self
      obtain ⟨hfp, -⟩ := List.pairwise_cons.mp (hs.sublist hsuf.sublist)
      obtain ⟨hpn, -⟩ := List.nodup_cons.mp (hnodup.sublist hsuf.sublist)
      have hstep : Steps block warp c (c.after {i | part i = p} f' (ws p)) := by
        have hgo := hpart p hp c.mem (hmem p List.mem_cons_self) c.prog
        have heq : {i | part i = p}.piecewise f c.prog = c.prog := by
          funext i
          by_cases hi : part i = p
          · simp [hi, hc i (hi ▸ List.mem_cons_self)]
          · simp [hi]
        rwa [heq] at hgo
      refine hstep.trans ?_
      have hrest := ih ((List.suffix_cons p ps').trans hsuf) (c.after {i | part i = p} f' (ws p))
        (fun p' hp' a ha => ?_) fun i hi => ?_
      · have hset : ({i | part i ∈ ps'} ∪ {i | part i = p} : Set ι) = {i | part i ∈ p :: ps'} := by
          ext i
          simp [or_comm]
        rwa [Config.after_after, hset] at hrest
      · refine (Scatter.apply_of_forall_ne fun w hw heq => ?_).trans
          (hmem p' (List.mem_cons_of_mem _ hp') a ha)
        exact hfp p' hp' w.1 (hws p hp w hw) (heq ▸ ha)
      · have hne : i ∉ {i | part i = p} := by
          rintro rfl
          exact hpn hi
        rw [Config.after_prog_of_notMem hne]
        exact hc i (List.mem_cons_of_mem _ hi)
  refine of_steps (ps.flatMap ws) subset_rfl (fun _ _ => rfl) (fun i hi hi' => absurd hi hi')
    fun c hmem hc => ?_
  exact hrun ps List.suffix_rfl c (fun _ _ _ _ => by rw [hmem]) hc

end Goes

/-! ## Whole grids -/

section Grid

variable {R : Rights α block warp} {c : Config ι α β}

/-- A run of all threads to their ends. -/
theorem Goes.ends {mem' : α → β} (h : Goes block warp Set.univ c.mem c.prog mem' fun _ => .ret ⟨⟩)
    (hkeeps : ∀ i, (c.prog i).Keeps R i .start fun _ _ => True) : Ends block warp c mem' := by
  classical
  have hrun := h c.prog
  simp only [Set.piecewise_univ] at hrun
  have hkept : c.Kept R := ⟨fun _ => .start, .start, hkeeps⟩
  exact hkept.ends hrun fun _ => rfl

/-- Threads without rendezvous end as they would alone. -/
theorem ends_of_local {l : List ι} (hl : ∀ i, i ∈ l) (hnodup : l.Nodup) {ws : ι → List (α × β)}
    (hlocal : ∀ i, Local (c.prog i) c.mem (ws i) ⟨⟩)
    (hkeeps : ∀ i, (c.prog i).Keeps R i .start fun _ _ => True) :
    Ends block warp c (Scatter.apply c.mem (l.flatMap ws)) :=
  Goes.ends (.threads (fun i => iff_of_true (hl i) trivial) hnodup
    (fun i _ => ((c.prog i).bind_ret).symm) (fun i _ => hlocal i) fun i _ => hkeeps i) hkeeps

/-- Parts of the grid that touch different cells end as each would alone. -/
theorem ends_of_parts {π : Type*} {part : ι → π} {ps : List π} (hps : ∀ i, part i ∈ ps)
    (hnodup : ps.Nodup) {s : π → Set α} {ws : π → List (α × β)}
    (hws : ∀ p ∈ ps, ∀ w ∈ ws p, w.1 ∈ s p)
    (hs : ps.Pairwise fun p p' => ∀ a ∈ s p, a ∉ s p')
    (hpart : ∀ p ∈ ps, ∀ mem', (∀ a ∈ s p, mem' a = c.mem a) →
      Goes block warp {i | part i = p} mem' c.prog (Scatter.apply mem' (ws p)) fun _ => .ret ⟨⟩)
    (hkeeps : ∀ i, (c.prog i).Keeps R i .start fun _ _ => True) :
    Ends block warp c (Scatter.apply c.mem (ps.flatMap ws)) := by
  have hgo := Goes.parts hnodup hws hs hpart
  have huniv : {i | part i ∈ ps} = Set.univ := Set.eq_univ_of_forall hps
  rw [huniv] at hgo
  exact hgo.ends hkeeps

end Grid

end Simt

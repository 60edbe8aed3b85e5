import SciAttention.Attention.BlockReduce
import SciAttention.Attention.NaiveSpec
import SciAttention.Attention.RealNumerics

/-!
# The naive kernels, thread by thread

The three kernels of `src/backends/naive/attention_naive.cu` as the programs of their threads, over one
memory with the score matrix, the LSE buffer, the output and the scratch cells of every block. `Naive` gives
each kernel as the writes of its grid; here every interleaving of the threads ends with those writes, without
a race: the softmax kernel although it rewrites its rows in place and reuses its scratch cells for the
second reduction, the third kernel although it reads what the second wrote.
-/

namespace SciAttention

open Simt Flt

/-- The cells that the kernels share: global buffers and, block by block, the scratch cells. -/
inductive NaiveCell where
  | scores (idx : ℕ)
  | lse (row : ℕ)
  | out (idx : ℕ)
  | scratch (block w : ℕ)
deriving DecidableEq

variable {𝕜 : Type*} [Field 𝕜] [LinearOrder 𝕜]

/-- A program of a thread in a launch of `blocks` blocks. -/
abbrev NaiveProg (𝕜 : Type*) (blocks : ℕ) := Prog (Tid blocks naiveThreads) NaiveCell (Flt 𝕜)

section Programs

variable (num : Numerics 𝕜) (p : NaiveFwdParams 𝕜) (buf : NaiveBuffers 𝕜) {blocks : ℕ}

/-- The indices of a grid-stride loop that fall to a thread. -/
def gridLoop (i : Tid blocks naiveThreads) (total : ℕ) : List ℕ :=
  Strided.loop (i.block * naiveThreads + i.tid) (blocks * naiveThreads) total

/-- A thread of `naive_qk_scale_mask_kernel`. -/
def naiveQkThread (i : Tid blocks naiveThreads) : NaiveProg 𝕜 blocks PUnit :=
  forM (gridLoop i (p.batch * p.numHeads * p.seqQ * p.seqKv)) fun idx =>
    .put (.scores idx) (naiveScore num p buf idx)

/-- The first loop of a softmax thread over its columns. -/
def maxLoop (data : ℕ → NaiveCell) (cols : ℕ) (i : Tid blocks naiveThreads) :
    NaiveProg 𝕜 blocks (Flt 𝕜) :=
  (Strided.loop i.tid naiveThreads cols).foldlM (fun m c => do return fmaxf m (← .get (data c))) negInf

/-- The second loop, which a fully masked row skips. -/
def expLoop (data : ℕ → NaiveCell) (cols : ℕ) (m : Flt 𝕜) (i : Tid blocks naiveThreads) :
    NaiveProg 𝕜 blocks (Flt 𝕜) :=
  (Strided.loop i.tid naiveThreads cols).foldlM (fun sum c => do
    let value := expf num.E.exp ((← .get (data c)) - m)
    .put (data c) value
    return sum + value) 0

/-- The last loop. -/
def scaleLoop (data : ℕ → NaiveCell) (cols : ℕ) (invSum : Flt 𝕜) (i : Tid blocks naiveThreads) :
    NaiveProg 𝕜 blocks PUnit :=
  forM (Strided.loop i.tid naiveThreads cols) fun c => do
    let x ← .get (data c)
    .put (data c) (x * invSum)

/-- What is skipped in a fully masked row, and its value there. -/
def unlessMasked (m x : Flt 𝕜) (p : NaiveProg 𝕜 blocks (Flt 𝕜)) : NaiveProg 𝕜 blocks (Flt 𝕜) :=
  if isFinite m then p else .ret x

/-- A thread of `naive_row_softmax_kernel` in a block that has a row. -/
def softmaxThread (cols : ℕ) (writeLse : Bool) (i : Tid blocks naiveThreads) :
    NaiveProg 𝕜 blocks PUnit := do
  let data : ℕ → NaiveCell := fun c => .scores (i.block * cols + c)
  let localMax ← maxLoop data cols i
  let m ← blockReduce fmaxf negInf (.scratch i.block) i localMax
  let localSum ← unlessMasked m 0 (expLoop num data cols m i)
  let sum ← unlessMasked m (fin 1) (blockReduce (· + ·) 0 (.scratch i.block) i localSum)
  let invSum := if isFinite m then recip sum else 0
  scaleLoop data cols invSum i
  .when (writeLse ∧ i.tid = 0)
    (.put (.lse i.block) (if isFinite m then m + logf num.log sum else negInf))

/-- A thread of `naive_row_softmax_kernel`. -/
def naiveRowSoftmaxThread (rows cols : ℕ) (writeLse : Bool) (i : Tid blocks naiveThreads) :
    NaiveProg 𝕜 blocks PUnit :=
  if rows ≤ i.block then .ret ⟨⟩ else softmaxThread num cols writeLse i

/-- The loop of `naive_pv_kernel` over the keys. -/
def pvLoop (blocks idx : ℕ) : NaiveProg 𝕜 blocks (Flt 𝕜) :=
  let d := idx % p.headDim
  let i := p.iOf p.headDim idx
  let h := p.hOf p.headDim idx
  let b := p.bOf p.headDim idx
  let pRow := ((b * p.numHeads + h) * p.seqQ + i) * p.seqKv
  (List.range p.seqKv).foldlM (fun acc j => do
    return acc + (← .get (.scores (pRow + j))) *
      fin (num.load p.dtype.elem buf.v (p.vCol b h d + j * p.vStride.sS))) 0

/-- The cell of an output index. -/
def outCell (idx : ℕ) : NaiveCell :=
  .out (p.outOffset (p.bOf p.headDim idx) (p.hOf p.headDim idx) (p.iOf p.headDim idx) (idx % p.headDim))

/-- A thread of `naive_pv_kernel`. -/
def naivePvThread (i : Tid blocks naiveThreads) : NaiveProg 𝕜 blocks PUnit :=
  forM (gridLoop i (p.batch * p.numHeads * p.seqQ * p.headDim)) fun idx => do
    let acc ← pvLoop num p buf blocks idx
    .put (outCell p idx) acc

end Programs

/-! ## The softmax kernel: rights -/

section Rights

variable {blocks : ℕ}

/-- The cells of a softmax thread: its columns of its row, for the first thread the LSE of the row, and
scratch cells that depend on the stage of the reductions. -/
def softmaxCells (stage : ℕ → ℕ → ℕ → Prop) (cols : ℕ) (i : Tid blocks naiveThreads)
    (t : Clock) :
    Set NaiveCell :=
  {a | match a with
    | .scores idx => ∃ c ∈ Strided.loop i.tid naiveThreads cols, idx = i.block * cols + c
    | .lse row => row = i.block ∧ i.tid = 0
    | .scratch b w => b = i.block ∧ stage t.barriers i.tid w
    | .out _ => False}

/-- The rights of the softmax threads. -/
def softmaxRights (blocks cols : ℕ) : TidRights NaiveCell blocks naiveThreads where
  read := softmaxCells scratchRead cols
  write := softmaxCells scratchWrite cols
  write_subset i t a ha := by
    cases a with
    | scores idx => exact ha
    | lse row => exact ha
    | out idx => exact ha
    | scratch b w => exact ⟨ha.1, scratchRead_of_write ha.2⟩
  apart := by
    intro i j t t' hij ht _ a hi hj
    have hne : ¬ ((i.block : ℕ) = j.block ∧ i.tid = j.tid) := fun h =>
      hij (Prod.ext (Fin.ext h.1) (Fin.ext h.2))
    refine hne ?_
    cases a with
    | scores idx =>
      obtain ⟨c, hc, rfl⟩ := hi
      obtain ⟨c', hc', heq⟩ := hj
      obtain ⟨hlt, hmod⟩ := (Strided.mem_loop_of_lt i.tid_lt).mp hc
      obtain ⟨hlt', hmod'⟩ := (Strided.mem_loop_of_lt j.tid_lt).mp hc'
      obtain ⟨hblock, rfl⟩ := Strided.mul_add_inj hlt hlt' heq
      exact ⟨hblock, hmod.symm.trans hmod'⟩
    | lse row => exact ⟨hi.1.symm.trans hj.1, hi.2.trans hj.2.symm⟩
    | out idx => exact hi.elim
    | scratch b w =>
      have hblock : (i.block : ℕ) = j.block := hi.1.symm.trans hj.1
      have hi := hi.2
      rw [ht (Fin.ext hblock)] at hi
      exact ⟨hblock, eq_of_scratchWrite hi hj.2⟩

theorem softmaxRights_scratch (cols : ℕ) (i : Tid blocks naiveThreads) {e : ℕ} (he : e % 3 = 0) :
    ScratchRights (softmaxRights blocks cols) (.scratch i.block) i e :=
  .of_phase he (fun _ _ h => ⟨rfl, h⟩) fun _ _ h => ⟨rfl, h⟩

/-- A column of a thread. -/
theorem mem_softmaxCells {stage : ℕ → ℕ → ℕ → Prop} {cols c : ℕ} {t : Clock}
    {i : Tid blocks naiveThreads}
    (hc : c ∈ Strided.loop i.tid naiveThreads cols) :
    NaiveCell.scores (i.block * cols + c) ∈ softmaxCells stage cols i t := ⟨c, hc, rfl⟩

variable (num : Numerics 𝕜) {rows cols : ℕ} {writeLse : Bool} {i : Tid blocks naiveThreads} {t : Clock}

omit [Field 𝕜] in
theorem maxLoop_keeps {Q : Clock → Flt 𝕜 → Prop} (hQ : ∀ r, Q t r) :
    (maxLoop (fun c => .scores (i.block * cols + c)) cols i).Keeps (softmaxRights blocks cols) i t Q :=
  .foldlM (fun _ hc _ => .bind (.get (mem_softmaxCells hc) fun _ => .ret rfl)) hQ _

theorem expLoop_keeps {m : Flt 𝕜} {Q : Clock → Flt 𝕜 → Prop} (hQ : ∀ r, Q t r) :
    (expLoop num (fun c => .scores (i.block * cols + c)) cols m i).Keeps (softmaxRights blocks cols)
      i t Q := by
  refine .foldlM (fun c hc sum => ?_) hQ _
  exact .bind (.get (mem_softmaxCells hc) fun _ => .bind (.put (mem_softmaxCells hc) (.ret rfl)))

theorem scaleLoop_keeps {x : Flt 𝕜} {Q : Clock → PUnit → Prop} (hQ : Q t ⟨⟩) :
    (scaleLoop (fun c => .scores (i.block * cols + c)) cols x i).Keeps (softmaxRights blocks cols)
      i t Q :=
  .forM (fun _ hc => .bind (.get (mem_softmaxCells hc) fun _ => .put (mem_softmaxCells hc) rfl)) hQ

/-- A softmax thread keeps to its rights, whatever it reads. -/
theorem softmaxThread_keeps :
    (softmaxThread num cols writeLse i).Keeps (softmaxRights blocks cols) i .start fun _ _ => True := by
  refine .bind (maxLoop_keeps fun localMax => .bind (blockReduce_keeps
    (softmaxRights_scratch cols i rfl) fun m => .bind ?_))
  have hlast : ∀ (t : Clock) (sum : Flt 𝕜), Prog.Keeps (softmaxRights blocks cols) i
      ((scaleLoop (fun c => .scores (i.block * cols + c)) cols (if isFinite m then recip sum else 0) i).bind
        fun _ => .when (writeLse ∧ i.tid = 0)
          (.put (.lse i.block) (if isFinite m then m + logf num.log sum else negInf))) t
      fun _ _ => True := fun t sum =>
    .bind (scaleLoop_keeps (.when (fun h => .put ⟨rfl, h.2⟩ trivial) fun _ => trivial))
  by_cases hm : isFinite m
  · simp only [unlessMasked, if_pos hm] at hlast ⊢
    exact expLoop_keeps num fun localSum => .bind (blockReduce_keeps
      (softmaxRights_scratch cols i rfl) fun sum => hlast _ sum)
  · simp only [unlessMasked, if_neg hm] at hlast ⊢
    exact hlast _ (fin 1)

end Rights

/-! ## The softmax kernel: one block -/

section Block

variable {num : Numerics 𝕜} {blocks cols : ℕ} {writeLse : Bool} {b : Fin blocks}
    {mem : NaiveCell → Flt 𝕜}
  {i : Tid blocks naiveThreads}

/-- A row of the scores in the memory. -/
def scoreRow (mem : NaiveCell → Flt 𝕜) (cols row : ℕ) : ℕ → Flt 𝕜 :=
  fun c => mem (.scores (row * cols + c))

theorem scores_injective (k : ℕ) : Function.Injective fun c => NaiveCell.scores (k + c) :=
  fun _ _ h => Nat.add_left_cancel (NaiveCell.scores.inj h)

section Loops

variable {data : ℕ → Flt 𝕜} (hrow : ∀ c < cols, scoreRow mem cols i.block c = data c)

include hrow

omit [Field 𝕜] in
theorem maxLoop_local : Local (maxLoop (fun c => .scores (i.block * cols + c)) cols i) mem []
    ((Strided.loop i.tid naiveThreads cols).foldl (fun m c => fmaxf m (data c)) negInf) := by
  refine .foldlM_read fun c hc m => ?_
  rw [← hrow c ((Strided.mem_loop_of_lt i.tid_lt).mp hc).1]
  exact .bind (.get _) .ret

theorem expLoop_local (m : Flt 𝕜) :
    Local (expLoop num (fun c => .scores (i.block * cols + c)) cols m i) mem
    ((Strided.loop i.tid naiveThreads cols).map fun c =>
      (.scores (i.block * cols + c), expf num.E.exp (data c - m)))
    ((Strided.loop i.tid naiveThreads cols).foldl
      (fun sum c => sum + expf num.E.exp (data c - m)) 0) := by
  refine .foldlM_own (Strided.nodup_loop (by decide)) (scores_injective _) fun c hc sum mem' hmem' => ?_
  rw [← hrow c ((Strided.mem_loop_of_lt i.tid_lt).mp hc).1, scoreRow, ← hmem']
  exact .bind (.get _) (.bind (.put _ _) .ret)

theorem scaleLoop_local (x : Flt 𝕜) :
    Local (scaleLoop (fun c => .scores (i.block * cols + c)) cols x i) mem
    ((Strided.loop i.tid naiveThreads cols).map fun c => (.scores (i.block * cols + c), data c * x))
      ⟨⟩ := by
  refine .forM_own (Strided.nodup_loop (by decide)) (scores_injective _) fun c hc mem' hmem' => ?_
  rw [← hrow c ((Strided.mem_loop_of_lt i.tid_lt).mp hc).1, scoreRow, ← hmem']
  exact .bind (.get _) (.put _ _)

end Loops

/-! The writes of a block whose row holds `data`. -/

/-- The exponentials. -/
def expWrites (num : Numerics 𝕜) (cols : ℕ) (b : Fin blocks) (data : ℕ → Flt 𝕜) :
    List (NaiveCell × Flt 𝕜) :=
  (Tid.ofBlock b : List (Tid blocks naiveThreads)).flatMap fun i =>
    (Strided.loop i.tid naiveThreads cols).map fun c => (.scores (b * cols + c), rowExp num data cols c)

/-- The probabilities and the log-sum-exp. -/
def probWrites (num : Numerics 𝕜) (cols : ℕ) (writeLse : Bool) (b : Fin blocks)
    (data : ℕ → Flt 𝕜) :
    List (NaiveCell × Flt 𝕜) :=
  (Tid.ofBlock b : List (Tid blocks naiveThreads)).flatMap fun i =>
    ((Strided.loop i.tid naiveThreads cols).map fun c =>
      (.scores (b * cols + c), rowProb num data cols c)) ++
    if writeLse ∧ i.tid = 0 then [(.lse b, rowLse num data cols)] else []

/-- The scratch cells after the first reduction. -/
def maxWrites (cols : ℕ) (b : Fin blocks) (data : ℕ → Flt 𝕜) : List (NaiveCell × Flt 𝕜) :=
  scratchWrites fmaxf negInf (.scratch b) b naiveThreads fun tid =>
    (Strided.loop tid naiveThreads cols).foldl (fun m c => fmaxf m (data c)) negInf

/-- The scratch cells after the second reduction. -/
def sumWrites (num : Numerics 𝕜) (cols : ℕ) (b : Fin blocks) (data : ℕ → Flt 𝕜) :
    List (NaiveCell × Flt 𝕜) :=
  scratchWrites (· + ·) 0 (.scratch b) b naiveThreads fun tid =>
    (Strided.loop tid naiveThreads cols).foldl (fun sum c => sum + rowExp num data cols c) 0

/-- All of them, in the order of the stages. -/
def softmaxWrites (num : Numerics 𝕜) (cols : ℕ) (writeLse : Bool) (b : Fin blocks)
    (data : ℕ → Flt 𝕜) :
    List (NaiveCell × Flt 𝕜) :=
  maxWrites cols b data ++
    (if isFinite (rowMax data cols) then expWrites num cols b data ++ sumWrites num cols b data else []) ++
    probWrites num cols writeLse b data

theorem scratch_injective (b : ℕ) : Function.Injective (NaiveCell.scratch b) :=
  fun _ _ h => (NaiveCell.scratch.inj h).2

omit [Field 𝕜] [LinearOrder 𝕜] in
/-- A reduction leaves the rows alone. -/
theorem scoreRow_scratchWrites {op : Flt 𝕜 → Flt 𝕜 → Flt 𝕜} {e₀ : Flt 𝕜}
    {u : ℕ → Flt 𝕜} (row : ℕ) :
    scoreRow (Scatter.apply mem (scratchWrites op e₀ (.scratch b) b naiveThreads u)) cols row =
      scoreRow mem cols row := by
  funext c
  refine Scatter.apply_of_forall_ne fun w hw heq => ?_
  obtain ⟨t, ht⟩ := exists_of_mem_scratchWrites hw
  rw [ht] at heq
  cases heq

/-- The row between the loops. -/
theorem scoreRow_expWrites {data : ℕ → Flt 𝕜} {c : ℕ} (hc : c < cols) :
    scoreRow (Scatter.apply mem (expWrites num cols b data)) cols b c = rowExp num data cols c := by
  have ht : c % naiveThreads < naiveThreads := Nat.mod_lt _ (by decide)
  refine Scatter.apply_of_agree (List.mem_flatMap.mpr ⟨(b, ⟨c % naiveThreads, ht⟩),
    Tid.mem_ofBlock.mpr rfl, List.mem_map.mpr ⟨c, ?_, rfl⟩⟩) fun w hw heq => ?_
  · exact (Strided.mem_loop_of_lt ht).mpr ⟨hc, rfl⟩
  · obtain ⟨i, -, hi⟩ := List.mem_flatMap.mp hw
    obtain ⟨c', -, rfl⟩ := List.mem_map.mp hi
    rw [scores_injective _ heq]

/-- The end of a softmax thread, from a row that holds `row`. -/
theorem goes_softmax_end
    {f : Tid blocks naiveThreads → Thread (Tid blocks naiveThreads) NaiveCell (Flt 𝕜)}
    {data : ℕ → Flt 𝕜} {x y : Flt 𝕜}
    (hprob : ∀ c < cols, scoreRow mem cols b c * x = rowProb num data cols c)
    (hlse : y = rowLse num data cols)
    (hf : ∀ i : Tid blocks naiveThreads, i.block = b → f i =
      (scaleLoop (fun c => .scores (i.block * cols + c)) cols x i).bind fun _ =>
        .when (writeLse ∧ i.tid = 0) (.put (.lse i.block) y)) :
    Goes Tid.block Tid.warp {i | i.block = b} mem f
      (Scatter.apply mem (probWrites num cols writeLse b data)) fun _ => .ret ⟨⟩ := by
  refine goes_threads (R := softmaxRights blocks cols) (t := .start) (p := f) (k := fun _ r => .ret r)
    (fun i hi => (f i).bind_ret.symm) (fun i hi => ?_) fun i hi => ?_
  · rw [hf i hi]
    obtain rfl := hi
    have hscale : Local (scaleLoop (fun c => .scores (i.block * cols + c)) cols x i) mem
        ((Strided.loop i.tid naiveThreads cols).map fun c =>
          (.scores (i.block * cols + c), rowProb num data cols c)) ⟨⟩ := by
      have hmap : ∀ c ∈ Strided.loop i.tid naiveThreads cols,
          (NaiveCell.scores (i.block * cols + c), rowProb num data cols c) =
            (.scores (i.block * cols + c), scoreRow mem cols i.block c * x) := fun c hc => by
        rw [hprob c ((Strided.mem_loop_of_lt i.tid_lt).mp hc).1]
      rw [List.map_congr_left hmap]
      exact scaleLoop_local (fun _ _ => rfl) x
    rw [hlse]
    exact hscale.bind (.when (.put _ _))
  · rw [hf i hi]
    exact .bind (scaleLoop_keeps (.when (fun h => .put ⟨rfl, h.2⟩ trivial) fun _ => trivial))

/-- What a softmax thread has left once its row has a maximum. -/
def afterMax (num : Numerics 𝕜) (cols : ℕ) (writeLse : Bool) (i : Tid blocks naiveThreads)
    (m : Flt 𝕜) :
    NaiveProg 𝕜 blocks PUnit :=
  (unlessMasked m 0 (expLoop num (fun c => .scores (i.block * cols + c)) cols m i)).bind fun localSum =>
    (unlessMasked m (fin 1) (blockReduce (· + ·) 0 (.scratch i.block) i localSum)).bind fun sum =>
      (scaleLoop (fun c => .scores (i.block * cols + c)) cols (if isFinite m then recip sum else 0) i).bind
        fun _ => .when (writeLse ∧ i.tid = 0)
          (.put (.lse i.block) (if isFinite m then m + logf num.log sum else negInf))

variable {data : ℕ → Flt 𝕜}

/-- The beginning of a softmax thread, up to the maximum of its row. -/
theorem goes_softmax_max (hrow : ∀ c < cols, scoreRow mem cols b c = data c)
    {f : Tid blocks naiveThreads → Thread (Tid blocks naiveThreads) NaiveCell (Flt 𝕜)}
    (hf : ∀ i : Tid blocks naiveThreads, i.block = b → f i = softmaxThread num cols writeLse i) :
    Goes Tid.block Tid.warp {i | i.block = b} mem f (Scatter.apply mem (maxWrites cols b data))
      fun i => afterMax num cols writeLse i (rowMax data cols) := by
  let reduce : Tid blocks naiveThreads → Flt 𝕜 → NaiveProg 𝕜 blocks PUnit := fun i v =>
    (blockReduce fmaxf negInf (.scratch i.block) i v).bind (afterMax num cols writeLse i)
  let localMax : ℕ → Flt 𝕜 := fun tid =>
    (Strided.loop tid naiveThreads cols).foldl (fun m c => fmaxf m (data c)) negInf
  have hloop : Goes Tid.block Tid.warp {i | i.block = b} mem f
      (Scatter.apply mem ((Tid.ofBlock b).flatMap fun _ : Tid blocks naiveThreads => []))
      fun i => reduce i (localMax i.tid) := by
    refine goes_threads (R := softmaxRights blocks cols) (t := .start) (k := reduce)
      (r := fun i => localMax i.tid) (fun i hi => hf i hi) (fun i hi => ?_) fun i _ =>
        maxLoop_keeps fun _ => trivial
    obtain rfl := hi
    exact maxLoop_local hrow
  rw [List.flatMap_eq_nil_iff.mpr fun _ _ => rfl] at hloop
  refine hloop.trans (goes_blockReduce (by decide) (by decide) (scratch_injective b)
    (fun i hi => hi ▸ softmaxRights_scratch (e := 0) cols i rfl) fun i hi => ?_)
  obtain rfl := hi
  rfl

/-- The middle of a softmax thread, in a row that is not fully masked. -/
theorem goes_softmax_sum {e : ℕ} (he : e % 3 = 0) (hrow : ∀ c < cols, scoreRow mem cols b c = data c)
    (hm : isFinite (rowMax data cols))
    {k : Tid blocks naiveThreads → Flt 𝕜 → NaiveProg 𝕜 blocks PUnit}
    {f : Tid blocks naiveThreads → Thread (Tid blocks naiveThreads) NaiveCell (Flt 𝕜)}
    (hf : ∀ i : Tid blocks naiveThreads, i.block = b → f i =
      (expLoop num (fun c => .scores (i.block * cols + c)) cols (rowMax data cols) i).bind fun localSum =>
        (blockReduce (· + ·) 0 (.scratch i.block) i localSum).bind (k i)) :
    Goes Tid.block Tid.warp {i | i.block = b} mem f
      (Scatter.apply mem (expWrites num cols b data ++ sumWrites num cols b data))
      fun i => k i (rowSum num data cols) := by
  have hexp : ∀ c, expf num.E.exp (data c - rowMax data cols) = rowExp num data cols c := fun c => by
    rw [rowExp, if_pos hm]
  have hsum : rowSum num data cols = Butterfly.block (· + ·) 0 naiveThreads fun tid =>
      (Strided.loop tid naiveThreads cols).foldl (fun sum c => sum + rowExp num data cols c) 0 := by
    rw [rowSum, if_pos hm]
  let localSum : ℕ → Flt 𝕜 := fun tid =>
    (Strided.loop tid naiveThreads cols).foldl (fun sum c => sum + rowExp num data cols c) 0
  let reduce : Tid blocks naiveThreads → Flt 𝕜 → NaiveProg 𝕜 blocks PUnit := fun i v =>
    (blockReduce (· + ·) 0 (.scratch i.block) i v).bind (k i)
  have hloop : Goes Tid.block Tid.warp {i | i.block = b} mem f
      (Scatter.apply mem (expWrites num cols b data)) fun i => reduce i (localSum i.tid) := by
    refine goes_threads (R := softmaxRights blocks cols) (t := .start) (k := reduce)
      (r := fun i => localSum i.tid) (fun i hi => hf i hi) (fun i hi => ?_) fun i _ =>
        expLoop_keeps num fun _ => trivial
    obtain rfl := hi
    simp only [localSum, ← hexp]
    exact expLoop_local hrow (rowMax data cols)
  rw [Scatter.apply_append, hsum]
  refine hloop.trans (goes_blockReduce (by decide) (by decide) (scratch_injective b)
    (fun i hi => hi ▸ softmaxRights_scratch cols i he) fun i hi => ?_)
  obtain rfl := hi
  rfl

/-- The threads of a block run through the softmax kernel. -/
theorem goes_softmax (hrow : ∀ c < cols, scoreRow mem cols b c = data c)
    {f : Tid blocks naiveThreads → Thread (Tid blocks naiveThreads) NaiveCell (Flt 𝕜)}
    (hf : ∀ i : Tid blocks naiveThreads, i.block = b → f i = softmaxThread num cols writeLse i) :
    Goes Tid.block Tid.warp {i | i.block = b} mem f
      (Scatter.apply mem (softmaxWrites num cols writeLse b data)) fun _ => .ret ⟨⟩ := by
  have hmax := goes_softmax_max hrow hf
  set mem₁ := Scatter.apply mem (maxWrites cols b data) with hmem₁
  have hrow₁ : ∀ c < cols, scoreRow mem₁ cols b c = data c := fun c hc => by
    rw [hmem₁, maxWrites, scoreRow_scratchWrites, hrow c hc]
  rw [softmaxWrites, Scatter.apply_append, Scatter.apply_append]
  by_cases hm : isFinite (rowMax data cols)
  · rw [if_pos hm]
    have hsum : Goes Tid.block Tid.warp {i | i.block = b} mem₁
        (fun i => afterMax num cols writeLse i (rowMax data cols))
        (Scatter.apply mem₁ (expWrites num cols b data ++ sumWrites num cols b data))
        fun i => (scaleLoop (fun c => .scores (i.block * cols + c)) cols
          (recip (rowSum num data cols)) i).bind fun _ => .when (writeLse ∧ i.tid = 0)
            (.put (.lse i.block) (rowMax data cols + logf num.log (rowSum num data cols))) :=
      goes_softmax_sum (e := 3) (by decide) hrow₁ hm
        (k := fun i sum => (scaleLoop (fun c => .scores (i.block * cols + c)) cols (recip sum) i).bind
          fun _ => .when (writeLse ∧ i.tid = 0)
            (.put (.lse i.block) (rowMax data cols + logf num.log sum)))
        fun i _ => by simp only [afterMax, unlessMasked, if_pos hm]
    refine hmax.trans (hsum.trans (goes_softmax_end (fun c hc => ?_) ?_ fun _ _ => rfl))
    · rw [Scatter.apply_append, sumWrites, scoreRow_scratchWrites, scoreRow_expWrites hc, rowProb,
        if_pos hm]
    · rw [rowLse, if_pos hm]
  · rw [if_neg hm, Scatter.apply_nil]
    refine hmax.trans (goes_softmax_end (x := 0) (y := negInf) (fun c hc => ?_) ?_ fun i _ => ?_)
    · rw [hrow₁ c hc, rowProb, rowExp, if_neg hm, if_neg hm]
    · rw [rowLse, if_neg hm]
    · simp only [afterMax, unlessMasked, if_neg hm, Prog.ret_bind]

end Block

/-! ## The softmax kernel: the grid -/

section Softmax

variable {num : Numerics 𝕜} {blocks rows cols : ℕ} {writeLse : Bool} {mem : NaiveCell → Flt 𝕜}

/-- The cells of a block. -/
def blockCells (cols b : ℕ) : Set NaiveCell :=
  {a | match a with
    | .scores idx => ∃ c < cols, idx = b * cols + c
    | .lse row => row = b
    | .scratch b' _ => b' = b
    | .out _ => False}

theorem scores_mem_blockCells {b c : ℕ} (hc : c < cols) : .scores (b * cols + c) ∈ blockCells cols b :=
  ⟨c, hc, rfl⟩

theorem notMem_blockCells {b b' : ℕ} (h : b ≠ b') {a : NaiveCell} (ha : a ∈ blockCells cols b) :
    a ∉ blockCells cols b' := by
  refine fun ha' => h ?_
  cases a with
  | scores idx =>
    obtain ⟨c, hc, rfl⟩ := ha
    obtain ⟨c', hc', heq⟩ := ha'
    exact (Strided.mul_add_inj hc hc' heq).1
  | lse row => exact ha.symm.trans ha'
  | scratch b₀ w => exact ha.symm.trans ha'
  | out idx => exact ha.elim

/-- A write to a row of a block is one of the exponentials or of the probabilities. -/
theorem mem_softmaxWrites {b : Fin blocks} {data : ℕ → Flt 𝕜} {w : NaiveCell × Flt 𝕜}
    (hw : w ∈ softmaxWrites num cols writeLse b data) : w.1 ∈ blockCells cols b := by
  have hscratch : ∀ {op : Flt 𝕜 → Flt 𝕜 → Flt 𝕜} {e₀ : Flt 𝕜} {u : ℕ → Flt 𝕜},
      w ∈ scratchWrites op e₀ (.scratch b) b naiveThreads u → w.1 ∈ blockCells cols b := by
    intro op e₀ u hw
    obtain ⟨t, ht⟩ := exists_of_mem_scratchWrites hw
    rw [ht]
    rfl
  rcases List.mem_append.mp hw with hw | hw
  · rcases List.mem_append.mp hw with hw | hw
    · exact hscratch hw
    · split_ifs at hw
      · rcases List.mem_append.mp hw with hw | hw
        · obtain ⟨i, -, hi⟩ := List.mem_flatMap.mp hw
          obtain ⟨c, hc, rfl⟩ := List.mem_map.mp hi
          exact ⟨c, ((Strided.mem_loop_of_lt i.tid_lt).mp hc).1, rfl⟩
        · exact hscratch hw
      · simp at hw
  · obtain ⟨i, -, hi⟩ := List.mem_flatMap.mp hw
    rcases List.mem_append.mp hi with hi | hi
    · obtain ⟨c, hc, rfl⟩ := List.mem_map.mp hi
      exact ⟨c, ((Strided.mem_loop_of_lt i.tid_lt).mp hc).1, rfl⟩
    · split_ifs at hi
      · rw [List.mem_singleton.mp hi]
        rfl
      · simp at hi

/-- What all blocks write: those behind the last row nothing. -/
def softmaxGridWrites (num : Numerics 𝕜) (rows cols : ℕ) (writeLse : Bool) (blocks : ℕ)
    (mem : NaiveCell → Flt 𝕜) : List (NaiveCell × Flt 𝕜) :=
  (List.finRange blocks).flatMap fun b : Fin blocks =>
    if rows ≤ b then [] else softmaxWrites num cols writeLse b (scoreRow mem cols b)

/-- Every interleaving of the softmax kernel ends with these writes. -/
theorem naiveRowSoftmax_ends (num : Numerics 𝕜) (blocks rows cols : ℕ) (writeLse : Bool)
    (mem : NaiveCell → Flt 𝕜) :
    Ends Tid.block Tid.warp
      ⟨mem, fun i : Tid blocks naiveThreads => naiveRowSoftmaxThread num rows cols writeLse i⟩
      (Scatter.apply mem (softmaxGridWrites num rows cols writeLse blocks mem)) := by
  refine ends_of_parts (R := softmaxRights blocks cols) (s := fun b => blockCells cols b)
    (fun i => List.mem_finRange i.block) (List.nodup_finRange blocks) (fun b _ w hw => ?_) ?_
    (fun b _ mem' hmem' => ?_) fun i => ?_
  · split_ifs at hw
    · simp at hw
    · exact mem_softmaxWrites hw
  · exact (List.nodup_finRange blocks).imp fun hne _ => notMem_blockCells (Fin.val_ne_of_ne hne)
  · by_cases hrow : rows ≤ b
    · rw [if_pos hrow]
      refine .refl fun i hi => ?_
      obtain rfl := hi
      exact if_pos hrow
    · rw [if_neg hrow]
      refine goes_softmax (fun c hc => hmem' (.scores (b * cols + c)) ⟨c, hc, rfl⟩) fun i hi => ?_
      obtain rfl := hi
      exact if_neg hrow
  · by_cases hrow : rows ≤ i.block
    · simp only [naiveRowSoftmaxThread, if_pos hrow]
      exact trivial
    · simp only [naiveRowSoftmaxThread, if_neg hrow]
      exact softmaxThread_keeps num

/-- A cell that a block owns is decided by the writes of that block. -/
theorem apply_softmaxGridWrites {b : Fin blocks} (hrow : ¬ rows ≤ b) {a : NaiveCell}
    (ha : a ∈ blockCells cols b) :
    Scatter.apply mem (softmaxGridWrites num rows cols writeLse blocks mem) a =
      Scatter.apply mem (softmaxWrites num cols writeLse b (scoreRow mem cols b)) a := by
  refine (Scatter.apply_flatMap_of_mem (List.nodup_finRange blocks) (List.mem_finRange b)
    (fun b' _ hne w hw heq => ?_) mem).trans (by rw [if_neg hrow])
  split_ifs at hw
  · simp at hw
  · exact notMem_blockCells (Fin.val_ne_of_ne hne) (mem_softmaxWrites hw) (heq ▸ ha)

/-- A cell that no row reaches is left alone. -/
theorem apply_softmaxGridWrites_of_notMem {a : NaiveCell}
    (ha : ∀ b < blocks, b < rows → a ∉ blockCells cols b) :
    Scatter.apply mem (softmaxGridWrites num rows cols writeLse blocks mem) a = mem a := by
  refine Scatter.apply_of_forall_ne fun w hw heq => ?_
  obtain ⟨b, -, hb⟩ := List.mem_flatMap.mp hw
  split_ifs at hb with hrow
  · simp at hb
  · exact ha b b.isLt (not_le.mp hrow) (heq ▸ mem_softmaxWrites hb)

/-- The scores after any interleaving are those of the kernel's writes. -/
theorem softmaxGridWrites_scores (idx : ℕ) :
    Scatter.apply mem (softmaxGridWrites num rows cols writeLse blocks mem) (.scores idx) =
      Scatter.apply (fun idx => mem (.scores idx))
        (naiveRowSoftmaxKernel num (fun idx => mem (.scores idx)) rows cols writeLse blocks).1 idx := by
  by_cases howned : ∃ b < blocks, b < rows ∧ NaiveCell.scores idx ∈ blockCells cols b
  · obtain ⟨b, hb, hrow, c, hc, rfl⟩ := howned
    rw [naiveRowSoftmax_probs hb hrow hc,
      apply_softmaxGridWrites (b := ⟨b, hb⟩) (not_le.mpr hrow) (scores_mem_blockCells hc), softmaxWrites,
      Scatter.apply_append]
    have ht : c % naiveThreads < naiveThreads := Nat.mod_lt _ (by decide)
    refine Scatter.apply_of_agree (List.mem_flatMap.mpr ⟨(⟨b, hb⟩, ⟨c % naiveThreads, ht⟩),
      Tid.mem_ofBlock.mpr rfl, List.mem_append_left _ (List.mem_map.mpr
        ⟨c, (Strided.mem_loop_of_lt ht).mpr ⟨hc, rfl⟩, rfl⟩)⟩) fun w hw heq => ?_
    obtain ⟨i, -, hi⟩ := List.mem_flatMap.mp hw
    rcases List.mem_append.mp hi with hi | hi
    · obtain ⟨c', -, rfl⟩ := List.mem_map.mp hi
      rw [scores_injective _ heq]
      rfl
    · split_ifs at hi
      · rw [List.mem_singleton.mp hi] at heq
        cases heq
      · simp at hi
  · rw [apply_softmaxGridWrites_of_notMem fun b hb hrow hmem => howned ⟨b, hb, hrow, hmem⟩]
    symm
    refine Scatter.apply_of_forall_ne fun w hw heq => howned ?_
    simp only [naiveRowSoftmaxKernel, List.mem_flatMap, List.mem_filter, List.mem_range,
      decide_eq_true_eq, List.mem_map] at hw
    obtain ⟨b, ⟨hb, hrow⟩, c, hc, rfl⟩ := hw
    rw [(Strided.threads_perm (by decide) _).mem_iff, List.mem_range] at hc
    exact ⟨b, hb, hrow, c, hc, heq.symm⟩

/-- Which log-sum-exps a block writes. -/
theorem lse_mem_softmaxWrites {b : Fin blocks} {data : ℕ → Flt 𝕜} {row : ℕ} {v : Flt 𝕜} :
    (.lse row, v) ∈ softmaxWrites num cols writeLse b data ↔
      row = b ∧ writeLse = true ∧ v = rowLse num data cols := by
  have hscratch : ∀ {op : Flt 𝕜 → Flt 𝕜 → Flt 𝕜} {e₀ : Flt 𝕜} {u : ℕ → Flt 𝕜},
      (NaiveCell.lse row, v) ∉ scratchWrites op e₀ (NaiveCell.scratch b) b naiveThreads u := by
    intro op e₀ u hw
    obtain ⟨t, ht⟩ := exists_of_mem_scratchWrites hw
    cases ht
  constructor
  · intro hw
    rcases List.mem_append.mp hw with hw | hw
    · rcases List.mem_append.mp hw with hw | hw
      · exact absurd hw hscratch
      · split_ifs at hw
        · rcases List.mem_append.mp hw with hw | hw
          · obtain ⟨i, -, hi⟩ := List.mem_flatMap.mp hw
            obtain ⟨c, -, hc⟩ := List.mem_map.mp hi
            cases hc
          · exact absurd hw hscratch
        · simp at hw
    · obtain ⟨i, -, hi⟩ := List.mem_flatMap.mp hw
      rcases List.mem_append.mp hi with hi | hi
      · obtain ⟨c, -, hc⟩ := List.mem_map.mp hi
        cases hc
      · split_ifs at hi with hfirst
        · obtain ⟨hrow, hv⟩ := Prod.mk.inj (List.mem_singleton.mp hi)
          exact ⟨NaiveCell.lse.inj hrow, hfirst.1, hv⟩
        · simp at hi
  · rintro ⟨rfl, hret, rfl⟩
    refine List.mem_append_right _ (List.mem_flatMap.mpr ⟨(b, ⟨0, by decide⟩), Tid.mem_ofBlock.mpr rfl,
      List.mem_append_right _ ?_⟩)
    rw [if_pos ⟨hret, rfl⟩]
    exact List.mem_singleton_self _

/-- So is the LSE buffer. -/
theorem softmaxGridWrites_lse (row : ℕ) :
    Scatter.apply mem (softmaxGridWrites num rows cols writeLse blocks mem) (.lse row) =
      Scatter.apply (fun row => mem (.lse row))
        (naiveRowSoftmaxKernel num (fun idx => mem (.scores idx)) rows cols writeLse blocks).2 row := by
  have hgrid : ∀ v, (.lse row, v) ∈ softmaxGridWrites num rows cols writeLse blocks mem ↔
      row < blocks ∧ row < rows ∧ writeLse = true ∧ v = rowLse num (scoreRow mem cols row) cols := by
    intro v
    simp only [softmaxGridWrites, List.mem_flatMap]
    constructor
    · rintro ⟨b, -, hw⟩
      split_ifs at hw with hrow
      · simp at hw
      · obtain ⟨rfl, hret, hv⟩ := lse_mem_softmaxWrites.mp hw
        exact ⟨b.isLt, not_le.mp hrow, hret, hv⟩
    · rintro ⟨hb, hrow, hret, hv⟩
      refine ⟨⟨row, hb⟩, List.mem_finRange _, ?_⟩
      rw [if_neg (not_le.mpr hrow)]
      exact lse_mem_softmaxWrites.mpr ⟨rfl, hret, hv⟩
  refine Scatter.apply_eq_of_cell rfl (fun v => (hgrid v).trans ?_) fun v v' hv hv' =>
    ((hgrid v).mp hv).2.2.2.trans ((hgrid v').mp hv').2.2.2.symm
  simp only [naiveRowSoftmaxKernel]
  split_ifs with hret
  · simp only [hret, true_and, List.mem_map, List.mem_filter, List.mem_range, decide_eq_true_eq,
      Prod.mk.injEq]
    constructor
    · rintro ⟨hb, hrow, rfl⟩
      exact ⟨row, ⟨hb, hrow⟩, rfl, rfl⟩
    · rintro ⟨row', ⟨hb, hrow⟩, rfl, rfl⟩
      exact ⟨hb, hrow, rfl⟩
  · simp [hret]

/-- The output is not touched. -/
theorem softmaxGridWrites_out (idx : ℕ) :
    Scatter.apply mem (softmaxGridWrites num rows cols writeLse blocks mem) (.out idx) = mem (.out idx) :=
  apply_softmaxGridWrites_of_notMem fun _ _ _ => id

end Softmax

/-! ## Grid-stride kernels -/

section Strided

variable {blocks total : ℕ} {cell : ℕ → NaiveCell} {shared : Set NaiveCell}

theorem mem_gridLoop {i : Tid blocks naiveThreads} {idx : ℕ} :
    idx ∈ gridLoop i total ↔
      idx < total ∧ idx % (blocks * naiveThreads) = i.block * naiveThreads + i.tid :=
  Strided.mem_loop_of_lt (Strided.flat_lt i.block.isLt i.tid_lt)

/-- The rights of a grid-stride loop: a thread writes the cells of its indices, and all read what no thread
writes. -/
def strideRights (blocks total : ℕ) (cell : ℕ → NaiveCell) (shared : Set NaiveCell)
    (hcell : ∀ idx < total, ∀ idx' < total, cell idx = cell idx' → idx = idx')
    (hshared : ∀ idx < total, cell idx ∉ shared) :
    TidRights NaiveCell blocks naiveThreads where
  read i _ := {a | ∃ idx ∈ gridLoop i total, a = cell idx} ∪ shared
  write i _ := {a | ∃ idx ∈ gridLoop i total, a = cell idx}
  write_subset _ _ := Set.subset_union_left
  apart := by
    intro i j t t' hij _ _ a ha ha'
    refine hij ?_
    obtain ⟨idx, hidx, rfl⟩ := ha
    obtain ⟨hlt, hmod⟩ := mem_gridLoop.mp hidx
    rcases ha' with ⟨idx', hidx', heq⟩ | ha'
    · obtain ⟨hlt', hmod'⟩ := mem_gridLoop.mp hidx'
      obtain rfl := hcell idx hlt idx' hlt' heq
      obtain ⟨hblock, htid⟩ := Strided.mul_add_inj i.tid_lt j.tid_lt (hmod.symm.trans hmod')
      exact Prod.ext (Fin.ext hblock) (Fin.ext htid)
    · exact absurd ha' (hshared idx hlt)

/-- The threads' indices are those of the loop over the grid. -/
theorem exists_gridLoop_iff {idx : ℕ} :
    (∃ i ∈ Tid.all blocks naiveThreads, idx ∈ gridLoop i total) ↔
      idx ∈ Strided.gridStride blocks naiveThreads total := by
  simp only [Strided.gridStride, List.mem_flatMap, List.mem_range]
  constructor
  · rintro ⟨i, -, hi⟩
    exact ⟨i.block, i.block.isLt, i.tid, i.tid_lt, hi⟩
  · rintro ⟨b, hb, t, ht, hidx⟩
    exact ⟨(⟨b, hb⟩, ⟨t, ht⟩), Tid.mem_all _, hidx⟩

variable {mem : NaiveCell → Flt 𝕜} {value : ℕ → Flt 𝕜}

/-- What the threads of a grid-stride loop write, one cell for each index. -/
def strideWrites (blocks total : ℕ) (cell : ℕ → NaiveCell) (value : ℕ → Flt 𝕜) :
    List (NaiveCell × Flt 𝕜) :=
  (Tid.all blocks naiveThreads).flatMap fun i => (gridLoop i total).map fun idx => (cell idx, value idx)

omit [Field 𝕜] [LinearOrder 𝕜] in
theorem mem_strideWrites {a : NaiveCell} {v : Flt 𝕜} :
    (a, v) ∈ strideWrites blocks total cell value ↔
      ∃ idx ∈ Strided.gridStride blocks naiveThreads total, cell idx = a ∧ value idx = v := by
  simp only [strideWrites, List.mem_flatMap, List.mem_map, Prod.mk.injEq, ← exists_gridLoop_iff]
  constructor
  · rintro ⟨i, hi, idx, hidx, h⟩
    exact ⟨idx, ⟨i, hi, hidx⟩, h⟩
  · rintro ⟨idx, ⟨i, hi, hidx⟩, h⟩
    exact ⟨i, hi, idx, hidx, h⟩

omit [Field 𝕜] [LinearOrder 𝕜] in
/-- Cells that no index names are left alone. -/
theorem apply_strideWrites_of_ne {a : NaiveCell} (ha : ∀ idx, cell idx ≠ a) :
    Scatter.apply mem (strideWrites blocks total cell value) a = mem a := by
  refine Scatter.apply_of_forall_ne ?_
  rintro ⟨a', v⟩ hw rfl
  obtain ⟨idx, -, hidx, -⟩ := mem_strideWrites.mp hw
  exact ha idx hidx

omit [Field 𝕜] [LinearOrder 𝕜] in
/-- The cells of the indices hold what the loop over the grid writes. -/
theorem apply_strideWrites (hcell : Function.Injective cell) (idx : ℕ) :
    Scatter.apply mem (strideWrites blocks total cell value) (cell idx) =
      Scatter.apply (fun idx => mem (cell idx))
        ((Strided.gridStride blocks naiveThreads total).map fun idx => (idx, value idx)) idx := by
  have hval : ∀ v, (cell idx, v) ∈ strideWrites blocks total cell value ↔
      idx ∈ Strided.gridStride blocks naiveThreads total ∧ value idx = v := by
    intro v
    rw [mem_strideWrites]
    constructor
    · rintro ⟨idx', hidx', heq, rfl⟩
      obtain rfl := hcell heq
      exact ⟨hidx', rfl⟩
    · rintro ⟨hidx, rfl⟩
      exact ⟨idx, hidx, rfl, rfl⟩
  refine Scatter.apply_eq_of_cell rfl (fun v => (hval v).trans ?_) fun v v' hv hv' =>
    ((hval v).mp hv).2.symm.trans ((hval v').mp hv').2
  simp only [List.mem_map, Prod.mk.injEq]
  constructor
  · rintro ⟨hidx, rfl⟩
    exact ⟨idx, hidx, rfl, rfl⟩
  · rintro ⟨idx', hidx', rfl, rfl⟩
    exact ⟨hidx', rfl⟩

theorem scoresCell_injective : Function.Injective NaiveCell.scores := fun _ _ => NaiveCell.scores.inj

theorem outCell_injective : Function.Injective NaiveCell.out := fun _ _ => NaiveCell.out.inj

/-- Every interleaving of `naive_qk_scale_mask_kernel` ends with its scores. -/
theorem naiveQk_ends (num : Numerics 𝕜) (p : NaiveFwdParams 𝕜) (buf : NaiveBuffers 𝕜) (blocks : ℕ)
    (mem : NaiveCell → Flt 𝕜) :
    Ends Tid.block Tid.warp ⟨mem, fun i : Tid blocks naiveThreads => naiveQkThread num p buf i⟩
      (Scatter.apply mem (strideWrites blocks (p.batch * p.numHeads * p.seqQ * p.seqKv) .scores
        (naiveScore num p buf))) := by
  refine ends_of_local (R := strideRights blocks (p.batch * p.numHeads * p.seqQ * p.seqKv) .scores ∅
    (fun _ _ _ _ => NaiveCell.scores.inj) fun _ _ => Set.notMem_empty _) Tid.mem_all Tid.nodup_all
    (fun i => ?_) fun i => ?_
  · have hpos : 0 < blocks * naiveThreads := Nat.mul_pos i.block.pos (by decide)
    exact .forM_own (Strided.nodup_loop hpos) scoresCell_injective fun _ _ _ _ => .put _ _
  · exact .forM (fun idx hidx => .put ⟨idx, hidx, rfl⟩ rfl) trivial

section Pv

variable (num : Numerics 𝕜) (p : NaiveFwdParams 𝕜) (buf : NaiveBuffers 𝕜)

variable {p} in
omit [Field 𝕜] [LinearOrder 𝕜] in
theorem outCell_eq (ho : p.oStride = stridesFor .bhsd p.seqQ p.numHeads p.headDim) : outCell p = .out := by
  funext idx
  rw [outCell, outOffset_eq ho, p.flat_coords]

/-- The loop over the keys reads the scores only. -/
theorem pvLoop_local {idx : ℕ} {mem' : NaiveCell → Flt 𝕜} {probs : ℕ → Flt 𝕜}
    (hmem' : ∀ x, mem' (.scores x) = probs x) :
    Local (pvLoop num p buf blocks idx) mem' [] (naiveValue num p buf probs idx) := by
  obtain rfl : (fun x => mem' (.scores x)) = probs := funext hmem'
  exact .foldlM_read fun _ _ _ => .bind (.get _) .ret

/-- Every interleaving of `naive_pv_kernel` ends with its values. -/
theorem naivePv_ends (ho : p.oStride = stridesFor .bhsd p.seqQ p.numHeads p.headDim)
    (mem : NaiveCell → Flt 𝕜) :
    Ends Tid.block Tid.warp ⟨mem, fun i : Tid blocks naiveThreads => naivePvThread num p buf i⟩
      (Scatter.apply mem (strideWrites blocks (p.batch * p.numHeads * p.seqQ * p.headDim) .out
        (naiveValue num p buf fun idx => mem (.scores idx)))) := by
  refine ends_of_local (R := strideRights blocks (p.batch * p.numHeads * p.seqQ * p.headDim) .out
    {a | ∃ idx, a = .scores idx} (fun _ _ _ _ => NaiveCell.out.inj) fun _ _ ⟨_, h⟩ =>
      NaiveCell.noConfusion h)
    Tid.mem_all Tid.nodup_all (fun i => ?_) fun i => ?_
  · simp only [naivePvThread, outCell_eq ho]
    refine .forM_apart (s := {a | ∃ idx, a = .scores idx}) (fun _ ⟨_, h⟩ => NaiveCell.noConfusion h)
      fun idx _ mem' hmem' => ?_
    exact (pvLoop_local num p buf fun x => hmem' _ ⟨x, rfl⟩).bind (.put _ _)
  · simp only [naivePvThread, outCell_eq ho]
    refine .forM (fun idx hidx => .bind ?_) trivial
    refine .foldlM (fun acc j _ => ?_) (fun acc => .put ⟨idx, hidx, rfl⟩ rfl) _
    exact .bind (.get (Set.mem_union_right _ ⟨_, rfl⟩) fun _ => .ret rfl)

/-- With the output laid out as `[B, H_q, S_q, D]`, the third kernel writes each index at its place. -/
theorem naivePvKernel_eq (ho : p.oStride = stridesFor .bhsd p.seqQ p.numHeads p.headDim)
    (probs : ℕ → Flt 𝕜) (blocks : ℕ) : naivePvKernel num p buf probs blocks =
      (Strided.gridStride blocks naiveThreads (p.batch * p.numHeads * p.seqQ * p.headDim)).map
        fun idx => (idx, naiveValue num p buf probs idx) := by
  refine List.map_congr_left fun idx _ => ?_
  simp only [outOffset_eq ho, p.flat_coords]

end Pv

end Strided

/-! ## The three launches -/

section Pipeline

variable (num : Numerics 𝕜) (p : NaiveFwdParams 𝕜) (buf : NaiveBuffers 𝕜)

/-- The memory before the first launch: the scratch cells hold anything. -/
def naiveMemory (lse : ℕ → Flt 𝕜) (scratch : ℕ → ℕ → Flt 𝕜) : NaiveCell → Flt 𝕜
  | .scores idx => buf.scores idx
  | .lse row => lse row
  | .out idx => buf.out idx
  | .scratch b w => scratch b w

/-- The first launch. -/
def qkLaunch (mem : NaiveCell → Flt 𝕜) :
    Config (Tid (naiveBlocks (p.batch * p.numHeads * p.seqQ * p.seqKv)) naiveThreads) NaiveCell (Flt 𝕜) :=
  ⟨mem, naiveQkThread num p buf⟩

/-- The second launch. -/
def softmaxLaunch (mem : NaiveCell → Flt 𝕜) :
    Config (Tid (softmaxBlocks p) naiveThreads) NaiveCell (Flt 𝕜) :=
  ⟨mem, naiveRowSoftmaxThread num p.rows p.seqKv p.returnLse⟩

/-- The third launch. -/
def pvLaunch (mem : NaiveCell → Flt 𝕜) :
    Config (Tid (naiveBlocks (p.batch * p.numHeads * p.seqQ * p.headDim)) naiveThreads) NaiveCell
      (Flt 𝕜) :=
  ⟨mem, naivePvThread num p buf⟩

/-- Every interleaving of the three launches ends with the output and the log-sum-exps of the pipeline. -/
theorem exists_naive_ends (ho : p.oStride = stridesFor .bhsd p.seqQ p.numHeads p.headDim)
    (lse : ℕ → Flt 𝕜) (scratch : ℕ → ℕ → Flt 𝕜) :
    ∃ mem₁ mem₂ mem₃,
    Ends Tid.block Tid.warp (qkLaunch num p buf (naiveMemory buf lse scratch)) mem₁ ∧
      Ends Tid.block Tid.warp (softmaxLaunch num p mem₁) mem₂ ∧
      Ends Tid.block Tid.warp (pvLaunch num p buf mem₂) mem₃ ∧
      (∀ idx, mem₃ (.out idx) = (naivePipeline num p buf (softmaxBlocks p)).1 idx) ∧
      (p.lse = some lse →
        (naivePipeline num p buf (softmaxBlocks p)).2 = some fun row => mem₃ (.lse row)) := by
  set mem := naiveMemory buf lse scratch
  have hqk := naiveQk_ends num p buf (naiveBlocks (p.batch * p.numHeads * p.seqQ * p.seqKv)) mem
  set mem₁ := Scatter.apply mem (strideWrites (naiveBlocks (p.batch * p.numHeads * p.seqQ * p.seqKv))
    (p.batch * p.numHeads * p.seqQ * p.seqKv) .scores (naiveScore num p buf))
  have hsoftmax := naiveRowSoftmax_ends num (softmaxBlocks p) p.rows p.seqKv p.returnLse mem₁
  set mem₂ := Scatter.apply mem₁
    (softmaxGridWrites num p.rows p.seqKv p.returnLse (softmaxBlocks p) mem₁)
  have hpv :=
    @naivePv_ends 𝕜 _ _ (naiveBlocks (p.batch * p.numHeads * p.seqQ * p.headDim)) num p buf ho mem₂
  -- what the launches leave in each buffer
  have hscores₁ : (fun idx => mem₁ (.scores idx)) = naiveScores num p buf :=
    funext fun idx => apply_strideWrites scoresCell_injective idx
  have hlse₁ : (fun row => mem₁ (.lse row)) = lse :=
    funext fun row => apply_strideWrites_of_ne fun _ => NaiveCell.noConfusion
  have hout₁ : (fun idx => mem₁ (.out idx)) = buf.out :=
    funext fun idx => apply_strideWrites_of_ne fun _ => NaiveCell.noConfusion
  have hscores₂ : (fun idx => mem₂ (.scores idx)) = Scatter.apply (naiveScores num p buf)
      (naiveSoftmax num p buf (softmaxBlocks p)).1 := by
    rw [naiveSoftmax, ← hscores₁]
    exact funext fun idx => softmaxGridWrites_scores idx
  have hlse₂ : (fun row => mem₂ (.lse row)) = Scatter.apply lse
      (naiveSoftmax num p buf (softmaxBlocks p)).2 := by
    rw [naiveSoftmax, ← hscores₁, ← hlse₁]
    exact funext fun row => softmaxGridWrites_lse row
  have hout₂ : (fun idx => mem₂ (.out idx)) = buf.out := by
    rw [← hout₁]
    exact funext fun idx => softmaxGridWrites_out idx
  refine ⟨mem₁, mem₂, _, hqk, hsoftmax, hpv, fun idx => ?_, fun hlse => ?_⟩
  · rw [apply_strideWrites outCell_injective, hout₂, hscores₂, ← naivePvKernel_eq num p buf ho]
    rfl
  · rw [naivePipeline, hlse, Option.map_some, ← hlse₂]
    refine congrArg some (funext fun row => ?_)
    exact (apply_strideWrites_of_ne fun _ => NaiveCell.noConfusion).symm

/-- Whatever the interleavings of the three launches and whatever the scratch cells held, no two threads race,
every launch ends, and every row that sees a key and has a block ends as attention. -/
theorem naiveKernels_interleaved [IsStrictOrderedRing 𝕜]
    (ho : p.oStride = stridesFor .bhsd p.seqQ p.numHeads p.headDim) (lse : ℕ → Flt 𝕜)
    (scratch : ℕ → ℕ → Flt 𝕜) :
    ∃ mem₁ mem₂ mem₃,
    Ends Tid.block Tid.warp (qkLaunch num p buf (naiveMemory buf lse scratch)) mem₁ ∧
      Ends Tid.block Tid.warp (softmaxLaunch num p mem₁) mem₂ ∧
      Ends Tid.block Tid.warp (pvLaunch num p buf mem₂) mem₃ ∧
      ∀ b < p.batch, ∀ h < p.numHeads, ∀ i < p.seqQ, (b * p.numHeads + h) * p.seqQ + i < 2 ^ 24 →
        ((p.problem num buf).visible i).Nonempty →
        (∀ d < p.headDim, mem₃ (.out (p.outOffset b h i d)) =
          fin ((p.problem num buf).attention num.E b h i d)) ∧
        (p.returnLse = true → p.lse = some lse → mem₃ (.lse ((b * p.numHeads + h) * p.seqQ + i)) =
          ofBot ((p.problem num buf).lse num.E num.log b h i)) := by
  obtain ⟨mem₁, mem₂, mem₃, hqk, hsoftmax, hpv, hout, hlse⟩ :=
    exists_naive_ends num p buf ho lse scratch
  refine ⟨mem₁, mem₂, mem₃, hqk, hsoftmax, hpv, fun b hb h hh i hi hrow hvis => ?_⟩
  have hblocks : (b * p.numHeads + h) * p.seqQ + i < softmaxBlocks p :=
    lt_min ((p.row_lt hb hh hi).trans_le (le_max_right _ _)) hrow
  refine ⟨fun d hd => ?_, fun hret hsome => ?_⟩
  · rw [hout, naivePipeline_out ho hb hh hi hd hblocks hvis]
  · obtain ⟨mem, hmem, hvalue⟩ := naivePipeline_lse num p buf hret hsome hb hh hi hblocks hvis
    obtain rfl := Option.some.inj ((hlse hsome).symm.trans hmem)
    exact hvalue

end Pipeline

/-- Two queries over three keys under the causal mask. -/
noncomputable def naiveSample : NaiveFwdParams ℝ where
  q := none
  k := none
  v := none
  out := none
  scores := none
  batch := 1
  numHeads := 1
  numKvHeads := 1
  seqQ := 2
  seqKv := 3
  headDim := 4
  qStride := stridesFor .bhsd 2 1 4
  kStride := stridesFor .bhsd 3 1 4
  vStride := stridesFor .bhsd 3 1 4
  oStride := stridesFor .bhsd 2 1 4
  scale := 1
  causal := true
  returnLse := false
  diagonal := 1
  lse := none
  dtype := .fp16

/-- The kernels on this request, with all values one. -/
theorem naiveKernels_interleaved_sample :
    let buf : NaiveBuffers ℝ := ⟨onesHalf, onesHalf, onesHalf, fun _ => 0, fun _ => 0⟩
    ∃ mem₁ mem₂ mem₃,
      Ends Tid.block Tid.warp (qkLaunch realNumerics naiveSample buf
        (naiveMemory buf (fun _ => 0) fun _ _ => 0)) mem₁ ∧
      Ends Tid.block Tid.warp (softmaxLaunch realNumerics naiveSample mem₁) mem₂ ∧
      Ends Tid.block Tid.warp (pvLaunch realNumerics naiveSample buf mem₂) mem₃ ∧
      mem₃ (.out 7) = fin ((naiveSample.problem realNumerics buf).attention realNumerics.E 0 0 1 3) := by
  intro buf
  obtain ⟨mem₁, mem₂, mem₃, hqk, hsoftmax, hpv, hrows⟩ :=
    naiveKernels_interleaved realNumerics naiveSample buf rfl (fun _ => 0) fun _ _ => 0
  have hvisible : ((naiveSample.problem realNumerics buf).visible 1).Nonempty :=
    AttnProblem.visible_nonempty (by decide : 0 < 3) (fun _ => (by decide : (0 : ℤ) ≤ 1)) 1
  have hrow := (hrows 0 (by decide) 0 (by decide) 1 (by decide) (by decide) hvisible).1 3 (by decide)
  exact ⟨mem₁, mem₂, mem₃, hqk, hsoftmax, hpv, hrow⟩

end SciAttention

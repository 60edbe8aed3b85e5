import SciAttention.Common.SeqStore
import SciAttention.KvCache.Invariant

/-!
# The storage refines a store of sequences

`spec` runs the same calls on a `SeqStore`, applying those that succeed. `Refines` says what the
bytes of the layers then are: a row of an owned block is the row of the position it stands for, and
every other row is zero. Rows are found through `SlotCells`, which says where the slots of an append
point.
-/

namespace SciAttention

/-- Bytes of one token of a `[num_tokens, num_kv_heads, head_dim]` tensor. -/
def Tensor.tokenBytes (t : Tensor) : ℕ := t.dim 1 * t.dim 2 * dtypeSize t.dtype

/-- The row of a token in a `[num_tokens, num_kv_heads, head_dim]` tensor. -/
def Tensor.tokenRow (t : Tensor) (i : ℕ) : List UInt8 :=
  (List.range t.tokenBytes).map fun x => t.data.getD (fun _ => 0) (i * t.tokenBytes + x)

namespace PagedKVCache

open BlockManager

/-- The abstract store: columns are the K and the V side of each layer. -/
abbrev Store := SeqStore ℕ (Bool × ℕ) (List UInt8)

/-- The rows an append supplies: those of `k_new` and `v_new`, to one layer. -/
def appendSource (layer : ℕ) (kNew vNew : Tensor) : Bool × ℕ → Option (ℕ → List UInt8) :=
  fun column =>
    if column.2 = layer then some (if column.1 then kNew.tokenRow else vNew.tokenRow) else none

/-- A successful call on the abstract store. -/
def specStep (a : Store) : Call → Store
  | .appendTokens seqId layer kNew vNew _ =>
    a.append seqId.toNat (kNew.dim 0) (appendSource layer.toNat kNew vNew)
  | .resetSeq seqId _ => a.reset seqId.toNat
  | .syncPageTable => a
  | .forceSyncPageTable => a

/-- A call with its status on the abstract store: a failed one changes nothing. -/
def advance (a : Store) (call : Call) (status : Status) : Store :=
  if status.isOk then specStep a call else a

theorem advance_ok (a : Store) (call : Call) : advance a call .ok = specStep a call :=
  if_pos Status.isOk_ok

theorem advance_of_not_isOk {e : Status} (a : Store) (call : Call) (h : ¬ e.isOk) :
    advance a call e = a := if_neg h

@[simp] theorem advance_syncPageTable (a : Store) (e : Status) :
    advance a .syncPageTable e = a := ite_self _

@[simp] theorem advance_forceSyncPageTable (a : Store) (e : Status) :
    advance a .forceSyncPageTable e = a := ite_self _

/-- The abstract store after a run: the calls that succeeded, in order. -/
def spec : PagedKVCache → List Call → Store → Store
  | _, [], a => a
  | c, call :: calls, a => spec (c.step call).1 calls (advance a call (c.step call).2)

/-- The row stored in a slot of a layer. -/
def rowAt (c : PagedKVCache) (isKey : Bool) (layer slot : ℕ) : List UInt8 :=
  rowOf c.cfg.toDeviceShape c.cfg.elemBytes (c.storage.side isKey layer) slot

/-- The row of zeros. -/
def blankRow (c : PagedKVCache) : List UInt8 := zeroRow c.cfg.toDeviceShape c.cfg.elemBytes

/-- The stored rows are those of the abstract store, and zero elsewhere. -/
structure Refines (c : PagedKVCache) (a : Store) : Prop where
  length_eq : ∀ s, c.seqLengths s = a.length s
  bounded : a.Bounded
  live : ∀ isKey layer s j b o, layer < c.cfg.numLayers → (c.seqBlocks s)[j]? = some b →
    o < c.cfg.blockSize →
    c.rowAt isKey layer (b.toNat * c.cfg.blockSize + o) =
      (a.row s (isKey, layer) (j * c.cfg.blockSize + o)).getD c.blankRow
  free : ∀ isKey layer b o, layer < c.cfg.numLayers → b < c.cfg.numBlocks →
    o < c.cfg.blockSize → (∀ s, (b : ℤ) ∉ c.seqBlocks s) →
    c.rowAt isKey layer (b * c.cfg.blockSize + o) = c.blankRow

/-! ## Where slots point -/

/-- Owned rows of equal slot are the same row of the same sequence. -/
theorem Inv.slot_inj {c : PagedKVCache} (h : Inv c) {s t j k o p : ℕ} {b d : ℤ}
    (hb : (c.seqBlocks s)[j]? = some b) (hd : (c.seqBlocks t)[k]? = some d)
    (ho : o < c.cfg.blockSize) (hp : p < c.cfg.blockSize)
    (heq : b.toNat * c.cfg.blockSize + o = d.toNat * c.cfg.blockSize + p) :
    s = t ∧ j = k ∧ o = p := by
  obtain ⟨hblock, hoff⟩ := Strided.mul_add_inj ho hp heq
  have hbmem := List.mem_of_getElem? hb
  have hdmem := List.mem_of_getElem? hd
  have hbd : b = d := by
    have := (h.bounds hbmem).1
    have := (h.bounds hdmem).1
    omega
  have hst : s = t := by
    by_contra hne
    exact h.disjoint s t hne hbmem (hbd ▸ hdmem)
  subst hst hbd
  refine ⟨rfl, ?_, hoff⟩
  obtain ⟨hj, hbj⟩ := List.getElem?_eq_some_iff.mp hb
  obtain ⟨hk, hbk⟩ := List.getElem?_eq_some_iff.mp hd
  exact ((h.nodup s).getElem_inj_iff).mp (hbj.trans hbk.symm)

/-- The device slots of the next `n` tokens: block and offset of each position, cast to
`int32_t`. -/
def SlotCells (c : PagedKVCache) (s n : ℕ) (cells : ℕ → ℤ) : Prop :=
  ∀ t < n, ∃ b, (c.seqBlocks s)[(c.seqLengths s + t) / c.cfg.blockSize]? = some b ∧
    cells t = int32Cast (b * c.cfg.blockSize + ((c.seqLengths s + t) % c.cfg.blockSize : ℕ))

/-- The computed slots point to the owned block and offset of each position. -/
theorem Inv.slotCells {c : PagedKVCache} (h : Inv c) {s n : ℕ} (hs : s < c.cfg.maxNumSeqs)
    {slots : List ℤ} {cells : ℕ → ℤ} (hslots : c.nextSlots s n = .ok slots)
    (hcells : ∀ t < n, cells t = slots.getD t 0) : SlotCells c s n cells := by
  intro t ht
  have hrow := h.hostRow s hs
  have hat := (computeSlotMapping_eq_ok hslots).2 t (by simpa using ht)
  obtain ⟨hlt, hnonneg⟩ := slotAt_eq_ok hat
  rw [slotAt_mapped hlt hnonneg] at hat
  simp only [Int.toNat_natCast, Except.ok.injEq] at hat hnonneg
  rw [h.maxBlocks_eq] at hlt
  have howned : ∀ b ∈ c.seqBlocks s, 0 ≤ b := fun b hb => (h.bounds hb).1
  have hj := (hrow.nonneg_iff howned hlt).mp hnonneg
  refine ⟨_, List.getElem?_eq_getElem hj, ?_⟩
  rw [hcells t ht, ← hat, hrow.eq _ hlt, List.getD_eq_getElem _ _ hj]

/-- The slots of the next `n` tokens are `int32_t` values. -/
def SlotsFit (c : PagedKVCache) (s n : ℕ) : Prop :=
  ∀ t < n, ∀ b, (c.seqBlocks s)[(c.seqLengths s + t) / c.cfg.blockSize]? = some b →
    b * c.cfg.blockSize + ((c.seqLengths s + t) % c.cfg.blockSize : ℕ) < 2 ^ 31

/-- Slots that fit are not changed by the cast. -/
theorem SlotCells.eq {c : PagedKVCache} (h : Inv c) {s n : ℕ} {cells : ℕ → ℤ}
    (hcells : SlotCells c s n cells) (hfit : SlotsFit c s n) {t : ℕ} (ht : t < n) :
    ∃ b, (c.seqBlocks s)[(c.seqLengths s + t) / c.cfg.blockSize]? = some b ∧
      cells t = (b.toNat * c.cfg.blockSize + (c.seqLengths s + t) % c.cfg.blockSize : ℕ) := by
  obtain ⟨b, hb, hcell⟩ := hcells t ht
  have hb0 : 0 ≤ b := (h.bounds (List.mem_of_getElem? hb)).1
  refine ⟨b, hb, ?_⟩
  rw [hcell, int32Cast_of_lt (by positivity) (hfit t ht b hb)]
  push_cast
  rw [Int.toNat_of_nonneg hb0]

/-- A slot that belongs to none of the new positions is not written. -/
theorem SlotCells.miss {c : PagedKVCache} (h : Inv c) {s n : ℕ} {cells : ℕ → ℤ}
    (hcells : SlotCells c s n cells) (hfit : SlotsFit c s n) {slot : ℕ}
    (hslot : ∀ t < n, ∀ b, (c.seqBlocks s)[(c.seqLengths s + t) / c.cfg.blockSize]? = some b →
      b.toNat * c.cfg.blockSize + (c.seqLengths s + t) % c.cfg.blockSize ≠ slot) :
    ∀ t < n, cells t ≠ slot := by
  intro t ht heq
  obtain ⟨b, hb, hcell⟩ := hcells.eq h hfit ht
  exact hslot t ht b hb (by omega)

/-- Any other sequence's row, and any row of the sequence outside the new positions, is not
written. -/
theorem SlotCells.miss_owned {c : PagedKVCache} (h : Inv c) {s n : ℕ} {cells : ℕ → ℤ}
    (hcells : SlotCells c s n cells) (hfit : SlotsFit c s n) {t j o : ℕ} {b : ℤ}
    (hb : (c.seqBlocks t)[j]? = some b) (ho : o < c.cfg.blockSize)
    (hout : t = s → ¬ (c.seqLengths s ≤ j * c.cfg.blockSize + o ∧
      j * c.cfg.blockSize + o < c.seqLengths s + n)) :
    ∀ i < n, cells i ≠ (b.toNat * c.cfg.blockSize + o : ℕ) := by
  refine hcells.miss h hfit fun i hi d hd heq => ?_
  have hbs := c.cfg.blockSize_pos
  obtain ⟨hst, hj, hoff⟩ := h.slot_inj hd hb (Nat.mod_lt _ hbs) ho heq
  refine hout hst.symm ?_
  have hpos : j * c.cfg.blockSize + o = c.seqLengths s + i := by
    rw [← hj, ← hoff, Nat.mul_comm]
    exact Nat.div_add_mod _ _
  omega

/-- A block that nobody owns is not written. -/
theorem SlotCells.miss_free {c : PagedKVCache} (h : Inv c) {s n : ℕ} {cells : ℕ → ℤ}
    (hcells : SlotCells c s n cells) (hfit : SlotsFit c s n) {b o : ℕ} (ho : o < c.cfg.blockSize)
    (hb : (b : ℤ) ∉ c.seqBlocks s) : ∀ i < n, cells i ≠ (b * c.cfg.blockSize + o : ℕ) := by
  refine hcells.miss h hfit fun i hi d hd heq => hb ?_
  have hmem := List.mem_of_getElem? hd
  have hd0 := (h.bounds hmem).1
  have hblock := (Strided.mul_add_inj (Nat.mod_lt _ c.cfg.blockSize_pos) ho heq).1
  have hdb : d = b := by omega
  exact hdb ▸ hmem

/-- The row of a new position is the source row of its token: no other token has its slot. -/
theorem SlotCells.hit {c : PagedKVCache} (h : Inv c) {s n : ℕ} {cells : ℕ → ℤ}
    (hcells : SlotCells c s n cells) (hfit : SlotsFit c s n) {j o i : ℕ} {b : ℤ}
    (hb : (c.seqBlocks s)[j]? = some b) (ho : o < c.cfg.blockSize) (hi : i < n)
    (hpos : c.seqLengths s + i = j * c.cfg.blockSize + o) (src layer : Bytes) :
    rowOf c.cfg.toDeviceShape c.cfg.elemBytes
        (Scatter.apply layer
          (kvAppendWrites c.cfg.toDeviceShape c.cfg.elemBytes src cells n))
        (b.toNat * c.cfg.blockSize + o) =
      sourceRow c.cfg.toDeviceShape c.cfg.elemBytes src i := by
  have hbs := c.cfg.blockSize_pos
  have hdiv : (j * c.cfg.blockSize + o) / c.cfg.blockSize = j := Strided.flat_div j ho
  have hmod : (j * c.cfg.blockSize + o) % c.cfg.blockSize = o := Strided.flat_mod j ho
  have hblt := h.bounds (List.mem_of_getElem? hb)
  obtain ⟨b', hb', hcell⟩ := hcells.eq h hfit hi
  rw [hpos, hdiv, hb, Option.some.injEq] at hb'
  subst hb'
  rw [hpos, hmod] at hcell
  -- no other token of the call has this slot: positions with one slot are one position
  refine rowOf_append_hit c.cfg.numKvHeads_pos hi hcell ?_ fun i' hi' heq => ?_
  · calc (b.toNat * c.cfg.blockSize + o) / c.cfg.blockSize = b.toNat := Strided.flat_div _ ho
      _ < c.cfg.numBlocks := by omega
  · obtain ⟨d, hd, hcell'⟩ := hcells.eq h hfit hi'
    have hslot : d.toNat * c.cfg.blockSize + (c.seqLengths s + i') % c.cfg.blockSize =
        b.toNat * c.cfg.blockSize + o := by
      rw [hcell'] at heq
      exact_mod_cast heq
    obtain ⟨-, hj, hoff⟩ := h.slot_inj hd hb (Nat.mod_lt _ hbs) ho hslot
    have hpos' := Nat.div_add_mod (c.seqLengths s + i') c.cfg.blockSize
    rw [hj, hoff, Nat.mul_comm] at hpos'
    omega

/-! ## Steps -/

/-- An append, successful or not, keeps every row that no slot points to. -/
theorem Inv.append_rowOf_miss {c : PagedKVCache} (h : Inv c) {layer : ℤ} {kNew vNew : Tensor}
    {cells : ℕ → ℤ} {launch : LaunchOutcome} {slot : ℕ}
    (hmiss : ∀ i < kNew.dim 0, cells i ≠ slot) (isKey : Bool) (l : ℕ) :
    rowOf c.cfg.toDeviceShape c.cfg.elemBytes
        ((c.storage.append layer kNew vNew (some cells) (kNew.dim 0) launch).1.side isKey l) slot =
      c.rowAt isKey l slot := by
  obtain ⟨src, ws, hws, heq⟩ :=
    c.storage.append_side_subset layer kNew vNew cells (kNew.dim 0) launch isKey l
  rw [h.storageCfg_eq, Int.toNat_natCast] at hws
  rw [heq]
  exact rowOf_append_miss c.cfg.numKvHeads_pos hmiss hws

/-- New blocks come from the pool with zero rows, so reserving them changes no position. -/
theorem Refines.reserve {c : PagedKVCache} {a : Store} (href : Refines c a) (h : Inv c)
    {m : BlockManager} {s numNew : ℕ} {ids : List ℤ} (hr : Reserved c m s numNew ids) :
    Refines ((c.attach m s ids).refreshRow s) a := by
  refine ⟨href.length_eq, href.bounded, fun isKey layer t j b o hlayer hb ho => ?_,
    fun isKey layer b o hlayer hlt ho hnot => ?_⟩ <;> dsimp only [refreshRow, attach] at *
  · by_cases ht : t = s
    · subst ht
      rw [Function.update_self] at hb
      by_cases hj : j < (c.seqBlocks t).length
      · rw [List.getElem?_append_left hj] at hb
        exact href.live isKey layer t j b o hlayer hb ho
      · rw [List.getElem?_append_right (not_lt.mp hj)] at hb
        have hmem := List.mem_of_getElem? hb
        obtain ⟨hb0, hblt, -⟩ := (h.pool.mem_iff b).mp (hr.popped.mem_freeList hmem)
        have hbcast : ((b.toNat : ℕ) : ℤ) = b := Int.toNat_of_nonneg hb0
        -- a fresh block starts behind the length, where the store has nothing and the free block is blank
        have hlen : a.length t ≤ j * c.cfg.blockSize + o := by
          rw [← href.length_eq]
          calc c.seqLengths t ≤ (c.seqBlocks t).length * c.cfg.blockSize := h.length_le t
            _ ≤ j * c.cfg.blockSize := Nat.mul_le_mul_right _ (not_lt.mp hj)
            _ ≤ j * c.cfg.blockSize + o := Nat.le_add_right _ _
        rw [href.bounded t (isKey, layer) _ hlen]
        refine href.free isKey layer b.toNat o hlayer ?_ ho fun u => ?_
        · rw [h.numBlocks_eq] at hblt
          omega
        · rw [hbcast]
          exact hr.not_mem h hmem u
    · rw [Function.update_of_ne ht] at hb
      exact href.live isKey layer t j b o hlayer hb ho
  · refine href.free isKey layer b o hlayer hlt ho fun t hmem => hnot t ?_
    by_cases ht : t = s
    · rw [ht, Function.update_self]
      exact List.mem_append_left _ (ht ▸ hmem)
    · rwa [Function.update_of_ne ht]

/-- The kernel's view of a source row is the tensor's own when the row lengths agree. -/
theorem sourceRow_eq_tokenRow {cfg : ValidConfig} {t : Tensor} {data : Bytes}
    (hdata : t.data = some data) (hdtype : t.dtype = cfg.dtype)
    (hdims : t.dim 1 * t.dim 2 = cfg.numKvHeads * cfg.headDim) (i : ℕ) :
    sourceRow cfg.toDeviceShape cfg.elemBytes data i = t.tokenRow i := by
  have hbytes : slotRowBytes cfg.toDeviceShape cfg.elemBytes = t.tokenBytes := by
    simp only [slotRowBytes, Tensor.tokenBytes, hdims, hdtype, ValidConfig.toDeviceShape,
      ValidConfig.elemBytes, Nat.mul_assoc]
  simp only [sourceRow, Tensor.tokenRow, hbytes, hdata, Option.getD_some]

/-- A successful append stores the rows of the new positions and no other. -/
theorem Refines.stored {c : PagedKVCache} {a : Store} (href : Refines c a) (h : Inv c) {s : ℕ}
    {layer : ℤ} {kNew vNew : Tensor} {launch : LaunchOutcome} {cells : ℕ → ℤ} {capacity : ℕ}
    (hcells : SlotCells c s (kNew.dim 0) cells) (hfit : SlotsFit c s (kNew.dim 0))
    (hv : vNew.dim 1 * vNew.dim 2 = c.cfg.numKvHeads * c.cfg.headDim)
    (hok : (c.storage.append layer kNew vNew (some cells) (kNew.dim 0) launch).2.isOk) :
    Refines (c.stored s layer kNew vNew launch cells capacity)
      (a.append s (kNew.dim 0) (appendSource layer.toNat kNew vNew)) := by
  obtain ⟨kd, vd, hkd, hvd, hlayer, hdtype, hshape, hside⟩ := KVCache.append_ok hok
  rw [h.storageCfg_eq] at hdtype hshape
  simp only [h.storageCfg_eq, Int.toNat_natCast] at hside
  have hlen := href.length_eq s
  refine ⟨fun t => ?_, href.bounded.append _ _ _, fun isKey l t j b o hl hb ho => ?_,
    fun isKey l b o hl hlt ho hnot => ?_⟩
  · by_cases ht : t = s
    · simp [PagedKVCache.stored, SeqStore.append, ht, hlen]
    · simp [PagedKVCache.stored, SeqStore.append, Function.update_of_ne ht, href.length_eq]
  · dsimp only [PagedKVCache.stored, rowAt, blankRow] at *
    -- the position is one of the new ones, or its row is not written
    by_cases hin : t = s ∧ c.seqLengths s ≤ j * c.cfg.blockSize + o ∧
        j * c.cfg.blockSize + o < c.seqLengths s + kNew.dim 0
    · obtain ⟨rfl, hle, hlt⟩ := hin
      rw [SeqStore.append_row_new _ _ (hlen ▸ hle) (hlen ▸ hlt), ← hlen]
      by_cases hl' : l = layer.toNat
      · have hpos : c.seqLengths t + (j * c.cfg.blockSize + o - c.seqLengths t) =
            j * c.cfg.blockSize + o := by omega
        rw [hside, if_pos hl', hcells.hit h hfit hb ho (by omega) hpos, appendSource, if_pos hl']
        cases isKey
        · exact sourceRow_eq_tokenRow hvd hdtype.2 hv _
        · refine sourceRow_eq_tokenRow hkd hdtype.1 ?_ _
          rw [hshape.2.2.1, hshape.2.2.2]
      · rw [hside, if_neg hl', appendSource, if_neg hl', Option.map_none]
        have := href.live isKey l t j b o hl hb ho
        rwa [href.bounded t _ _ (hlen ▸ hle)] at this
    · have hmiss := hcells.miss_owned h hfit hb ho (fun ht hc => hin ⟨ht, hc⟩)
      rw [h.append_rowOf_miss hmiss, href.live isKey l t j b o hl hb ho]
      by_cases ht : t = s
      · subst ht
        rw [SeqStore.append_row_old _ _ (by rw [← hlen]; exact fun hc => hin ⟨rfl, hc⟩)]
        rfl
      · rw [SeqStore.append_row_of_ne ht]
        rfl
  · exact (h.append_rowOf_miss (hcells.miss_free h hfit ho (hnot s)) isKey l).trans
      (href.free isKey l b o hl hlt ho hnot)

/-- The rows after the kernels of a reset that reads the owned ids: zero in the sequence's blocks
when it succeeds, and in any case unchanged elsewhere. -/
theorem Inv.reset_rowOf {c : PagedKVCache} (h : Inv c) {s : ℕ} {ids : ℕ → ℤ}
    (launch : ℕ → LaunchOutcome)
    (hids : ∀ i < (c.seqBlocks s).length, ids i = (c.seqBlocks s).getD i (-1)) (isKey : Bool)
    {l b o : ℕ} (ho : o < c.cfg.blockSize) :
    ((b : ℤ) ∉ c.seqBlocks s →
      rowOf c.cfg.toDeviceShape c.cfg.elemBytes
          ((c.storage.reset (some ids) (c.seqBlocks s).length launch).1.side isKey l)
          (b * c.cfg.blockSize + o) = c.rowAt isKey l (b * c.cfg.blockSize + o)) ∧
    (l < c.cfg.numLayers → (b : ℤ) ∈ c.seqBlocks s →
      (c.storage.reset (some ids) (c.seqBlocks s).length launch).2.isOk →
      rowOf c.cfg.toDeviceShape c.cfg.elemBytes
          ((c.storage.reset (some ids) (c.seqBlocks s).length launch).1.side isKey l)
          (b * c.cfg.blockSize + o) = c.blankRow) := by
  constructor
  · intro hnot
    obtain ⟨ws, hws, heq⟩ :=
      c.storage.reset_side_subset ids (c.seqBlocks s).length launch isKey l
    rw [h.storageCfg_eq, Int.toNat_natCast] at hws
    rw [heq]
    refine rowOf_reset_miss ho (fun i hi hib => hnot ?_) hws
    rw [hids i hi, List.getD_eq_getElem _ _ hi] at hib
    exact hib ▸ List.getElem_mem hi
  · intro hl hmem hok
    have hpos : 0 < (c.seqBlocks s).length := List.length_pos_of_mem hmem
    rw [KVCache.reset_ok (by exact_mod_cast hpos) hok isKey (by rwa [h.storageCfg_eq]),
      h.storageCfg_eq, Int.toNat_natCast]
    obtain ⟨i, hi, hib⟩ := List.getElem_of_mem hmem
    refine rowOf_reset_hit ho hi ?_ (by have := (h.bounds hmem).2; exact_mod_cast this)
    rw [hids i hi, List.getD_eq_getElem _ _ hi, hib]

/-- Clearing and releasing a sequence forgets it and keeps the others. -/
theorem Refines.release {c : PagedKVCache} {a : Store} (href : Refines c a) (h : Inv c) {s : ℕ}
    {st : KVCache}
    (hkeep : ∀ isKey l (b o : ℕ), o < c.cfg.blockSize → (b : ℤ) ∉ c.seqBlocks s →
      rowOf c.cfg.toDeviceShape c.cfg.elemBytes (st.side isKey l) (b * c.cfg.blockSize + o) =
        c.rowAt isKey l (b * c.cfg.blockSize + o))
    (hclear : ∀ isKey l (b o : ℕ), l < c.cfg.numLayers → o < c.cfg.blockSize →
      (b : ℤ) ∈ c.seqBlocks s →
      rowOf c.cfg.toDeviceShape c.cfg.elemBytes (st.side isKey l) (b * c.cfg.blockSize + o) =
        c.blankRow) :
    Refines ({ c with storage := st }.releaseSeq s) (a.reset s) := by
  refine ⟨fun t => ?_, href.bounded.reset s, fun isKey l t j b o hl hb ho => ?_,
    fun isKey l b o hl hlt ho hnot => ?_⟩ <;> dsimp only [releaseSeq, rowAt, blankRow] at *
  · by_cases ht : t = s
    · simp [SeqStore.reset, ht]
    · simp [SeqStore.reset, Function.update_of_ne ht, href.length_eq]
  · by_cases ht : t = s
    · simp [ht] at hb
    · rw [Function.update_of_ne ht] at hb
      have hmem := List.mem_of_getElem? hb
      have hbcast : ((b.toNat : ℕ) : ℤ) = b := Int.toNat_of_nonneg (h.bounds hmem).1
      rw [SeqStore.reset_row_of_ne ht, hkeep isKey l b.toNat o ho
        (by rw [hbcast]; exact h.disjoint t s ht hmem)]
      exact href.live isKey l t j b o hl hb ho
  · by_cases hmem : (b : ℤ) ∈ c.seqBlocks s
    · exact hclear isKey l b o hl ho hmem
    · rw [hkeep isKey l b o ho hmem]
      refine href.free isKey l b o hl hlt ho fun t ht => ?_
      by_cases hts : t = s
      · exact hmem (hts ▸ ht)
      · exact hnot t (by rwa [Function.update_of_ne hts])

/-! ## Runs -/

/-- The call's kernel launches succeed. -/
def LaunchesSucceed : Call → Prop
  | .appendTokens _ _ _ _ env => env.launch = .ok
  | .resetSeq _ env => ∀ layer, env.launch layer = .ok
  | .syncPageTable => True
  | .forceSyncPageTable => True

/-- The reset kernels read the ids the sequence owns. -/
def ReadsOwnedIds (c : PagedKVCache) : Call → Prop
  | .resetSeq seqId env => ∀ i < (c.seqBlocks seqId.toNat).length,
      env.idsRead i = (c.seqBlocks seqId.toNat).getD i (-1)
  | _ => True

/-- The arguments pass every check that `AppendTokens` and `KVCache::Append` make on them. -/
structure AcceptedArgs (c : PagedKVCache) (seqId layer : ℤ) (kNew vNew : Tensor) : Prop
    extends AppendArgs c seqId layer kNew vNew seqId.toNat where
  kNew_dtype : kNew.dtype = c.cfg.dtype
  vNew_dtype : vNew.dtype = c.cfg.dtype
  kNew_heads : kNew.dim 1 = c.cfg.numKvHeads
  kNew_headDim : kNew.dim 2 = c.cfg.headDim

/-- The slots the next `n` tokens of a sequence get are `int32_t` values. The blocks are those it
owns and then those on top of the free list. -/
def NextSlotsFit (c : PagedKVCache) (s n : ℕ) : Prop :=
  ∀ t < n, ∀ b,
    (c.seqBlocks s ++ c.blocks.freeList.reverse)[(c.seqLengths s + t) / c.cfg.blockSize]? =
      some b → b * c.cfg.blockSize + ((c.seqLengths s + t) % c.cfg.blockSize : ℕ) < 2 ^ 31

/-- What the code leaves unchecked on accepted arguments: that a token of `v_new` has the length of
a cache row, and that the slots fit their type. -/
def AppendSound (c : PagedKVCache) : Call → Prop
  | .appendTokens seqId layer kNew vNew _ => AcceptedArgs c seqId layer kNew vNew →
      vNew.dim 1 * vNew.dim 2 = c.cfg.numKvHeads * c.cfg.headDim ∧
      NextSlotsFit c seqId.toNat (kNew.dim 0)
  | _ => True

/-- The slots of the reserved blocks fit when those of the free list's top do. -/
theorem NextSlotsFit.reserved {c : PagedKVCache} {m : BlockManager} {s n : ℕ} {ids : List ℤ}
    (hfit : NextSlotsFit c s n) (hr : Reserved c m s n ids) :
    SlotsFit ((c.attach m s ids).refreshRow s) s n := by
  intro t ht b hb
  dsimp only [refreshRow, attach] at hb ⊢
  rw [Function.update_self] at hb
  refine hfit t ht b ?_
  have hfree : c.blocks.freeList.reverse = ids ++ m.freeList.reverse := by
    rw [hr.popped.freeList_eq]
    simp
  rw [hfree, ← List.append_assoc]
  obtain ⟨hlt, hget⟩ := List.getElem?_eq_some_iff.mp hb
  rw [List.getElem?_append_left hlt, hb]

/-- A pool of at most `2 ^ 31` token slots has only slots that fit. -/
theorem Inv.nextSlotsFit {c : PagedKVCache} (h : Inv c)
    (hsmall : c.cfg.numBlocks * c.cfg.blockSize ≤ 2 ^ 31) (s n : ℕ) : NextSlotsFit c s n := by
  intro t _ b hb
  have hbound : 0 ≤ b ∧ b < c.cfg.numBlocks := by
    rcases List.mem_append.mp (List.mem_of_getElem? hb) with hmem | hmem
    · exact h.bounds hmem
    · obtain ⟨h0, hlt, -⟩ := (h.pool.mem_iff b).mp (List.mem_reverse.mp hmem)
      exact ⟨h0, h.numBlocks_eq ▸ hlt⟩
  have hmod := Nat.mod_lt (c.seqLengths s + t) c.cfg.blockSize_pos
  have hmul : (b + 1) * c.cfg.blockSize ≤ c.cfg.numBlocks * c.cfg.blockSize :=
    mul_le_mul_of_nonneg_right (by omega) (by positivity)
  have hcast : (c.cfg.numBlocks : ℤ) * c.cfg.blockSize ≤ 2 ^ 31 := by exact_mod_cast hsmall
  rw [add_mul, one_mul] at hmul
  omega

/-- The part of `AppendSound` about slots. -/
def SlotsSound (c : PagedKVCache) : Call → Prop
  | .appendTokens seqId layer kNew vNew _ => AcceptedArgs c seqId layer kNew vNew →
      NextSlotsFit c seqId.toNat (kNew.dim 0)
  | _ => True

theorem AppendSound.slotsSound {c : PagedKVCache} {call : Call} (h : AppendSound c call) :
    SlotsSound c call := by
  cases call with
  | appendTokens => exact fun hargs => (h hargs).2
  | resetSeq => trivial
  | syncPageTable => trivial
  | forceSyncPageTable => trivial

/-- An append writes no row of other sequences, and none below the length of its own. -/
theorem Inv.appendTokens_rowAt {c : PagedKVCache} (h : Inv c) {seqId layer : ℤ} {kNew vNew : Tensor}
    {env : AppendEnv}
    (hfit : AcceptedArgs c seqId layer kNew vNew → NextSlotsFit c seqId.toNat (kNew.dim 0)) {t j o : ℕ}
    {b : ℤ} (hb : (c.seqBlocks t)[j]? = some b) (ho : o < c.cfg.blockSize)
    (hout : t = seqId.toNat → 0 ≤ seqId → j * c.cfg.blockSize + o < c.seqLengths t) (isKey : Bool)
    (l : ℕ) :
    (c.appendTokens seqId layer kNew vNew env).1.rowAt isKey l (b.toNat * c.cfg.blockSize + o) =
      c.rowAt isKey l (b.toNat * c.cfg.blockSize + o) := by
  rcases appendTokens_cases h seqId layer kNew vNew env with
    ⟨e, failures, -, heq⟩ | ⟨s, m, ids, c₂, hargs, hr, rfl, hrest⟩
  · rw [heq]
    rfl
  have hinv₂ := hr.inv h hargs.seq_lt
  obtain rfl : seqId.toNat = s := by rw [hargs.seqId_eq]; rfl
  have hb₂ : (((c.attach m seqId.toNat ids).refreshRow seqId.toNat).seqBlocks t)[j]? = some b := by
    simp only [refreshRow, attach]
    by_cases ht : t = seqId.toNat
    · obtain ⟨hlt, -⟩ := List.getElem?_eq_some_iff.mp hb
      rw [ht, Function.update_self, List.getElem?_append_left (ht ▸ hlt), ← ht, hb]
    · rw [Function.update_of_ne ht, hb]
  have hbelow : t = seqId.toNat → ¬ (c.seqLengths seqId.toNat ≤ j * c.cfg.blockSize + o ∧
      j * c.cfg.blockSize + o < c.seqLengths seqId.toNat + kNew.dim 0) := by
    rintro rfl
    have := hout rfl (by rw [hargs.seqId_eq]; omega)
    omega
  -- the launch writes only slots of the new positions, which are not this row's
  have hwrites : ∀ slots cells, ((c.attach m seqId.toNat ids).refreshRow seqId.toNat).nextSlots
        seqId.toNat (kNew.dim 0) = .ok slots → (∀ i < kNew.dim 0, cells i = slots.getD i 0) →
      rowOf c.cfg.toDeviceShape c.cfg.elemBytes
        ((c.storage.append layer kNew vNew (some cells) (kNew.dim 0) env.launch).1.side isKey l)
          (b.toNat * c.cfg.blockSize + o) =
        c.rowAt isKey l (b.toNat * c.cfg.blockSize + o) := by
    intro slots cells hslots hcells
    rcases c.storage.append_cases layer kNew vNew (some cells) (kNew.dim 0) env.launch with
      ⟨_, -, happ⟩ | ⟨_, _, _, -, -, -, -, hdtype, hshape, -⟩
    · rw [happ]
      rfl
    · rw [h.storageCfg_eq] at hdtype hshape
      have hfit₂ := (hfit ⟨hargs, hdtype.1, hdtype.2, hshape.2.2.1, hshape.2.2.2⟩).reserved hr
      exact h.append_rowOf_miss ((hinv₂.slotCells hargs.seq_lt hslots hcells).miss_owned hinv₂
        hfit₂ hb₂ ho hbelow) isKey l
  rcases hrest with
    ⟨e, st, dev, cap, -, -, hst | ⟨slots, cells, hslots, hcells, -, hst⟩, heq⟩ |
      ⟨slots, cells, cap, hslots, hcells, -, heq⟩
  · rw [heq, hst]
    rfl
  · rw [heq, hst]
    exact hwrites slots cells hslots hcells
  · rw [heq]
    exact hwrites slots cells hslots hcells

/-- A reset clears no row of other sequences. -/
theorem Inv.resetSeq_rowAt {c : PagedKVCache} (h : Inv c) {seqId : ℤ} {env : ResetEnv}
    (hids : ReadsOwnedIds c (.resetSeq seqId env)) {t j o : ℕ} {b : ℤ}
    (hb : (c.seqBlocks t)[j]? = some b) (ho : o < c.cfg.blockSize) (hts : (t : ℤ) ≠ seqId) (isKey : Bool)
    (l : ℕ) :
    (c.resetSeq seqId env).1.rowAt isKey l (b.toNat * c.cfg.blockSize + o) =
      c.rowAt isKey l (b.toNat * c.cfg.blockSize + o) := by
  have hmem := List.mem_of_getElem? hb
  have hbcast : ((b.toNat : ℕ) : ℤ) = b := Int.toNat_of_nonneg (h.bounds hmem).1
  rcases c.resetSeq_cases seqId env with
    ⟨e, -, heq⟩ | ⟨s, rfl, hs, hrest⟩
  · rw [heq]
  have hnot : ((b.toNat : ℕ) : ℤ) ∉ c.seqBlocks s := by
    rw [hbcast]
    exact h.disjoint t s (by exact_mod_cast hts) hmem
  have hrows := (h.reset_rowOf (l := l) env.launch hids isKey ho).1 hnot
  rcases hrest with ⟨-, -, heq⟩ | ⟨st, -, ⟨-, rfl⟩ | ⟨-, -, rfl⟩, heq⟩
  · rw [heq]
    exact hrows
  · rw [heq]
    rfl
  · rw [heq]
    exact hrows

/-- What a call on sequence `s` must not change, whatever its outcome and its launches do: the rows
of other sequences, and for an append the rows below the length. -/
theorem Inv.step_rowAt {c : PagedKVCache} (h : Inv c) {call : Call} (hids : ReadsOwnedIds c call)
    (hfit : SlotsSound c call) {t j o : ℕ} {b : ℤ} (hb : (c.seqBlocks t)[j]? = some b)
    (ho : o < c.cfg.blockSize)
    (hkeep : touches t call = false ∨
      (isAppend call = true ∧ j * c.cfg.blockSize + o < c.seqLengths t)) (isKey : Bool) (l : ℕ) :
    (c.step call).1.rowAt isKey l (b.toNat * c.cfg.blockSize + o) =
      c.rowAt isKey l (b.toNat * c.cfg.blockSize + o) := by
  cases call with
  | appendTokens seqId layer kNew vNew env =>
    refine h.appendTokens_rowAt hfit hb ho (fun ht h0 => ?_) isKey l
    rcases hkeep with hkeep | ⟨-, hkeep⟩
    · simp [touches, ht, Int.toNat_of_nonneg h0] at hkeep
    · exact hkeep
  | resetSeq seqId env =>
    refine h.resetSeq_rowAt hids hb ho ?_ isKey l
    rintro rfl
    rcases hkeep with hkeep | ⟨hkeep, -⟩
    · simp [touches] at hkeep
    · simp [isAppend] at hkeep
  | syncPageTable =>
    obtain ⟨device, synced, heq⟩ := c.syncPageTable_eq
    rw [PagedKVCache.step, heq]
    rfl
  | forceSyncPageTable =>
    obtain ⟨device, synced, heq⟩ := c.forceSyncPageTable_eq
    rw [PagedKVCache.step, heq]
    rfl

/-- With launches that succeed, a failed store is no store. -/
theorem FailedStore.eq_of_launch_ok {c : PagedKVCache} {s : ℕ} {layer : ℤ} {kNew vNew : Tensor}
    {st : KVCache} (hst : FailedStore c s layer kNew vNew .ok st) : st = c.storage := by
  rcases hst with hst | ⟨slots, cells, -, -, hbad, hst⟩
  · exact hst
  · rcases c.storage.append_cases layer kNew vNew (some cells) (kNew.dim 0) .ok with
      ⟨_, -, heq⟩ | ⟨_, _, _, -, -, -, -, -, -, c', -, heq⟩
    · rw [hst, heq]
    · rw [heq] at hbad
      exact absurd Status.isOk_ok hbad

/-- The rows do not depend on the device mirror. -/
theorem Refines.withMirror {c : PagedKVCache} {a : Store} (href : Refines c a)
    (device : Option HostTable) (synced : ℕ) :
    Refines { c with pageTableDevice := device, syncedRevision := synced } a :=
  ⟨href.length_eq, href.bounded, href.live, href.free⟩

/-- One call: the state it leaves refines the abstract store, advanced when the call succeeds. -/
theorem Refines.step {c : PagedKVCache} {a : Store} (href : Refines c a) (h : Inv c) (call : Call)
    (hlaunch : LaunchesSucceed call) (hids : ReadsOwnedIds c call) (hsound : AppendSound c call) :
    Refines (c.step call).1 (advance a call (c.step call).2) := by
  cases call with
  | appendTokens seqId layer kNew vNew env =>
    simp only [PagedKVCache.step]
    rcases appendTokens_cases h seqId layer kNew vNew env with
      ⟨e, failures, hbad, heq⟩ | ⟨s, m, ids, c₂, hargs, hr, rfl, hrest⟩
    · rw [heq, advance_of_not_isOk _ _ hbad]
      exact ⟨href.length_eq, href.bounded, href.live, href.free⟩
    have href₂ := href.reserve h hr
    have hinv₂ := hr.inv h hargs.seq_lt
    obtain rfl : seqId.toNat = s := by rw [hargs.seqId_eq]; rfl
    rcases hrest with
      ⟨e, st, dev, capacity, hbad, -, hst, heq⟩ | ⟨slots, cells, capacity, hslots, hcells, hok, heq⟩
    · rw [show env.launch = .ok from hlaunch] at hst
      rw [heq, advance_of_not_isOk _ _ hbad, hst.eq_of_launch_ok]
      exact ⟨href₂.length_eq, href₂.bounded, href₂.live, href₂.free⟩
    · obtain ⟨-, -, -, -, -, hdtype, hshape, -⟩ := KVCache.append_ok hok
      rw [h.storageCfg_eq] at hdtype hshape
      obtain ⟨hv, hfit⟩ := hsound ⟨hargs, hdtype.1, hdtype.2, hshape.2.2.1, hshape.2.2.2⟩
      rw [heq, advance_ok]
      exact href₂.stored hinv₂ (hinv₂.slotCells hargs.seq_lt hslots hcells) (hfit.reserved hr) hv hok
  | resetSeq seqId env =>
    simp only [PagedKVCache.step]
    rcases c.resetSeq_cases seqId env with
      ⟨e, hbad, heq⟩ | ⟨s, rfl, hs, ⟨-, hbad, heq⟩ | ⟨st, -, hst, heq⟩⟩
    · rw [heq, advance_of_not_isOk _ _ hbad]
      exact href
    · exact absurd (KVCache.reset_isOk _ _ _ hlaunch) hbad
    · rw [heq, advance_ok]
      rcases hst with ⟨hnil, rfl⟩ | ⟨-, hok, rfl⟩
      · exact href.release h (fun _ _ _ _ _ _ => rfl) fun _ _ _ _ _ _ hmem => by
          simp [hnil] at hmem
      · exact href.release h
          (fun isKey l b o ho hnot => (h.reset_rowOf env.launch hids isKey ho).1 hnot)
          (fun isKey l b o hl ho hmem => (h.reset_rowOf env.launch hids isKey ho).2 hl hmem hok)
  | syncPageTable =>
    obtain ⟨device, synced, heq⟩ := c.syncPageTable_eq
    rw [advance_syncPageTable, PagedKVCache.step, heq]
    exact href.withMirror device synced
  | forceSyncPageTable =>
    obtain ⟨device, synced, heq⟩ := c.forceSyncPageTable_eq
    rw [advance_forceSyncPageTable, PagedKVCache.step, heq]
    exact href.withMirror device synced

/-- A new cache on zeroed memory is empty. -/
theorem Refines.create {cfg : KVCacheConfig} {env : PagedEnv} {c : PagedKVCache}
    (hcreate : create cfg env = .ok c)
    (hzero : ∀ layer, (∀ k, env.kFresh layer = some k → k = fun _ => 0) ∧
      ∀ v, env.vFresh layer = some v → v = fun _ => 0) : Refines c SeqStore.empty := by
  obtain ⟨storage, blocks, hstorage, -, rfl⟩ := create_eq_ok hcreate
  obtain ⟨-, -, hfresh⟩ := KVCache.create_eq_ok hstorage
  refine ⟨fun _ => rfl, SeqStore.bounded_empty, fun isKey layer s j b o _ hb _ => ?_,
    fun isKey layer b o hlayer _ _ _ => ?_⟩
  · simp at hb
  · have hside : storage.side isKey layer = fun _ => 0 := by
      cases isKey
      · exact (hzero layer).2 _ (hfresh layer hlayer).2
      · exact (hzero layer).1 _ (hfresh layer hlayer).1
    simp only [rowAt, blankRow, hside]
    exact rowOf_zero _

/-- Along every run whose calls meet the conditions, the state refines the abstract store. -/
theorem Refines.run {c : PagedKVCache} {a : Store} (href : Refines c a) (h : Inv c)
    (calls : List Call)
    (hcalls : Along (fun c call => LaunchesSucceed call ∧ ReadsOwnedIds c call ∧ AppendSound c call)
      c calls) : Refines (c.run calls) (spec c calls a) := by
  induction calls generalizing c a with
  | nil => exact href
  | cons call calls ih =>
    obtain ⟨⟨hlaunch, hids, hsound⟩, hrest⟩ := hcalls
    exact ih (href.step h call hlaunch hids hsound) (h.step call) hrest

/-- Every slot row of every layer is the row of the live position it stands for, and zero when it
stands for none. -/
def StorageHolds (c : PagedKVCache) (a : Store) : Prop :=
  ∀ isKey layer b o, layer < c.cfg.numLayers → b < c.cfg.numBlocks → o < c.cfg.blockSize →
    (∀ s p row, (c.seqBlocks s)[p / c.cfg.blockSize]? = some (b : ℤ) → p % c.cfg.blockSize = o →
      a.row s (isKey, layer) p = some row →
      c.rowAt isKey layer (b * c.cfg.blockSize + o) = row) ∧
    ((∀ s p, (c.seqBlocks s)[p / c.cfg.blockSize]? = some (b : ℤ) → p % c.cfg.blockSize = o →
      a.row s (isKey, layer) p = none) →
      c.rowAt isKey layer (b * c.cfg.blockSize + o) = c.blankRow)

/-- The refinement, block by block. -/
theorem Refines.storageHolds {c : PagedKVCache} {a : Store} (href : Refines c a) :
    StorageHolds c a := by
  intro isKey layer b o hlayer hb ho
  have hlive : ∀ s p, (c.seqBlocks s)[p / c.cfg.blockSize]? = some (b : ℤ) →
      p % c.cfg.blockSize = o →
      c.rowAt isKey layer (b * c.cfg.blockSize + o) =
        (a.row s (isKey, layer) p).getD c.blankRow := by
    intro s p hp hmod
    have hrow := href.live isKey layer s _ b o hlayer hp ho
    have hpos : p / c.cfg.blockSize * c.cfg.blockSize + o = p := by
      rw [← hmod, Nat.mul_comm]
      exact Nat.div_add_mod _ _
    rwa [hpos, Int.toNat_natCast] at hrow
  constructor
  · intro s p row hp hmod hrow
    rw [hlive s p hp hmod, hrow, Option.getD_some]
  · intro hnone
    -- a row that nothing was stored to is a blank of its owner, or of the free list
    by_cases howned : ∃ s, (b : ℤ) ∈ c.seqBlocks s
    · obtain ⟨s, hs⟩ := howned
      obtain ⟨j, hj, hbj⟩ := List.getElem_of_mem hs
      have hdiv : (j * c.cfg.blockSize + o) / c.cfg.blockSize = j := Strided.flat_div j ho
      have hmod : (j * c.cfg.blockSize + o) % c.cfg.blockSize = o := Strided.flat_mod j ho
      have hp : (c.seqBlocks s)[(j * c.cfg.blockSize + o) / c.cfg.blockSize]? = some (b : ℤ) := by
        rw [hdiv, List.getElem?_eq_getElem hj, hbj]
      rw [hlive s _ hp hmod, hnone s _ hp hmod, Option.getD_none]
    · exact href.free isKey layer b o hlayer hb ho (not_exists.mp howned)

/-- In every run on zeroed memory whose launches succeed and whose resets read the owned ids, if
every accepted append brings V rows of the cache's row length and gets slots that are `int32_t`
values, the storage holds exactly the live tokens. -/
theorem storageHolds_run {cfg : KVCacheConfig} {env : PagedEnv} {c : PagedKVCache}
    (hcreate : PagedKVCache.create cfg env = .ok c) (hsmall : cfg.numBlocks ≤ 2 ^ 31)
    (hzero : ∀ layer, (∀ k, env.kFresh layer = some k → k = fun _ => 0) ∧
      ∀ v, env.vFresh layer = some v → v = fun _ => 0)
    (calls : List Call)
    (hassumed : Along (fun c call => LaunchesSucceed call ∧ ReadsOwnedIds c call) c calls)
    (hsound : Along AppendSound c calls) :
    StorageHolds (c.run calls) (spec c calls SeqStore.empty) := by
  refine ((Refines.create hcreate hzero).run (Inv.create hsmall hcreate) calls ?_).storageHolds
  exact (hassumed.and hsound).imp fun _ _ h => ⟨h.1.1, h.1.2, h.2⟩

/-- Two tokens whose V rows have two heads: a shape the cache of `tinyConfig` accepts. -/
def wideValues : Tensor := tokenTensor 2 2 fun i => if i < 128 then 1 else 2

/-- The append of `wideValues` to the first sequence. -/
def wideAppend : Call :=
  .appendTokens 0 0 (tokenTensor 2 1 fun _ => 0) wideValues appendOk

/-- V rows of another length are accepted and cut at the wrong places: the V row stored for the
second token is the second head of the first one. -/
theorem not_storageHolds_wideAppend : ∃ c,
    PagedKVCache.create (tinyConfig 1 1 2) zeroEnv = .ok c ∧
    Along (fun c call => LaunchesSucceed call ∧ ReadsOwnedIds c call) c [wideAppend] ∧
    (c.step wideAppend).2.isOk ∧
    (c.run [wideAppend]).rowAt false 0 1 = List.replicate 64 1 ∧
    wideValues.tokenRow 1 = List.replicate 128 2 ∧
    ¬ StorageHolds (c.run [wideAppend]) (spec c [wideAppend] SeqStore.empty) := by
  refine ⟨_, rfl, ⟨⟨rfl, trivial⟩, trivial⟩, by decide +kernel, by decide +kernel,
    by decide +kernel, fun hholds => ?_⟩
  have hrow := (hholds false 0 1 0 (by decide) (by decide) (by decide)).1 0 1
    (wideValues.tokenRow 1) (by decide +kernel) (by decide) (by decide +kernel)
  revert hrow
  decide +kernel

/-- The storage theorem at a run that stores two tokens and forgets them. -/
theorem storageHolds_tiny : ∃ c,
    PagedKVCache.create (tinyConfig 1 1 2) zeroEnv = .ok c ∧
    StorageHolds
      (c.run [.appendTokens 0 0 (tokenTensor 2 1 fun _ => 1) (tokenTensor 2 1 fun _ => 2) appendOk,
        .resetSeq 0 (resetOk [0, 1])])
      (spec c [.appendTokens 0 0 (tokenTensor 2 1 fun _ => 1) (tokenTensor 2 1 fun _ => 2) appendOk,
        .resetSeq 0 (resetOk [0, 1])] SeqStore.empty) := by
  have hcreate : PagedKVCache.create (tinyConfig 1 1 2) zeroEnv = .ok _ := rfl
  have hsmall : (tinyConfig 1 1 2).numBlocks ≤ 2 ^ 31 := by decide
  have hfit := (Inv.create hsmall hcreate).nextSlotsFit (by decide)
  refine ⟨_, hcreate, storageHolds_run hcreate hsmall (fun _ => ⟨?_, ?_⟩) _
    ⟨⟨rfl, trivial⟩, ⟨fun _ => rfl, ?_⟩, trivial⟩
    ⟨fun _ => ⟨by decide, hfit _ _⟩, trivial, trivial⟩⟩
  · rintro k hk
    exact (Option.some.inj hk).symm
  · rintro v hv
    exact (Option.some.inj hv).symm
  · unfold ReadsOwnedIds
    decide +kernel

end PagedKVCache

end SciAttention

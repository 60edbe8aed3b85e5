import SciAttention.Common.Results
import SciAttention.KvCache.Layout
import Mathlib.Tactic.NormNum

/-!
# Slot mappings of arbitrary positions

`ComputeSlotMapping` is public and takes any `int64_t` start. Its sums wrap, its division truncates towards
zero and its slots are narrowed to `int32_t`; a negative start, a sum past `2 ^ 63` and a slot number past
`2 ^ 31` each give a slot of another block. `computeSlotMapping64` has the machine arithmetic; where the
positions fit it is `computeSlotMapping`.
-/

namespace SciAttention

/-- `position` of token `t`. -/
def position64 (seqStart : ℤ) (t : ℕ) : ℤ := int64Wrap (seqStart + t)

/-- One iteration of the loop in `ComputeSlotMapping`, in `int64_t` arithmetic. -/
def slotAt64 (row : ℤ → ℤ) (seqStart blockSize maxBlocks : ℤ) (t : ℕ) : Except Status ℤ :=
  let position := position64 seqStart t
  let logicalBlock := position.tdiv blockSize
  let offsetInBlock := position.tmod blockSize
  if logicalBlock ≥ maxBlocks then
    .error (makeStatus .kvCapacityExceeded
      ("ComputeSlotMapping: logical block " ++ toString logicalBlock ++ " >= max_blocks=" ++
        toString maxBlocks))
  else
    let physical := row logicalBlock
    if physical < 0 then
      .error (makeStatus .shapeMismatch
        ("ComputeSlotMapping: block table slot " ++ toString logicalBlock ++
          " is empty (-1) for position " ++ toString position))
    else .ok (int32Cast (int64Wrap (int64Wrap (physical * blockSize) + offsetInBlock)))

/-- `ComputeSlotMapping`, in `int64_t` arithmetic. -/
def computeSlotMapping64 (blockTableRow : Option (ℤ → ℤ))
    (seqStart numTokens blockSize maxBlocks : ℤ) :
    Except Status (List ℤ) :=
  match blockTableRow with
  | none => .error (makeStatus .shapeMismatch "ComputeSlotMapping: null block table row")
  | some row =>
    if blockSize ≤ 0 ∨ numTokens ≤ 0 then
      .error (makeStatus .shapeMismatch "ComputeSlotMapping: block_size/num_tokens <= 0")
    else (List.range numTokens.toNat).mapM (slotAt64 row seqStart blockSize maxBlocks)

/-- The entry of the row that token `t` reads. -/
def entryRead (seqStart blockSize : ℤ) (t : ℕ) : ℤ := (position64 seqStart t).tdiv blockSize

/-! ## Machine arithmetic -/

/-- Narrowing sees the low bits only. -/
theorem int32Cast_int64Wrap_add (x y : ℤ) : int32Cast (int64Wrap (int64Wrap x + y)) =
    int32Cast (x + y) := by
  unfold int32Cast int64Wrap
  rw [Int.bmod_bmod_of_dvd (by norm_num), ← Int.bmod_bmod_of_dvd (show 2 ^ 32 ∣ 2 ^ 64 by norm_num),
    Int.bmod_add_bmod, Int.bmod_bmod_of_dvd (by norm_num)]

variable {row : ℤ → ℤ} {seqStart blockSize maxBlocks : ℤ} {n : ℕ}

/-- Where the position fits the wrapping loop is the one over the integers. -/
theorem slotAt64_eq {t : ℕ} (h0 : -2 ^ 63 ≤ seqStart + t) (h : seqStart + t < 2 ^ 63) :
    slotAt64 row seqStart blockSize maxBlocks t = slotAt row seqStart blockSize maxBlocks t := by
  simp only [slotAt64, slotAt, position64, int64Wrap_of_lt h0 h, int32Cast_int64Wrap_add]

/-- Where all positions fit the two loops are one. -/
theorem computeSlotMapping64_eq (h0 : -2 ^ 63 ≤ seqStart) (hstop : seqStart + n ≤ 2 ^ 63) :
    computeSlotMapping64 (some row) seqStart n blockSize maxBlocks =
      computeSlotMapping (some row) seqStart n blockSize maxBlocks := by
  have hloop (ts : List ℕ) (hts : ∀ t ∈ ts, t < n) :
      ts.mapM (slotAt64 row seqStart blockSize maxBlocks) = slotLoop row seqStart blockSize maxBlocks ts := by
    induction ts with
    | nil => rfl
    | cons t ts ih =>
      have ht := hts t List.mem_cons_self
      rw [List.mapM_cons, slotAt64_eq (by omega) (by omega), ih fun u hu => hts u (List.mem_cons_of_mem t hu),
        slotLoop]
      cases slotAt row seqStart blockSize maxBlocks t with
      | error e => rfl
      | ok slot => cases slotLoop row seqStart blockSize maxBlocks ts <;> rfl
  simp only [computeSlotMapping64, computeSlotMapping, Int.toNat_natCast]
  rw [hloop _ fun t ht => List.mem_range.1 ht]

/-- What token `t` is mapped to. -/
def mappedSlot (row : ℤ → ℤ) (seqStart blockSize : ℤ) (t : ℕ) : ℤ :=
  int32Cast (row (entryRead seqStart blockSize t) * blockSize + (position64 seqStart t).tmod blockSize)

/-- The result of a token that is mapped. -/
theorem slotAt64_eq_ok {t : ℕ} {slot : ℤ} :
    slotAt64 row seqStart blockSize maxBlocks t = .ok slot ↔
      (entryRead seqStart blockSize t < maxBlocks ∧ 0 ≤ row (entryRead seqStart blockSize t)) ∧
        mappedSlot row seqStart blockSize t = slot := by
  simp only [slotAt64, int32Cast_int64Wrap_add, entryRead, mappedSlot]
  split_ifs with hmax hneg
  · simp only [false_iff]
    omega
  · simp only [false_iff]
    omega
  · rw [Except.ok.injEq]
    exact ⟨fun h => ⟨⟨by omega, by omega⟩, h⟩, fun h => h.2⟩

/-- Some token lies behind the row or in an empty entry of it. -/
def SlotsRefused (row : ℤ → ℤ) (seqStart blockSize maxBlocks : ℤ) (n : ℕ) : Prop :=
  ∃ t < n, maxBlocks ≤ entryRead seqStart blockSize t ∨ row (entryRead seqStart blockSize t) < 0

/-- A call fails exactly on the requests that it refuses. -/
theorem computeSlotMapping64_eq_ok (hbs : 0 < blockSize) (hn : 0 < n) {slots : List ℤ} :
    computeSlotMapping64 (some row) seqStart n blockSize maxBlocks = .ok slots ↔
      ¬ SlotsRefused row seqStart blockSize maxBlocks n ∧
        (List.range n).map (mappedSlot row seqStart blockSize) = slots := by
  simp only [computeSlotMapping64]
  rw [if_neg (by omega), Results.mapM_eq_ok, Int.toNat_natCast]
  simp only [slotAt64_eq_ok, List.forall₂_and_left, ← List.forall₂_map_left_iff,
    List.forall₂_eq_eq_eq,
    SlotsRefused, List.mem_range, not_exists, not_and, not_or, not_le, not_lt]

/-! ## Positions that fit -/

/-- The arithmetic of the call does not leave its types: the positions are non-negative `int64_t` values
and the slots `int32_t` ones. -/
structure Fits (row : ℤ → ℤ) (seqStart blockSize : ℤ) (n : ℕ) : Prop where
  start : 0 ≤ seqStart
  stop : seqStart + n ≤ 2 ^ 63
  slots : ∀ t < n, row ((seqStart + t) / blockSize) * blockSize + (seqStart + t) % blockSize < 2 ^ 31

theorem position64_eq (h0 : 0 ≤ seqStart) (hstop : seqStart + n ≤ 2 ^ 63) {t : ℕ} (ht : t < n) :
    position64 seqStart t = seqStart + t :=
  int64Wrap_of_lt (by omega) (by omega)

theorem entryRead_eq (h0 : 0 ≤ seqStart) (hstop : seqStart + n ≤ 2 ^ 63) {t : ℕ} (ht : t < n) :
    entryRead seqStart blockSize t = (seqStart + t) / blockSize := by
  rw [entryRead, position64_eq h0 hstop ht, Int.tdiv_eq_ediv_of_nonneg (by omega)]

theorem mappedSlot_eq_cast (h0 : 0 ≤ seqStart) (hstop : seqStart + n ≤ 2 ^ 63) {t : ℕ} (ht : t < n) :
    mappedSlot row seqStart blockSize t =
      int32Cast (row ((seqStart + t) / blockSize) * blockSize + (seqStart + t) % blockSize) := by
  rw [mappedSlot, entryRead_eq h0 hstop ht, position64_eq h0 hstop ht,
    Int.tmod_eq_emod_of_nonneg (by omega)]

/-- The slots of a call are those of the row's own blocks. -/
structure SlotsOwn (row : ℤ → ℤ) (seqStart blockSize maxBlocks : ℤ) (n : ℕ) (slots : List ℤ) :
    Prop where
  /-- No entry outside the row was read. -/
  reads : ∀ t < n, 0 ≤ entryRead seqStart blockSize t ∧ entryRead seqStart blockSize t < maxBlocks
  length : slots.length = n
  /-- The block that the position names is one of the row. -/
  named : ∀ t < n, 0 ≤ (seqStart + t) / blockSize ∧ (seqStart + t) / blockSize < maxBlocks
  owned : ∀ t < n, ∃ slot, slots[t]? = some slot ∧ 0 ≤ slot ∧
    slot / blockSize = row ((seqStart + t) / blockSize) ∧ slot % blockSize = (seqStart + t) % blockSize
  /-- Distinct positions get distinct slots, if the row has distinct blocks. -/
  nodup : (∀ i j, 0 ≤ i → i < maxBlocks → 0 ≤ j → j < maxBlocks → row i = row j → i = j) →
    slots.Nodup

/-- A number is determined by its quotient and its remainder. -/
theorem eq_of_ediv_emod {x y b : ℤ} (hdiv : x / b = y / b) (hmod : x % b = y % b) : x = y := by
  rw [← Int.mul_ediv_add_emod x b, ← Int.mul_ediv_add_emod y b, hdiv, hmod]

/-- On a row with distinct blocks the slots of distinct positions differ. -/
theorem nodup_of_owned {slots : List ℤ} (hlen : slots.length = n)
    (hnamed : ∀ t < n, 0 ≤ (seqStart + t) / blockSize ∧ (seqStart + t) / blockSize < maxBlocks)
    (howned : ∀ t < n, ∃ slot, slots[t]? = some slot ∧ 0 ≤ slot ∧
      slot / blockSize = row ((seqStart + t) / blockSize) ∧
      slot % blockSize = (seqStart + t) % blockSize)
    (hrow : ∀ i j, 0 ≤ i → i < maxBlocks → 0 ≤ j → j < maxBlocks → row i = row j → i = j) :
    slots.Nodup := by
  rw [List.nodup_iff_getElem?_ne_getElem?]
  intro t u htu hu heq
  have ht : t < n := by omega
  have hu' : u < n := by omega
  obtain ⟨a, ha, -, hadiv, hamod⟩ := howned t ht
  obtain ⟨b, hb, -, hbdiv, hbmod⟩ := howned u hu'
  obtain rfl : a = b := by
    rw [ha, hb] at heq
    exact Option.some.inj heq
  have hblock := hrow _ _ (hnamed t ht).1 (hnamed t ht).2 (hnamed u hu').1 (hnamed u hu').2
    (hadiv.symm.trans hbdiv)
  have := eq_of_ediv_emod hblock (hamod.symm.trans hbmod)
  omega

/-- A call that fits and is not refused returns slots of the row's own blocks. -/
theorem Fits.slotsOwn (hfits : Fits row seqStart blockSize n) (hbs : 0 < blockSize)
    (hok : ¬ SlotsRefused row seqStart blockSize maxBlocks n) :
    SlotsOwn row seqStart blockSize maxBlocks n
      ((List.range n).map (mappedSlot row seqStart blockSize)) := by
  simp only [SlotsRefused, not_exists, not_and, not_or, not_le, not_lt] at hok
  have hentry {t : ℕ} (ht : t < n) : entryRead seqStart blockSize t = (seqStart + t) / blockSize :=
    entryRead_eq hfits.start hfits.stop ht
  have hlen : ((List.range n).map (mappedSlot row seqStart blockSize)).length = n := by simp
  have hnamed : ∀ t < n, 0 ≤ (seqStart + t) / blockSize ∧ (seqStart + t) / blockSize < maxBlocks := by
    intro t ht
    have hstart := hfits.start
    exact ⟨Int.ediv_nonneg (by omega) hbs.le, hentry ht ▸ (hok t ht).1⟩
  have howned : ∀ t < n, ∃ slot,
      ((List.range n).map (mappedSlot row seqStart blockSize))[t]? = some slot ∧ 0 ≤ slot ∧
        slot / blockSize = row ((seqStart + t) / blockSize) ∧
        slot % blockSize = (seqStart + t) % blockSize := by
    intro t ht
    have hrow : 0 ≤ row ((seqStart + t) / blockSize) := hentry ht ▸ (hok t ht).2
    have hmod := Int.emod_nonneg (seqStart + t) hbs.ne'
    have hmodlt := Int.emod_lt_of_pos (seqStart + t) hbs
    have hpos : 0 ≤ row ((seqStart + t) / blockSize) * blockSize + (seqStart + t) % blockSize := by
      positivity
    refine ⟨row ((seqStart + t) / blockSize) * blockSize + (seqStart + t) % blockSize, ?_, hpos, ?_, ?_⟩
    · rw [List.getElem?_map, List.getElem?_range ht, Option.map_some,
        mappedSlot_eq_cast hfits.start hfits.stop ht,
        int32Cast_of_lt (by omega) (hfits.slots t ht)]
    · rw [Int.add_comm, Int.add_mul_ediv_right _ _ hbs.ne', Int.ediv_eq_zero_of_lt hmod hmodlt, zero_add]
    · rw [Int.add_comm, Int.add_mul_emod_self_right, Int.emod_emod]
  refine ⟨fun t ht => ?_, hlen, hnamed, howned, nodup_of_owned hlen hnamed howned⟩
  rw [hentry ht]
  exact hnamed t ht

/-- The first position past `2 ^ 63` is the most negative one, so that the entry read lies before the
row. -/
theorem SlotsOwn.stop {slots : List ℤ} (h : SlotsOwn row seqStart blockSize maxBlocks n slots)
    (hbs : 0 < blockSize) (hbs64 : blockSize < 2 ^ 63) (h0 : 0 ≤ seqStart) (h64 : seqStart < 2 ^ 63) :
    seqStart + n ≤ 2 ^ 63 := by
  by_contra hstop
  obtain ⟨t, ht⟩ : ∃ t : ℕ, (t : ℤ) = 2 ^ 63 - seqStart := ⟨(2 ^ 63 - seqStart).toNat, by omega⟩
  have hposition : position64 seqStart t = -2 ^ 63 := by
    rw [position64, ht, add_sub_cancel]
    rfl
  have hentry := (h.reads t (by omega)).1
  rw [entryRead, hposition, Int.neg_tdiv, Left.nonneg_neg_iff, Int.tdiv_eq_ediv_of_nonneg (by norm_num)]
    at hentry
  have hquot : 1 ≤ (2 ^ 63 : ℤ) / blockSize := (Int.le_ediv_iff_mul_le hbs).2 (by omega)
  omega

/-- Returned slots of the row's own blocks come from a call that fits. -/
theorem SlotsOwn.fits (hbs : 0 < blockSize) (hbs64 : blockSize < 2 ^ 63) (h64 : seqStart < 2 ^ 63)
    (hn : 0 < n) (h : SlotsOwn row seqStart blockSize maxBlocks n
      ((List.range n).map (mappedSlot row seqStart blockSize))) :
    Fits row seqStart blockSize n := by
  have hstart : 0 ≤ seqStart := by
    have := (h.named 0 hn).1
    rwa [Nat.cast_zero, add_zero, Int.ediv_nonneg_iff_of_pos hbs] at this
  have hstop := h.stop hbs hbs64 hstart h64
  refine ⟨hstart, hstop, fun t ht => ?_⟩
  obtain ⟨slot, hslot, -, hdiv, hmod⟩ := h.owned t ht
  rw [List.getElem?_map, List.getElem?_range ht, Option.map_some, Option.some.injEq,
    mappedSlot_eq_cast hstart hstop ht] at hslot
  have hcast : slot < 2 ^ 31 := by
    rw [← hslot, int32Cast]
    exact lt_of_lt_of_le (Int.bmod_lt (by norm_num)) (by norm_num)
  -- quotient and remainder leave one value for the slot, which the narrowing did not change
  rw [← Int.mul_ediv_add_emod slot blockSize, hdiv, hmod, mul_comm] at hcast
  exact hcast

/-- Whatever the call returns are slots of the row's own blocks. -/
def MappingSound (row : ℤ → ℤ) (seqStart blockSize maxBlocks : ℤ) (n : ℕ) : Prop :=
  ∀ slots, computeSlotMapping64 (some row) seqStart n blockSize maxBlocks = .ok slots →
    SlotsOwn row seqStart blockSize maxBlocks n slots

/-- Every row, start, block size and number of tokens: what `ComputeSlotMapping` returns are slots of the
row's own blocks exactly when it refuses, or the positions and the slots fit their types. -/
theorem mappingSound_iff (row : ℤ → ℤ) (seqStart blockSize maxBlocks : ℤ) (n : ℕ) (hn : 0 < n)
    (h64 : seqStart < 2 ^ 63) (hbs : 0 < blockSize) (hbs64 : blockSize < 2 ^ 63) :
    MappingSound row seqStart blockSize maxBlocks n ↔
      SlotsRefused row seqStart blockSize maxBlocks n ∨ Fits row seqStart blockSize n := by
  simp only [MappingSound, computeSlotMapping64_eq_ok hbs hn]
  constructor
  · intro h
    by_cases hrefused : SlotsRefused row seqStart blockSize maxBlocks n
    · exact .inl hrefused
    · exact .inr (SlotsOwn.fits hbs hbs64 h64 hn (h _ ⟨hrefused, rfl⟩))
  · rintro (hrefused | hfits) slots ⟨hok, rfl⟩
    · exact absurd hrefused hok
    · exact hfits.slotsOwn hbs hok

theorem mappingSound_second_block :
    MappingSound (fun i => if i = 1 then 3 else 7) 15 16 2 2 :=
  (mappingSound_iff _ 15 16 2 2 (by decide) (by decide) (by decide) (by decide)).2
    (.inr ⟨by decide, by decide, by decide⟩)

/-- A start of `-1` in a row that holds block `1` gives a slot of block `0`, which the row does not
hold. -/
theorem not_mappingSound_negative : ¬ MappingSound (fun _ => 1) (-1) 16 1 1 := by
  intro h
  have hok : computeSlotMapping64 (some fun _ => 1) (-1) 1 16 1 = .ok [15] := rfl
  obtain ⟨slot, hslot, -, hblock, -⟩ := (h [15] hok).owned 0 (by decide)
  obtain rfl : 15 = slot := Option.some.inj hslot
  exact absurd hblock (by decide)

end SciAttention

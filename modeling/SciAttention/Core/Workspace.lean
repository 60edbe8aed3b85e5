import SciAttention.Common.Runs
import SciAttention.Core.Types
import Mathlib.Order.CompletePartialOrder
import Mathlib.Order.Interval.Set.Disjoint
import Mathlib.Tactic.Common

/-!
# The scratch workspace

Model of `src/runtime/workspace.cpp`. A workspace is one buffer of `bytes` bytes and the list of the
intervals `[offset, end)` lent out of it. `size_t` is a 64-bit word, so `offset + bytes` may wrap; an
address is a natural number, the buffer being one object. Copies of a `Workspace` share their `Impl`, so
the state is that of the `Impl`.
-/

namespace SciAttention

/-- `sca::Workspace::Impl`; `data` is `buffer.data()`. -/
structure Workspace where
  data : Option ℕ := none
  bytes : UInt64 := 0
  peakBytes : UInt64 := 0
  slices : List (UInt64 × UInt64) := []
deriving DecidableEq, Repr

namespace Workspace

/-- `Workspace::Create`; `buffer` is the data pointer of the tensor that was allocated. -/
def create (bytes : UInt64) (buffer : Option ℕ) : Except Status Workspace :=
  if bytes = 0 then .error (makeStatus .workspaceExceeded "workspace bytes=0")
  else if buffer = none then
    .error (makeStatus .workspaceExceeded ("allocation of " ++ toString bytes ++ " B failed"))
  else .ok { data := buffer, bytes := bytes }

/-- `Workspace::AllocatedSlices`. -/
def allocatedSlices (ws : Workspace) : ℕ := ws.slices.length

/-- `std::max` on `size_t`. -/
def maxSize (a b : UInt64) : UInt64 := if a < b then b else a

/-- One iteration of the overlap test: the flags `overlaps` and `identical`. -/
def scanSlice (first last : UInt64) (flags : Bool × Bool) (s : UInt64 × UInt64) : Bool × Bool :=
  let identical := if first = s.1 ∧ last = s.2 then true else flags.2
  let disjoint := decide (last ≤ s.1 ∨ first ≥ s.2)
  (if disjoint = false then true else flags.1, identical)

/-- `Workspace::Slice`. -/
def slice (ws : Workspace) (offset bytes align : UInt64) : Workspace × Except Status ℕ :=
  match ws.data with
  | none => (ws, .error (makeStatus .workspaceExceeded "workspace is not initialised"))
  | some base =>
    if bytes = 0 then (ws, .error (makeStatus .workspaceExceeded "slice bytes=0"))
    else if align = 0 ∨ offset % align ≠ 0 then
      (ws, .error (makeStatus .workspaceExceeded
        ("slice offset=" ++ toString offset ++ " is not " ++ toString align ++ " B aligned")))
    else if offset > ws.bytes ∨ bytes > ws.bytes - offset then
      (ws, .error (makeStatus .workspaceExceeded
        ("slice [" ++ toString offset ++ ", " ++ toString (offset + bytes) ++
          ") exceeds workspace bytes=" ++ toString ws.bytes)))
    else
      let flags := ws.slices.foldl (scanSlice offset (offset + bytes)) (false, false)
      if flags.1 = true ∧ flags.2 = false then
        (ws, .error (makeStatus .workspaceExceeded
          ("slice [" ++ toString offset ++ ", " ++ toString (offset + bytes) ++
            ") partially overlaps an existing slice (either reuse it exactly or Reset())")))
      else
        ({ ws with
            slices := if flags.2 = false then ws.slices ++ [(offset, offset + bytes)] else ws.slices
            peakBytes := maxSize ws.peakBytes (offset + bytes) },
          .ok (base + offset.toNat))

/-- `Workspace::Reset`. -/
def reset (ws : Workspace) : Workspace × Status :=
  if ws.data = none then
    (ws, makeStatus .workspaceExceeded "workspace is not initialised")
  else ({ ws with slices := [] }, Status.ok)

theorem toNat_maxSize (a b : UInt64) : (maxSize a b).toNat = max a.toNat b.toNat := by
  rw [maxSize]
  split_ifs with h <;> rw [UInt64.lt_iff_toNat_lt] at h <;> omega

/-! ## The overlap test -/

/-- The bytes of a slice. -/
def extent (s : UInt64 × UInt64) : Set ℕ := Set.Ico s.1.toNat s.2.toNat

/-- Two words of which neither ends after the other starts hold no byte in common. -/
theorem disjoint_extent {s t : UInt64 × UInt64} (hs : s.1 < s.2) (ht : t.1 < t.2) :
    Disjoint (extent s) (extent t) ↔ s.2 ≤ t.1 ∨ s.1 ≥ t.2 := by
  rw [extent, extent, Set.Ico_disjoint_Ico]
  rw [UInt64.lt_iff_toNat_lt] at hs ht
  simp only [ge_iff_le, UInt64.le_iff_toNat_le]
  omega

/-- The pass sets `overlaps` for every slice that is not off to one side. -/
theorem foldl_scanSlice_fst (first last : UInt64) (l : List (UInt64 × UInt64)) (flags : Bool × Bool) :
    (l.foldl (scanSlice first last) flags).1 = true ↔
      flags.1 = true ∨ ∃ s ∈ l, ¬ (last ≤ s.1 ∨ first ≥ s.2) := by
  induction l generalizing flags with
  | nil => simp
  | cons s l ih =>
    have hscan : (scanSlice first last flags s).1 = true ↔
        flags.1 = true ∨ ¬ (last ≤ s.1 ∨ first ≥ s.2) := by
      by_cases hd : last ≤ s.1 ∨ first ≥ s.2 <;> simp [scanSlice, hd]
    rw [List.foldl_cons, ih, hscan, or_assoc]
    simp only [List.exists_mem_cons_iff]

/-- The pass sets `identical` for the interval itself. -/
theorem foldl_scanSlice_snd (first last : UInt64) (l : List (UInt64 × UInt64)) (flags : Bool × Bool) :
    (l.foldl (scanSlice first last) flags).2 = true ↔ flags.2 = true ∨ (first, last) ∈ l := by
  induction l generalizing flags with
  | nil => simp
  | cons s l ih =>
    have hscan : (scanSlice first last flags s).2 = true ↔ flags.2 = true ∨ (first, last) = s := by
      rw [Prod.ext_iff]
      by_cases hs : first = s.1 ∧ last = s.2 <;> simp [scanSlice, hs]
    rw [List.foldl_cons, ih, hscan, List.mem_cons, or_assoc]

/-! ## What a slice may be -/

/-- The slices of a workspace: non-empty, inside the buffer and apart from each other. -/
structure SlicesInv (ws : Workspace) : Prop where
  initialised : ws.data ≠ none
  nonempty : ∀ s ∈ ws.slices, s.1 < s.2
  inside : ∀ s ∈ ws.slices, s.2 ≤ ws.bytes
  pairwise : ws.slices.Pairwise fun s t => Disjoint (extent s) (extent t)

/-- The requests that are granted, as natural numbers. -/
@[mk_iff]
structure Grantable (ws : Workspace) (offset bytes align : UInt64) : Prop where
  bytes_pos : 0 < bytes.toNat
  align_pos : 0 < align.toNat
  aligned : align.toNat ∣ offset.toNat
  fits : offset.toNat + bytes.toNat ≤ ws.bytes.toNat
  recorded_or_disjoint : (∃ s ∈ ws.slices, s.1.toNat = offset.toNat ∧
      s.2.toNat = offset.toNat + bytes.toNat) ∨
    ∀ s ∈ ws.slices, Disjoint (Set.Ico offset.toNat (offset.toNat + bytes.toNat)) (extent s)

variable {ws : Workspace} {offset bytes align : UInt64}

/-- A request that fits does not wrap. -/
theorem toNat_end (h : offset.toNat + bytes.toNat ≤ ws.bytes.toNat) :
    (offset + bytes).toNat = offset.toNat + bytes.toNat := by
  have := ws.bytes.toNat_lt
  rw [UInt64.toNat_add, Nat.mod_eq_of_lt (by omega)]

/-- The bounds test is the one over the naturals. -/
theorem bounds_iff : ¬ (offset > ws.bytes ∨ bytes > ws.bytes - offset) ↔
    offset.toNat + bytes.toNat ≤ ws.bytes.toNat := by
  rw [not_or, gt_iff_lt, gt_iff_lt, UInt64.not_lt, UInt64.not_lt]
  constructor
  · rintro ⟨hoffset, hbytes⟩
    rw [UInt64.le_iff_toNat_le, UInt64.toNat_sub_of_le _ _ hoffset] at hbytes
    rw [UInt64.le_iff_toNat_le] at hoffset
    omega
  · intro h
    have hoffset : offset ≤ ws.bytes := by rw [UInt64.le_iff_toNat_le]; omega
    refine ⟨hoffset, ?_⟩
    rw [UInt64.le_iff_toNat_le, UInt64.toNat_sub_of_le _ _ hoffset]
    omega

theorem aligned_iff : ¬ (align = 0 ∨ offset % align ≠ 0) ↔ 0 < align.toNat ∧
    align.toNat ∣ offset.toNat := by
  rw [not_or, not_not, ← UInt64.toNat_inj, ← UInt64.toNat_inj, UInt64.toNat_mod, UInt64.toNat_zero,
    Nat.dvd_iff_mod_eq_zero, Nat.pos_iff_ne_zero]

/-- The last test of `Slice` on a request that fits: with pairwise disjoint slices, an overlap is refused
exactly where the interval is neither recorded nor apart from every slice. -/
theorem overlap_iff (hinv : SlicesInv ws) (hbytes : 0 < bytes.toNat)
    (hfits : offset.toNat + bytes.toNat ≤ ws.bytes.toNat) :
    ¬ ((ws.slices.foldl (scanSlice offset (offset + bytes)) (false, false)).1 = true ∧
        (ws.slices.foldl (scanSlice offset (offset + bytes)) (false, false)).2 = false) ↔
      (offset, offset + bytes) ∈ ws.slices ∨
        ∀ s ∈ ws.slices, Disjoint (extent (offset, offset + bytes)) (extent s) := by
  have hlt : offset < offset + bytes := by
    rw [UInt64.lt_iff_toNat_lt, toNat_end hfits]
    omega
  rw [foldl_scanSlice_fst, ← Bool.not_eq_true, foldl_scanSlice_snd, not_and_or, not_not, or_comm]
  simp only [Bool.false_eq_true, false_or, not_exists, not_and, not_not]
  refine or_congr_right (forall₂_congr fun s hs => ?_)
  exact (disjoint_extent (show (offset, offset + bytes).1 < _ from hlt) (hinv.nonempty s hs)).symm

/-- What the request asks for, by words and by numbers. -/
theorem recorded_iff (hfits : offset.toNat + bytes.toNat ≤ ws.bytes.toNat) :
    (∃ s ∈ ws.slices, s.1.toNat = offset.toNat ∧ s.2.toNat = offset.toNat + bytes.toNat) ↔
      (offset, offset + bytes) ∈ ws.slices := by
  rw [← toNat_end hfits]
  simp only [UInt64.toNat_inj]
  constructor
  · rintro ⟨s, hs, hfirst, hlast⟩
    have heq : s = (offset, offset + bytes) := Prod.ext hfirst hlast
    exact heq ▸ hs
  · intro h
    exact ⟨_, h, rfl, rfl⟩

/-- A request is granted, recorded once and measured; or it is refused and nothing changes. -/
theorem slice_cases (hinv : SlicesInv ws) (offset bytes align : UInt64) :
    (Grantable ws offset bytes align ∧ ∃ base, ws.data = some base ∧
      ws.slice offset bytes align =
        ({ ws with
            slices := if (offset, offset + bytes) ∈ ws.slices then ws.slices
              else ws.slices ++ [(offset, offset + bytes)]
            peakBytes := maxSize ws.peakBytes (offset + bytes) },
          .ok (base + offset.toNat))) ∨
    (¬ Grantable ws offset bytes align ∧ ∃ e, ws.slice offset bytes align = (ws, .error e)) := by
  obtain ⟨base, hbase⟩ := Option.ne_none_iff_exists'.mp hinv.initialised
  -- the checks in the order of the source
  by_cases hzero : bytes = 0
  · refine .inr ⟨fun h => h.bytes_pos.ne' (by rw [hzero]; rfl), ?_⟩
    simp only [slice, hbase, if_pos hzero]
    exact ⟨_, rfl⟩
  have hpos : 0 < bytes.toNat := Nat.pos_of_ne_zero fun h => hzero (UInt64.toNat_inj.mp h)
  by_cases halign : align = 0 ∨ offset % align ≠ 0
  · refine .inr ⟨fun h => aligned_iff.mpr ⟨h.align_pos, h.aligned⟩ halign, ?_⟩
    simp only [slice, hbase, if_neg hzero, if_pos halign]
    exact ⟨_, rfl⟩
  by_cases hbounds : offset > ws.bytes ∨ bytes > ws.bytes - offset
  · refine .inr ⟨fun h => bounds_iff.mpr h.fits hbounds, ?_⟩
    simp only [slice, hbase, if_neg hzero, if_neg halign, if_pos hbounds]
    exact ⟨_, rfl⟩
  have hfits := bounds_iff.mp hbounds
  have hfree := overlap_iff hinv hpos hfits
  have hidentical := foldl_scanSlice_snd offset (offset + bytes) ws.slices (false, false)
  set flags := ws.slices.foldl (scanSlice offset (offset + bytes)) (false, false) with hflags
  rw [← recorded_iff hfits, extent, toNat_end hfits] at hfree
  by_cases hoverlap : flags.1 = true ∧ flags.2 = false
  · refine .inr ⟨fun h => hfree.mpr h.recorded_or_disjoint hoverlap, ?_⟩
    simp only [slice, hbase, if_neg hzero, if_neg halign, if_neg hbounds, ← hflags, if_pos hoverlap]
    exact ⟨_, rfl⟩
  · obtain ⟨halign', hdvd⟩ := aligned_iff.mp halign
    refine .inl ⟨⟨hpos, halign', hdvd, hfits, hfree.mp hoverlap⟩, base, hbase, ?_⟩
    have hnew : flags.2 = false ↔ (offset, offset + bytes) ∉ ws.slices := by
      rw [← Bool.not_eq_true, hidentical]
      simp
    simp only [slice, hbase, if_neg hzero, if_neg halign, if_neg hbounds, ← hflags, if_neg hoverlap]
    simp only [hnew, ite_not]

/-- A granted request keeps the slices apart. -/
theorem SlicesInv.slice (hinv : SlicesInv ws) (offset bytes align : UInt64) :
    SlicesInv (ws.slice offset bytes align).1 := by
  obtain ⟨hgrant, base, hbase, heq⟩ | ⟨-, e, heq⟩ := slice_cases hinv offset bytes align
  · rw [heq]
    -- a slice that is recorded already is lent again, another is appended
    by_cases hmem : (offset, offset + bytes) ∈ ws.slices
    · rw [if_pos hmem]
      exact ⟨hinv.initialised, hinv.nonempty, hinv.inside, hinv.pairwise⟩
    · rw [if_neg hmem]
      have hdisj := hgrant.recorded_or_disjoint
      rw [recorded_iff hgrant.fits, ← toNat_end hgrant.fits] at hdisj
      have hpos := hgrant.bytes_pos
      refine ⟨hinv.initialised, fun s hs => ?_, fun s hs => ?_, ?_⟩
      · rcases List.mem_append.mp hs with hs | hs
        · exact hinv.nonempty s hs
        · obtain rfl := List.mem_singleton.mp hs
          have hend := toNat_end hgrant.fits
          rw [UInt64.lt_iff_toNat_lt]
          simp only
          omega
      · rcases List.mem_append.mp hs with hs | hs
        · exact hinv.inside s hs
        · obtain rfl := List.mem_singleton.mp hs
          rw [UInt64.le_iff_toNat_le, toNat_end hgrant.fits]
          exact hgrant.fits
      · refine List.pairwise_append.mpr ⟨hinv.pairwise, List.pairwise_singleton _ _, fun s hs t ht => ?_⟩
        obtain rfl := List.mem_singleton.mp ht
        exact (hdisj.resolve_left hmem s hs).symm
  · rw [heq]
    exact hinv

theorem SlicesInv.reset (hinv : SlicesInv ws) : SlicesInv ws.reset.1 := by
  rw [Workspace.reset, if_neg hinv.initialised]
  exact ⟨hinv.initialised, nofun, nofun, List.Pairwise.nil⟩

/-! ## Runs -/

/-- A call on a workspace. -/
inductive Call where
  | slice (offset bytes align : UInt64)
  | reset
deriving DecidableEq, Repr

/-- The workspace after a call. -/
def step (ws : Workspace) : Call → Workspace
  | .slice offset bytes align => (ws.slice offset bytes align).1
  | .reset => ws.reset.1

/-- The end of the interval that a call grants. -/
def grantedEnd (ws : Workspace) : Call → Option ℕ
  | .slice offset bytes align =>
    match (ws.slice offset bytes align).2 with
    | .ok _ => some (offset.toNat + bytes.toNat)
    | .error _ => none
  | .reset => none

/-- The ends of the intervals granted along a run, in order. -/
def grantedEnds (ws : Workspace) : List Call → List ℕ
  | [] => []
  | call :: calls => (ws.grantedEnd call).toList ++ (ws.step call).grantedEnds calls

/-- What no call changes. -/
theorem step_data_bytes (hinv : SlicesInv ws) (call : Call) :
    (ws.step call).data = ws.data ∧ (ws.step call).bytes = ws.bytes := by
  cases call with
  | slice offset bytes align =>
    obtain ⟨-, base, -, heq⟩ | ⟨-, e, heq⟩ := slice_cases hinv offset bytes align <;>
      simp only [step, heq, and_self]
  | reset => simp only [step, reset, if_neg hinv.initialised, and_self]

theorem SlicesInv.step (hinv : SlicesInv ws) (call : Call) : SlicesInv (ws.step call) := by
  cases call with
  | slice offset bytes align => exact hinv.slice offset bytes align
  | reset => exact hinv.reset

/-- A call raises the peak to the end that it grants. -/
theorem step_peakBytes (hinv : SlicesInv ws) (call : Call) :
    (ws.step call).peakBytes.toNat = (ws.grantedEnd call).toList.foldl max ws.peakBytes.toNat := by
  cases call with
  | slice offset bytes align =>
    obtain ⟨hgrant, base, -, heq⟩ | ⟨-, e, heq⟩ := slice_cases hinv offset bytes align
    · simp only [Workspace.step, grantedEnd, heq, Option.toList_some, List.foldl_cons, List.foldl_nil]
      rw [toNat_maxSize, toNat_end hgrant.fits]
    · simp only [Workspace.step, grantedEnd, heq, Option.toList_none, List.foldl_nil]
  | reset => simp [Workspace.step, grantedEnd, Workspace.reset, if_neg hinv.initialised]

/-- Along a run the peak is the largest end granted. -/
theorem foldl_step_peakBytes (hinv : SlicesInv ws) (calls : List Call) :
    (calls.foldl Workspace.step ws).peakBytes.toNat =
      (ws.grantedEnds calls).foldl max ws.peakBytes.toNat := by
  induction calls generalizing ws with
  | nil => rfl
  | cons call calls ih =>
    rw [List.foldl_cons, ih (hinv.step call), step_peakBytes hinv call, grantedEnds, List.foldl_append]

/-- What a workspace over `n` bytes at `base` promises of its next call. -/
structure SliceContract (base n : ℕ) (ws : Workspace) : Prop where
  nonempty : ∀ s ∈ ws.slices, s.1.toNat < s.2.toNat
  inside : ∀ s ∈ ws.slices, s.2.toNat ≤ n
  pairwise : ws.slices.Pairwise fun s t => Disjoint (extent s) (extent t)
  ok_iff : ∀ offset bytes align : UInt64, (∃ p, (ws.slice offset bytes align).2 = .ok p) ↔
    0 < bytes.toNat ∧ 0 < align.toNat ∧ align.toNat ∣ offset.toNat ∧ offset.toNat + bytes.toNat ≤
      n ∧
      ((∃ s ∈ ws.slices, s.1.toNat = offset.toNat ∧ s.2.toNat = offset.toNat + bytes.toNat) ∨
        ∀ s ∈ ws.slices, Disjoint (Set.Ico offset.toNat (offset.toNat + bytes.toNat)) (extent s))
  address : ∀ (offset bytes align : UInt64) (p : ℕ), (ws.slice offset bytes align).2 = .ok p →
    p = base + offset.toNat
  identical : ∀ offset bytes align : UInt64,
    (∃ s ∈ ws.slices, s.1.toNat = offset.toNat ∧ s.2.toNat = offset.toNat + bytes.toNat) →
      (ws.slice offset bytes align).1.slices = ws.slices
  recorded : ∀ (offset bytes align : UInt64) (p : ℕ), (ws.slice offset bytes align).2 = .ok p →
    (¬ ∃ s ∈ ws.slices, s.1.toNat = offset.toNat ∧ s.2.toNat = offset.toNat + bytes.toNat) →
      ∃ s : UInt64 × UInt64, s.1.toNat = offset.toNat ∧ s.2.toNat = offset.toNat + bytes.toNat ∧
        (ws.slice offset bytes align).1.slices = ws.slices ++ [s]
  same_buffer : ∀ call : Call, (ws.step call).data = some base ∧ (ws.step call).bytes.toNat = n
  reset_eq : ws.reset = ({ ws with slices := [] }, Status.ok)
  failed : ∀ (offset bytes align : UInt64) (e : Status), (ws.slice offset bytes align).2 = .error e →
    (ws.slice offset bytes align).1 = ws

/-- Disjoint slices are enough for all of it. -/
theorem SlicesInv.contract (hinv : SlicesInv ws) {base : ℕ} (hbase : ws.data = some base) :
    SliceContract base ws.bytes.toNat ws where
  nonempty s hs := UInt64.lt_iff_toNat_lt.mp (hinv.nonempty s hs)
  inside s hs := UInt64.le_iff_toNat_le.mp (hinv.inside s hs)
  pairwise := hinv.pairwise
  ok_iff offset bytes align := by
    have hgrant : Grantable ws offset bytes align ↔ _ := grantable_iff ws offset bytes align
    rw [← hgrant]
    obtain ⟨h, _, -, heq⟩ | ⟨h, e, heq⟩ := slice_cases hinv offset bytes align
    · exact iff_of_true ⟨_, congrArg Prod.snd heq⟩ h
    · refine iff_of_false ?_ h
      rintro ⟨p, hp⟩
      rw [heq] at hp
      cases hp
  address offset bytes align p hp := by
    obtain ⟨-, base', hbase', heq⟩ | ⟨-, e, heq⟩ := slice_cases hinv offset bytes align
    · rw [heq] at hp
      cases hbase.symm.trans hbase'
      exact (Except.ok.inj hp).symm
    · rw [heq] at hp
      cases hp
  identical offset bytes align hmem := by
    obtain ⟨hgrant, base', -, heq⟩ | ⟨-, e, heq⟩ := slice_cases hinv offset bytes align
    · rw [heq]
      exact if_pos ((recorded_iff hgrant.fits).mp hmem)
    · rw [heq]
  recorded offset bytes align p hp hnew := by
    obtain ⟨hgrant, base', -, heq⟩ | ⟨-, e, heq⟩ := slice_cases hinv offset bytes align
    · rw [recorded_iff hgrant.fits] at hnew
      exact ⟨(offset, offset + bytes), rfl, toNat_end hgrant.fits, by simp only [heq, if_neg hnew]⟩
    · rw [heq] at hp
      cases hp
  same_buffer call := by
    obtain ⟨hdata, hbytes⟩ := step_data_bytes hinv call
    exact ⟨hdata.trans hbase, congrArg UInt64.toNat hbytes⟩
  reset_eq := by rw [Workspace.reset, if_neg hinv.initialised]
  failed offset bytes align e he := by
    obtain ⟨-, base', -, heq⟩ | ⟨-, e, heq⟩ := slice_cases hinv offset bytes align
    · rw [heq] at he
      cases he
    · rw [heq]

/-- A new workspace lends nothing yet. -/
theorem create_eq_ok {n : UInt64} {buffer : Option ℕ} (h : create n buffer = .ok ws) :
    ∃ base, ws = { data := some base, bytes := n } := by
  rw [create] at h
  split_ifs at h with hzero hnone
  obtain ⟨base, rfl⟩ := Option.ne_none_iff_exists'.mp hnone
  exact ⟨base, (Except.ok.inj h).symm⟩

/-- After any calls on a workspace of `n` bytes its slices are disjoint, its next request is granted exactly
where it fits beside them, and the peak is the largest end ever granted. -/
theorem slices_never_alias {n : UInt64} {buffer : Option ℕ} {created : Workspace}
    (hcreate : create n buffer = .ok created) (calls : List Call) :
    ∃ base, buffer = some base ∧
      SliceContract base n.toNat (calls.foldl step created) ∧
      (calls.foldl step created).peakBytes.toNat = (created.grantedEnds calls).foldl max 0 := by
  obtain ⟨base, rfl⟩ := create_eq_ok hcreate
  set created : Workspace := { data := some base, bytes := n } with hcreated
  have hinv : SlicesInv created := ⟨Option.some_ne_none base, nofun, nofun, List.Pairwise.nil⟩
  have hrun := Runs.invariant step
    (I := fun ws => SlicesInv ws ∧ ws.data = some base ∧ ws.bytes = n)
    (fun ws call h => ⟨h.1.step call, (step_data_bytes h.1 call).1.trans h.2.1,
      (step_data_bytes h.1 call).2.trans h.2.2⟩) ⟨hinv, rfl, rfl⟩ calls
  refine ⟨base, ?_, ?_, ?_⟩
  · rw [create] at hcreate
    split_ifs at hcreate
    exact congrArg Workspace.data (Except.ok.inj hcreate)
  · exact hrun.2.2 ▸ hrun.1.contract hrun.2.1
  · exact foldl_step_peakBytes hinv calls

theorem slices_never_alias_reset :
    ∃ base, some 4096 = some base ∧
      SliceContract base (1024 : UInt64).toNat
        ([Call.slice 0 256 256, .slice 512 256 256, .reset, .slice 256 512 256].foldl step
          { data := some 4096, bytes := 1024 }) ∧
      ([Call.slice 0 256 256, .slice 512 256 256, .reset, .slice 256 512 256].foldl step
          { data := some 4096, bytes := 1024 }).peakBytes.toNat = 768 :=
  slices_never_alias rfl [.slice 0 256 256, .slice 512 256 256, .reset, .slice 256 512 256]

end Workspace

end SciAttention

import SciAttention.Common.Rounding
import SciAttention.Common.Runs
import SciAttention.Core.Types
import Mathlib.Tactic.Common

/-!
# The scratch pool

Model of `src/runtime/scratch_pool.cpp`: one growing FP32 buffer for each `(device, kind)`, in a map whose
keys pack the pair into one `int`. A buffer is known by a number of its own, so that two pointers are equal
exactly when they are to one allocation, and by the bytes its tensor has.
-/

namespace SciAttention

/-- `ScratchKind`. -/
inductive ScratchKind where
  | scoresFp32 | decodePartials | generic | count
deriving DecidableEq, Repr

/-- `static_cast<int>(kind)`. -/
def ScratchKind.toInt : ScratchKind → ℤ
  | scoresFp32 => 0
  | decodePartials => 1
  | generic => 2
  | count => 3

/-- An allocation on the device, with the byte count that the tensor asked for. -/
structure ScratchBuffer where
  serial : ℕ
  bytes : ℕ
deriving DecidableEq, Repr

/-- The floats that the allocation has room for. -/
def ScratchBuffer.floats (buffer : ScratchBuffer) : ℕ := buffer.bytes / 4

/-- `Entry`; `tensor` is `none` for null data. -/
structure ScratchEntry where
  tensor : Option ScratchBuffer := none
  elements : ℕ := 0
deriving DecidableEq, Repr

/-- `Pool()`, where a key without an entry has the default one, with `g_high_water_bytes` and the number of
allocations made so far. -/
structure ScratchPool where
  entries : ℤ → ScratchEntry := fun _ => {}
  highWaterBytes : ℕ := 0
  allocations : ℕ := 0

namespace ScratchPool

/-- `KeyOf`, in `int` arithmetic. -/
def keyOf (deviceId : ℤ) (kind : ScratchKind) : ℤ :=
  int32Cast (int32Cast (deviceId * 16) + kind.toInt)

/-- `static_cast<double>` of a count. -/
def toDouble (n : ℕ) : ℕ := Rounding.roundBits 53 n

/-- The size of a new buffer: the count as a `double`, times 1.25 in `double`, and the cast back, which is
defined for the counts below `2 ^ 62` that the callers have. A rounded product with five quarters is a quarter
of the rounded product with five. -/
def grownElements (elements : ℕ) : ℕ := toDouble (5 * toDouble elements) / 4 + 1024

/-- `elements * sizeof(float)`, also the bytes of a tensor of so many floats. -/
def tensorBytes (elements : ℕ) : ℕ := sizeWrap (elements * 4)

theorem tensorBytes_div (elements : ℕ) : tensorBytes elements / 4 = elements % 2 ^ 62 := by
  unfold tensorBytes sizeWrap
  omega

/-- Twice rounded, the slack is still there. -/
theorem le_grownElements (elements : ℕ) : elements ≤ grownElements elements := by
  have hcast := Rounding.le_roundBits 53 elements
  have hproduct := Rounding.le_roundBits 53 (5 * toDouble elements)
  unfold grownElements
  unfold toDouble at hproduct ⊢
  omega

theorem grownElements_lt {elements : ℕ} (h : elements ≤ 2 ^ 61) : grownElements elements < 2 ^ 62 := by
  have hcast := Rounding.roundBits_le 53 elements
  have hproduct := Rounding.roundBits_le 53 (5 * toDouble elements)
  unfold grownElements
  unfold toDouble at hproduct ⊢
  omega

/-- Of a count past `2 ^ 62`, what the byte count keeps is less than what was asked for. -/
theorem grownElements_mod_lt {elements : ℕ} (h : elements < 2 ^ 62)
    (hgrown : 2 ^ 62 ≤ grownElements elements) : grownElements elements % 2 ^ 62 < elements := by
  have hcast := Rounding.roundBits_le 53 elements
  have hproduct := Rounding.roundBits_le 53 (5 * toDouble elements)
  have hover : grownElements elements - 2 ^ 62 < elements := by
    unfold grownElements at hgrown ⊢
    unfold toDouble at hproduct hgrown ⊢
    omega
  rw [Nat.mod_eq_sub_mod hgrown]
  exact (Nat.mod_le _ _).trans_lt hover

/-- The test for a new allocation. -/
def NeedsGrowth (entry : ScratchEntry) (elements : ℕ) : Prop :=
  entry.tensor = none ∨ entry.elements < elements

instance (entry : ScratchEntry) (elements : ℕ) : Decidable (NeedsGrowth entry elements) :=
  inferInstanceAs (Decidable (_ ∨ _))

/-- Replace the tensor of an entry by a larger one; the old one is given back. -/
def grow (p : ScratchPool) (key : ℤ) (elements : ℕ) (alloc : Bool) :
    ScratchPool × Except Status ScratchBuffer :=
  let grown := grownElements elements
  if alloc then
    let buffer := ⟨p.allocations, tensorBytes grown⟩
    ({ entries := Function.update p.entries key ⟨some buffer, grown⟩
       highWaterBytes := max p.highWaterBytes (tensorBytes grown)
       allocations := p.allocations + 1 }, .ok buffer)
  else
    ({ p with entries := Function.update p.entries key ⟨none, 0⟩ },
      .error (makeStatus .workspaceExceeded
        ("scratch allocation of " ++ toString (tensorBytes grown) ++ " B failed")))

/-- `AcquireScratchFp32`; `alloc` is whether the device has the memory. -/
def acquire (p : ScratchPool) (kind : ScratchKind) (elements : ℕ) (deviceId : ℤ) (alloc : Bool) :
    ScratchPool × Except Status ScratchBuffer :=
  if elements = 0 then
    (p, .error (makeStatus .workspaceExceeded "scratch request with 0 elements"))
  else
    let entry := p.entries (keyOf deviceId kind)
    match entry.tensor with
    | none => p.grow (keyOf deviceId kind) elements alloc
    | some buffer =>
      if entry.elements < elements then p.grow (keyOf deviceId kind) elements alloc
      else (p, .ok buffer)

/-- `ReleaseScratch`. -/
def release (p : ScratchPool) : ScratchPool := { p with entries := fun _ => {} }

/-! ## Runs -/

/-- One call on the pool. -/
inductive Call where
  | acquire (kind : ScratchKind) (elements : ℕ) (deviceId : ℤ) (alloc : Bool)
  | release

/-- The pool after one call. -/
def step (p : ScratchPool) : Call → ScratchPool
  | .acquire kind elements deviceId alloc => (p.acquire kind elements deviceId alloc).1
  | .release => p.release

/-- The pool after a sequence of calls, from the start of the process. -/
def run (calls : List Call) : ScratchPool := calls.foldl step {}

theorem run_append_singleton (calls : List Call) (call : Call) :
    run (calls ++ [call]) = (run calls).step call := by
  simp [run]

/-- The live buffer of a pair. -/
def live (p : ScratchPool) (deviceId : ℤ) (kind : ScratchKind) : Option ScratchBuffer :=
  (p.entries (keyOf deviceId kind)).tensor

/-! ## What a call can do -/

/-- Past the test for no elements, an acquisition grows the entry or hands out its buffer. -/
theorem acquire_cases (p : ScratchPool) (kind : ScratchKind) {elements : ℕ} (hpos : elements ≠ 0)
    (deviceId : ℤ) (alloc : Bool) :
    (NeedsGrowth (p.entries (keyOf deviceId kind)) elements ∧
      p.acquire kind elements deviceId alloc = p.grow (keyOf deviceId kind) elements alloc) ∨
    ∃ buffer, p.live deviceId kind = some buffer ∧
      elements ≤ (p.entries (keyOf deviceId kind)).elements ∧
      p.acquire kind elements deviceId alloc = (p, .ok buffer) := by
  simp only [acquire, if_neg hpos, live, NeedsGrowth]
  cases htensor : (p.entries (keyOf deviceId kind)).tensor with
  | none => exact .inl ⟨.inl rfl, rfl⟩
  | some buffer =>
    by_cases hsmall : (p.entries (keyOf deviceId kind)).elements < elements
    · exact .inl ⟨.inr hsmall, if_pos hsmall⟩
    · exact .inr ⟨buffer, rfl, not_lt.1 hsmall, if_neg hsmall⟩

/-- A call changes at most the entry it is about, or drops all of them. -/
theorem acquire_entries_of_ne (p : ScratchPool) (kind : ScratchKind) (elements : ℕ) (deviceId : ℤ)
    (alloc : Bool) {key : ℤ} (hkey : key ≠ keyOf deviceId kind) :
    (p.acquire kind elements deviceId alloc).1.entries key = p.entries key := by
  by_cases hzero : elements = 0
  · simp only [acquire, if_pos hzero]
  · obtain ⟨-, heq⟩ | ⟨buffer, -, -, heq⟩ := p.acquire_cases kind hzero deviceId alloc
    · rw [heq, grow]
      split_ifs <;> exact Function.update_of_ne hkey _ _
    · rw [heq]

/-! ## The recorded sizes -/

/-- The tensor was made for the recorded element count, and its number was given out. -/
structure EntryInv (allocations : ℕ) (entry : ScratchEntry) : Prop where
  none : entry.tensor = none → entry.elements = 0
  bytes : ∀ buffer, entry.tensor = some buffer → buffer.bytes = tensorBytes entry.elements
  serial : ∀ buffer, entry.tensor = some buffer → buffer.serial < allocations

/-- Every entry is consistent, and no buffer is in two of them. -/
structure Inv (p : ScratchPool) : Prop where
  entry : ∀ key, EntryInv p.allocations (p.entries key)
  apart : ∀ key key' buffer, (p.entries key).tensor = some buffer →
    (p.entries key').tensor = some buffer → key = key'

theorem EntryInv.default (allocations : ℕ) : EntryInv allocations {} :=
  ⟨fun _ => rfl, fun _ h => by simp at h, fun _ h => by simp at h⟩

theorem EntryInv.mono {m n : ℕ} {entry : ScratchEntry} (h : EntryInv m entry) (hle : m ≤ n) :
    EntryInv n entry :=
  ⟨h.none, h.bytes, fun buffer hb => (h.serial buffer hb).trans_le hle⟩

theorem Inv.init : Inv {} := ⟨fun _ => .default 0, fun _ _ _ h => by simp at h⟩

/-- A new buffer has a number that no entry has. -/
theorem Inv.grow {p : ScratchPool} (h : Inv p) (key : ℤ) (elements : ℕ) (alloc : Bool) :
    Inv (p.grow key elements alloc).1 := by
  unfold ScratchPool.grow
  split_ifs
  · refine ⟨fun k => ?_, fun k k' buffer hk hk' => ?_⟩
    · obtain rfl | hne := eq_or_ne k key
      · simp only [Function.update_self]
        refine ⟨fun hnone => by simp at hnone, ?_, ?_⟩ <;>
        · intro buffer hb
          obtain rfl := Option.some.inj hb
          simp
      · simp only [Function.update_of_ne hne]
        exact (h.entry k).mono (Nat.le_succ _)
    · have hfresh : ∀ k₁ b, (p.entries k₁).tensor = some b → b.serial ≠ p.allocations :=
        fun k₁ b hb => ((h.entry k₁).serial b hb).ne
      simp only [Function.update_apply] at hk hk'
      split_ifs at hk hk' with hkey hkey' hkey'
      · rw [hkey, hkey']
      · obtain rfl := Option.some.inj hk
        exact absurd rfl (hfresh k' _ hk')
      · obtain rfl := Option.some.inj hk'
        exact absurd rfl (hfresh k _ hk)
      · exact h.apart k k' buffer hk hk'
  · refine ⟨fun k => ?_, fun k k' buffer hk hk' => ?_⟩
    · obtain rfl | hne := eq_or_ne k key
      · simp only [Function.update_self]
        exact .default _
      · simp only [Function.update_of_ne hne]
        exact h.entry k
    · simp only [Function.update_apply] at hk hk'
      split_ifs at hk hk'
      exact h.apart k k' buffer hk hk'

theorem Inv.step {p : ScratchPool} (h : Inv p) (call : Call) : Inv (p.step call) := by
  cases call with
  | release => exact ⟨fun _ => .default _, fun _ _ _ hk => by simp [ScratchPool.step, release] at hk⟩
  | acquire kind elements deviceId alloc =>
    by_cases hzero : elements = 0
    · simpa only [ScratchPool.step, acquire, if_pos hzero] using h
    · obtain ⟨-, heq⟩ | ⟨buffer, -, -, heq⟩ := p.acquire_cases kind hzero deviceId alloc
      · rw [ScratchPool.step, heq]
        exact h.grow _ _ _
      · rw [ScratchPool.step, heq]
        exact h

theorem Inv.run (calls : List Call) : Inv (run calls) := by
  have hstep (p : ScratchPool) (call : Call) (h : Inv p) : Inv (p.step call) := h.step call
  exact Runs.invariant ScratchPool.step hstep Inv.init calls

/-- What is handed out is live in its entry afterwards, with enough elements on record. -/
theorem acquire_ok {p : ScratchPool} {kind : ScratchKind} {elements : ℕ} {deviceId : ℤ}
    {alloc : Bool} {buffer : ScratchBuffer}
    (hok : (p.acquire kind elements deviceId alloc).2 = .ok buffer) :
    (p.acquire kind elements deviceId alloc).1.live deviceId kind = some buffer ∧
      elements ≤ ((p.acquire kind elements deviceId alloc).1.entries (keyOf deviceId kind)).elements := by
  by_cases hzero : elements = 0
  · simp [acquire, hzero] at hok
  · obtain ⟨-, heq⟩ | ⟨old, hlive, hle, heq⟩ := p.acquire_cases kind hzero deviceId alloc
    · rw [heq] at hok ⊢
      simp only [ScratchPool.grow] at hok ⊢
      split_ifs at hok ⊢
      obtain rfl := Except.ok.inj hok
      exact ⟨by simp [live], by simpa using le_grownElements elements⟩
    · rw [heq] at hok ⊢
      obtain rfl := Except.ok.inj hok
      exact ⟨hlive, hle⟩

/-- A growth that fails leaves nothing in the entry. -/
theorem live_of_acquire_error {p : ScratchPool} {kind : ScratchKind} {elements : ℕ} {deviceId : ℤ}
    {alloc : Bool} {e : Status} (hpos : elements ≠ 0)
    (herror : (p.acquire kind elements deviceId alloc).2 = .error e) :
    (p.acquire kind elements deviceId alloc).1.live deviceId kind = none := by
  obtain ⟨-, heq⟩ | ⟨old, -, -, heq⟩ := p.acquire_cases kind hpos deviceId alloc
  · rw [heq] at herror ⊢
    simp only [ScratchPool.grow] at herror ⊢
    split_ifs at herror ⊢
    simp [live]
  · rw [heq] at herror
    cases herror

/-! ## Counts whose bytes do not wrap -/

/-- No acquisition asks for more than `2 ^ 61` elements. -/
def Moderate (calls : List Call) : Prop :=
  ∀ kind elements deviceId alloc, Call.acquire kind elements deviceId alloc ∈ calls →
    elements ≤ 2 ^ 61

/-- An acquisition records a grown count or keeps what is recorded. -/
theorem step_elements_lt {p : ScratchPool} (h : ∀ key, (p.entries key).elements < 2 ^ 62) {call : Call}
    (hcall : Moderate [call]) (key : ℤ) : ((p.step call).entries key).elements < 2 ^ 62 := by
  cases call with
  | release => exact Nat.two_pow_pos 62
  | acquire kind elements deviceId alloc =>
    have hgrown := grownElements_lt (hcall kind elements deviceId alloc (List.mem_singleton_self _))
    rw [ScratchPool.step]
    by_cases hkey : key = keyOf deviceId kind
    · by_cases hzero : elements = 0
      · simpa only [acquire, if_pos hzero] using h key
      · obtain ⟨-, heq⟩ | ⟨buffer, -, -, heq⟩ := p.acquire_cases kind hzero deviceId alloc
        · rw [heq, ScratchPool.grow]
          split_ifs
          · simpa [hkey] using hgrown
          · simp [hkey]
        · rw [heq]
          exact h key
    · rw [p.acquire_entries_of_ne kind elements deviceId alloc hkey]
      exact h key

theorem Moderate.elements_lt {calls : List Call} (h : Moderate calls) (key : ℤ) :
    ((run calls).entries key).elements < 2 ^ 62 := by
  induction calls using List.reverseRecOn generalizing key with
  | nil => exact Nat.two_pow_pos 62
  | append_singleton calls call ih =>
    rw [run_append_singleton]
    refine step_elements_lt (ih fun kind n deviceId b hmem => ?_) (fun kind n deviceId b hmem => ?_) key
    · exact h kind n deviceId b (List.mem_append_left _ hmem)
    · exact h kind n deviceId b (List.mem_append_right _ hmem)

/-- Where no byte count wraps, what is handed out is large enough. -/
theorem Moderate.floats_of_acquire {pre : List Call} {kind : ScratchKind} {elements : ℕ} {deviceId : ℤ}
    {alloc : Bool} {buffer : ScratchBuffer} (h : Moderate (pre ++ [.acquire kind elements deviceId alloc]))
    (hok : ((run pre).acquire kind elements deviceId alloc).2 = .ok buffer) :
    elements ≤ buffer.floats := by
  obtain ⟨hlive, hle⟩ := acquire_ok hok
  have hsmall := h.elements_lt (keyOf deviceId kind)
  have hbytes :=
    ((Inv.run (pre ++ [.acquire kind elements deviceId alloc])).entry (keyOf deviceId kind)).bytes
    buffer
  rw [run_append_singleton] at hsmall hbytes
  rw [ScratchBuffer.floats, hbytes hlive, tensorBytes_div, Nat.mod_eq_of_lt hsmall]
  exact hle

/-! ## Where a buffer can be -/

/-- The buffer was allocated, and no entry but `key` has it. -/
structure OnlyAt (key : ℤ) (buffer : ScratchBuffer) (p : ScratchPool) : Prop where
  made : buffer.serial < p.allocations
  only : ∀ k, (p.entries k).tensor = some buffer → k = key

theorem Inv.onlyAt {p : ScratchPool} (h : Inv p) {key : ℤ} {buffer : ScratchBuffer}
    (hb : (p.entries key).tensor = some buffer) : OnlyAt key buffer p :=
  ⟨(h.entry key).serial buffer hb, fun k hk => h.apart k key buffer hk hb⟩

theorem OnlyAt.grow {key : ℤ} {buffer : ScratchBuffer} {p : ScratchPool} (h : OnlyAt key buffer p)
    (k : ℤ) (elements : ℕ) (alloc : Bool) : OnlyAt key buffer (p.grow k elements alloc).1 := by
  unfold ScratchPool.grow
  split_ifs
  · refine ⟨h.made.trans (Nat.lt_succ_self _), fun k' hk' => ?_⟩
    simp only [Function.update_apply] at hk'
    split_ifs at hk'
    · obtain rfl := Option.some.inj hk'
      exact absurd h.made (lt_irrefl _)
    · exact h.only k' hk'
  · refine ⟨h.made, fun k' hk' => ?_⟩
    simp only [Function.update_apply] at hk'
    split_ifs at hk'
    exact h.only k' hk'

theorem OnlyAt.step {key : ℤ} {buffer : ScratchBuffer} {p : ScratchPool} (h : OnlyAt key buffer p)
    (call : Call) : OnlyAt key buffer (p.step call) := by
  cases call with
  | release => exact ⟨h.made, fun k hk => by simp [ScratchPool.step, release] at hk⟩
  | acquire kind elements deviceId alloc =>
    by_cases hzero : elements = 0
    · simpa only [ScratchPool.step, acquire, if_pos hzero] using h
    · obtain ⟨-, heq⟩ | ⟨old, -, -, heq⟩ := p.acquire_cases kind hzero deviceId alloc
      · rw [ScratchPool.step, heq]
        exact h.grow _ _ _
      · rw [ScratchPool.step, heq]
        exact h

/-- A buffer that was ever live under a key is never live under another. -/
theorem key_eq_of_live {calls pre pre' : List Call} (hpre : pre <+: calls) (hpre' : pre' <+: calls)
    {key key' : ℤ} {buffer : ScratchBuffer} (hb : ((run pre).entries key).tensor = some buffer)
    (hb' : ((run pre').entries key').tensor = some buffer) : key = key' := by
  have hlater : ∀ {pre rest : List Call} {key key' : ℤ}, ((run pre).entries key).tensor = some buffer →
      ((run (pre ++ rest)).entries key').tensor = some buffer → key' = key := by
    intro pre rest key key' hb hb'
    have hrun : run (pre ++ rest) = rest.foldl ScratchPool.step (run pre) := List.foldl_append
    rw [hrun] at hb'
    have hstep (p : ScratchPool) (call : Call) (h : OnlyAt key buffer p) :
        OnlyAt key buffer (p.step call) := h.step call
    exact (Runs.invariant ScratchPool.step hstep ((Inv.run pre).onlyAt hb) rest).only key' hb'
  obtain ⟨rest, rfl⟩ | ⟨rest, rfl⟩ := List.prefix_or_prefix_of_prefix hpre hpre'
  · exact (hlater hb hb').symm
  · exact hlater hb' hb

/-! ## Keys -/

/-- The packing is injective up to multiples of `2 ^ 28` in the device id. -/
theorem keyOf_eq_iff (d d' : ℤ) (kind kind' : ScratchKind) :
    keyOf d kind = keyOf d' kind' ↔ kind = kind' ∧ d % 2 ^ 28 = d' % 2 ^ 28 := by
  have hbmod (x y : ℤ) : int32Cast x = int32Cast y ↔ x % 2 ^ 32 = y % 2 ^ 32 := by
    unfold int32Cast
    refine ⟨fun h => ?_, fun h => by simp only [Int.bmod, Nat.cast_pow, Nat.cast_ofNat, h]⟩
    have hmod := congrArg (· % ((2 ^ 32 : ℕ) : ℤ)) h
    simp only [Int.bmod_emod] at hmod
    exact_mod_cast hmod
  have hinner (x y : ℤ) : int32Cast (int32Cast x + y) = int32Cast (x + y) := Int.bmod_add_bmod
  -- the kind is the low digit and the device id the high one
  have hdigits (d : ℤ) (kind : ScratchKind) :
      (d * 16 + kind.toInt) % 2 ^ 32 = d % 2 ^ 28 * 16 + kind.toInt := by
    cases kind <;> simp only [ScratchKind.toInt] <;> omega
  rw [keyOf, keyOf, hinner, hinner, hbmod, hdigits, hdigits]
  generalize d % 2 ^ 28 = x
  generalize d' % 2 ^ 28 = y
  cases kind <;> cases kind' <;>
    simp only [ScratchKind.toInt, reduceCtorEq, false_and, true_and, iff_false] <;> omega

/-! ## The contract -/

/-- The call takes the live buffer of the pair away: a release, or an acquisition for the pair that needs to
grow. -/
def Replaces (p : ScratchPool) (deviceId : ℤ) (kind : ScratchKind) : Call → Prop
  | .acquire kind' elements deviceId' _ =>
    (deviceId', kind') = (deviceId, kind) ∧ NeedsGrowth (p.entries (keyOf deviceId kind)) elements
  | .release => True

/-- What the callers of the pool rely on, over a run: the `Ok` results are large enough as long as
no byte count wraps, those for different pairs are different buffers, a buffer stays live until it
is replaced, and what could not be grown is allocated again. -/
structure Contract (calls : List Call) : Prop where
  large_enough : ∀ (pre : List Call) (kind : ScratchKind) (elements : ℕ) (deviceId : ℤ) (alloc : Bool)
    (buffer : ScratchBuffer), pre ++ [Call.acquire kind elements deviceId alloc] <+: calls →
    Moderate (pre ++ [Call.acquire kind elements deviceId alloc]) →
    ((run pre).acquire kind elements deviceId alloc).2 = .ok buffer → elements ≤ buffer.floats
  apart : ∀ (pre : List Call) (kind : ScratchKind) (elements : ℕ) (deviceId : ℤ) (alloc : Bool)
    (buffer : ScratchBuffer) (pre' : List Call) (kind' : ScratchKind) (elements' : ℕ) (deviceId' : ℤ)
    (alloc' : Bool) (buffer' : ScratchBuffer),
    pre ++ [Call.acquire kind elements deviceId alloc] <+: calls →
    ((run pre).acquire kind elements deviceId alloc).2 = .ok buffer →
    pre' ++ [Call.acquire kind' elements' deviceId' alloc'] <+: calls →
    ((run pre').acquire kind' elements' deviceId' alloc').2 = .ok buffer' →
    (deviceId, kind) ≠ (deviceId', kind') → buffer ≠ buffer'
  stays : ∀ (pre : List Call) (kind : ScratchKind) (elements : ℕ) (deviceId : ℤ) (alloc : Bool)
    (buffer : ScratchBuffer) (mid : List Call),
    (pre ++ [Call.acquire kind elements deviceId alloc]) ++ mid <+: calls →
    ((run pre).acquire kind elements deviceId alloc).2 = .ok buffer →
    (∀ (mid' : List Call) (call : Call), mid' ++ [call] <+: mid →
      ¬ Replaces (run ((pre ++ [Call.acquire kind elements deviceId alloc]) ++ mid')) deviceId kind call) →
    (run ((pre ++ [Call.acquire kind elements deviceId alloc]) ++ mid)).live deviceId kind = some buffer
  regrown : ∀ (pre : List Call) (kind : ScratchKind) (elements : ℕ) (deviceId : ℤ) (alloc : Bool)
    (e : Status) (mid : List Call) (elements' : ℕ) (alloc' : Bool),
    ((pre ++ [Call.acquire kind elements deviceId alloc]) ++ mid) ++
      [Call.acquire kind elements' deviceId alloc'] <+: calls → elements ≠ 0 → elements' ≠ 0 →
    ((run pre).acquire kind elements deviceId alloc).2 = .error e →
    (∀ (n : ℕ) (b : Bool), Call.acquire kind n deviceId b ∉ mid) →
    let p := run ((pre ++ [Call.acquire kind elements deviceId alloc]) ++ mid)
    p.acquire kind elements' deviceId alloc' = p.grow (keyOf deviceId kind) elements' alloc'

/-- The device ids with which a kind is acquired differ in their low 28 bits, where they differ. -/
def DevicesApart (calls : List Call) : Prop :=
  ∀ kind elements deviceId alloc elements' deviceId' alloc',
    Call.acquire kind elements deviceId alloc ∈ calls →
    Call.acquire kind elements' deviceId' alloc' ∈ calls →
    deviceId % 2 ^ 28 = deviceId' % 2 ^ 28 → deviceId = deviceId'

/-- With such device ids a key is one pair. -/
theorem DevicesApart.pair_eq {calls : List Call} (h : DevicesApart calls) {kind kind' : ScratchKind}
    {elements elements' : ℕ} {deviceId deviceId' : ℤ} {alloc alloc' : Bool}
    (hmem : Call.acquire kind elements deviceId alloc ∈ calls)
    (hmem' : Call.acquire kind' elements' deviceId' alloc' ∈ calls)
    (hkey : keyOf deviceId kind = keyOf deviceId' kind') : (deviceId, kind) = (deviceId', kind') := by
  obtain ⟨rfl, hmod⟩ := (keyOf_eq_iff _ _ _ _).1 hkey
  rw [h _ _ _ _ _ _ _ hmem hmem' hmod]

/-- A call that does not replace the buffer of a pair leaves it live. -/
theorem live_step_of_not_replaces {p : ScratchPool} {deviceId : ℤ} {kind : ScratchKind} {call : Call}
    (hpair : ∀ kind' elements deviceId' alloc, call = .acquire kind' elements deviceId' alloc →
      keyOf deviceId kind = keyOf deviceId' kind' → (deviceId, kind) = (deviceId', kind'))
    (hnot : ¬ Replaces p deviceId kind call) :
    (p.step call).live deviceId kind = p.live deviceId kind := by
  cases call with
  | release => exact absurd trivial hnot
  | acquire kind' elements deviceId' alloc =>
    rw [ScratchPool.step]
    by_cases hkey : keyOf deviceId kind = keyOf deviceId' kind'
    · obtain ⟨rfl, rfl⟩ := Prod.mk.inj (hpair _ _ _ _ rfl hkey)
      by_cases hzero : elements = 0
      · simp only [acquire, if_pos hzero]
      · obtain ⟨hneeds, -⟩ | ⟨buffer, -, -, heq⟩ := p.acquire_cases kind hzero deviceId alloc
        · exact absurd ⟨rfl, hneeds⟩ hnot
        · rw [heq]
    · simp only [live, p.acquire_entries_of_ne kind' elements deviceId' alloc hkey]

/-- A pair without a buffer gets none from the calls for other pairs. -/
theorem live_step_of_none {p : ScratchPool} {deviceId : ℤ} {kind : ScratchKind} {call : Call}
    (hother : ∀ kind' elements deviceId' alloc, call = .acquire kind' elements deviceId' alloc →
      keyOf deviceId kind ≠ keyOf deviceId' kind')
    (hnone : p.live deviceId kind = none) : (p.step call).live deviceId kind = none := by
  cases call with
  | release => rfl
  | acquire kind' elements deviceId' alloc =>
    rw [ScratchPool.step, live, p.acquire_entries_of_ne kind' elements deviceId' alloc
      (hother _ _ _ _ rfl)]
    exact hnone

/-- The contract holds of every run whose device ids the packing tells apart. -/
theorem contract_run {calls : List Call} (hdevices : DevicesApart calls) : Contract calls := by
  have hmem {pre : List Call} {call : Call} (h : pre ++ [call] <+: calls) : call ∈ calls :=
    h.subset (List.mem_append_right _ List.mem_cons_self)
  refine ⟨?_, ?_, ?_, ?_⟩
  · intro pre kind elements deviceId alloc buffer _ hmoderate hok
    exact hmoderate.floats_of_acquire hok
  · intro pre kind elements deviceId alloc buffer pre' kind' elements' deviceId' alloc' buffer' hpre hok
      hpre' hok' hne heq
    have hlive := (acquire_ok hok).1
    have hlive' := (acquire_ok hok').1
    rw [← heq] at hlive'
    have hafter : (run (pre ++ [.acquire kind elements deviceId alloc])).live deviceId kind =
        some buffer := by
      rw [run_append_singleton]
      exact hlive
    have hafter' : (run (pre' ++ [.acquire kind' elements' deviceId' alloc'])).live deviceId' kind' =
        some buffer := by
      rw [run_append_singleton]
      exact hlive'
    exact hne (hdevices.pair_eq (hmem hpre) (hmem hpre') (key_eq_of_live hpre hpre' hafter hafter'))
  · intro pre kind elements deviceId alloc buffer mid hpre hok hkept
    induction mid using List.reverseRecOn with
    | nil =>
      rw [List.append_nil, run_append_singleton]
      exact (acquire_ok hok).1
    | append_singleton mid call ih =>
      rw [← List.append_assoc] at hpre ⊢
      rw [run_append_singleton, live_step_of_not_replaces ?_ (hkept mid call List.prefix_rfl)]
      · exact ih ((List.prefix_append _ _).trans hpre) fun mid' call' h =>
          hkept mid' call' (h.trans (List.prefix_append _ _))
      · rintro kind' elements' deviceId' alloc' rfl hkey
        exact hdevices.pair_eq (hmem ((List.prefix_append _ _).trans ((List.prefix_append _ _).trans hpre)))
          (hmem hpre) hkey
  · intro pre kind elements deviceId alloc e mid elements' alloc' hpre hpos hpos' herror hmid
    have hfirst := (List.prefix_append _ _).trans ((List.prefix_append _ _).trans hpre)
    have hnone : (run ((pre ++ [.acquire kind elements deviceId alloc]) ++ mid)).live deviceId kind =
        none := by
      have hpre' := (List.prefix_append _ _).trans hpre
      clear hpre
      induction mid using List.reverseRecOn with
      | nil =>
        rw [List.append_nil, run_append_singleton]
        exact live_of_acquire_error hpos herror
      | append_singleton mid call ih =>
        rw [← List.append_assoc] at hpre' ⊢
        rw [run_append_singleton]
        refine live_step_of_none ?_ (ih ?_ ((List.prefix_append _ _).trans hpre'))
        · rintro kind' n deviceId' b rfl hkey
          obtain ⟨rfl, rfl⟩ := Prod.mk.inj (hdevices.pair_eq (hmem hfirst) (hmem hpre') hkey)
          exact hmid n b (List.mem_append_right _ List.mem_cons_self)
        · exact fun n b h => hmid n b (List.mem_append_left _ h)
    intro p
    obtain ⟨-, heq⟩ | ⟨buffer, hlive, -, -⟩ := p.acquire_cases kind hpos' deviceId alloc'
    · exact heq
    · rw [hnone] at hlive
      cases hlive

/-- Two devices, a growth that fails, and a release. -/
theorem contract_run_devices : Contract
    [.acquire .scoresFp32 10 0 true, .acquire .scoresFp32 10 1 true, .acquire .scoresFp32 9000 0 false,
      .acquire .scoresFp32 1 0 true, .release, .acquire .decodePartials 5 1 true] := by
  refine contract_run fun kind elements deviceId alloc elements' deviceId' alloc' h h' hmod => ?_
  simp only [List.mem_cons, Call.acquire.injEq, reduceCtorEq, List.not_mem_nil, or_false, false_or] at h h'
  omega

/-- The keys of devices `0` and `2 ^ 28` wrap to the same `int`: both get one buffer. -/
theorem not_contract_wrapped :
    ¬ Contract [.acquire .scoresFp32 10 0 true, .acquire .scoresFp32 10 (2 ^ 28) true] := by
  intro h
  refine h.apart [] .scoresFp32 10 0 true ⟨0, 4144⟩ [.acquire .scoresFp32 10 0 true] .scoresFp32 10
    (2 ^ 28) true ⟨0, 4144⟩ ⟨[_], rfl⟩ (by decide) List.prefix_rfl (by decide) (by decide) rfl

end ScratchPool

end SciAttention

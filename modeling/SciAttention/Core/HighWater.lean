import SciAttention.Core.ScratchPool
import Mathlib.Algebra.BigOperators.Finprod

/-!
# The high-water mark of the scratch pool

`ScratchHighWaterMarkBytes` (`src/runtime/scratch_pool.cpp`) is raised by the size of one buffer
at a time, when that buffer grows. `cachedBytes` is what the pool holds in all its buffers. The
mark is the largest single buffer that the pool ever cached, and so the peak of `cachedBytes` only
where one buffer outweighs every sum.
-/

namespace SciAttention

/-- The bytes of the tensor of an entry. -/
def ScratchEntry.bytes (entry : ScratchEntry) : ℕ := entry.tensor.elim 0 ScratchBuffer.bytes

namespace ScratchPool

/-- `ScratchHighWaterMarkBytes`. -/
def highWaterMarkBytes (p : ScratchPool) : ℕ := p.highWaterBytes

/-- The bytes of all cached buffers together. -/
noncomputable def cachedBytes (p : ScratchPool) : ℕ := ∑ᶠ key, (p.entries key).bytes

/-- The mark is the maximum of the cached bytes over the moments of a run. -/
def MarkIsPeak (calls : List Call) : Prop :=
  IsGreatest {n | ∃ pre, pre <+: calls ∧ (run pre).cachedBytes = n} (run calls).highWaterMarkBytes

/-! ## One call -/

/-- A call puts one new buffer in an entry, which may raise the mark, or leaves the mark and puts
nothing in. -/
theorem step_entries (p : ScratchPool) (call : Call) :
    (∃ key buffer elements, (p.step call).entries = Function.update p.entries key
      ⟨some buffer, elements⟩ ∧
      (p.step call).highWaterBytes = max p.highWaterBytes buffer.bytes) ∨
    ((p.step call).highWaterBytes = p.highWaterBytes ∧
      ∀ key, (p.step call).entries key = p.entries key ∨ ((p.step call).entries key).bytes = 0) := by
  cases call with
  | release => exact .inr ⟨rfl, fun _ => .inr rfl⟩
  | acquire kind elements deviceId alloc =>
    by_cases hzero : elements = 0
    · have hsame : p.step (.acquire kind elements deviceId alloc) = p := by
        simp only [step, acquire, if_pos hzero]
      exact .inr ⟨congrArg highWaterBytes hsame, fun _ => .inl (by rw [hsame])⟩
    · obtain ⟨-, heq⟩ | ⟨buffer, -, -, heq⟩ := p.acquire_cases kind hzero deviceId alloc
      · rw [step, heq, grow]
        split_ifs
        · exact .inl ⟨keyOf deviceId kind, _, _, rfl, rfl⟩
        · refine .inr ⟨rfl, fun key => ?_⟩
          obtain rfl | hne := eq_or_ne key (keyOf deviceId kind)
          · exact .inr (by simp [ScratchEntry.bytes])
          · exact .inl (Function.update_of_ne hne _ _)
      · rw [step, heq]
        exact .inr ⟨rfl, fun _ => .inl rfl⟩

/-- The mark never falls. -/
theorem highWaterBytes_le_step (p : ScratchPool) (call : Call) :
    p.highWaterBytes ≤ (p.step call).highWaterBytes := by
  obtain ⟨key, buffer, _, -, hmark⟩ | ⟨hmark, -⟩ := p.step_entries call
  · exact hmark ▸ le_max_left _ _
  · exact hmark.ge

/-- Every cached buffer is below the mark. -/
def Below (p : ScratchPool) : Prop := ∀ key, (p.entries key).bytes ≤ p.highWaterBytes

theorem Below.step {p : ScratchPool} (h : Below p) (call : Call) : Below (p.step call) := by
  intro k
  obtain ⟨key, buffer, _, hentries, hmark⟩ | ⟨hmark, hentries⟩ := p.step_entries call
  · rw [hentries, hmark]
    obtain rfl | hne := eq_or_ne k key
    · rw [Function.update_self]
      exact le_max_right _ _
    · rw [Function.update_of_ne hne]
      exact (h k).trans (le_max_left _ _)
  · rw [hmark]
    obtain hkept | hgone := hentries k
    · exact hkept ▸ h k
    · exact hgone ▸ Nat.zero_le _

/-- Finitely many entries have a buffer. -/
def FinitelyMany (p : ScratchPool) : Prop := (Function.support fun key => (p.entries key).bytes).Finite

theorem FinitelyMany.step {p : ScratchPool} (h : FinitelyMany p) (call : Call) :
    FinitelyMany (p.step call) := by
  obtain ⟨key, buffer, _, hentries, -⟩ | ⟨-, hentries⟩ := p.step_entries call
  · refine (h.insert key).subset fun k hk => ?_
    obtain rfl | hne := eq_or_ne k key
    · exact Set.mem_insert _ _
    · refine Set.mem_insert_of_mem _ ?_
      simpa only [Function.mem_support, hentries, Function.update_of_ne hne] using hk
  · refine h.subset fun k hk => ?_
    obtain hkept | hgone := hentries k
    · simpa only [Function.mem_support, hkept] using hk
    · exact absurd hgone hk

/-- One buffer is part of what is cached. -/
theorem FinitelyMany.bytes_le {p : ScratchPool} (h : FinitelyMany p) (key : ℤ) :
    (p.entries key).bytes ≤ p.cachedBytes :=
  single_le_finsum key h fun _ => Nat.zero_le _

/-! ## Runs -/

theorem Below.run (calls : List Call) : Below (run calls) := by
  have hstep (p : ScratchPool) (call : Call) (h : Below p) : Below (p.step call) := h.step call
  exact Runs.invariant ScratchPool.step hstep (fun _ => le_rfl) calls

theorem FinitelyMany.run (calls : List Call) : FinitelyMany (run calls) := by
  have hstep (p : ScratchPool) (call : Call) (h : FinitelyMany p) : FinitelyMany (p.step call) := h.step call
  exact Runs.invariant ScratchPool.step hstep (by simp [FinitelyMany, ScratchEntry.bytes]) calls

theorem highWaterBytes_le_run {pre calls : List Call} (hpre : pre <+: calls) :
    (run pre).highWaterBytes ≤ (run calls).highWaterBytes := by
  obtain ⟨rest, rfl⟩ := hpre
  have hstep (p : ScratchPool) (call : Call) (h : (run pre).highWaterBytes ≤ p.highWaterBytes) :
      (run pre).highWaterBytes ≤ (p.step call).highWaterBytes := h.trans (p.highWaterBytes_le_step call)
  rw [show run (pre ++ rest) = rest.foldl ScratchPool.step (run pre) from List.foldl_append]
  exact Runs.invariant ScratchPool.step hstep le_rfl rest

/-- The mark is the largest single buffer that was ever cached. -/
theorem highWaterMarkBytes_isGreatest (calls : List Call) :
    IsGreatest {n | ∃ pre, pre <+: calls ∧ ∃ key, ((run pre).entries key).bytes = n}
      (run calls).highWaterMarkBytes := by
  refine ⟨?_, ?_⟩
  · induction calls using List.reverseRecOn with
    | nil => exact ⟨[], List.prefix_rfl, 0, rfl⟩
    | append_singleton calls call ih =>
      obtain ⟨pre, hpre, k, hk⟩ := ih
      have hearlier : pre <+: calls ++ [call] := hpre.trans (List.prefix_append _ _)
      rw [highWaterMarkBytes, run_append_singleton]
      obtain ⟨key, buffer, _, hentries, hmark⟩ | ⟨hmark, -⟩ := (run calls).step_entries call
      · obtain hle | hle := le_total (run calls).highWaterBytes buffer.bytes
        · -- the new buffer is the largest
          refine ⟨calls ++ [call], List.prefix_rfl, key, ?_⟩
          rw [run_append_singleton, hentries, hmark, max_eq_right hle, Function.update_self]
          rfl
        · exact ⟨pre, hearlier, k, by rw [hk, hmark, max_eq_left hle]; rfl⟩
      · exact ⟨pre, hearlier, k, by rw [hk, hmark]; rfl⟩
  · rintro _ ⟨pre, hpre, key, rfl⟩
    exact (Below.run pre key).trans (highWaterBytes_le_run hpre)

/-- The mark is the peak of a run exactly when at no moment the cached buffers together hold more than some
single buffer of the run. -/
theorem markIsPeak_iff (calls : List Call) :
    MarkIsPeak calls ↔ ∀ pre, pre <+: calls → ∃ pre', pre' <+: calls ∧
      ∃ key, (run pre).cachedBytes ≤ ((run pre').entries key).bytes := by
  obtain ⟨⟨pre₀, hpre₀, key₀, hmark⟩, hlargest⟩ := highWaterMarkBytes_isGreatest calls
  constructor
  · intro hpeak pre hpre
    exact ⟨pre₀, hpre₀, key₀, hmark ▸ hpeak.2 ⟨pre, hpre, rfl⟩⟩
  · intro hsingle
    have hbound : (run calls).highWaterMarkBytes ∈
        upperBounds {n | ∃ pre, pre <+: calls ∧ (run pre).cachedBytes = n} := by
      rintro _ ⟨pre, hpre, rfl⟩
      obtain ⟨pre', hpre', key, hle⟩ := hsingle pre hpre
      exact hle.trans (hlargest ⟨pre', hpre', key, rfl⟩)
    refine ⟨⟨pre₀, hpre₀, le_antisymm (hbound ⟨pre₀, hpre₀, rfl⟩) ?_⟩, hbound⟩
    exact hmark ▸ (FinitelyMany.run pre₀).bytes_le key₀

/-- Two kinds on one device: each buffer has 4144 bytes, the pool holds both, and the mark is one of them. -/
theorem not_markIsPeak_twoKinds :
    ¬ MarkIsPeak [.acquire .scoresFp32 10 0 true, .acquire .decodePartials 10 0 true] := by
  intro hpeak
  have hle := hpeak.2 ⟨_, List.prefix_rfl, rfl⟩
  rw [cachedBytes, finsum_eq_sum_of_support_subset (s := {0, 1})] at hle
  · exact absurd hle (by decide)
  · intro key hkey
    by_contra hother
    simp only [Finset.coe_insert, Finset.coe_singleton, Set.mem_insert_iff, Set.mem_singleton_iff,
      not_or] at hother
    refine hkey ?_
    have hfirst : keyOf 0 .scoresFp32 = 0 := by decide
    have hsecond : keyOf 0 .decodePartials = 1 := by decide
    simp [run, step, acquire, grow, hfirst, hsecond, hother, ScratchEntry.bytes]

end ScratchPool

end SciAttention

import Mathlib.Algebra.Group.Nat.Defs
import Mathlib.Algebra.Group.Int.Defs

/-!
# Infrastructure types: status codes, dtypes and tensors

The part of `core/status.hpp`, `core/types.hpp`, `tensor/tensor.hpp` and
`scicompute_attention/attention_types.hpp` that the host layer reads. Device memory is a function
from byte addresses to bytes, so a pointer with a wrong extent reads whatever lies behind it, as the
C++ pointer does; a null `data()` is `none`.
-/

namespace SciAttention

/-! ## Status -/

/-- `sci::StatusCode`. -/
inductive StatusCode where
  | ok | error | notFound | invalidArgument | notImplemented | outOfMemory | resourceExhausted
  | invalidOperation | internal | cudaError | cudaNotAvailable | cudaOutOfMemory | deviceError
deriving DecidableEq, Repr

/-- `sci::Status`: an upstream code and a message. -/
structure Status where
  code : StatusCode
  message : String
deriving DecidableEq, Repr

namespace Status

/-- `Status::Ok()`. -/
def ok : Status := ⟨.ok, ""⟩

/-- `Status::ok()`. -/
def isOk (s : Status) : Prop := s.code = .ok

instance (s : Status) : Decidable s.isOk := inferInstanceAs (Decidable (s.code = .ok))

/-- `Status::InvalidArgument`. -/
def invalidArgument (m : String) : Status := ⟨.invalidArgument, m⟩

/-- `Status::CudaError`. -/
def cudaError (m : String) : Status := ⟨.cudaError, m⟩

@[simp] theorem isOk_ok : ok.isOk := rfl

@[simp] theorem not_isOk_invalidArgument (m : String) : ¬ (invalidArgument m).isOk := by
  simp [isOk, invalidArgument]

@[simp] theorem not_isOk_cudaError (m : String) : ¬ (cudaError m).isOk := by
  simp [isOk, cudaError]

end Status

/-- `sca::AttnStatusCode`, the error codes carried inside the message. -/
inductive AttnStatusCode where
  | unsupportedHeadDim | unsupportedDtype | unsupportedLayout | layoutMismatch | shapeMismatch
  | seqTooLong | kvCapacityExceeded | workspaceExceeded | unsupportedFeature | deviceCapability
deriving DecidableEq, Repr

/-- The numeric value of an `AttnStatusCode`. -/
def AttnStatusCode.toInt32 : AttnStatusCode → ℕ
  | unsupportedHeadDim => 2001
  | unsupportedDtype => 2002
  | unsupportedLayout => 2003
  | layoutMismatch => 2004
  | shapeMismatch => 2005
  | seqTooLong => 2006
  | kvCapacityExceeded => 2007
  | workspaceExceeded => 2008
  | unsupportedFeature => 2009
  | deviceCapability => 2010

/-- `ToSciCode`: the nearest upstream code. -/
def toSciCode : AttnStatusCode → StatusCode
  | .unsupportedHeadDim | .unsupportedDtype | .unsupportedLayout | .layoutMismatch
  | .shapeMismatch | .seqTooLong => .invalidArgument
  | .kvCapacityExceeded | .workspaceExceeded => .resourceExhausted
  | .unsupportedFeature => .notImplemented
  | .deviceCapability => .invalidOperation

/-- `MakeStatus`: a status whose message carries `[SCA-<code>]`. -/
def makeStatus (code : AttnStatusCode) (detail : String) : Status :=
  ⟨toSciCode code, "[SCA-" ++ toString code.toInt32 ++ "] " ++ detail⟩

/-- No attention error code maps to the upstream `kOk`. -/
@[simp] theorem not_isOk_makeStatus (code : AttnStatusCode) (detail : String) :
    ¬ (makeStatus code detail).isOk := by
  cases code <;> simp [Status.isOk, makeStatus, toSciCode]

/-- A check passes when its condition does not hold and the checks after it pass. -/
theorem isOk_check {c : Prop} [Decidable c] {code : AttnStatusCode} {detail : String} {s : Status} :
    (if c then makeStatus code detail else s).isOk ↔ ¬ c ∧ s.isOk := by
  by_cases hc : c <;> simp [hc]

/-! ## Element types and devices -/

/-- `sci::DType`. -/
inductive DType where
  | float32 | float16 | bfloat16 | int8 | int32 | int64 | bool | float64 | uint8
deriving DecidableEq, Repr

/-- `kDTypeSize` / `DtypeSize`: bytes per element. -/
def dtypeSize : DType → ℕ
  | .float32 => 4
  | .float16 => 2
  | .bfloat16 => 2
  | .int8 => 1
  | .int32 => 4
  | .int64 => 8
  | .bool => 1
  | .float64 => 8
  | .uint8 => 1

/-- `kDTypeName`. -/
def dtypeName : DType → String
  | .float32 => "float32"
  | .float16 => "float16"
  | .bfloat16 => "bfloat16"
  | .int8 => "int8"
  | .int32 => "int32"
  | .int64 => "int64"
  | .bool => "bool"
  | .float64 => "float64"
  | .uint8 => "uint8"

theorem dtypeSize_pos (d : DType) : 0 < dtypeSize d := by cases d <;> decide

/-- `IsSupportedComputeDtype`. -/
def isSupportedComputeDtype (d : DType) : Bool :=
  d == .float32 || d == .float16 || d == .bfloat16

/-- `sci::DeviceType`. -/
inductive DeviceType where
  | cpu | cuda | cpuPinned
deriving DecidableEq, Repr

/-- `kDeviceTypeName`. -/
def deviceTypeName : DeviceType → String
  | .cpu => "cpu"
  | .cuda => "cuda"
  | .cpuPinned => "cpu_pinned"

/-! ## Machine integers -/

/-- `size_t` arithmetic, modulo `2 ^ 64`. -/
def sizeWrap (x : ℕ) : ℕ := x % 2 ^ 64

theorem sizeWrap_of_lt {x : ℕ} (h : x < 2 ^ 64) : sizeWrap x = x := Nat.mod_eq_of_lt h

@[simp] theorem sizeWrap_mul_left (x y : ℕ) : sizeWrap (sizeWrap x * y) = sizeWrap (x * y) :=
  Nat.mod_mul_mod x y _

@[simp] theorem sizeWrap_mul_right (x y : ℕ) : sizeWrap (x * sizeWrap y) = sizeWrap (x * y) :=
  Nat.mul_mod_mod x y _

/-- `static_cast<int32_t>`: the two's-complement value of the low 32 bits. -/
def int32Cast (x : ℤ) : ℤ := Int.bmod x (2 ^ 32)

/-- A non-negative value below `2 ^ 31` survives the cast. -/
theorem int32Cast_of_lt {x : ℤ} (h0 : 0 ≤ x) (h : x < 2 ^ 31) : int32Cast x = x := by
  unfold int32Cast
  rw [Int.bmod_eq_of_le] <;> omega

/-! ## Tensors -/

/-- Device memory behind one base pointer, addressed in bytes. -/
abbrev Bytes := ℕ → UInt8

/-- `sci::Tensor`: the fields the attention code reads. A tensor's dimensions are non-negative;
`data` is `none` for a null pointer. -/
structure Tensor where
  dims : List ℕ
  dtype : DType
  deviceType : DeviceType := .cuda
  isContiguous : Bool := true
  data : Option Bytes

namespace Tensor

/-- `Tensor::ndims()`. -/
def ndims (t : Tensor) : ℕ := t.dims.length

/-- `Tensor::dim(i)`; the unused entries of the `dims_` array are zero. -/
def dim (t : Tensor) (i : ℕ) : ℕ := t.dims.getD i 0

/-- `Tensor::num_elements()`. -/
def numElements (t : Tensor) : ℕ := if t.dims = [] then 0 else t.dims.prod

end Tensor

/-! ## Head dimensions and layouts -/

/-- `kSupportedHeadDims`. -/
def supportedHeadDims : List ℤ := [32, 64, 96, 128, 160, 192, 256]

/-- `SupportedHeadDimIndex`: position in the table, or `-1`. -/
def supportedHeadDimIndex (headDim : ℤ) : ℤ :=
  match supportedHeadDims.findIdx? (· == headDim) with
  | some i => i
  | none => -1

/-- A head dimension is accepted exactly when it is in the table. -/
theorem supportedHeadDimIndex_nonneg_iff (headDim : ℤ) :
    ¬ supportedHeadDimIndex headDim < 0 ↔ headDim ∈ supportedHeadDims := by
  unfold supportedHeadDimIndex
  cases h : supportedHeadDims.findIdx? (· == headDim) with
  | none =>
    have habsent : ∀ x ∈ supportedHeadDims, x ≠ headDim := by
      simpa [List.findIdx?_eq_none_iff] using h
    simpa using fun hmem => habsent headDim hmem rfl
  | some i =>
    have hmem : (supportedHeadDims.findIdx? (· == headDim)).isSome := by simp [h]
    simpa [List.findIdx?_isSome] using hmem

/-- `sca::AttnLayout`. -/
inductive AttnLayout where
  | bhsd | bshd
deriving DecidableEq, Repr

/-- `LayoutName`. -/
def layoutName : AttnLayout → String
  | .bhsd => "bhsd"
  | .bshd => "bshd"

/-- `sca::KvLayout`; v1 has one layout. -/
inductive KvLayout where
  | blockMajor
deriving DecidableEq, Repr

/-- `sca::BackendKind`. -/
inductive BackendKind where
  | auto | naive | tiled | flash | decode | paged
deriving DecidableEq, Repr

/-- `BackendName`. -/
def backendName : BackendKind → String
  | .auto => "auto"
  | .naive => "naive"
  | .tiled => "tiled"
  | .flash => "flash"
  | .decode => "decode"
  | .paged => "paged"

/-- `sca::AttentionShape`. -/
structure AttentionShape where
  batch : ℕ
  seqQ : ℕ
  seqKv : ℕ
  numHeads : ℕ
  numKvHeads : ℕ
  headDim : ℕ
deriving DecidableEq, Repr

/-- `sca::AttentionConfig`. `scale` and `softcap` are exact numbers; the `cu_seqlens` pointers are
only tested against null, and the stream is left out. -/
structure AttentionConfig (𝕜 : Type*) where
  backend : BackendKind := .auto
  layout : AttnLayout := .bhsd
  causal : Bool := false
  returnLse : Bool := false
  scale : 𝕜
  softcap : 𝕜
  slidingWindow : ℤ := 0
  numSplits : ℤ := 0
  workspaceLimitBytes : ℕ := 0
  allowFallback : Bool := false
  hasCuSeqlensQ : Bool := false
  hasCuSeqlensKv : Bool := false

end SciAttention

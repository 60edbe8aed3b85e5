import SciAttention.Tools.GgufReader

/-!
# The GGUF format

Headers as syntax trees: a body is a number, a string or an array, nested as deeply as one likes.
`encode` is the text of a header, `WellFormed` says which headers the format has. `Readable` are
the headers whose texts `read_gguf` accepts: a string may have a length that the file does not
hold, if it is the last thing of the header, an empty array may have any element type, and the
elements of arrays are numbers or strings.
-/

namespace SciAttention

namespace Gguf

open Wire
open LittleEndian (bytes)

/-! ## Headers -/

/-- A string: the length that stands before it and the content that is there. -/
structure RawStr where
  length : ℕ
  content : List UInt8
deriving DecidableEq, Repr

/-- The contents of a metadata value. -/
inductive Body where
  | fixed (type : FixedType) (raw : List UInt8)
  | str (s : RawStr)
  | arr (elementType : ℕ) (elements : List Body)

/-- A key/value pair. -/
structure Pair where
  key : RawStr
  valueType : ℕ
  body : Body

/-- A tensor record. -/
structure TensorRecord where
  name : RawStr
  dims : List ℕ
  ggmlType : ℕ
  offset : ℕ

/-- A header: everything up to the end of the tensor table. The counts are those of the lists. -/
structure Header where
  version : ℕ
  pairs : List Pair
  tensors : List TensorRecord

/-! ## Texts -/

def RawStr.encode (s : RawStr) : List UInt8 := bytes 8 s.length ++ s.content

mutual

/-- The text of a body. -/
def Body.encode : Body → List UInt8
  | .fixed _ raw => raw
  | .str s => s.encode
  | .arr elementType elements => bytes 4 elementType ++ (bytes 8 elements.length ++ Body.encodeAll elements)

/-- The texts of bodies, one after the other. -/
def Body.encodeAll : List Body → List UInt8
  | [] => []
  | e :: es => e.encode ++ Body.encodeAll es

end

def Pair.encode (p : Pair) : List UInt8 := p.key.encode ++ (bytes 4 p.valueType ++ p.body.encode)

def TensorRecord.encode (t : TensorRecord) : List UInt8 :=
  t.name.encode ++
    (bytes 4 t.dims.length ++
      (t.dims.flatMap (bytes 8) ++ (bytes 4 t.ggmlType ++ bytes 8 t.offset)))

def Header.encode (header : Header) : List UInt8 :=
  magicBytes ++ (bytes 4 header.version ++ (bytes 8 header.tensors.length ++ (bytes 8 header.pairs.length ++
    (header.pairs.flatMap Pair.encode ++ header.tensors.flatMap TensorRecord.encode))))

theorem Body.encodeAll_eq (es : List Body) : Body.encodeAll es = es.flatMap Body.encode := by
  induction es with
  | nil => rfl
  | cons e es ih => rw [encodeAll, ih, List.flatMap_cons]

/-! ## Well-formed headers -/

/-- All bytes of the string are there. -/
def RawStr.Complete (s : RawStr) : Prop := s.content.length = s.length ∧ s.length < 2 ^ 64

/-- A body of the value type: one of the thirteen, in arrays any of them. -/
inductive Body.WellFormed : ℕ → Body → Prop
  | fixed {typeId : ℕ} {type : FixedType} {raw : List UInt8}
      (htype : ggufMetadataTypes typeId = some (.fixed type)) (hraw : raw.length = type.size) :
      WellFormed typeId (.fixed type raw)
  | str {s : RawStr} (hs : s.Complete) : WellFormed 8 (.str s)
  | arr {elementType : ℕ} {elements : List Body} (htype : (ggufMetadataTypes elementType).isSome)
      (hlength : elements.length < 2 ^ 64) (helements : ∀ e ∈ elements, WellFormed elementType e) :
      WellFormed 9 (.arr elementType elements)

structure Pair.WellFormed (p : Pair) : Prop where
  key : p.key.Complete
  body : p.body.WellFormed p.valueType

structure TensorRecord.WellFormed (t : TensorRecord) : Prop where
  name : t.name.Complete
  ndims_lt : t.dims.length < 2 ^ 32
  dims_lt : ∀ d ∈ t.dims, d < 2 ^ 64
  ggmlType_lt : t.ggmlType < 2 ^ 32
  offset_lt : t.offset < 2 ^ 64

structure Header.WellFormed (header : Header) : Prop where
  version_lt : header.version < 2 ^ 32
  pairs_lt : header.pairs.length < 2 ^ 64
  tensors_lt : header.tensors.length < 2 ^ 64
  pairs : ∀ p ∈ header.pairs, p.WellFormed
  tensors : ∀ t ∈ header.tensors, t.WellFormed

/-! ## Readable headers -/

/-- Some of the bytes that the length announces are missing. -/
def RawStr.Cut (s : RawStr) : Prop := s.content.length < s.length

/-- A string that can be read: for missing bytes memory must be granted all the same. -/
structure RawStr.Readable (env : ReadEnv) (s : RawStr) : Prop where
  length_lt : s.length < 2 ^ 63
  content_le : s.content.length ≤ s.length
  granted : s.Cut → env.grants s.length = true

/-- A body that `read_scalar` reads for the type. -/
def Body.ScalarReadable (env : ReadEnv) (typeId : ℕ) : Body → Prop
  | .fixed type raw => ggufMetadataTypes typeId = some (.fixed type) ∧ raw.length = type.size
  | .str s => typeId = 8 ∧ s.Readable env
  | .arr _ _ => False

/-- The body is a cut string. -/
def Body.ScalarCut : Body → Prop
  | .str s => s.Cut
  | _ => False

/-- An array that `read_value` reads. Its element type is looked up for its elements only. -/
structure ArrayReadable (env : ReadEnv) (elementType : ℕ) (elements : List Body) : Prop where
  type_lt : elementType < 2 ^ 32
  length_lt : elements.length < 2 ^ 64
  allocated : elementType ≠ 8 → elements.length < 2 ^ 60
  scalars : ∀ e ∈ elements, e.ScalarReadable env elementType
  cut_last : elements.Pairwise fun e _ => ¬ e.ScalarCut

/-- A body that `read_value` reads for the type. -/
def Body.Readable (env : ReadEnv) (typeId : ℕ) : Body → Prop
  | .arr elementType elements => typeId = 9 ∧ ArrayReadable env elementType elements
  | b => b.ScalarReadable env typeId

/-- The text of the body lacks its end. -/
def Body.Cut : Body → Prop
  | .arr _ elements => ∃ e ∈ elements, e.ScalarCut
  | b => b.ScalarCut

structure Pair.Readable (env : ReadEnv) (p : Pair) : Prop where
  key : p.key.Readable env
  key_complete : ¬ p.key.Cut
  type_lt : p.valueType < 2 ^ 32
  body : p.body.Readable env p.valueType

structure TensorRecord.Readable (env : ReadEnv) (t : TensorRecord) : Prop where
  name : t.name.Readable env
  name_complete : ¬ t.name.Cut
  ndims_lt : t.dims.length < 2 ^ 32
  dims_lt : ∀ d ∈ t.dims, d < 2 ^ 64
  ggmlType_lt : t.ggmlType < 2 ^ 32
  offset_lt : t.offset < 2 ^ 64

/-- The header ends in a string that lacks its end. -/
def Header.Cut (header : Header) : Prop := ∃ p ∈ header.pairs, p.body.Cut

/-- A header that `read_gguf` reads. -/
structure Header.Readable (env : ReadEnv) (header : Header) : Prop where
  version_lt : header.version < 2 ^ 32
  pairs_lt : header.pairs.length < 2 ^ 64
  tensors_lt : header.tensors.length < 2 ^ 64
  pairs : ∀ p ∈ header.pairs, p.Readable env
  tensors : ∀ t ∈ header.tensors, t.Readable env
  /-- Nothing follows a cut string. -/
  cut_last : header.pairs.Pairwise fun p _ => ¬ p.body.Cut
  cut_tensors : header.Cut → header.tensors = []

/-! ## What a header stands for -/

mutual

/-- The Python value of a body. -/
def Body.value : Body → PyValue
  | .fixed type raw => type.unpacked (LittleEndian.value raw)
  | .str s => .str (decodeUtf8 s.content)
  | .arr elementType elements =>
    if elementType = 8 then .list (Body.values elements) else .ndarray (Body.values elements)

def Body.values : List Body → List PyValue
  | [] => []
  | e :: es => e.value :: Body.values es

end

theorem Body.values_eq (es : List Body) : Body.values es = es.map Body.value := by
  induction es with
  | nil => rfl
  | cons e es ih => rw [values, ih, List.map_cons]

/-- The entry of the metadata that a pair makes. -/
def Pair.entry (env : ReadEnv) (p : Pair) : String × PyValue :=
  (decodeUtf8 p.key.content, storedValue env p.body.value)

def TensorRecord.info (t : TensorRecord) : TensorInfo :=
  ⟨decodeUtf8 t.name.content, t.dims, t.ggmlType, t.offset⟩

/-- The metadata of a key: the last pair with it counts. -/
def Header.entry (env : ReadEnv) (header : Header) (key : String) : Option PyValue :=
  (header.pairs.map (Pair.entry env)).reverse.lookup key

/-- The alignment of a header. -/
def Header.alignment (env : ReadEnv) (header : Header) : Except ReadError ℤ :=
  intOf env ((header.entry env "general.alignment").getD (.int 32))

/-- The file is that of the header: its version, its metadata, its tensors, and as data offset the
least multiple of the alignment from the end of the tensor table on. -/
structure Header.Describes (env : ReadEnv) (header : Header) (g : GgufFile) : Prop where
  version_eq : g.version = header.version
  metadata_eq : ∀ key, g.metadata.lookup key = header.entry env key
  tensors_eq : g.tensors = header.tensors.map TensorRecord.info
  alignment_eq : header.alignment env = .ok g.alignment
  offset_least : IsLeast {m : ℤ | header.encode.length ≤ m ∧ g.alignment ∣ m} g.tensorDataOffset

end Gguf

end SciAttention

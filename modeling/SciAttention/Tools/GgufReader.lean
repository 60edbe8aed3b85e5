import SciAttention.Common.LittleEndian
import SciAttention.Common.Wire
import Mathlib.Algebra.Order.Ring.Int

/-!
# The GGUF reader

Model of `Reader` and `read_gguf` (`tools/gguf_reader.py`). A reader works on the bytes that the
handle has not read yet. Reading at the end of the file gives fewer bytes than asked for, which
`struct.unpack` notices and the decoding of a string does not.
-/

namespace SciAttention

namespace Gguf

open Wire

/-! ## Errors and values -/

/-- The exceptions that end a read. -/
inductive ReadError where
  /-- `struct.error`: the buffer does not have the size of the format. -/
  | struct (size : ℕ)
  | value (message : String)
  | key (typeId : ℕ)
  | overflow (message : String)
  | memory
  | type (message : String)
  | zeroDivision
deriving DecidableEq, Repr

/-- A float by the bits that it was unpacked from. -/
inductive PyFloat where
  | single (bits : ℕ)
  | double (bits : ℕ)
deriving DecidableEq, Repr

/-- The Python values that the reader makes. -/
inductive PyValue where
  | int (n : ℤ)
  | bool (b : Bool)
  | float (x : PyFloat)
  | str (s : String)
  | list (xs : List PyValue)
  | ndarray (xs : List PyValue)

/-- What a read depends on besides the file. `grants` says whether there is memory for so many
bytes where the file does not hold them; for what the file holds there is. -/
structure ReadEnv where
  path : String
  keepArrays : Bool
  grants : ℕ → Bool
  /-- `int(s)` of a string, `none` for an invalid literal. -/
  intOfStr : String → Option ℤ

/-! ## Text -/

/-- A character that is not complete yet: the code so far, the bytes that are missing and the
range of the next. -/
structure PendingChar where
  code : ℕ
  missing : ℕ
  low : UInt8
  high : UInt8

/-- U+FFFD. -/
def replacementChar : Char := Char.ofNat 0xFFFD

/-- The first byte of a character: the character, or what is missing of it. -/
def startChar (b : UInt8) : List Char × Option PendingChar :=
  if b < 0x80 then ([Char.ofNat b.toNat], none)
  else if 0xC2 ≤ b ∧ b ≤ 0xDF then ([], some ⟨b.toNat - 0xC0, 1, 0x80, 0xBF⟩)
  else if b = 0xE0 then ([], some ⟨0, 2, 0xA0, 0xBF⟩)
  else if b = 0xED then ([], some ⟨0xD, 2, 0x80, 0x9F⟩)
  else if 0xE1 ≤ b ∧ b ≤ 0xEF then ([], some ⟨b.toNat - 0xE0, 2, 0x80, 0xBF⟩)
  else if b = 0xF0 then ([], some ⟨0, 3, 0x90, 0xBF⟩)
  else if 0xF1 ≤ b ∧ b ≤ 0xF3 then ([], some ⟨b.toNat - 0xF0, 3, 0x80, 0xBF⟩)
  else if b = 0xF4 then ([], some ⟨4, 3, 0x80, 0x8F⟩)
  else ([replacementChar], none)

/-- The characters of the bytes; each ill-formed part, as far as it could still be the start of a
character, gives one replacement character. -/
def decodeChars : Option PendingChar → List UInt8 → List Char
  | none, [] => []
  | some _, [] => [replacementChar]
  | none, b :: bs => (startChar b).1 ++ decodeChars (startChar b).2 bs
  | some p, b :: bs =>
    if p.low ≤ b ∧ b ≤ p.high then
      let code := p.code * 64 + b.toNat % 64
      if p.missing = 1 then Char.ofNat code :: decodeChars none bs
      else decodeChars (some ⟨code, p.missing - 1, 0x80, 0xBF⟩) bs
    else replacementChar :: ((startChar b).1 ++ decodeChars (startChar b).2 bs)

/-- `raw.decode("utf-8", errors="replace")`. -/
def decodeUtf8 (raw : List UInt8) : String := String.ofList (decodeChars none raw)

/-- One byte in the `repr` of a bytes object. -/
def reprByte (quote b : UInt8) : String :=
  if b = 9 then "\\t"
  else if b = 10 then "\\n"
  else if b = 13 then "\\r"
  else if b = 92 ∨ b = quote then "\\" ++ String.singleton (Char.ofNat b.toNat)
  else if 32 ≤ b ∧ b < 127 then String.singleton (Char.ofNat b.toNat)
  else "\\x" ++ String.ofList [Nat.digitChar (b.toNat / 16), Nat.digitChar (b.toNat % 16)]

/-- `repr` of a bytes object. -/
def reprBytes (raw : List UInt8) : String :=
  let quote : UInt8 := if 39 ∈ raw ∧ 34 ∉ raw then 34 else 39
  let mark := String.singleton (Char.ofNat quote.toNat)
  "b" ++ mark ++ String.join (raw.map (reprByte quote)) ++ mark

/-! ## Numbers -/

/-- The metadata types of a fixed size. -/
inductive FixedType where
  | u8 | i8 | u16 | i16 | u32 | i32 | f32 | bool | u64 | i64 | f64
deriving DecidableEq, Repr

/-- A row of `GGUF_METADATA_TYPES`; strings and arrays have no size. -/
inductive MetadataType where
  | fixed (type : FixedType)
  | str
  | arr
deriving DecidableEq, Repr

namespace FixedType

/-- The size in `GGUF_METADATA_TYPES`. -/
def size : FixedType → ℕ
  | u8 => 1
  | i8 => 1
  | u16 => 2
  | i16 => 2
  | u32 => 4
  | i32 => 4
  | f32 => 4
  | bool => 1
  | u64 => 8
  | i64 => 8
  | f64 => 8

/-- What `struct.unpack` makes of the little-endian number, and `bool` of the byte of a boolean. -/
def unpacked (type : FixedType) (n : ℕ) : PyValue :=
  match type with
  | u8 | u16 | u32 | u64 => .int n
  | i8 | i16 | i32 | i64 => .int (Int.bmod n (256 ^ type.size))
  | f32 => .float (.single n)
  | f64 => .float (.double n)
  | bool => .bool (n != 0)

end FixedType

/-- `GGUF_METADATA_TYPES`. -/
def ggufMetadataTypes : ℕ → Option MetadataType
  | 0 => some (.fixed .u8)
  | 1 => some (.fixed .i8)
  | 2 => some (.fixed .u16)
  | 3 => some (.fixed .i16)
  | 4 => some (.fixed .u32)
  | 5 => some (.fixed .i32)
  | 6 => some (.fixed .f32)
  | 7 => some (.fixed .bool)
  | 8 => some .str
  | 9 => some .arr
  | 10 => some (.fixed .u64)
  | 11 => some (.fixed .i64)
  | 12 => some (.fixed .f64)
  | _ => none

/-- `int(x)` of a float in the binary format with so many exponent and mantissa bits. -/
def truncBits (exponentBits mantissaBits bits : ℕ) : Except ReadError ℤ :=
  let mantissa := bits % 2 ^ mantissaBits
  let exponent := bits / 2 ^ mantissaBits % 2 ^ exponentBits
  if exponent = 2 ^ exponentBits - 1 then
    if mantissa = 0 then .error (.overflow "cannot convert float infinity to integer")
    else .error (.value "cannot convert float NaN to integer")
  else
    let significand := if exponent = 0 then mantissa else mantissa + 2 ^ mantissaBits
    -- the value is `significand * 2 ^ (max exponent 1 - point)`
    let point := 2 ^ (exponentBits - 1) - 1 + mantissaBits
    let magnitude :=
      if point ≤ max exponent 1 then significand * 2 ^ (max exponent 1 - point)
      else significand / 2 ^ (point - max exponent 1)
    .ok (if bits / 2 ^ (mantissaBits + exponentBits) % 2 = 1 then -(magnitude : ℤ) else magnitude)

/-- `int(value)`. -/
def intOf (env : ReadEnv) : PyValue → Except ReadError ℤ
  | .int n => .ok n
  | .bool b => .ok (if b then 1 else 0)
  | .float (.single bits) => truncBits 8 23 bits
  | .float (.double bits) => truncBits 11 52 bits
  | .str s =>
    match env.intOfStr s with
    | none => .error (.value "invalid literal for int() with base 10")
    | some n => .ok n
  | .list _ =>
    .error (.type
      "int() argument must be a string, a bytes-like object or a real number, not 'list'")
  | .ndarray _ =>
    .error (.type "int() argument must be a string, a bytes-like object or a real number, not 'ndarray'")

/-! ## The reader -/

/-- A reader of the bytes that are left of the file. -/
abbrev GgufReader (V : Type) := Reader ReadError UInt8 V

/-- `handle.read(n)`: at most `n` bytes. -/
def read (env : ReadEnv) (n : ℕ) : GgufReader (List UInt8) := fun left =>
  if n ≥ 2 ^ 63 then .error (.overflow "cannot fit 'int' into an index-sized integer")
  else if left.length < n ∧ env.grants n = false then .error .memory
  else .ok (left.take n, left.drop n)

/-- `struct.unpack` of an unsigned number, `handle.read` included. -/
def readUInt (env : ReadEnv) (size : ℕ) : GgufReader ℕ := do
  let raw ← read env size
  if raw.length ≠ size then throw (.struct size) else pure (LittleEndian.value raw)

/-- `read_scalar(8)`: the bytes of the string are not counted. -/
def readStr (env : ReadEnv) : GgufReader String := do
  let length ← readUInt env 8
  let raw ← read env length
  pure (decodeUtf8 raw)

/-- `Reader.read_scalar`. -/
def readScalar (env : ReadEnv) (typeId : ℕ) : GgufReader PyValue :=
  match ggufMetadataTypes typeId with
  | none => throw (.key typeId)
  | some .str => do
    let s ← readStr env
    pure (.str s)
  | some .arr => throw (.value "array must be read through read_value")
  | some (.fixed type) => do
    let n ← readUInt env type.size
    pure (type.unpacked n)

/-- The message of `np.empty` for a count of eight-byte elements whose size is no `intp`. -/
def emptyMessage (count : ℕ) : String :=
  if count ≥ 2 ^ 63 then "Maximum allowed dimension exceeded"
  else "array is too big; `arr.size * arr.dtype.itemsize` is larger than the maximum possible size."

/-- `np.empty(count, dtype=object)`: eight bytes for each element. -/
def emptyArray (env : ReadEnv) (count : ℕ) : GgufReader Unit := fun left =>
  if count ≥ 2 ^ 60 then .error (.value (emptyMessage count))
  else if left.length < count ∧ env.grants (8 * count) = false then .error .memory
  else .ok ((), left)

/-- `Reader.read_value`. -/
def readValue (env : ReadEnv) (typeId : ℕ) : GgufReader PyValue :=
  if typeId ≠ 9 then readScalar env typeId
  else do
    let elementType ← readUInt env 4
    let count ← readUInt env 8
    if elementType = 8 then do
      let xs ← collect (readScalar env 8) count
      pure (.list xs)
    else do
      emptyArray env count
      let values ← collect (readScalar env elementType) count
      pure (.ndarray values)

/-! ## The file -/

/-- `TensorInfo`. -/
structure TensorInfo where
  name : String
  dims : List ℕ
  ggmlType : ℕ
  offset : ℕ
deriving DecidableEq, Repr

/-- `GgufFile`; the dictionary keeps the order in which its keys were first set. -/
structure GgufFile where
  path : String
  version : ℕ
  metadata : List (String × PyValue)
  tensors : List TensorInfo
  tensorDataOffset : ℤ
  alignment : ℤ

/-- `d[key] = value`. -/
def dictSet (d : List (String × PyValue)) (key : String) (value : PyValue) : List (String × PyValue) :=
  if key ∈ d.map Prod.fst then d.map fun entry => if entry.1 = key then (key, value) else entry
  else d ++ [(key, value)]

/-- What `read_gguf` stores of a value: an array becomes a summary, or a list with `keep_arrays`. -/
def storedValue (env : ReadEnv) : PyValue → PyValue
  | .ndarray xs =>
    if env.keepArrays then .list xs
    else .str ("<array len=" ++ toString xs.length ++ " dtype=object>")
  | value => value

/-- One iteration of the metadata loop. -/
def readPair (env : ReadEnv) (metadata : List (String × PyValue)) :
    GgufReader (List (String × PyValue)) := do
  let key ← readStr env
  let valueType ← readUInt env 4
  let value ← readValue env valueType
  pure (dictSet metadata key (storedValue env value))

/-- One iteration of the tensor loop. -/
def readTensor (env : ReadEnv) : GgufReader TensorInfo := do
  let name ← readStr env
  let ndims ← readUInt env 4
  let dims ← collect (readUInt env 8) ndims
  let ggmlType ← readUInt env 4
  let offset ← readUInt env 8
  pure ⟨name, dims, ggmlType, offset⟩

/-- The magic number of the format. -/
def magicBytes : List UInt8 := [0x47, 0x47, 0x55, 0x46]

/-- The magic number of a file. -/
def readMagic (env : ReadEnv) : GgufReader Unit := do
  let magic ← read env 4
  if magic ≠ magicBytes then
    throw (.value (env.path ++ " is not a GGUF file (magic=" ++ reprBytes magic ++ ")"))
  else pure ()

/-- Version, metadata and tensors: `read_gguf` up to the end of the tensor table. -/
def readTables (env : ReadEnv) : GgufReader (ℕ × List (String × PyValue) × List TensorInfo) := do
  readMagic env
  let version ← readUInt env 4
  let tensorCount ← readUInt env 8
  let metadataCount ← readUInt env 8
  let metadata ← loop (readPair env) metadataCount []
  let tensors ← collect (readTensor env) tensorCount
  pure (version, metadata, tensors)

/-- The contents of a file: an offset in it is an `off_t`. -/
structure FileBytes where
  bytes : List UInt8
  length_lt : bytes.length < 2 ^ 63

/-- `tensor_data_offset` for the end of the tensor table and an alignment other than zero. -/
def tensorDataOffset (position : ℕ) (alignment : ℤ) : ℤ :=
  let remainder := Int.fmod position alignment
  position + (if remainder ≠ 0 then alignment - remainder else 0)

/-- `read_gguf`. -/
def readGguf (env : ReadEnv) (file : FileBytes) : Except ReadError GgufFile :=
  match (readTables env).run file.bytes with
  | .error e => .error e
  | .ok ((version, metadata, tensors), left) =>
    match intOf env ((metadata.lookup "general.alignment").getD (.int 32)) with
    | .error e => .error e
    | .ok alignment =>
      -- `handle.tell()`
      let position := file.bytes.length - left.length
      if alignment = 0 then .error .zeroDivision
      else
        .ok
          { path := env.path
            version := version
            metadata := metadata
            tensors := tensors
            tensorDataOffset := tensorDataOffset position alignment
            alignment := alignment }

end Gguf

end SciAttention

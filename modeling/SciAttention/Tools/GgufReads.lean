import SciAttention.Tools.GgufFormat

/-!
# What the GGUF reader reads

Every function of the reader succeeds exactly on the texts of its part of a readable header, with
the values that it stands for; and an input is the text of one header at most.
-/

namespace SciAttention

namespace Gguf

open Wire
open LittleEndian (bytes)

variable {env : ReadEnv}

/-! ## Numbers and strings -/

/-- Numbers of so many bytes. -/
def uintFormat (size : ℕ) : Format UInt8 ℕ where
  valid n := n < 256 ^ size
  encode := bytes size
  cut _ := False

/-- What follows a length of `n`. -/
def contentFormat (env : ReadEnv) (n : ℕ) : Format UInt8 (List UInt8) where
  valid raw := n < 2 ^ 63 ∧ raw.length ≤ n ∧ (raw.length < n → env.grants n = true)
  encode raw := raw
  cut raw := raw.length < n

def strFormat (env : ReadEnv) : Format UInt8 RawStr := ⟨RawStr.Readable env, RawStr.encode, RawStr.Cut⟩

theorem reads_read (env : ReadEnv) (n : ℕ) : Reads (read env n) (contentFormat env n) id := by
  intro input raw rest
  have hrun : (read env n).run input =
      if n ≥ 2 ^ 63 then .error (.overflow "cannot fit 'int' into an index-sized integer")
      else if input.length < n ∧ env.grants n = false then .error .memory
      else .ok (input.take n, input.drop n) := rfl
  rw [hrun]
  constructor
  · intro h
    split_ifs at h with hn hshort
    obtain ⟨rfl, rfl⟩ := Prod.mk.inj (Except.ok.inj h)
    have hlen : (input.take n).length < n → input.length < n := by
      rw [List.length_take]
      omega
    refine ⟨input.take n, ⟨⟨not_le.1 hn, List.length_take_le .., fun hcut => ?_⟩,
      (List.take_append_drop n input).symm, fun hcut => List.drop_eq_nil_of_le (hlen hcut).le⟩, rfl⟩
    by_contra hgrant
    exact hshort ⟨hlen hcut, Bool.eq_false_iff.2 hgrant⟩
  · rintro ⟨raw, ⟨⟨hn, hle, hgrant⟩, heq, hcut⟩, rfl⟩
    obtain rfl : input = raw ++ rest := heq
    rw [if_neg hn.not_ge]
    rcases hle.lt_or_eq with hlt | rfl
    · obtain rfl := hcut hlt
      rw [if_neg (by simp [hgrant hlt]), List.append_nil, List.take_of_length_le hle,
        List.drop_of_length_le hle]
      rfl
    · rw [if_neg (by simp), List.take_left, List.drop_left]
      rfl

theorem reads_uint (env : ReadEnv) {size : ℕ} (hsize : size ≤ 8) :
    Reads (readUInt env size) (uintFormat size) id := by
  intro input n rest
  rw [readUInt, run_bind_eq_ok]
  constructor
  · rintro ⟨raw, mid, hraw, hn⟩
    obtain ⟨raw, ⟨-, rfl, -⟩, rfl⟩ := (reads_read env size _ _ _).1 hraw
    simp only [id_eq] at hn
    split_ifs at hn with hlen
    · cases hn
    · obtain ⟨rfl, rfl⟩ := Prod.mk.inj (Except.ok.inj hn)
      rw [not_not] at hlen
      refine ⟨LittleEndian.value raw, ⟨hlen ▸ LittleEndian.value_lt raw, ?_, False.elim⟩, rfl⟩
      subst hlen
      exact congrArg (· ++ _) (LittleEndian.bytes_value raw).symm
  · rintro ⟨n, ⟨hn, rfl, -⟩, rfl⟩
    have hlen : (bytes size n).length = size := LittleEndian.length_bytes size n
    have htext : (contentFormat env size).Text (bytes size n) (bytes size n ++ rest) rest :=
      ⟨⟨by omega, hlen.le, fun hlt => absurd hlt hlen.not_lt⟩, rfl, fun hlt => absurd hlt hlen.not_lt⟩
    refine ⟨_, _, (reads_read env size).of_text htext, ?_⟩
    rw [id_eq, if_neg (not_not.2 hlen), LittleEndian.value_bytes hn]
    rfl

theorem unique_uint (env : ReadEnv) {size : ℕ} (hsize : size ≤ 8) : (uintFormat size).Unique :=
  (reads_uint env hsize).unique fun _ _ h => h

theorem str_image (env : ReadEnv) :
    ((uintFormat 8).bind (contentFormat env)).Image (fun p => ⟨p.1, p.2⟩) (strFormat env) where
  valid_of := fun _ h => ⟨h.2.1.1, h.2.1.2.1, h.2.1.2.2⟩
  encode_eq := fun _ _ => rfl
  cut_iff := fun _ _ => (or_iff_right not_false).symm
  exists_of := fun s h => by
    have hlength : s.length < 256 ^ 8 := by
      have := h.length_lt
      omega
    exact ⟨(s.length, s.content), ⟨hlength, ⟨h.length_lt, h.content_le, h.granted⟩, False.elim⟩,
      rfl⟩

theorem reads_str (env : ReadEnv) : Reads (readStr env) (strFormat env) fun s => decodeUtf8 s.content :=
  Reads.image ((reads_uint env le_rfl).bind fun n _ => (reads_read env n).map decodeUtf8) (str_image env)
    fun _ _ => rfl

theorem unique_str (env : ReadEnv) : (strFormat env).Unique :=
  ((unique_uint env le_rfl).bind fun n _ => (reads_read env n).unique fun _ _ h => h).image (str_image env)

theorem RawStr.encode_ne_nil (s : RawStr) : s.encode ≠ [] := by
  refine List.ne_nil_of_length_pos ?_
  rw [encode, List.length_append, LittleEndian.length_bytes]
  omega

/-! ## Values -/

theorem ggufMetadataTypes_eq_str {typeId : ℕ} : ggufMetadataTypes typeId = some .str ↔ typeId = 8 := by
  unfold ggufMetadataTypes
  split <;> simp_all

theorem FixedType.size_pos (type : FixedType) : 0 < type.size := by cases type <;> decide

theorem FixedType.size_le (type : FixedType) : type.size ≤ 8 := by cases type <;> decide

def scalarFormat (env : ReadEnv) (typeId : ℕ) : Format UInt8 Body :=
  ⟨Body.ScalarReadable env typeId, Body.encode, Body.ScalarCut⟩

def bodyFormat (env : ReadEnv) (typeId : ℕ) : Format UInt8 Body :=
  ⟨Body.Readable env typeId, Body.encode, Body.Cut⟩

/-- Numbers of a fixed type. -/
theorem fixed_image (env : ReadEnv) {typeId : ℕ} {type : FixedType}
    (htype : ggufMetadataTypes typeId = some (.fixed type)) :
    (uintFormat type.size).Image (fun n => .fixed type (bytes type.size n)) (scalarFormat env typeId) where
  valid_of := fun n _ => ⟨htype, LittleEndian.length_bytes _ n⟩
  encode_eq := fun _ _ => rfl
  cut_iff := fun _ _ => Iff.rfl
  exists_of := fun b hb => by
    cases b with
    | fixed type' raw =>
      obtain ⟨htype', hraw⟩ := hb
      obtain rfl : type' = type := MetadataType.fixed.inj (Option.some.inj (htype'.symm.trans htype))
      refine ⟨LittleEndian.value raw, hraw ▸ LittleEndian.value_lt raw, congrArg (Body.fixed type') ?_⟩
      rw [← hraw]
      exact LittleEndian.bytes_value raw
    | str s =>
      have hstr := ggufMetadataTypes_eq_str.2 hb.1
      rw [htype] at hstr
      cases hstr
    | arr elementType elements => exact hb.elim

/-- Strings. -/
theorem scalarStr_image (env : ReadEnv) : (strFormat env).Image Body.str (scalarFormat env 8) where
  valid_of := fun _ hs => ⟨rfl, hs⟩
  encode_eq := fun _ _ => rfl
  cut_iff := fun _ _ => Iff.rfl
  exists_of := fun b hb => by
    cases b with
    | fixed type raw => cases hb.1
    | str s => exact ⟨s, hb.2, rfl⟩
    | arr elementType elements => exact hb.elim

/-- No scalar is of an unknown type, and none is an array. -/
theorem not_scalarReadable {typeId : ℕ}
    (h : ggufMetadataTypes typeId = none ∨ ggufMetadataTypes typeId = some .arr)
    (b : Body) : ¬ b.ScalarReadable env typeId := by
  cases b with
  | fixed type raw =>
    rintro ⟨htype, -⟩
    rw [htype] at h
    rcases h with h | h <;> cases h
  | str s =>
    rintro ⟨rfl, -⟩
    rcases h with h | h <;> cases h
  | arr elementType elements => exact fun hb => hb

theorem reads_scalar (env : ReadEnv) (typeId : ℕ) :
    Reads (readScalar env typeId) (scalarFormat env typeId) Body.value := by
  cases htype : ggufMetadataTypes typeId with
  | none =>
    refine Reads.of_fails (fun input => ⟨.key typeId, ?_⟩) (not_scalarReadable (.inl htype))
    rw [readScalar, htype]
    rfl
  | some row =>
    cases row with
    | fixed type =>
      have hread : readScalar env typeId = readUInt env type.size >>= fun n => pure (type.unpacked n) := by
        rw [readScalar, htype]
      rw [hread]
      refine ((reads_uint env type.size_le).map type.unpacked).image (fixed_image env htype) fun n hn => ?_
      rw [Body.value, LittleEndian.value_bytes hn]
      rfl
    | str =>
      obtain rfl := ggufMetadataTypes_eq_str.1 htype
      exact ((reads_str env).map PyValue.str).image (scalarStr_image env) fun s _ => by rw [Body.value]
    | arr =>
      refine Reads.of_fails (fun input => ⟨.value "array must be read through read_value", ?_⟩)
        (not_scalarReadable (.inr htype))
      rw [readScalar, htype]
      rfl

theorem unique_scalar (env : ReadEnv) (typeId : ℕ) : (scalarFormat env typeId).Unique := by
  cases htype : ggufMetadataTypes typeId with
  | none => exact fun a _ _ _ _ ha _ => absurd ha.valid (not_scalarReadable (.inl htype) a)
  | some row =>
    cases row with
    | fixed type => exact (unique_uint env type.size_le).image (fixed_image env htype)
    | str =>
      obtain rfl := ggufMetadataTypes_eq_str.1 htype
      exact (unique_str env).image (scalarStr_image env)
    | arr => exact fun a _ _ _ _ ha _ => absurd ha.valid (not_scalarReadable (.inr htype) a)

theorem scalar_encode_ne_nil {typeId : ℕ} (b : Body) (hb : b.ScalarReadable env typeId) :
    b.encode ≠ [] := by
  cases b with
  | fixed type raw =>
    rw [Body.encode]
    exact List.ne_nil_of_length_pos (hb.2 ▸ type.size_pos)
  | str s =>
    rw [Body.encode]
    exact s.encode_ne_nil
  | arr elementType elements => exact hb.elim

/-! ## Arrays -/

/-- The elements of an array of so many. -/
def elementsFormat (env : ReadEnv) (elementType count : ℕ) : Format UInt8 (List Body) :=
  ((scalarFormat env elementType).repeated count).restrict fun _ => elementType ≠ 8 → count < 2 ^ 60

/-- An array of a known element type and length. -/
def readElements (env : ReadEnv) (elementType count : ℕ) : GgufReader PyValue :=
  if elementType = 8 then do
    let xs ← collect (readScalar env 8) count
    pure (.list xs)
  else do
    emptyArray env count
    let values ← collect (readScalar env elementType) count
    pure (.ndarray values)

/-- `np.empty` succeeds before elements that are all there. -/
theorem run_emptyArray_bind {V : Type} {count : ℕ} {k : Unit → GgufReader V} {input : List UInt8} :
    (emptyArray env count >>= k).run input =
      if count ≥ 2 ^ 60 then .error (.value (emptyMessage count))
      else if input.length < count ∧ env.grants (8 * count) = false then .error .memory
      else (k ()).run input := by
  have hrun : (emptyArray env count >>= k).run input = (emptyArray env count input).bind fun p =>
    (k p.1).run p.2 :=
    rfl
  rw [hrun, emptyArray]
  split_ifs <;> rfl

theorem reads_elements (env : ReadEnv) (elementType count : ℕ) :
    Reads (readElements env elementType count) (elementsFormat env elementType count) fun es =>
      if elementType = 8 then .list (Body.values es) else .ndarray (Body.values es) := by
  have hcollect := (reads_scalar env elementType).collect count
  intro input v rest
  simp only [elementsFormat, Format.text_restrict, Body.values_eq]
  by_cases h8 : elementType = 8
  · subst h8
    simp only [readElements, if_true, ne_eq, not_true_eq_false, false_imp_iff, true_and]
    exact hcollect.map PyValue.list input v rest
  · rw [readElements, if_neg h8, run_emptyArray_bind]
    simp only [ne_eq, h8, not_false_eq_true, true_imp_iff]
    have hmap := hcollect.map PyValue.ndarray input v rest
    constructor
    · intro h
      split_ifs at h with hbig hmemory
      obtain ⟨es, hes, hv⟩ := hmap.1 h
      exact ⟨es, ⟨not_le.1 hbig, hes⟩, hv⟩
    · rintro ⟨es, ⟨hbig, hes⟩, hv⟩
      have hlen := hes.length_le scalar_encode_ne_nil
      rw [if_neg (not_le.2 hbig), if_neg fun hmemory => hmemory.1.not_ge hlen]
      exact hmap.2 ⟨es, hes, hv⟩

theorem arr_image (env : ReadEnv) :
    ((uintFormat 4).bind fun elementType => (uintFormat 8).bind fun count =>
        elementsFormat env elementType count).Image (fun p => Body.arr p.1 p.2.2) (bodyFormat env 9) where
  valid_of := by
    rintro ⟨elementType, count, es⟩ ⟨htype, ⟨hcount, ⟨halloc, hes⟩, -⟩, -⟩
    obtain ⟨hlen, hall, hpair⟩ := (Format.valid_repeated_iff scalar_encode_ne_nil).1 hes
    obtain rfl : es.length = count := hlen
    exact ⟨rfl, htype, hcount, halloc, hall, hpair⟩
  encode_eq := by
    rintro ⟨elementType, count, es⟩ ⟨-, ⟨-, ⟨-, hlen, -⟩, -⟩, -⟩
    obtain rfl : es.length = count := hlen
    simp only [bodyFormat, Body.encode, Body.encodeAll_eq]
    rfl
  cut_iff := by
    rintro ⟨elementType, count, es⟩ -
    exact (or_iff_right not_false).trans (or_iff_right not_false) |>.symm
  exists_of := fun b hb => by
    cases b with
    | fixed type raw => cases hb.1
    | str s => cases hb.1
    | arr elementType es =>
      obtain ⟨-, htype, hlen, halloc, hall, hpair⟩ := hb
      refine ⟨(elementType, es.length, es),
        ⟨htype, ⟨hlen, ⟨halloc, ?_⟩, False.elim⟩, False.elim⟩, rfl⟩
      exact (Format.valid_repeated_iff scalar_encode_ne_nil).2 ⟨rfl, hall, hpair⟩

/-- Other values are scalars. -/
theorem scalar_image (env : ReadEnv) {typeId : ℕ} (h9 : typeId ≠ 9) :
    (scalarFormat env typeId).Image id (bodyFormat env typeId) where
  valid_of := fun b hb => by
    cases b with
    | fixed type raw => exact hb
    | str s => exact hb
    | arr elementType es => exact hb.elim
  encode_eq := fun _ _ => rfl
  cut_iff := fun b hb => by
    cases b with
    | fixed type raw => exact Iff.rfl
    | str s => exact Iff.rfl
    | arr elementType es => exact hb.elim
  exists_of := fun b hb => by
    cases b with
    | fixed type raw => exact ⟨.fixed type raw, hb, rfl⟩
    | str s => exact ⟨.str s, hb, rfl⟩
    | arr elementType es => exact absurd hb.1 h9

theorem reads_value (env : ReadEnv) (typeId : ℕ) :
    Reads (readValue env typeId) (bodyFormat env typeId) Body.value := by
  by_cases h9 : typeId = 9
  · subst h9
    have hread : readValue env 9 = readUInt env 4 >>= fun elementType => readUInt env 8 >>= fun count =>
        readElements env elementType count := rfl
    rw [hread]
    refine Reads.image ((reads_uint env (by decide)).bind fun elementType _ =>
      (reads_uint env le_rfl).bind fun count _ => reads_elements env elementType count) (arr_image env) ?_
    rintro ⟨elementType, count, es⟩ -
    exact Body.value.eq_3 elementType es
  · rw [readValue, if_pos h9]
    exact (reads_scalar env typeId).image (scalar_image env h9) fun _ _ => rfl

theorem unique_body (env : ReadEnv) (typeId : ℕ) : (bodyFormat env typeId).Unique := by
  by_cases h9 : typeId = 9
  · subst h9
    exact ((unique_uint env (by decide)).bind fun elementType _ => (unique_uint env le_rfl).bind
      fun count _ =>
      ((unique_scalar env elementType).repeated count).restrict _).image (arr_image env)
  · exact (unique_scalar env typeId).image (scalar_image env h9)

/-! ## Tables -/

def pairFormat (env : ReadEnv) : Format UInt8 Pair :=
  ⟨Pair.Readable env, Pair.encode, fun p => p.body.Cut⟩

def tensorFormat (env : ReadEnv) : Format UInt8 TensorRecord :=
  ⟨TensorRecord.Readable env, TensorRecord.encode, fun _ => False⟩

def headerFormat (env : ReadEnv) : Format UInt8 Header := ⟨Header.Readable env, Header.encode, Header.Cut⟩

/-- The texts of numbers are not empty. -/
theorem bytes_append_ne_nil {size n : ℕ} (hsize : 0 < size) (raw : List UInt8) :
    bytes size n ++ raw ≠ [] := by
  refine List.ne_nil_of_length_pos ?_
  rw [List.length_append, LittleEndian.length_bytes]
  omega

theorem pair_image (env : ReadEnv) :
    ((strFormat env).bind fun _ => (uintFormat 4).bind fun valueType => bodyFormat env valueType).Image
      (fun p => ⟨p.1, p.2.1, p.2.2⟩) (pairFormat env) where
  valid_of := by
    rintro ⟨key, valueType, body⟩ ⟨hkey, ⟨htype, hbody, -⟩, hcut⟩
    exact ⟨hkey, fun h => bytes_append_ne_nil (by decide) _ (hcut h), htype, hbody⟩
  encode_eq := fun _ _ => rfl
  cut_iff := by
    rintro ⟨key, valueType, body⟩ ⟨-, -, hcut⟩
    have hkey : ¬ (strFormat env).cut key := fun h => bytes_append_ne_nil (by decide) _ (hcut h)
    exact ((or_iff_right hkey).trans (or_iff_right not_false)).symm
  exists_of := fun p hp =>
    ⟨(p.key, p.valueType, p.body),
      ⟨hp.key, ⟨hp.type_lt, hp.body, False.elim⟩, fun h => absurd h hp.key_complete⟩,
      rfl⟩

/-- One iteration of the metadata loop reads a pair and sets its entry. -/
theorem reads_pair (env : ReadEnv) (metadata : List (String × PyValue)) :
    Reads (readPair env metadata) (pairFormat env) fun p => dictSet metadata (p.entry env).1
      (p.entry env).2 :=
  Reads.image ((reads_str env).bind fun key _ => (reads_uint env (by decide)).bind fun valueType _ =>
      (reads_value env valueType).map fun value =>
        dictSet metadata (decodeUtf8 key.content) (storedValue env value)) (pair_image env) fun _ _ => rfl

theorem unique_pair (env : ReadEnv) : (pairFormat env).Unique :=
  ((unique_str env).bind fun _ _ => (unique_uint env (by decide)).bind fun valueType _ =>
    unique_body env valueType).image (pair_image env)

theorem tensor_image (env : ReadEnv) :
    ((strFormat env).bind fun _ => (uintFormat 4).bind fun ndims =>
      ((uintFormat 8).repeated ndims).bind fun _ =>
        (uintFormat 4).bind fun _ => uintFormat 8).Image
      (fun p => ⟨p.1, p.2.2.1, p.2.2.2.1, p.2.2.2.2⟩) (tensorFormat env) where
  valid_of := by
    rintro ⟨name, ndims, dims, ggmlType, offset⟩
      ⟨hname, ⟨hndims, ⟨⟨hlen, hdims, -⟩, ⟨htype, hoffset, -⟩, -⟩, -⟩, hcut⟩
    obtain rfl : dims.length = ndims := hlen
    exact ⟨hname, fun h => bytes_append_ne_nil (by decide) _ (hcut h), hndims, hdims, htype, hoffset⟩
  encode_eq := by
    rintro ⟨name, ndims, dims, ggmlType, offset⟩ ⟨-, ⟨-, ⟨⟨hlen, -⟩, -⟩, -⟩, -⟩
    obtain rfl : dims.length = ndims := hlen
    rfl
  cut_iff := by
    rintro ⟨name, ndims, dims, ggmlType, offset⟩ ⟨-, -, hcut⟩
    have hname : ¬ (strFormat env).cut name := fun h => bytes_append_ne_nil (by decide) _ (hcut h)
    simp [tensorFormat, Format.bind, Format.repeated, uintFormat, hname]
  exists_of := fun t ht => by
    refine ⟨(t.name, t.dims.length, t.dims, t.ggmlType, t.offset),
      ⟨ht.name, ⟨ht.ndims_lt, ⟨⟨rfl, ht.dims_lt, ?_⟩,
      ⟨ht.ggmlType_lt, ht.offset_lt, False.elim⟩, ?_⟩, False.elim⟩,
        fun h => absurd h ht.name_complete⟩, rfl⟩
    · exact List.pairwise_of_forall fun _ _ h => h.elim
    · exact fun h => h.elim fun _ h => h.2.elim

theorem reads_tensor (env : ReadEnv) : Reads (readTensor env) (tensorFormat env) TensorRecord.info := by
  refine Reads.image ((reads_str env).bind fun name _ => (reads_uint env (by decide)).bind fun ndims _ =>
    ((reads_uint env le_rfl).collect ndims).bind fun dims _ => (reads_uint env (by decide)).bind
      fun ggmlType _ =>
      (reads_uint env le_rfl).map fun offset => TensorInfo.mk (decodeUtf8 name.content) _ ggmlType offset)
    (tensor_image env) ?_
  rintro ⟨name, ndims, dims, ggmlType, offset⟩ -
  exact congrArg (TensorInfo.mk _ · _ _) (List.map_id dims).symm

theorem unique_tensor (env : ReadEnv) : (tensorFormat env).Unique :=
  ((unique_str env).bind fun _ _ => (unique_uint env (by decide)).bind fun ndims _ =>
    ((unique_uint env le_rfl).repeated ndims).bind fun _ _ => (unique_uint env (by decide)).bind fun _ _ =>
      unique_uint env le_rfl).image (tensor_image env)

/-! ## Headers -/

def magicFormat : Format UInt8 Unit := ⟨fun _ => True, fun _ => magicBytes, fun _ => False⟩

theorem reads_magic (env : ReadEnv) : Reads (readMagic env) magicFormat id := by
  intro input v rest
  rw [readMagic, run_bind_eq_ok]
  constructor
  · rintro ⟨raw, mid, hraw, hv⟩
    obtain ⟨raw, ⟨-, rfl, -⟩, rfl⟩ := (reads_read env 4 _ _ _).1 hraw
    simp only [id_eq] at hv
    split_ifs at hv with hmagic
    · cases hv
    · obtain ⟨-, rfl⟩ := Prod.mk.inj (Except.ok.inj hv)
      exact ⟨(), ⟨trivial, congrArg (· ++ _) (not_not.1 hmagic), False.elim⟩, rfl⟩
  · rintro ⟨_, ⟨_, rfl, _⟩, rfl⟩
    have htext : (contentFormat env 4).Text magicBytes (magicBytes ++ rest) rest :=
      ⟨⟨by decide, le_rfl, fun hlt => absurd hlt (Nat.lt_irrefl 4)⟩, rfl,
        fun hlt => absurd hlt (Nat.lt_irrefl 4)⟩
    exact ⟨_, _, (reads_read env 4).of_text htext, rfl⟩

theorem pair_encode_ne_nil (p : Pair) (_ : p.Readable env) : p.encode ≠ [] :=
  List.append_ne_nil_of_left_ne_nil p.key.encode_ne_nil _

theorem tensor_encode_ne_nil (t : TensorRecord) (_ : t.Readable env) : t.encode ≠ [] :=
  List.append_ne_nil_of_left_ne_nil t.name.encode_ne_nil _

/-- The tables behind the counts. -/
def tablesFormat (env : ReadEnv) (tensorCount metadataCount : ℕ) :
    Format UInt8 (List Pair × List TensorRecord) :=
  ((pairFormat env).repeated metadataCount).bind fun _ => (tensorFormat env).repeated tensorCount

theorem header_image (env : ReadEnv) :
    (magicFormat.bind fun _ => (uintFormat 4).bind fun _ => (uintFormat 8).bind fun tensorCount =>
        (uintFormat 8).bind fun metadataCount => tablesFormat env tensorCount metadataCount).Image
      (fun p => ⟨p.2.1, p.2.2.2.2.1, p.2.2.2.2.2⟩) (headerFormat env) where
  valid_of := by
    rintro ⟨_, version, tensorCount, metadataCount, pairs, tensors⟩
      ⟨-, ⟨hversion, ⟨htensors, ⟨hpairs, ⟨hps, hts, hcut⟩, -⟩, -⟩, -⟩, -⟩
    have hnil := Format.encode_repeated_eq_nil tensor_encode_ne_nil hts
    obtain ⟨hplen, hpall, hpair⟩ := (Format.valid_repeated_iff pair_encode_ne_nil).1 hps
    obtain ⟨htlen, htall, -⟩ := hts
    obtain rfl : pairs.length = metadataCount := hplen
    obtain rfl : tensors.length = tensorCount := htlen
    exact ⟨hversion, hpairs, htensors, hpall, htall, hpair, fun h => hnil.1 (hcut h)⟩
  encode_eq := by
    rintro ⟨_, version, tensorCount, metadataCount, pairs, tensors⟩
      ⟨-, ⟨-, ⟨-, ⟨-, ⟨⟨hplen, -⟩, ⟨htlen, -⟩, -⟩, -⟩, -⟩, -⟩, -⟩
    obtain rfl : pairs.length = metadataCount := hplen
    obtain rfl : tensors.length = tensorCount := htlen
    rfl
  cut_iff := by
    rintro ⟨_, version, tensorCount, metadataCount, pairs, tensors⟩ -
    simp [headerFormat, Header.Cut, Format.bind, Format.repeated, magicFormat, uintFormat,
      tablesFormat, pairFormat,
      tensorFormat]
  exists_of := fun header h => by
    have hts : ((tensorFormat env).repeated header.tensors.length).valid header.tensors :=
      ⟨rfl, h.tensors, List.pairwise_of_forall fun _ _ hcut => hcut.elim⟩
    refine ⟨((), header.version, header.tensors.length, header.pairs.length, header.pairs, header.tensors),
      ⟨trivial,
        ⟨h.version_lt, ⟨h.tensors_lt, ⟨h.pairs_lt, ⟨?_, hts, fun hcut => ?_⟩, False.elim⟩,
          False.elim⟩,
        False.elim⟩, False.elim⟩, rfl⟩
    · exact (Format.valid_repeated_iff pair_encode_ne_nil).2 ⟨rfl, h.pairs, h.cut_last⟩
    · exact (Format.encode_repeated_eq_nil tensor_encode_ne_nil hts).2 (h.cut_tensors hcut)

/-- The dictionary after the metadata loop. -/
def Header.metadata (env : ReadEnv) (header : Header) : List (String × PyValue) :=
  header.pairs.foldl (fun d p => dictSet d (p.entry env).1 (p.entry env).2) []

theorem reads_tables (env : ReadEnv) :
    Reads (readTables env) (headerFormat env) fun header =>
      (header.version, header.metadata env, header.tensors.map TensorRecord.info) :=
  Reads.image ((reads_magic env).bind fun _ _ => (reads_uint env (by decide)).bind fun version _ =>
    (reads_uint env le_rfl).bind fun tensorCount _ => (reads_uint env le_rfl).bind fun metadataCount _ =>
      (Reads.loop (reads_pair env) metadataCount []).bind fun _ _ =>
        ((reads_tensor env).collect tensorCount).map fun tensors => (version, _, tensors)) (header_image env)
    fun _ _ => rfl

theorem unique_header (env : ReadEnv) : (headerFormat env).Unique :=
  (Format.Unique.bind ((reads_magic env).unique fun _ _ h => h) fun _ _ =>
    (unique_uint env (by decide)).bind fun _ _ => (unique_uint env le_rfl).bind fun tensorCount _ =>
      (unique_uint env le_rfl).bind fun metadataCount _ =>
        ((unique_pair env).repeated metadataCount).bind fun _ _ =>
        (unique_tensor env).repeated tensorCount).image (header_image env)

end Gguf

end SciAttention

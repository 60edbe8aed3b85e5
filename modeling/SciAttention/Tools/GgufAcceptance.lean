import SciAttention.Tools.GgufReads
import Mathlib.Order.Bounds.Basic
import Mathlib.Tactic.Linarith

/-!
# Which files `read_gguf` accepts

`read_gguf` accepts a file exactly when it is the text of a readable header whose alignment is not
zero. The headers of the format with a positive alignment are among them, with two exceptions: an
array of arrays that is not empty, and an array that `np.empty` cannot make. Accepted besides are
a string at the end of the header that the file cuts short, an empty array of an unknown element
type, and a negative alignment.
-/

namespace SciAttention

namespace Gguf

open Wire
open LittleEndian (bytes)

variable {env : ReadEnv}

/-! ## The result -/

theorem lookup_map_set (d : List (String × PyValue)) (key key' : String) (value : PyValue) :
    (d.map fun entry => if entry.1 = key then (key, value) else entry).lookup key' =
      if key' = key then (if key ∈ d.map Prod.fst then some value else none) else d.lookup key' := by
  induction d with
  | nil => simp
  | cons entry d ih =>
    obtain ⟨k, v⟩ := entry
    rw [List.map_cons, List.map_cons, List.lookup_cons, List.lookup_cons, ih]
    by_cases hk : k = key
    · subst hk
      by_cases hkey : key' = k
      · simp [hkey]
      · have hne : (key' == k) = false := beq_eq_false_iff_ne.2 hkey
        simp [hkey, hne]
    · by_cases hkey : key' = key
      · subst hkey
        have hne : (key' == k) = false := beq_eq_false_iff_ne.2 (Ne.symm hk)
        have hmem : key' ∈ k :: d.map Prod.fst ↔ key' ∈ d.map Prod.fst :=
          List.mem_cons.trans (or_iff_right (Ne.symm hk))
        simp only [hk, if_false, hne, if_true, if_congr hmem rfl rfl]
      · simp [hk, hkey]

/-- A dictionary after an assignment. -/
theorem lookup_dictSet (d : List (String × PyValue)) (key key' : String) (value : PyValue) :
    (dictSet d key value).lookup key' = if key' = key then some value else d.lookup key' := by
  unfold dictSet
  split_ifs with hmem hkey hkey
  · rw [lookup_map_set, if_pos hkey, if_pos hmem]
  · rw [lookup_map_set, if_neg hkey]
  · subst hkey
    have hnone : d.lookup key' = none := by
      rw [List.lookup_eq_none_iff]
      intro entry hentry
      have hne : key' ≠ entry.1 := fun heq => hmem (heq ▸ List.mem_map_of_mem hentry)
      simpa using hne
    simp [List.lookup_append, hnone]
  · have hne : (key' == key) = false := beq_eq_false_iff_ne.2 hkey
    simp [List.lookup_append, List.lookup_cons, hne]

/-- The metadata are those of the last pair of each key. -/
theorem Header.lookup_metadata (env : ReadEnv) (header : Header) (key : String) :
    (header.metadata env).lookup key = header.entry env key := by
  have hfold (ps : List Pair) (d : List (String × PyValue)) :
      (ps.foldl (fun d p => dictSet d (p.entry env).1 (p.entry env).2) d).lookup key =
        ((ps.map (Pair.entry env)).reverse.lookup key).or (d.lookup key) := by
    induction ps generalizing d with
    | nil => rfl
    | cons p ps ih =>
      rw [List.foldl_cons, ih, lookup_dictSet, List.map_cons, List.reverse_cons, List.lookup_append,
        Option.or_assoc, List.lookup_cons]
      by_cases hkey : key = (p.entry env).1
      · simp [hkey]
      · have hne : (key == (p.entry env).1) = false := beq_eq_false_iff_ne.2 hkey
        simp [hkey, hne]
  rw [metadata, hfold, entry]
  exact Option.or_none

/-- For a positive alignment the data offset is the least multiple from the position on. -/
theorem tensorDataOffset_isLeast (position : ℕ) {alignment : ℤ} (hpos : 0 < alignment) :
    IsLeast {m : ℤ | position ≤ m ∧ alignment ∣ m} (tensorDataOffset position alignment) := by
  have hmod : Int.fmod position alignment = position % alignment := Int.fmod_eq_emod_of_nonneg _ hpos.le
  have hdiv := Int.mul_ediv_add_emod (position : ℤ) alignment
  have hlt := Int.emod_lt_of_pos (position : ℤ) hpos
  have hnonneg := Int.emod_nonneg (position : ℤ) hpos.ne'
  simp only [tensorDataOffset, hmod]
  by_cases hzero : (position : ℤ) % alignment = 0
  · rw [if_neg (not_not.2 hzero), add_zero]
    exact ⟨⟨le_rfl, Int.dvd_of_emod_eq_zero hzero⟩, fun m hm => hm.1⟩
  · rw [if_pos hzero]
    have hnext : (position : ℤ) + (alignment - position % alignment) =
        alignment * (position / alignment + 1) := by
      rw [mul_add, mul_one]
      linarith
    refine ⟨⟨by omega, hnext ▸ Dvd.intro _ rfl⟩, ?_⟩
    rintro m ⟨hle, k, rfl⟩
    rw [hnext]
    -- a smaller multiple lies at the last one before the position, or below it
    by_contra hlow
    have hk : k < position / alignment + 1 := lt_of_mul_lt_mul_left (not_le.1 hlow) hpos.le
    have hmul : alignment * k ≤ alignment * (position / alignment) :=
      mul_le_mul_of_nonneg_left (by omega) hpos.le
    omega

/-- The result for a header and its alignment. -/
def Header.file (env : ReadEnv) (header : Header) (alignment : ℤ) : GgufFile where
  path := env.path
  version := header.version
  metadata := header.metadata env
  tensors := header.tensors.map TensorRecord.info
  tensorDataOffset := tensorDataOffset header.encode.length alignment
  alignment := alignment

theorem Header.describes_file {header : Header} {alignment : ℤ}
    (halign : header.alignment env = .ok alignment)
    (hpos : 0 < alignment) : header.Describes env (header.file env alignment) :=
  ⟨rfl, header.lookup_metadata env, rfl, halign, tensorDataOffset_isLeast _ hpos⟩

/-- The file is read as the header. -/
structure Header.ReadFrom (env : ReadEnv) (file : FileBytes) (header : Header) (alignment : ℤ) : Prop where
  text : ∃ left, (headerFormat env).Text header file.bytes left
  alignment_eq : header.alignment env = .ok alignment
  alignment_ne : alignment ≠ 0

theorem readGguf_eq_ok {file : FileBytes} {g : GgufFile} :
    readGguf env file = .ok g ↔
      ∃ (header : Header) (alignment : ℤ), header.ReadFrom env file alignment ∧
      g = header.file env alignment := by
  have hrest {header : Header} {left : List UInt8} (h : (headerFormat env).Text header file.bytes left) :
      file.bytes.length - left.length = header.encode.length := by
    have hlen : file.bytes.length = header.encode.length + left.length :=
      (congrArg List.length h.eq_append).trans List.length_append
    omega
  constructor
  · intro h
    unfold readGguf at h
    cases htables : (readTables env).run file.bytes with
    | error e =>
      rw [htables] at h
      cases h
    | ok tables =>
      obtain ⟨tables, left⟩ := tables
      obtain ⟨header, htext, rfl⟩ := (reads_tables env _ _ _).1 htables
      rw [htables] at h
      simp only [header.lookup_metadata] at h
      cases halign : header.alignment env with
      | error e =>
        rw [Header.alignment] at halign
        rw [halign] at h
        cases h
      | ok alignment =>
        have hint := halign
        rw [Header.alignment] at hint
        rw [hint] at h
        simp only at h
        split_ifs at h with hzero
        obtain rfl := Except.ok.inj h
        refine ⟨header, alignment, ⟨⟨left, htext⟩, halign, hzero⟩, ?_⟩
        rw [Header.file, hrest htext]
  · rintro ⟨header, alignment, ⟨⟨left, htext⟩, halign, hne⟩, rfl⟩
    rw [Header.alignment] at halign
    unfold readGguf
    rw [(reads_tables env).of_text htext]
    simp only [header.lookup_metadata, halign, if_neg hne, hrest htext]
    rfl

/-- A file is read as one header. -/
theorem Header.ReadFrom.unique {file : FileBytes} {header header' : Header} {alignment alignment' : ℤ}
    (h : header.ReadFrom env file alignment) (h' : header'.ReadFrom env file alignment') :
    header = header' := by
  obtain ⟨left, htext⟩ := h.text
  obtain ⟨left', htext'⟩ := h'.text
  exact unique_header env _ _ _ _ _ htext htext'

/-! ## Headers of the format that are not readable -/

/-- An array that `read_value` refuses: of arrays, or longer than `np.empty` allows. -/
def Body.Refused : Body → Prop
  | .arr elementType elements => (elementType = 9 ∧ elements ≠ []) ∨
    (elementType ≠ 8 ∧ 2 ^ 60 ≤ elements.length)
  | _ => False

def Header.Refused (header : Header) : Prop := ∃ p ∈ header.pairs, p.body.Refused

theorem length_encode_le_flatMap {A : Type*} (encode : A → List UInt8) {a : A} {as : List A}
    (h : a ∈ as) :
    (encode a).length ≤ (as.flatMap encode).length := by
  obtain ⟨bs, cs, rfl⟩ := List.append_of_mem h
  rw [List.flatMap_append, List.flatMap_cons, List.length_append, List.length_append]
  omega

theorem ggufMetadataTypes_lt {typeId : ℕ} (h : (ggufMetadataTypes typeId).isSome) : typeId < 2 ^ 32 := by
  unfold ggufMetadataTypes at h
  split at h <;> first | omega | cases h

theorem Body.WellFormed.type_isSome {typeId : ℕ} {b : Body} (h : b.WellFormed typeId) :
    (ggufMetadataTypes typeId).isSome := by
  cases h with
  | fixed htype _ =>
    rw [htype]
    rfl
  | str _ => rfl
  | arr _ _ _ => rfl

theorem RawStr.Complete.not_cut {s : RawStr} (h : s.Complete) : ¬ s.Cut := h.1.not_lt

theorem RawStr.Complete.readable {s : RawStr} (h : s.Complete) (hlen : s.encode.length < 2 ^ 63) :
    s.Readable env := by
  refine ⟨?_, h.1.le, fun hcut => absurd hcut h.not_cut⟩
  rw [encode, List.length_append, LittleEndian.length_bytes, h.1] at hlen
  omega

/-- Numbers and strings are readable. -/
theorem Body.WellFormed.scalarReadable {typeId : ℕ} {b : Body} (h : b.WellFormed typeId) (h9 : typeId ≠ 9)
    (hlen : b.encode.length < 2 ^ 63) : b.ScalarReadable env typeId ∧ ¬ b.ScalarCut := by
  cases h with
  | fixed htype hraw => exact ⟨⟨htype, hraw⟩, id⟩
  | str hs =>
    rw [Body.encode] at hlen
    exact ⟨⟨rfl, hs.readable hlen⟩, hs.not_cut⟩
  | arr _ _ _ => exact absurd rfl h9

/-- A body of the format is readable unless it is refused. -/
theorem Body.WellFormed.readable (env : ReadEnv) {typeId : ℕ} {b : Body} (h : b.WellFormed typeId)
    (hrefused : ¬ b.Refused) (hlen : b.encode.length < 2 ^ 63) : b.Readable env typeId ∧ ¬ b.Cut := by
  cases h with
  | fixed htype hraw => exact ⟨⟨htype, hraw⟩, id⟩
  | str hs =>
    rw [Body.encode] at hlen
    exact ⟨⟨rfl, hs.readable hlen⟩, hs.not_cut⟩
  | @arr elementType elements htype hlength helements =>
    rw [Body.Refused, not_or] at hrefused
    have hscalar (e : Body) (he : e ∈ elements) : e.ScalarReadable env elementType ∧ ¬ e.ScalarCut := by
      refine (helements e he).scalarReadable (fun h9 => hrefused.1 ⟨h9, List.ne_nil_of_mem he⟩) ?_
      have hle := length_encode_le_flatMap Body.encode he
      rw [Body.encode, Body.encodeAll_eq, List.length_append, List.length_append] at hlen
      omega
    refine ⟨⟨rfl, ggufMetadataTypes_lt htype, hlength, fun h8 => ?_, fun e he => (hscalar e he).1,
      ?_⟩, ?_⟩
    · exact not_le.1 fun hbig => hrefused.2 ⟨h8, hbig⟩
    · exact List.pairwise_of_forall_mem_list fun e he _ _ => (hscalar e he).2
    · rintro ⟨e, he, hcut⟩
      exact (hscalar e he).2 hcut

theorem Pair.WellFormed.readable {p : Pair} (h : p.WellFormed) (hrefused : ¬ p.body.Refused)
    (hlen : p.encode.length < 2 ^ 63) : p.Readable env ∧ ¬ p.body.Cut := by
  rw [encode, List.length_append, List.length_append] at hlen
  have hbody := h.body.readable env hrefused (by omega)
  exact ⟨⟨h.key.readable (by omega), h.key.not_cut, ggufMetadataTypes_lt h.body.type_isSome,
    hbody.1⟩, hbody.2⟩

theorem TensorRecord.WellFormed.readable {t : TensorRecord} (h : t.WellFormed)
    (hlen : t.encode.length < 2 ^ 63) :
    t.Readable env := by
  rw [encode, List.length_append] at hlen
  exact ⟨h.name.readable (by omega), h.name.not_cut, h.ndims_lt, h.dims_lt, h.ggmlType_lt, h.offset_lt⟩

/-- The text of a header in front of a rest. -/
theorem Header.encode_append (header : Header) (rest : List UInt8) :
    header.encode ++ rest =
      magicBytes ++
        (bytes 4 header.version ++ (bytes 8 header.tensors.length ++ (bytes 8 header.pairs.length ++
        (header.pairs.flatMap Pair.encode ++ (header.tensors.flatMap TensorRecord.encode ++ rest))))) := by
  simp only [encode, List.append_assoc]

theorem Header.WellFormed.readable (env : ReadEnv) {header : Header} (h : header.WellFormed)
    (hrefused : ¬ header.Refused) (hlen : header.encode.length < 2 ^ 63) : header.Readable env ∧
    ¬ header.Cut := by
  have hparts : (header.pairs.flatMap Pair.encode).length < 2 ^ 63 ∧
      (header.tensors.flatMap TensorRecord.encode).length < 2 ^ 63 := by
    simp only [encode, List.length_append] at hlen
    omega
  have hpair (p : Pair) (hp : p ∈ header.pairs) : p.Readable env ∧ ¬ p.body.Cut :=
    (h.pairs p hp).readable (fun hr => hrefused ⟨p, hp, hr⟩)
      ((length_encode_le_flatMap Pair.encode hp).trans_lt hparts.1)
  have hcut : ¬ header.Cut := fun ⟨p, hp, hcut⟩ => (hpair p hp).2 hcut
  refine ⟨⟨h.version_lt, h.pairs_lt, h.tensors_lt, fun p hp => (hpair p hp).1, fun t ht => ?_, ?_,
    fun hc => absurd hc hcut⟩, hcut⟩
  · exact (h.tensors t ht).readable ((length_encode_le_flatMap TensorRecord.encode ht).trans_lt hparts.2)
  · exact List.pairwise_of_forall_mem_list fun p hp _ _ => (hpair p hp).2

/-! ## Refused arrays -/

theorem text_uint {size n : ℕ} (h : n < 256 ^ size) (rest : List UInt8) :
    (uintFormat size).Text n (bytes size n ++ rest) rest :=
  ⟨h, rfl, False.elim⟩

theorem text_magic (rest : List UInt8) : magicFormat.Text () (magicBytes ++ rest) rest :=
  ⟨trivial, rfl, False.elim⟩

theorem fails_elements {elementType count : ℕ}
    (h : (elementType = 9 ∧ count ≠ 0) ∨ (elementType ≠ 8 ∧ 2 ^ 60 ≤ count))
    (input : List UInt8) :
    Fails (readElements env elementType count) input := by
  have h8 : elementType ≠ 8 := by omega
  rw [readElements, if_neg h8]
  simp only [Fails, run_emptyArray_bind]
  split_ifs with hbig hmemory
  · exact ⟨_, rfl⟩
  · exact ⟨_, rfl⟩
  · obtain ⟨rfl, hcount⟩ := h.resolve_right fun hr => hbig hr.2
    obtain ⟨n, rfl⟩ := Nat.exists_eq_succ_of_ne_zero hcount
    -- the first element is an array, which `read_scalar` does not read
    have hfirst : Fails (readScalar env 9) input := ⟨_, rfl⟩
    exact (hfirst.bind _).bind _

theorem Pair.WellFormed.fails {p : Pair} (h : p.WellFormed) (hrefused : p.body.Refused)
    (hlen : p.encode.length < 2 ^ 63) (metadata : List (String × PyValue)) (rest : List UInt8) :
    Fails (readPair env metadata) (p.encode ++ rest) := by
  have hkeylen : p.key.encode.length < 2 ^ 63 := by
    rw [encode, List.length_append] at hlen
    omega
  obtain ⟨key, valueType, body⟩ := p
  obtain ⟨hkey, hbody⟩ := h
  cases hbody with
  | fixed _ _ => exact hrefused.elim
  | str _ => exact hrefused.elim
  | @arr elementType elements htype hlength _ =>
    have hshape : encode ⟨key, 9, .arr elementType elements⟩ ++ rest =
        key.encode ++ (bytes 4 9 ++ (bytes 4 elementType ++ (bytes 8 elements.length ++
          (Body.encodeAll elements ++ rest)))) := by
      simp only [encode, Body.encode, List.append_assoc]
    have hkeytext (rest : List UInt8) : (strFormat env).Text key (key.encode ++ rest) rest :=
      ⟨hkey.readable hkeylen, rfl, fun hcut => absurd hcut hkey.not_cut⟩
    have hvalue (rest : List UInt8) :
        Fails (readValue env 9) (bytes 4 elementType ++ (bytes 8 elements.length ++ rest)) := by
      refine .bind_of_ok ((reads_uint env (by decide)).of_text (text_uint (ggufMetadataTypes_lt htype) _)) ?_
      refine .bind_of_ok ((reads_uint env le_rfl).of_text (text_uint (by omega) _)) ?_
      exact fails_elements (hrefused.imp_left fun hr => ⟨hr.1, by simpa using hr.2⟩) _
    rw [hshape, readPair]
    refine .bind_of_ok ((reads_str env).of_text (hkeytext _)) ?_
    refine .bind_of_ok ((reads_uint env (by decide)).of_text (text_uint (by decide) _)) ?_
    exact (hvalue _).bind _

/-- A list with an element of the kind has a first one. -/
theorem exists_first {A : Type*} {P : A → Prop} {as : List A} (h : ∃ a ∈ as, P a) :
    ∃ bs a cs, as = bs ++ a :: cs ∧ P a ∧ ∀ b ∈ bs, ¬ P b := by
  induction as with
  | nil =>
    obtain ⟨a, ha, -⟩ := h
    cases ha
  | cons a as ih =>
    by_cases ha : P a
    · exact ⟨[], a, as, rfl, ha, by simp⟩
    · obtain ⟨bs, b, cs, rfl, hb, hbs⟩ := ih (by simpa [ha] using h)
      exact ⟨a :: bs, b, cs, rfl, hb, List.forall_mem_cons.2 ⟨ha, hbs⟩⟩

/-- The metadata loop ends at the first refused array. -/
theorem Header.WellFormed.fails (env : ReadEnv) {header : Header} (h : header.WellFormed)
    (hrefused : header.Refused) (hlen : header.encode.length < 2 ^ 63) (rest : List UInt8) :
    Fails (readTables env) (header.encode ++ rest) := by
  obtain ⟨ps, p, qs, hpairs, hp, hps⟩ := exists_first hrefused
  have hmem (q : Pair) (hq : q ∈ header.pairs) : q.encode.length < 2 ^ 63 := by
    have hle := length_encode_le_flatMap Pair.encode hq
    simp only [encode, List.length_append] at hlen
    omega
  have htext (rest : List UInt8) :
      ((pairFormat env).repeated ps.length).Text ps (ps.flatMap Pair.encode ++ rest) rest :=
    Format.text_repeated_of_forall (fun q hq => by
      have hq' : q ∈ header.pairs := hpairs ▸ List.mem_append_left _ hq
      exact (h.pairs q hq').readable (hps q hq) (hmem q hq')) rest
  have hp' : p ∈ header.pairs := hpairs ▸ List.mem_append_right _ List.mem_cons_self
  have hlt : ps.length < header.pairs.length := by
    rw [hpairs, List.length_append, List.length_cons]
    omega
  have hshape (rest : List UInt8) : header.pairs.flatMap Pair.encode ++ rest =
      ps.flatMap Pair.encode ++ (p.encode ++ (qs.flatMap Pair.encode ++ rest)) := by
    simp only [hpairs, List.flatMap_append, List.flatMap_cons, List.append_assoc]
  rw [header.encode_append, hshape, readTables]
  refine .bind_of_ok ((reads_magic env).of_text (text_magic _)) ?_
  refine .bind_of_ok ((reads_uint env (by decide)).of_text (text_uint h.version_lt _)) ?_
  refine .bind_of_ok ((reads_uint env le_rfl).of_text (text_uint h.tensors_lt _)) ?_
  refine .bind_of_ok ((reads_uint env le_rfl).of_text (text_uint h.pairs_lt _)) ?_
  refine Fails.bind (.loop (reads_pair env) hlt (htext _) (fun metadata => ?_) []) _
  exact (h.pairs p hp').fails hp (hmem p hp') metadata _

/-! ## Readable headers that the format does not have -/

/-- An empty array of a type that the format does not have. -/
def Body.EmptyUnknown : Body → Prop
  | .arr elementType elements => elements = [] ∧ ggufMetadataTypes elementType = none
  | _ => False

def Header.EmptyUnknown (header : Header) : Prop := ∃ p ∈ header.pairs, p.body.EmptyUnknown

theorem Body.WellFormed.not_emptyUnknown {typeId : ℕ} {b : Body} (h : b.WellFormed typeId) :
    ¬ b.EmptyUnknown := by
  cases h with
  | fixed _ _ => exact id
  | str _ => exact id
  | arr htype _ _ =>
    rintro ⟨-, hnone⟩
    rw [hnone] at htype
    cases htype

theorem RawStr.Readable.complete {s : RawStr} (h : s.Readable env) (hcut : ¬ s.Cut) : s.Complete :=
  ⟨h.content_le.antisymm (not_lt.1 hcut), h.length_lt.trans (by decide)⟩

theorem Body.ScalarReadable.wellFormed {typeId : ℕ} {b : Body} (h : b.ScalarReadable env typeId)
    (hcut : ¬ b.ScalarCut) : b.WellFormed typeId := by
  cases b with
  | fixed type raw => exact .fixed h.1 h.2
  | str s =>
    obtain ⟨rfl, hs⟩ := h
    exact .str (hs.complete hcut)
  | arr elementType elements => exact h.elim

/-- A readable body is one of the format unless it is cut, or an empty array of an unknown type. -/
theorem Body.Readable.wellFormed {typeId : ℕ} {b : Body} (h : b.Readable env typeId) (hcut : ¬ b.Cut)
    (hunknown : ¬ b.EmptyUnknown) : b.WellFormed typeId := by
  cases b with
  | fixed type raw => exact .fixed h.1 h.2
  | str s =>
    obtain ⟨rfl, hs⟩ := h
    exact .str (hs.complete hcut)
  | arr elementType elements =>
    obtain ⟨rfl, harr⟩ := h
    have helements (e : Body) (he : e ∈ elements) : e.WellFormed elementType :=
      (harr.scalars e he).wellFormed fun hc => hcut ⟨e, he, hc⟩
    refine .arr ?_ harr.length_lt helements
    -- an element has the element type, so only an empty array can be of an unknown one
    cases elements with
    | nil => exact Option.isSome_iff_ne_none.2 fun hnone => hunknown ⟨rfl, hnone⟩
    | cons e es => exact (helements e List.mem_cons_self).type_isSome

theorem Header.Readable.wellFormed {header : Header} (h : header.Readable env) (hcut : ¬ header.Cut)
    (hunknown : ¬ header.EmptyUnknown) : header.WellFormed where
  version_lt := h.version_lt
  pairs_lt := h.pairs_lt
  tensors_lt := h.tensors_lt
  pairs p hp :=
    { key := (h.pairs p hp).key.complete (h.pairs p hp).key_complete
      body := (h.pairs p hp).body.wellFormed (fun hc => hcut ⟨p, hp, hc⟩) fun hu =>
        hunknown ⟨p, hp, hu⟩ }
  tensors t ht :=
    { name := (h.tensors t ht).name.complete (h.tensors t ht).name_complete
      ndims_lt := (h.tensors t ht).ndims_lt
      dims_lt := (h.tensors t ht).dims_lt
      ggmlType_lt := (h.tensors t ht).ggmlType_lt
      offset_lt := (h.tensors t ht).offset_lt }

/-! ## Accepted files -/

/-- The file starts with the complete text of a header of the format, whose alignment is positive. -/
structure Header.Starts (env : ReadEnv) (file : FileBytes) (header : Header) : Prop where
  wellFormed : header.WellFormed
  alignment_pos : ∃ alignment, header.alignment env = .ok alignment ∧ 0 < alignment
  is_prefix : header.encode <+: file.bytes

/-- The reader accepts the file exactly when it starts with a header of the format, and returns
what the header describes. -/
structure ReadsFormat (env : ReadEnv) (file : FileBytes) : Prop where
  accepts_iff : (∃ g, readGguf env file = .ok g) ↔ ∃ header : Header, header.Starts env file
  describes : ∀ (header : Header) (g : GgufFile), header.Starts env file → readGguf env file = .ok g →
    header.Describes env g

variable {file : FileBytes} {header : Header}

theorem Header.Starts.length_lt (h : header.Starts env file) : header.encode.length < 2 ^ 63 :=
  h.is_prefix.length_le.trans_lt file.length_lt

theorem Header.Starts.readFrom (h : header.Starts env file) (hrefused : ¬ header.Refused) :
    ∃ alignment, 0 < alignment ∧ header.ReadFrom env file alignment := by
  obtain ⟨alignment, halign, hpos⟩ := h.alignment_pos
  obtain ⟨rest, hrest⟩ := h.is_prefix
  obtain ⟨hreadable, hcut⟩ := h.wellFormed.readable env hrefused h.length_lt
  exact ⟨alignment, hpos, ⟨rest, hreadable, hrest.symm, fun hc => absurd hc hcut⟩, halign, hpos.ne'⟩

/-- A refused array ends the read. -/
theorem Header.Starts.readGguf_ne_ok (h : header.Starts env file) (hrefused : header.Refused) (g : GgufFile) :
    readGguf env file ≠ .ok g := by
  obtain ⟨rest, hrest⟩ := h.is_prefix
  obtain ⟨e, he⟩ := h.wellFormed.fails env hrefused h.length_lt rest
  rw [hrest] at he
  rw [readGguf, he]
  nofun

theorem Header.ReadFrom.starts {alignment : ℤ} (h : header.ReadFrom env file alignment)
    (hcut : ¬ header.Cut)
    (hunknown : ¬ header.EmptyUnknown) (hpos : 0 < alignment) : header.Starts env file := by
  obtain ⟨left, htext⟩ := h.text
  exact ⟨htext.valid.wellFormed hcut hunknown, ⟨alignment, h.alignment_eq, hpos⟩, left,
    htext.eq_append.symm⟩

theorem ReadsFormat.not_refused (h : ReadsFormat env file) (hstarts : header.Starts env file) :
    ¬ header.Refused := by
  intro hrefused
  obtain ⟨g, hg⟩ := h.accepts_iff.2 ⟨header, hstarts⟩
  exact hstarts.readGguf_ne_ok hrefused g hg

theorem ReadsFormat.not_deviant {alignment : ℤ} (h : ReadsFormat env file)
    (hread : header.ReadFrom env file alignment) :
    ¬ (header.Cut ∨ header.EmptyUnknown ∨ alignment < 0) := by
  -- the header that the file starts with is the one it is read as
  obtain ⟨header', hstarts⟩ :=
    h.accepts_iff.1 ⟨_, readGguf_eq_ok.2 ⟨header, alignment, hread, rfl⟩⟩
  have hrefused := h.not_refused hstarts
  obtain ⟨alignment', hpos, hread'⟩ := hstarts.readFrom hrefused
  obtain rfl := hread.unique hread'
  obtain rfl := Except.ok.inj (hread.alignment_eq.symm.trans hread'.alignment_eq)
  rintro (hcut | ⟨p, hp, hunknown⟩ | hneg)
  · exact (hstarts.wellFormed.readable env hrefused hstarts.length_lt).2 hcut
  · exact (hstarts.wellFormed.pairs p hp).body.not_emptyUnknown hunknown
  · omega

/-- The reader accepts exactly the headers of the format, unless one holds a refused array, or the
file is read as a header that is cut short, has an empty array of an unknown type, or a negative
alignment. -/
theorem readsFormat_iff (env : ReadEnv) (file : FileBytes) :
    ReadsFormat env file ↔
      (∀ header : Header, header.Starts env file → ¬ header.Refused) ∧
        ∀ (header : Header) (alignment : ℤ), header.ReadFrom env file alignment →
          ¬ (header.Cut ∨ header.EmptyUnknown ∨ alignment < 0) := by
  constructor
  · exact fun h => ⟨fun header hstarts => h.not_refused hstarts, fun header alignment hread =>
      h.not_deviant hread⟩
  · rintro ⟨hrefused, hdeviant⟩
    have hstarts_of (header : Header) (alignment : ℤ) (h : header.ReadFrom env file alignment) :
        0 < alignment ∧ header.Starts env file := by
      obtain ⟨hcut, hunknown, hneg⟩ : ¬ header.Cut ∧ ¬ header.EmptyUnknown ∧ ¬ alignment < 0 := by
        simpa only [not_or] using hdeviant header alignment h
      have hpos : 0 < alignment := lt_of_le_of_ne (not_lt.1 hneg) h.alignment_ne.symm
      exact ⟨hpos, h.starts hcut hunknown hpos⟩
    constructor
    · constructor
      · rintro ⟨g, hg⟩
        obtain ⟨header, alignment, h, -⟩ := readGguf_eq_ok.1 hg
        exact ⟨header, (hstarts_of header alignment h).2⟩
      · rintro ⟨header, hstarts⟩
        obtain ⟨alignment, -, h⟩ := hstarts.readFrom (hrefused header hstarts)
        exact ⟨_, readGguf_eq_ok.2 ⟨header, alignment, h, rfl⟩⟩
    · intro header g hstarts hg
      obtain ⟨header', alignment, h, rfl⟩ := readGguf_eq_ok.1 hg
      obtain ⟨_, _, hread'⟩ := hstarts.readFrom (hrefused header hstarts)
      obtain rfl := h.unique hread'
      exact Header.describes_file h.alignment_eq (hstarts_of header' alignment h).1

/-- The one value of the file is a string of five bytes, of which two are there. -/
theorem not_readsFormat_cutString :
    ¬ ReadsFormat ⟨"model.gguf", false, fun _ => true, fun _ => none⟩
      ⟨magicBytes ++ bytes 4 3 ++ bytes 8 0 ++ bytes 8 1 ++
        (bytes 8 1 ++ [107]) ++ bytes 4 8 ++ (bytes 8 5 ++ [65, 66]), by decide⟩ := by
  intro h
  refine h.not_deviant
    (?_ : Header.ReadFrom _ _ ⟨3, [⟨⟨1, [107]⟩, 8, .str ⟨5, [65, 66]⟩⟩], []⟩ 32)
    (.inl ⟨_, List.mem_cons_self, ?_⟩)
  · have hvalid : Header.Readable ⟨"model.gguf", false, fun _ => true, fun _ => none⟩
        ⟨3, [⟨⟨1, [107]⟩, 8, .str ⟨5, [65, 66]⟩⟩], []⟩ :=
      { version_lt := by decide
        pairs_lt := by decide
        tensors_lt := by decide
        pairs := fun p hp => by
          obtain rfl := List.mem_singleton.1 hp
          exact ⟨⟨by decide, le_rfl, fun _ => rfl⟩,
            lt_irrefl 1, by decide, rfl, by decide, by decide, fun _ => rfl⟩
        tensors := fun t ht => nomatch ht
        cut_last := List.pairwise_singleton ..
        cut_tensors := fun _ => rfl }
    exact ⟨⟨[], hvalid, by decide, fun _ => rfl⟩, by decide, by decide⟩
  · exact (by decide : 2 < 5)

end Gguf

end SciAttention

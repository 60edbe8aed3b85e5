import Mathlib.Data.List.Basic
import Mathlib.Tactic.Common

/-!
# Sequential formats and their readers

A format gives each value it allows a text. A text may be cut: it lacks its end, and then nothing
follows it. Formats one after the other, the second one chosen by the value of the first, make a
format, and so do repetitions. A reader `Reads` a format when it succeeds exactly on the texts of
its values. The rules follow the reader's own structure, and beside them stand those by which a
format determines the values of a text.
-/

namespace Wire

universe u

variable {α V W : Type u} {A B ε : Type*}

/-! ## Formats -/

/-- The texts of values; `cut` are the values whose text lacks its end. -/
structure Format (α A : Type*) where
  valid : A → Prop
  encode : A → List α
  cut : A → Prop

namespace Format

/-- The input is the text of a value and a rest, which is empty after a cut text. -/
structure Text (F : Format α A) (a : A) (input rest : List α) : Prop where
  valid : F.valid a
  eq_append : input = F.encode a ++ rest
  rest_of_cut : F.cut a → rest = []

/-- A text of the first format and then one of the second. -/
def bind (F : Format α A) (G : A → Format α B) : Format α (A × B) where
  valid p := F.valid p.1 ∧ (G p.1).valid p.2 ∧ (F.cut p.1 → (G p.1).encode p.2 = [])
  encode p := F.encode p.1 ++ (G p.1).encode p.2
  cut p := F.cut p.1 ∨ (G p.1).cut p.2

/-- The empty text. -/
def unit : Format α Unit where
  valid _ := True
  encode _ := []
  cut _ := False

/-- As many texts as `n`; nothing follows a cut one. -/
def repeated (F : Format α A) (n : ℕ) : Format α (List A) where
  valid as := as.length = n ∧ (∀ a ∈ as, F.valid a) ∧ as.Pairwise fun a b => F.cut a →
    F.encode b = []
  encode as := as.flatMap F.encode
  cut as := ∃ a ∈ as, F.cut a

/-- The format for the values of which `p` holds, too. -/
def restrict (F : Format α A) (p : A → Prop) : Format α A where
  valid a := p a ∧ F.valid a
  encode := F.encode
  cut := F.cut

/-- The second format has the values of the first under other names. -/
structure Image (F : Format α A) (c : A → B) (G : Format α B) : Prop where
  valid_of : ∀ a, F.valid a → G.valid (c a)
  encode_eq : ∀ a, F.valid a → G.encode (c a) = F.encode a
  cut_iff : ∀ a, F.valid a → (G.cut (c a) ↔ F.cut a)
  exists_of : ∀ b, G.valid b → ∃ a, F.valid a ∧ c a = b

theorem text_bind {F : Format α A} {G : A → Format α B} {p : A × B} {input rest : List α} :
    (F.bind G).Text p input rest ↔ ∃ mid, F.Text p.1 input mid ∧ (G p.1).Text p.2 mid rest := by
  obtain ⟨a, b⟩ := p
  constructor
  · rintro ⟨⟨ha, hb, hnil⟩, heq, hrest⟩
    refine ⟨(G a).encode b ++ rest, ⟨ha, by rw [heq]; exact List.append_assoc .., fun hcut => ?_⟩,
      hb, rfl,
      fun hcut => hrest (.inr hcut)⟩
    rw [hnil hcut, hrest (.inl hcut), List.append_nil]
  · rintro ⟨mid, ⟨ha, rfl, hcuta⟩, hb, rfl, hcutb⟩
    have hnil (hcut : F.cut a) : (G a).encode b = [] ∧ rest = [] := List.append_eq_nil_iff.1 (hcuta hcut)
    exact ⟨⟨ha, hb, fun hcut => (hnil hcut).1⟩, (List.append_assoc ..).symm,
      Or.rec (fun hcut => (hnil hcut).2) hcutb⟩

theorem text_repeated_zero {F : Format α A} {as : List A} {input rest : List α} :
    (F.repeated 0).Text as input rest ↔ as = [] ∧ input = rest := by
  constructor
  · rintro ⟨⟨hlen, -, -⟩, heq, -⟩
    obtain rfl := List.length_eq_zero_iff.1 hlen
    exact ⟨rfl, heq⟩
  · rintro ⟨rfl, rfl⟩
    exact ⟨⟨rfl, by simp, .nil⟩, rfl, by simp [repeated]⟩

theorem text_repeated_succ {F : Format α A} {n : ℕ} {as : List A} {input rest : List α} :
    (F.repeated (n + 1)).Text as input rest ↔
      ∃ a as' mid, as = a :: as' ∧ F.Text a input mid ∧ (F.repeated n).Text as' mid rest := by
  constructor
  · rintro ⟨⟨hlen, hall, hpair⟩, heq, hrest⟩
    obtain ⟨a, as, rfl⟩ := List.exists_cons_of_length_eq_add_one hlen
    rw [List.pairwise_cons] at hpair
    have hmore : ∀ b ∈ as, F.valid b := fun b hb => hall b (List.mem_cons_of_mem a hb)
    refine ⟨a, as, as.flatMap F.encode ++ rest, rfl,
      ⟨hall a List.mem_cons_self, by rw [heq]; exact List.append_assoc .., fun hcut => ?_⟩,
      ⟨by simpa using hlen, hmore, hpair.2⟩, rfl, ?_⟩
    · rw [hrest ⟨a, List.mem_cons_self, hcut⟩, List.append_nil]
      exact List.flatMap_eq_nil_iff.2 fun b hb => hpair.1 b hb hcut
    · rintro ⟨b, hb, hcut⟩
      exact hrest ⟨b, List.mem_cons_of_mem a hb, hcut⟩
  · rintro ⟨a, as, mid, rfl, ⟨ha, rfl, hcut⟩, ⟨hlen, hall, hpair⟩, rfl, hrest⟩
    have hnil (hcuta : F.cut a) : as.flatMap F.encode = [] ∧ rest = [] :=
      List.append_eq_nil_iff.1 (hcut hcuta)
    refine ⟨⟨by simpa using hlen, List.forall_mem_cons.2 ⟨ha, hall⟩,
      List.pairwise_cons.2 ⟨?_, hpair⟩⟩, (List.append_assoc ..).symm, ?_⟩
    · exact fun b hb hcuta => List.flatMap_eq_nil_iff.1 (hnil hcuta).1 b hb
    · rintro ⟨b, hb, hcutb⟩
      rcases List.mem_cons.1 hb with rfl | hb
      · exact (hnil hcutb).2
      · exact hrest ⟨b, hb, hcutb⟩

theorem text_restrict {F : Format α A} {p : A → Prop} {a : A} {input rest : List α} :
    (F.restrict p).Text a input rest ↔ p a ∧ F.Text a input rest :=
  ⟨fun h => ⟨h.valid.1, h.valid.2, h.eq_append, h.rest_of_cut⟩,
    fun h => ⟨⟨h.1, h.2.valid⟩, h.2.eq_append, h.2.rest_of_cut⟩⟩

/-- Where no text is empty, nothing follows a cut one. -/
theorem valid_repeated_iff {F : Format α A} (hne : ∀ a, F.valid a → F.encode a ≠ []) {n : ℕ}
    {as : List A} :
    (F.repeated n).valid as ↔
      as.length = n ∧ (∀ a ∈ as, F.valid a) ∧ as.Pairwise fun a _ => ¬ F.cut a := by
  refine and_congr_right fun _ => and_congr_right fun hall => List.Pairwise.iff_of_mem fun {a b} _ hb => ?_
  exact ⟨fun h hcut => hne b (hall b hb) (h hcut), fun h hcut => absurd hcut h⟩

/-- Texts that are not cut, one after the other. -/
theorem text_repeated_of_forall {F : Format α A} {as : List A} (h : ∀ a ∈ as, F.valid a ∧ ¬ F.cut a)
    (rest : List α) :
    (F.repeated as.length).Text as (as.flatMap F.encode ++ rest) rest := by
  refine ⟨⟨rfl, fun a ha => (h a ha).1, ?_⟩, rfl, fun ⟨a, ha, hcut⟩ => absurd hcut (h a ha).2⟩
  exact List.pairwise_of_forall_mem_list fun a ha _ _ hcut => absurd hcut (h a ha).2

theorem encode_repeated_eq_nil {F : Format α A} (hne : ∀ a, F.valid a → F.encode a ≠ []) {n : ℕ}
    {as : List A}
    (h : (F.repeated n).valid as) : (F.repeated n).encode as = [] ↔ as = [] := by
  refine List.flatMap_eq_nil_iff.trans ⟨fun hnil => ?_, fun hnil a ha => ?_⟩
  · exact List.eq_nil_iff_forall_not_mem.2 fun a ha => hne a (h.2.1 a ha) (hnil a ha)
  · rw [hnil] at ha
    cases ha

/-- Texts that are not empty take up an element each. -/
theorem Text.length_le {F : Format α A} (hne : ∀ a, F.valid a → F.encode a ≠ []) {n : ℕ}
    {as : List A}
    {input rest : List α} (h : (F.repeated n).Text as input rest) : n ≤ input.length := by
  induction n generalizing as input with
  | zero => exact Nat.zero_le _
  | succ n ih =>
    obtain ⟨a, as, mid, rfl, ha, has⟩ := text_repeated_succ.1 h
    have hpos := List.length_pos_iff.2 (hne a ha.valid)
    have hle := ih has
    rw [ha.eq_append, List.length_append]
    omega

theorem Image.text_iff {F : Format α A} {c : A → B} {G : Format α B} (h : F.Image c G) {b : B}
    {input rest : List α} : G.Text b input rest ↔ ∃ a, F.Text a input rest ∧ c a = b := by
  constructor
  · rintro ⟨hb, heq, hcut⟩
    obtain ⟨a, ha, rfl⟩ := h.exists_of b hb
    exact ⟨a, ⟨ha, h.encode_eq a ha ▸ heq, fun hcuta => hcut ((h.cut_iff a ha).2 hcuta)⟩, rfl⟩
  · rintro ⟨a, ⟨ha, heq, hcut⟩, rfl⟩
    exact ⟨h.valid_of a ha, (h.encode_eq a ha).symm ▸ heq, fun hcuta => hcut ((h.cut_iff a ha).1 hcuta)⟩

/-! ## Formats that determine their values -/

/-- An input starts with the text of one value. -/
def Unique (F : Format α A) : Prop :=
  ∀ a b input rest rest', F.Text a input rest → F.Text b input rest' → a = b

/-- One value leaves one rest. -/
theorem Text.rest_unique {F : Format α A} {a : A} {input rest rest' : List α} (h : F.Text a input rest)
    (h' : F.Text a input rest') : rest = rest' :=
  List.append_cancel_left (h.eq_append.symm.trans h'.eq_append)

theorem Unique.bind {F : Format α A} {G : A → Format α B} (hF : F.Unique)
    (hG : ∀ a, F.valid a → (G a).Unique) :
    (F.bind G).Unique := by
  rintro ⟨a, b⟩ ⟨a', b'⟩ input rest rest' h h'
  obtain ⟨mid, ha, hb⟩ := text_bind.1 h
  obtain ⟨mid', ha', hb'⟩ := text_bind.1 h'
  obtain rfl : a = a' := hF _ _ _ _ _ ha ha'
  obtain rfl : mid = mid' := ha.rest_unique ha'
  obtain rfl : b = b' := hG a ha.valid _ _ _ _ _ hb hb'
  rfl

theorem Unique.repeated {F : Format α A} (hF : F.Unique) (n : ℕ) : (F.repeated n).Unique := by
  induction n with
  | zero =>
    intro as bs input rest rest' h h'
    rw [(text_repeated_zero.1 h).1, (text_repeated_zero.1 h').1]
  | succ n ih =>
    intro as bs input rest rest' h h'
    obtain ⟨a, as, mid, rfl, ha, has⟩ := text_repeated_succ.1 h
    obtain ⟨b, bs, mid', rfl, hb, hbs⟩ := text_repeated_succ.1 h'
    obtain rfl := hF _ _ _ _ _ ha hb
    obtain rfl := ha.rest_unique hb
    rw [ih _ _ _ _ _ has hbs]

theorem Unique.restrict {F : Format α A} (hF : F.Unique) (p : A → Prop) : (F.restrict p).Unique :=
  fun _ _ _ _ _ h h' => hF _ _ _ _ _ (text_restrict.1 h).2 (text_restrict.1 h').2

theorem Unique.image {F : Format α A} {c : A → B} {G : Format α B} (hF : F.Unique) (h : F.Image c G) :
    G.Unique := by
  intro b b' input rest rest' hb hb'
  obtain ⟨a, ha, rfl⟩ := h.text_iff.1 hb
  obtain ⟨a', ha', rfl⟩ := h.text_iff.1 hb'
  rw [hF _ _ _ _ _ ha ha']

end Format

/-! ## Readers -/

/-- A reader takes what it reads off the input, or fails. -/
abbrev Reader (ε : Type*) (α V : Type u) := StateT (List α) (Except ε) V

/-- The reader succeeds exactly on the texts of the format, with what the value stands for. -/
def Reads (d : Reader ε α V) (F : Format α A) (value : A → V) : Prop :=
  ∀ input v rest, d.run input = .ok (v, rest) ↔ ∃ a, F.Text a input rest ∧ value a = v

/-- The reader fails on the input. -/
def Fails (d : Reader ε α V) (input : List α) : Prop := ∃ e, d.run input = .error e

/-- `for _ in range(n): s = step(s)`. -/
def loop (step : V → Reader ε α V) : ℕ → V → Reader ε α V
  | 0, s => pure s
  | n + 1, s => step s >>= loop step n

/-- `[d() for _ in range(n)]`. -/
def collect (d : Reader ε α V) : ℕ → Reader ε α (List V)
  | 0 => pure []
  | n + 1 => do
    let v ← d
    let vs ← collect d n
    pure (v :: vs)

theorem run_bind_eq_ok {d : Reader ε α V} {k : V → Reader ε α W} {input rest : List α} {w : W} :
    (d >>= k).run input = .ok (w, rest) ↔
      ∃ v mid, d.run input = .ok (v, mid) ∧ (k v).run mid = .ok (w, rest) := by
  rw [StateT.run_bind]
  cases d.run input with
  | error e => exact ⟨fun h => (nomatch h), fun ⟨_, _, h, _⟩ => (nomatch h)⟩
  | ok p =>
    constructor
    · exact fun h => ⟨p.1, p.2, rfl, h⟩
    · rintro ⟨v, mid, hp, h⟩
      obtain rfl := Except.ok.inj hp
      exact h

theorem run_bind_of_ok {d : Reader ε α V} {k : V → Reader ε α W} {input mid : List α} {v : V}
    (h : d.run input = .ok (v, mid)) : (d >>= k).run input = (k v).run mid := by
  rw [StateT.run_bind, h]
  rfl

theorem Fails.bind {d : Reader ε α V} {input : List α} (h : Fails d input) (k : V → Reader ε α W) :
    Fails (d >>= k) input := by
  obtain ⟨e, he⟩ := h
  exact ⟨e, by rw [StateT.run_bind, he]; rfl⟩

theorem Fails.bind_of_ok {d : Reader ε α V} {k : V → Reader ε α W} {input mid : List α} {v : V}
    (h : d.run input = .ok (v, mid)) (hk : Fails (k v) mid) : Fails (d >>= k) input := by
  obtain ⟨e, he⟩ := hk
  exact ⟨e, (run_bind_of_ok h).trans he⟩

namespace Reads

variable {F : Format α A} {value : A → V}

theorem of_text {d : Reader ε α V} (hd : Reads d F value) {a : A} {input rest : List α}
    (h : F.Text a input rest) : d.run input = .ok (value a, rest) :=
  (hd _ _ _).2 ⟨a, h, rfl⟩

protected theorem pure (v : V) : Reads (pure v : Reader ε α V) Format.unit fun _ => v := by
  intro input w rest
  rw [StateT.run_pure]
  constructor
  · intro h
    obtain ⟨rfl, rfl⟩ := Prod.mk.inj (Except.ok.inj h)
    exact ⟨(), ⟨trivial, rfl, fun hcut => hcut.elim⟩, rfl⟩
  · rintro ⟨_, ⟨_, heq, _⟩, rfl⟩
    rw [heq]
    rfl

/-- A reader that tells the values apart is of a format that determines them. -/
theorem unique {d : Reader ε α V} (hd : Reads d F value) (hinj : Function.Injective value) : F.Unique := by
  intro a b input rest rest' ha hb
  exact hinj (Prod.mk.inj (Except.ok.inj ((hd.of_text ha).symm.trans (hd.of_text hb)))).1

/-- A reader that always fails reads a format without values. -/
theorem of_fails {d : Reader ε α V} (hd : ∀ input, Fails d input) (hF : ∀ a, ¬ F.valid a) :
    Reads d F value := by
  intro input v rest
  obtain ⟨e, he⟩ := hd input
  rw [he]
  exact ⟨fun h => (nomatch h), fun ⟨a, ha, _⟩ => absurd ha.valid (hF a)⟩

protected theorem bind {d : Reader ε α V} {k : V → Reader ε α W} {G : A → Format α B}
    {value' : A → B → W}
    (hd : Reads d F value) (hk : ∀ a, F.valid a → Reads (k (value a)) (G a) (value' a)) :
    Reads (d >>= k) (F.bind G) fun p => value' p.1 p.2 := by
  intro input w rest
  rw [run_bind_eq_ok]
  constructor
  · rintro ⟨v, mid, hv, hw⟩
    obtain ⟨a, ha, rfl⟩ := (hd _ _ _).1 hv
    obtain ⟨b, hb, rfl⟩ := (hk a ha.valid _ _ _).1 hw
    exact ⟨(a, b), Format.text_bind.2 ⟨mid, ha, hb⟩, rfl⟩
  · rintro ⟨⟨a, b⟩, hab, rfl⟩
    obtain ⟨mid, ha, hb⟩ := Format.text_bind.1 hab
    exact ⟨_, mid, hd.of_text ha, (hk a ha.valid).of_text hb⟩

protected theorem map {d : Reader ε α V} (hd : Reads d F value) (f : V → W) :
    Reads (d >>= fun v => pure (f v)) F fun a => f (value a) := by
  intro input w rest
  rw [run_bind_eq_ok]
  constructor
  · rintro ⟨v, mid, hv, hw⟩
    obtain ⟨a, ha, rfl⟩ := (hd _ _ _).1 hv
    obtain ⟨rfl, rfl⟩ := Prod.mk.inj (Except.ok.inj hw)
    exact ⟨a, ha, rfl⟩
  · rintro ⟨a, ha, rfl⟩
    exact ⟨_, _, hd.of_text ha, rfl⟩

theorem image {d : Reader ε α V} {c : A → B} {G : Format α B} {value' : B → V} (hd : Reads d F value)
    (h : F.Image c G) (hvalue : ∀ a, F.valid a → value' (c a) = value a) : Reads d G value' := by
  intro input v rest
  rw [hd]
  constructor
  · rintro ⟨a, ha, rfl⟩
    exact ⟨c a, h.text_iff.2 ⟨a, ha, rfl⟩, hvalue a ha.valid⟩
  · rintro ⟨b, hb, rfl⟩
    obtain ⟨a, ha, rfl⟩ := h.text_iff.1 hb
    exact ⟨a, ha, (hvalue a ha.valid).symm⟩

theorem loop {step : V → Reader ε α V} {update : V → A → V}
    (hstep : ∀ s, Reads (step s) F (update s)) (n : ℕ)
    (s : V) : Reads (Wire.loop step n s) (F.repeated n) fun as => as.foldl update s := by
  induction n generalizing s with
  | zero =>
    intro input v rest
    rw [Wire.loop, StateT.run_pure]
    simp only [Format.text_repeated_zero]
    constructor
    · intro h
      obtain ⟨rfl, rfl⟩ := Prod.mk.inj (Except.ok.inj h)
      exact ⟨[], ⟨rfl, rfl⟩, rfl⟩
    · rintro ⟨_, ⟨rfl, rfl⟩, rfl⟩
      rfl
  | succ n ih =>
    intro input v rest
    rw [Wire.loop, run_bind_eq_ok]
    simp only [Format.text_repeated_succ]
    constructor
    · rintro ⟨s', mid, hs', hv⟩
      obtain ⟨a, ha, rfl⟩ := (hstep s _ _ _).1 hs'
      obtain ⟨as, has, rfl⟩ := (ih _ _ _ _).1 hv
      exact ⟨a :: as, ⟨a, as, mid, rfl, ha, has⟩, rfl⟩
    · rintro ⟨_, ⟨a, as, mid, rfl, ha, has⟩, rfl⟩
      exact ⟨_, mid, (hstep s).of_text ha, (ih _).of_text has⟩

theorem collect {d : Reader ε α V} (hd : Reads d F value) (n : ℕ) :
    Reads (Wire.collect d n) (F.repeated n) fun as => as.map value := by
  induction n with
  | zero =>
    intro input v rest
    rw [Wire.collect, StateT.run_pure]
    simp only [Format.text_repeated_zero]
    constructor
    · intro h
      obtain ⟨rfl, rfl⟩ := Prod.mk.inj (Except.ok.inj h)
      exact ⟨[], ⟨rfl, rfl⟩, rfl⟩
    · rintro ⟨_, ⟨rfl, rfl⟩, rfl⟩
      rfl
  | succ n ih =>
    intro input v rest
    rw [Wire.collect, run_bind_eq_ok]
    simp only [Format.text_repeated_succ]
    constructor
    · rintro ⟨w, mid, hw, hv⟩
      obtain ⟨a, ha, rfl⟩ := (hd _ _ _).1 hw
      obtain ⟨as, has, rfl⟩ := (ih.map (value a :: ·) _ _ _).1 hv
      exact ⟨a :: as, ⟨a, as, mid, rfl, ha, has⟩, rfl⟩
    · rintro ⟨_, ⟨a, as, mid, rfl, ha, has⟩, rfl⟩
      exact ⟨_, mid, hd.of_text ha, (ih.map (value a :: ·)).of_text has⟩

end Reads

/-- A loop fails where a step fails, before it has made all its steps. -/
theorem Fails.loop {F : Format α A} {step : V → Reader ε α V} {update : V → A → V}
    (hstep : ∀ s, Reads (step s) F (update s)) {n k : ℕ} (hk : k < n) {as : List A} {input mid : List α}
    (has : (F.repeated k).Text as input mid) (hfails : ∀ s, Fails (step s) mid) (s : V) :
    Fails (Wire.loop step n s) input := by
  induction k generalizing n as input s with
  | zero =>
    obtain ⟨m, rfl⟩ : ∃ m, n = m + 1 := ⟨n - 1, by omega⟩
    obtain ⟨-, rfl⟩ := Format.text_repeated_zero.1 has
    exact (hfails s).bind _
  | succ k ih =>
    obtain ⟨m, rfl⟩ : ∃ m, n = m + 1 := ⟨n - 1, by omega⟩
    obtain ⟨a, as, mid', rfl, ha, has⟩ := Format.text_repeated_succ.1 has
    exact .bind_of_ok ((hstep s).of_text ha) (ih (Nat.lt_of_succ_lt_succ hk) has _)

end Wire

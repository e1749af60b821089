import LiveExports.Text.Utf8

/-!
# Decoding and encoding

The bytes of a text decode to its characters without a fault, and no other bytes do
(`decode?_eq_some_iff`).  The sequence of each character is taken on its own: its first byte
announces its length, and the bits of the bytes put together give the code point again.  That a code
point is no half of a surrogate pair, and that it needs all of its bytes, is what the tests of the
second byte ask for.
-/

namespace LiveExports.Text

/-! ## Bytes -/

theorem toNat_continuation (bits : Nat) : (continuation bits).toNat = 0x80 + bits % 64 := by
  rw [continuation, UInt8.toNat_ofNat']
  omega

theorem isContinuation_continuation (bits : Nat) : isContinuation (continuation bits) = true := by
  have hbits := toNat_continuation bits
  simp only [isContinuation, Bool.and_eq_true, decide_eq_true_eq, UInt8.le_iff_toNat_le,
    UInt8.toNat_ofNat, hbits]
  omega

theorem bitsOf_continuation (bits : Nat) : bitsOf (continuation bits) = bits % 64 := by
  rw [bitsOf, toNat_continuation]
  omega

/-- The second byte of a sequence of three passes unless it makes the sequence overlong or half of a
surrogate pair. -/
theorem beginsThree_continuation {first : UInt8} {bits : Nat}
    (hlow : first.toNat = 0xE0 → 0x20 ≤ bits % 64) (hhigh : first.toNat = 0xED → bits % 64 < 0x20) :
    beginsThree first (continuation bits) = true := by
  have hbits := toNat_continuation bits
  simp only [beginsThree, isContinuation_continuation, Bool.true_and, Bool.and_eq_true,
    Bool.or_eq_true, bne_iff_ne, ne_eq, decide_eq_true_eq, UInt8.le_iff_toNat_le,
    ← UInt8.toNat_inj, UInt8.toNat_ofNat, hbits]
  omega

/-- The second byte of a sequence of four passes unless it makes the sequence overlong or too
large. -/
theorem beginsFour_continuation {first : UInt8} {bits : Nat}
    (hlow : first.toNat = 0xF0 → 0x10 ≤ bits % 64) (hhigh : first.toNat = 0xF4 → bits % 64 < 0x10) :
    beginsFour first (continuation bits) = true := by
  have hbits := toNat_continuation bits
  simp only [beginsFour, isContinuation_continuation, Bool.true_and, Bool.and_eq_true,
    Bool.or_eq_true, bne_iff_ne, ne_eq, decide_eq_true_eq, UInt8.le_iff_toNat_le,
    ← UInt8.toNat_inj, UInt8.toNat_ofNat, hbits]
  omega

/-! ## Sequences -/

theorem decode_one {first : UInt8} (h : first.toNat < 0x80) (rest : List UInt8) :
    decode (first :: rest) = some (Char.ofNat first.toNat) :: decode rest := by
  have hfirst : first < 0x80 := UInt8.lt_iff_toNat_lt.mpr h
  rw [decode.eq_def]
  simp only [hfirst, if_true]

theorem decode_two {first : UInt8} (hlow : 0xC2 ≤ first.toNat) (hhigh : first.toNat ≤ 0xDF)
    (second : Nat) (rest : List UInt8) :
    decode (first :: continuation second :: rest) =
      some (Char.ofNat (first.toNat % 32 * 64 + second % 64)) :: decode rest := by
  have hone : ¬ first < 0x80 := by
    simp only [UInt8.lt_iff_toNat_lt, UInt8.toNat_ofNat]
    omega
  have htwo : (0xC2 ≤ first && first ≤ 0xDF) = true := by
    simp only [Bool.and_eq_true, decide_eq_true_eq, UInt8.le_iff_toNat_le, UInt8.toNat_ofNat]
    exact ⟨hlow, hhigh⟩
  rw [decode, if_neg hone, if_pos htwo]
  simp only [isContinuation_continuation, if_true, bitsOf_continuation]

theorem decode_three {first : UInt8} (hlow : 0xE0 ≤ first.toNat) (hhigh : first.toNat ≤ 0xEF)
    {second : Nat} (hsecond : beginsThree first (continuation second) = true) (third : Nat)
    (rest : List UInt8) :
    decode (first :: continuation second :: continuation third :: rest) =
      some (Char.ofNat (first.toNat % 16 * 4096 + second % 64 * 64 + third % 64)) ::
        decode rest := by
  have hone : ¬ first < 0x80 := by
    simp only [UInt8.lt_iff_toNat_lt, UInt8.toNat_ofNat]
    omega
  have htwo : ¬ (0xC2 ≤ first && first ≤ 0xDF) = true := by
    simp only [Bool.and_eq_true, decide_eq_true_eq, UInt8.le_iff_toNat_le, UInt8.toNat_ofNat]
    omega
  have hthree : (0xE0 ≤ first && first ≤ 0xEF) = true := by
    simp only [Bool.and_eq_true, decide_eq_true_eq, UInt8.le_iff_toNat_le, UInt8.toNat_ofNat]
    exact ⟨hlow, hhigh⟩
  rw [decode, if_neg hone, if_neg htwo, if_pos hthree]
  simp [hsecond, isContinuation_continuation, bitsOf_continuation]

theorem decode_four {first : UInt8} (hlow : 0xF0 ≤ first.toNat) (hhigh : first.toNat ≤ 0xF4)
    {second : Nat} (hsecond : beginsFour first (continuation second) = true) (third fourth : Nat)
    (rest : List UInt8) :
    decode (first :: continuation second :: continuation third :: continuation fourth :: rest) =
      some (Char.ofNat (first.toNat % 8 * 262144 + second % 64 * 4096 + third % 64 * 64 +
        fourth % 64)) :: decode rest := by
  have hone : ¬ first < 0x80 := by
    simp only [UInt8.lt_iff_toNat_lt, UInt8.toNat_ofNat]
    omega
  have htwo : ¬ (0xC2 ≤ first && first ≤ 0xDF) = true := by
    simp only [Bool.and_eq_true, decide_eq_true_eq, UInt8.le_iff_toNat_le, UInt8.toNat_ofNat]
    omega
  have hthree : ¬ (0xE0 ≤ first && first ≤ 0xEF) = true := by
    simp only [Bool.and_eq_true, decide_eq_true_eq, UInt8.le_iff_toNat_le, UInt8.toNat_ofNat]
    omega
  have hfour : (0xF0 ≤ first && first ≤ 0xF4) = true := by
    simp only [Bool.and_eq_true, decide_eq_true_eq, UInt8.le_iff_toNat_le, UInt8.toNat_ofNat]
    exact ⟨hlow, hhigh⟩
  rw [decode, if_neg hone, if_neg htwo, if_neg hthree, if_pos hfour]
  simp [hsecond, isContinuation_continuation, bitsOf_continuation]

/-! ## Texts -/

/-- A code point lies below the surrogates or above them. -/
theorem toNat_range (c : Char) :
    c.toNat < 0xD800 ∨ (0xDFFF < c.toNat ∧ c.toNat < 0x110000) := by
  have hvalid := c.valid
  simp only [UInt32.isValidChar, Nat.isValidChar] at hvalid
  simp only [Char.toNat]
  omega

theorem decode_encodeChar_append (c : Char) (rest : List UInt8) :
    decode (encodeChar c ++ rest) = some c :: decode rest := by
  have hrange := toNat_range c
  have hback : Char.ofNat c.toNat = c := Char.ofNat_toNat c
  by_cases hone : c.toNat < 0x80
  · have hfirst : (UInt8.ofNat c.toNat).toNat = c.toNat := by
      rw [UInt8.toNat_ofNat']
      omega
    rw [encodeChar, if_pos hone, List.singleton_append, decode_one (by omega), hfirst, hback]
  by_cases htwo : c.toNat < 0x800
  · have hfirst : (UInt8.ofNat (0xC0 + c.toNat / 64)).toNat = 0xC0 + c.toNat / 64 := by
      rw [UInt8.toNat_ofNat']
      omega
    have hcode : (0xC0 + c.toNat / 64) % 32 * 64 + c.toNat % 64 = c.toNat := by omega
    rw [encodeChar, if_neg hone, if_pos htwo, List.cons_append, List.singleton_append,
      decode_two (by omega) (by omega), hfirst, hcode, hback]
  by_cases hthree : c.toNat < 0x10000
  · have hfirst : (UInt8.ofNat (0xE0 + c.toNat / 4096)).toNat = 0xE0 + c.toNat / 4096 := by
      rw [UInt8.toNat_ofNat']
      omega
    have hcode : (0xE0 + c.toNat / 4096) % 16 * 4096 + c.toNat / 64 % 64 * 64 + c.toNat % 64 =
        c.toNat := by omega
    have hsecond : beginsThree (UInt8.ofNat (0xE0 + c.toNat / 4096))
        (continuation (c.toNat / 64)) = true :=
      beginsThree_continuation (by omega) (by omega)
    rw [encodeChar, if_neg hone, if_neg htwo, if_pos hthree, List.cons_append, List.cons_append,
      List.singleton_append, decode_three (by omega) (by omega) hsecond, hfirst, hcode, hback]
  · have hfirst : (UInt8.ofNat (0xF0 + c.toNat / 262144)).toNat = 0xF0 + c.toNat / 262144 := by
      rw [UInt8.toNat_ofNat']
      omega
    have hcode : (0xF0 + c.toNat / 262144) % 8 * 262144 + c.toNat / 4096 % 64 * 4096 +
        c.toNat / 64 % 64 * 64 + c.toNat % 64 = c.toNat := by omega
    have hsecond : beginsFour (UInt8.ofNat (0xF0 + c.toNat / 262144))
        (continuation (c.toNat / 4096)) = true :=
      beginsFour_continuation (by omega) (by omega)
    rw [encodeChar, if_neg hone, if_neg htwo, if_neg hthree, List.cons_append, List.cons_append,
      List.cons_append, List.singleton_append, decode_four (by omega) (by omega) hsecond, hfirst,
      hcode, hback]

/-- The bytes of a text decode to its characters. -/
theorem decode_encode (text : String) : decode (encode text) = text.toList.map some := by
  unfold encode
  induction text.toList with
  | nil => simp [decode]
  | cons c chars ih => rw [List.flatMap_cons, decode_encodeChar_append, ih, List.map_cons]

theorem mapM_id_map_some {α : Type} (list : List α) : (list.map some).mapM id = some list := by
  induction list with
  | nil => rfl
  | cons a list ih => simp [List.mapM_cons, ih]

/-- The bytes of a text decode to the text. -/
theorem decode?_encode (text : String) : decode? (encode text) = some text := by
  rw [decode?, decode_encode, mapM_id_map_some, Option.map_some, String.ofList_toList]

theorem eq_map_some_of_mapM_id {α : Type} {list : List (Option α)} {values : List α}
    (h : list.mapM id = some values) : list = values.map some := by
  induction list generalizing values with
  | nil =>
      cases h
      rfl
  | cons first rest ih =>
      rw [List.mapM_cons] at h
      obtain ⟨value, hfirst, h⟩ := Option.bind_eq_some_iff.mp h
      obtain ⟨others, hrest, h⟩ := Option.bind_eq_some_iff.mp h
      cases h
      rw [List.map_cons, ← ih hrest]
      exact congrArg (· :: rest) hfirst

/-- Bytes without faults need no replacement. -/
theorem decodeLossy_of_decode? {bytes : List UInt8} {text : String}
    (h : decode? bytes = some text) : decodeLossy bytes = text := by
  obtain ⟨chars, hchars, rfl⟩ := Option.map_eq_some_iff.mp h
  rw [decodeLossy, eq_map_some_of_mapM_id hchars, List.map_map]
  exact congrArg String.ofList (List.map_id chars)

/-! ## Encoding what was decoded -/

/-- A byte after the first is given by its six bits. -/
theorem continuation_eq {byte : UInt8} (h : isContinuation byte = true) {bits : Nat}
    (hbits : bits % 64 = bitsOf byte) : continuation bits = byte := by
  simp only [isContinuation, Bool.and_eq_true, decide_eq_true_eq, UInt8.le_iff_toNat_le,
    UInt8.toNat_ofNat] at h
  rw [bitsOf] at hbits
  rw [← UInt8.toNat_inj, toNat_continuation]
  omega

theorem ofNat_eq {byte : UInt8} {code : Nat} (h : code = byte.toNat) : UInt8.ofNat code = byte := by
  rw [h, UInt8.ofNat_toNat]

theorem toNat_ofNat {code : Nat} (h : code < 0xD800 ∨ 0xDFFF < code ∧ code < 0x110000) :
    (Char.ofNat code).toNat = code := by
  have hvalid : code.isValidChar := by
    rw [Nat.isValidChar]
    omega
  rw [Char.ofNat, dif_pos hvalid]
  rfl

theorem encodeChar_one {first : UInt8} (h : first.toNat < 0x80) :
    encodeChar (Char.ofNat first.toNat) = [first] := by
  rw [encodeChar, toNat_ofNat (by omega), if_pos h, UInt8.ofNat_toNat]

section Sequences

variable {first second third fourth : UInt8}

theorem encodeChar_two (hlow : 0xC2 ≤ first.toNat) (hhigh : first.toNat ≤ 0xDF)
    (hsecond : isContinuation second = true) :
    encodeChar (Char.ofNat (first.toNat % 32 * 64 + bitsOf second)) = [first, second] := by
  have hbits : bitsOf second < 64 := Nat.mod_lt _ (by decide)
  have hcode := @toNat_ofNat (first.toNat % 32 * 64 + bitsOf second) (by omega)
  have hfirst : UInt8.ofNat (0xC0 + (first.toNat % 32 * 64 + bitsOf second) / 64) = first :=
    ofNat_eq (by omega)
  rw [encodeChar, hcode, if_neg (by omega), if_pos (by omega), hfirst,
    continuation_eq hsecond (by omega)]

theorem encodeChar_three (hlow : 0xE0 ≤ first.toNat) (hhigh : first.toNat ≤ 0xEF)
    (hsecond : beginsThree first second = true) (hthird : isContinuation third = true) :
    encodeChar (Char.ofNat (first.toNat % 16 * 4096 + bitsOf second * 64 + bitsOf third)) =
      [first, second, third] := by
  have hsecondBits : bitsOf second < 64 := Nat.mod_lt _ (by decide)
  have hthirdBits : bitsOf third < 64 := Nat.mod_lt _ (by decide)
  simp only [beginsThree, Bool.and_eq_true, Bool.or_eq_true, bne_iff_ne, ne_eq, decide_eq_true_eq,
    UInt8.le_iff_toNat_le, ← UInt8.toNat_inj, UInt8.toNat_ofNat] at hsecond
  obtain ⟨⟨hcontinues, hoverlong⟩, hsurrogate⟩ := hsecond
  have hcode : ∀ code, code = first.toNat % 16 * 4096 + bitsOf second * 64 + bitsOf third →
      0x800 ≤ code ∧ (code < 0xD800 ∨ 0xDFFF < code ∧ code < 0x10000) := by
    intro code hcode
    have hrange := hcontinues
    simp only [isContinuation, Bool.and_eq_true, decide_eq_true_eq, UInt8.le_iff_toNat_le,
      UInt8.toNat_ofNat] at hrange
    simp only [bitsOf] at hcode hthirdBits
    omega
  generalize hvalue : first.toNat % 16 * 4096 + bitsOf second * 64 + bitsOf third = code at hcode ⊢
  obtain ⟨hlarge, hrange⟩ := hcode code rfl
  have hfirst : UInt8.ofNat (0xE0 + code / 4096) = first := ofNat_eq (by omega)
  rw [encodeChar, toNat_ofNat (by omega), if_neg (by omega), if_neg (by omega), if_pos (by omega),
    hfirst, continuation_eq hcontinues (by omega), continuation_eq hthird (by omega)]

theorem encodeChar_four (hlow : 0xF0 ≤ first.toNat) (hhigh : first.toNat ≤ 0xF4)
    (hsecond : beginsFour first second = true) (hthird : isContinuation third = true)
    (hfourth : isContinuation fourth = true) :
    encodeChar (Char.ofNat (first.toNat % 8 * 262144 + bitsOf second * 4096 + bitsOf third * 64 +
      bitsOf fourth)) = [first, second, third, fourth] := by
  have hsecondBits : bitsOf second < 64 := Nat.mod_lt _ (by decide)
  have hthirdBits : bitsOf third < 64 := Nat.mod_lt _ (by decide)
  have hfourthBits : bitsOf fourth < 64 := Nat.mod_lt _ (by decide)
  simp only [beginsFour, Bool.and_eq_true, Bool.or_eq_true, bne_iff_ne, ne_eq, decide_eq_true_eq,
    UInt8.le_iff_toNat_le, ← UInt8.toNat_inj, UInt8.toNat_ofNat] at hsecond
  obtain ⟨⟨hcontinues, hoverlong⟩, hlarge⟩ := hsecond
  have hcode : ∀ code, code = first.toNat % 8 * 262144 + bitsOf second * 4096 + bitsOf third * 64 +
      bitsOf fourth → 0x10000 ≤ code ∧ code < 0x110000 := by
    intro code hcode
    have hrange := hcontinues
    simp only [isContinuation, Bool.and_eq_true, decide_eq_true_eq, UInt8.le_iff_toNat_le,
      UInt8.toNat_ofNat] at hrange
    simp only [bitsOf] at hcode hthirdBits hfourthBits
    omega
  generalize hvalue : first.toNat % 8 * 262144 + bitsOf second * 4096 + bitsOf third * 64 +
    bitsOf fourth = code at hcode ⊢
  obtain ⟨hsmallest, hrange⟩ := hcode code rfl
  have hfirst : UInt8.ofNat (0xF0 + code / 262144) = first := ofNat_eq (by omega)
  rw [encodeChar, toNat_ofNat (by omega), if_neg (by omega), if_neg (by omega), if_neg (by omega),
    hfirst, continuation_eq hcontinues (by omega), continuation_eq hthird (by omega),
    continuation_eq hfourth (by omega)]

end Sequences

theorem exists_of_cons_eq_map_some {α : Type} {first : Option α} {rest : List (Option α)}
    {values : List α} (h : first :: rest = values.map some) :
    ∃ value others, first = some value ∧ values = value :: others ∧ rest = others.map some := by
  cases values with
  | nil => cases h
  | cons value others => exact ⟨value, others, (List.cons.inj h).1, rfl, (List.cons.inj h).2⟩

/-- Bytes that decode without a fault are those of the characters they decode to. -/
theorem flatMap_encodeChar_of_decode {bytes : List UInt8} {chars : List Char}
    (h : decode bytes = chars.map some) : chars.flatMap encodeChar = bytes := by
  have htoNat : ∀ {low high byte : UInt8}, (decide (low ≤ byte) && decide (byte ≤ high)) = true →
      low.toNat ≤ byte.toNat ∧ byte.toNat ≤ high.toNat := by
    intro low high byte hrange
    simpa [UInt8.le_iff_toNat_le] using hrange
  fun_induction decode bytes generalizing chars with
  | case1 =>
      rw [List.map_eq_nil_iff.mp h.symm]
      rfl
  | case2 first rest hone ih =>
      obtain ⟨c, others, hc, rfl, hrest⟩ := exists_of_cons_eq_map_some h
      cases hc
      rw [List.flatMap_cons, ih hrest, encodeChar_one (UInt8.lt_iff_toNat_lt.mp hone)]
      rfl
  | case3 first _ htwo second rest hsecond ih =>
      obtain ⟨c, others, hc, rfl, hrest⟩ := exists_of_cons_eq_map_some h
      cases hc
      rw [List.flatMap_cons, ih hrest, encodeChar_two (htoNat htwo).1 (htoNat htwo).2 hsecond]
      rfl
  | case8 first _ _ hthree second third rest hsecond hthird ih =>
      obtain ⟨c, others, hc, rfl, hrest⟩ := exists_of_cons_eq_map_some h
      cases hc
      rw [Bool.not_eq_true, Bool.not_eq_false'] at hsecond hthird
      rw [List.flatMap_cons, ih hrest,
        encodeChar_three (htoNat hthree).1 (htoNat hthree).2 hsecond hthird]
      rfl
  | case15 first _ _ _ hfour second third fourth rest hsecond hthird hfourth ih =>
      obtain ⟨c, others, hc, rfl, hrest⟩ := exists_of_cons_eq_map_some h
      cases hc
      rw [Bool.not_eq_true, Bool.not_eq_false'] at hsecond hthird hfourth
      rw [List.flatMap_cons, ih hrest,
        encodeChar_four (htoNat hfour).1 (htoNat hfour).2 hsecond hthird hfourth]
      rfl
  | _ =>
      -- The head is a fault.
      obtain ⟨c, others, hc, -⟩ := exists_of_cons_eq_map_some h
      cases hc

/-- A text is what exactly its bytes decode to. -/
theorem decode?_eq_some_iff {bytes : List UInt8} {text : String} :
    decode? bytes = some text ↔ bytes = encode text := by
  constructor
  · intro h
    obtain ⟨chars, hchars, rfl⟩ := Option.map_eq_some_iff.mp h
    rw [encode, String.toList_ofList]
    exact (flatMap_encodeChar_of_decode (eq_map_some_of_mapM_id hchars)).symm
  · intro h
    rw [h, decode?_encode]

end LiveExports.Text

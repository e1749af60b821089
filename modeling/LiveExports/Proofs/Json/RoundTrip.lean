import LiveExports.Json.Reader
import LiveExports.Json.Writer
import LiveExports.Proofs.Text.Utf8

/-!
# Reading what was written

A document whose numbers are natural and in which nothing is torn is read back from its text, in
either layout and with any text after it that does not go on with a number.  Space in the text is
only what the layout puts between values, which every reader passes over.

The readers of values, elements and members are bounded by a count.  Each of them hands on all of it
but one, and what is written takes at least one character for every such step; so twice the length
of the text is always enough.
-/

namespace LiveExports.Json

/-- The documents that can be read back: nothing in them is torn, and numbers are natural. -/
inductive Plain : Value → Prop where
  | null : Plain .null
  | bool (value : Bool) : Plain (.bool value)
  | natural (n : Nat) : Plain (.natural n)
  | string (text : String) : Plain (.string text)
  | array {elements : List Value} (h : ∀ element ∈ elements, Plain element) :
      Plain (.array elements)
  | object {members : List (String × Value)} (h : ∀ member ∈ members, Plain member.2) :
      Plain (.object members)

theorem Plain.noMembers : Plain (.object []) :=
  .object (by simp)

theorem Plain.withMember {key : String} {value : Value} {members : List (String × Value)}
    (hvalue : Plain value) (hmembers : Plain (.object members)) :
    Plain (.object ((key, value) :: members)) := by
  cases hmembers with
  | object h => exact .object (List.forall_mem_cons.mpr ⟨hvalue, h⟩)

theorem Plain.arrayOf {α : Type} {encode : α → Value} (h : ∀ a, Plain (encode a)) (list : List α) :
    Plain (.array (list.map encode)) :=
  .array (by simpa using fun a _ => h a)

theorem Plain.objectOf {α : Type} {encode : α → String × Value} (h : ∀ a, Plain (encode a).2)
    (list : List α) : Plain (.object (list.map encode)) := by
  refine .object fun member hmember => ?_
  obtain ⟨a, -, rfl⟩ := List.mem_map.mp hmember
  exact h a

/-! ## Space -/

theorem skipSpace_cons {c : Char} (h : isSpace c = false) (rest : List Char) :
    skipSpace (c :: rest) = c :: rest := by
  simp [skipSpace, h]

@[simp] theorem skipSpace_lineBreak_append (layout : Layout) (level : Nat) (rest : List Char) :
    skipSpace (layout.lineBreak level ++ rest) = skipSpace rest := by
  cases layout with
  | compact => rfl
  | indented =>
      have hblanks : ∀ n, skipSpace (List.replicate n ' ' ++ rest) = skipSpace rest := by
        intro n
        induction n with
        | zero => rfl
        | succ n ih => simpa [List.replicate_succ, skipSpace, isSpace] using ih
      simpa [Layout.lineBreak, skipSpace, isSpace] using hblanks (2 * level)

theorem skipSpace_colon_append (layout : Layout) (rest : List Char) :
    ∃ after, skipSpace (layout.colon ++ rest) = ':' :: after ∧
      skipSpace after = skipSpace rest := by
  cases layout with
  | compact => exact ⟨rest, rfl, rfl⟩
  | indented => exact ⟨' ' :: rest, rfl, by simp [skipSpace, isSpace]⟩

/-- A value is looked for after any space. -/
theorem value?_eq_of_skipSpace_eq {text other : List Char} (h : skipSpace text = skipSpace other)
    (fuel : Nat) : value? fuel text = value? fuel other := by
  cases fuel with
  | zero => rw [value?, value?]
  | succ fuel => rw [value?, value?, h]

theorem elements?_eq_of_skipSpace_eq {text other : List Char} (h : skipSpace text = skipSpace other)
    (fuel : Nat) : elements? fuel text = elements? fuel other := by
  cases fuel with
  | zero => rw [elements?, elements?]
  | succ fuel => rw [elements?, elements?, value?_eq_of_skipSpace_eq h]

theorem members?_eq_of_skipSpace_eq {text other : List Char} (h : skipSpace text = skipSpace other)
    (fuel : Nat) : members? fuel text = members? fuel other := by
  cases fuel with
  | zero => rw [members?, members?]
  | succ fuel => rw [members?, members?, h]

/-! ## Numbers -/

/-- Nothing at the head of the text goes on with a number. -/
def EndsNumber (rest : List Char) : Prop :=
  ∀ c ∈ rest.head?, c.isDigit = false ∧ c ≠ '.' ∧ c ≠ 'e' ∧ c ≠ 'E'

theorem endsNumber_nil : EndsNumber [] := by
  simp [EndsNumber]

theorem endsNumber_cons {c : Char} {rest : List Char}
    (h : c.isDigit = false ∧ c ≠ '.' ∧ c ≠ 'e' ∧ c ≠ 'E') : EndsNumber (c :: rest) := by
  simpa [EndsNumber] using h

/-- A line break, or what comes after it in the layout that has none, ends a number. -/
theorem endsNumber_lineBreak_append (layout : Layout) (level : Nat) {rest : List Char}
    (h : EndsNumber rest) : EndsNumber (layout.lineBreak level ++ rest) := by
  cases layout with
  | compact => exact h
  | indented => exact endsNumber_cons (by decide)

theorem isDigit_of_mem_toDigits {n : Nat} {c : Char} (h : c ∈ Nat.toDigits 10 n) :
    c.isDigit = true :=
  Nat.isDigit_of_mem_toDigits (by omega) (by omega) h

theorem ne_of_isDigit {c other : Char} (h : c.isDigit = true) (hother : other.isDigit = false) :
    c ≠ other := by
  rintro rfl
  exact absurd (h.symm.trans hother) (by decide)

theorem isSpace_of_isDigit {c : Char} (h : c.isDigit = true) : isSpace c = false := by
  have hspace : c ≠ ' ' ∧ c ≠ '\t' ∧ c ≠ '\n' ∧ c ≠ '\r' :=
    ⟨ne_of_isDigit h (by decide), ne_of_isDigit h (by decide), ne_of_isDigit h (by decide),
      ne_of_isDigit h (by decide)⟩
  simp [isSpace, hspace]

/-- The digits of a number, the first one apart. -/
theorem exists_toDigits_eq_cons (n : Nat) :
    ∃ first others, Nat.toDigits 10 n = first :: others ∧ first.isDigit = true := by
  obtain ⟨first, others, hdigits⟩ :=
    List.exists_cons_of_ne_nil (Nat.toDigits_ne_nil (b := 10) (n := n))
  exact ⟨first, others, hdigits, isDigit_of_mem_toDigits (n := n) (by simp [hdigits])⟩

/-- A number other than zero does not begin with zero. -/
theorem toDigits_eq_cons {n : Nat} (h : n ≠ 0) :
    ∃ first others, Nat.toDigits 10 n = first :: others ∧ first ≠ '0' := by
  induction n using Nat.strongRecOn with
  | ind n ih =>
      by_cases hsmall : n < 10
      · have hdigit : ∀ d < 10, d ≠ 0 → Nat.digitChar d ≠ '0' := by decide
        exact ⟨n.digitChar, [], Nat.toDigits_of_lt_base hsmall, hdigit n hsmall h⟩
      · obtain ⟨first, others, hdigits, hfirst⟩ := ih (n / 10) (by omega) (by omega)
        refine ⟨first, others ++ [(n % 10).digitChar], ?_, hfirst⟩
        rw [Nat.toDigits_of_base_le (by omega) (by omega), hdigits, List.cons_append]

theorem digits?_append {run rest : List Char} (hrun : ∀ c ∈ run, c.isDigit = true) (hne : run ≠ [])
    (hrest : EndsNumber rest) : digits? (run ++ rest) = some (run, rest) := by
  have hstop : rest.takeWhile Char.isDigit = [] ∧ rest.dropWhile Char.isDigit = rest := by
    cases rest with
    | nil => exact ⟨rfl, rfl⟩
    | cons c rest => simp [(hrest c rfl).1]
  simp [digits?, List.takeWhile_append_of_pos hrun, List.dropWhile_append_of_pos hrun, hstop, hne]

theorem wholePart?_toDigits_append (n : Nat) {rest : List Char} (hrest : EndsNumber rest) :
    wholePart? (Nat.toDigits 10 n ++ rest) = some (Nat.toDigits 10 n, rest) := by
  by_cases hzero : n = 0
  · subst hzero
    have hstop : rest.head?.any Char.isDigit = false := by
      cases rest with
      | nil => rfl
      | cons c rest => simpa using (hrest c rfl).1
    simp [Nat.toDigits_zero, wholePart?, hstop]
  · have hdigits := digits?_append (fun c => isDigit_of_mem_toDigits (n := n))
      Nat.toDigits_ne_nil hrest
    rw [wholePart?, hdigits]
    intro more hmore
    obtain ⟨first, others, hcons, hfirst⟩ := toDigits_eq_cons hzero
    rw [hcons, List.cons_append] at hmore
    exact hfirst (List.cons.inj hmore).1

theorem fraction?_of_endsNumber {rest : List Char} (h : EndsNumber rest) :
    fraction? rest = some ([], rest) := by
  rw [fraction?]
  intro more hmore
  subst hmore
  exact (h '.' rfl).2.1 rfl

theorem exponent?_of_endsNumber {rest : List Char} (h : EndsNumber rest) :
    exponent? rest = some ([], rest) := by
  cases rest with
  | nil => rfl
  | cons c rest =>
      have hmark := (h c rfl).2.2
      simp [exponent?, hmark]

theorem number?_toDigits_append (n : Nat) {rest : List Char} (hrest : EndsNumber rest) :
    number? (Nat.toDigits 10 n ++ rest) = some (Nat.toDigits 10 n, rest) := by
  have hunsigned : unsigned? (Nat.toDigits 10 n ++ rest) = some (Nat.toDigits 10 n, rest) := by
    simp [unsigned?, wholePart?_toDigits_append n hrest, fraction?_of_endsNumber hrest,
      exponent?_of_endsNumber hrest]
  rw [number?, hunsigned]
  intro more hmore
  obtain ⟨first, others, hdigits, hfirst⟩ := exists_toDigits_eq_cons n
  rw [hdigits, List.cons_append] at hmore
  exact ne_of_isDigit hfirst (by decide) (List.cons.inj hmore).1

/-! ## Strings -/

theorem stringBody?_plain {c : Char} (hquote : c ≠ '"') (hslash : c ≠ '\\')
    (hcode : 0x20 ≤ c.toNat) (rest : List Char) :
    stringBody? (c :: rest) = (stringBody? rest).map fun body => (some c :: body.1, body.2) := by
  rw [stringBody?]
  · simp [hslash, Nat.not_lt.mpr hcode]
  · simpa using hquote
  · simp [hslash]
  · simp [hslash]

theorem stringBody?_simpleEscape {mark c : Char} (hmark : simpleEscape? mark = some c)
    (rest : List Char) :
    stringBody? ('\\' :: mark :: rest) =
      (stringBody? rest).map fun body => (some c :: body.1, body.2) := by
  rw [stringBody?]
  · simp [hmark]
  · rintro a b c' d more h
    cases h
    simp [simpleEscape?] at hmark

theorem hexValue?_digitChar : ∀ digit < 16, hexValue? (Nat.digitChar digit) = some digit := by
  decide

theorem stringBody?_codeEscape {c : Char} (hcode : c.toNat < 0x20) (rest : List Char) :
    stringBody? ('\\' :: 'u' :: '0' :: '0' :: hexDigit (c.toNat / 16) :: hexDigit c.toNat :: rest) =
      (stringBody? rest).map fun body => (some c :: body.1, body.2) := by
  have hunit :
      codeUnit? '0' '0' (hexDigit (c.toNat / 16)) (hexDigit c.toNat) = some c.toNat := by
    have hzero : hexValue? '0' = some 0 := by decide
    have hcode' : c.toNat / 16 % 16 * 16 + c.toNat % 16 = c.toNat := by omega
    simp [codeUnit?, hexDigit, hexValue?_digitChar _ (Nat.mod_lt _ (by omega : 16 > 0)), hzero,
      hcode']
  have hlow : c.toNat < 0xD800 := by omega
  rw [stringBody?.eq_def]
  simp [hunit, hlow, Char.ofNat_toNat]

/-- An escaped character is read as the character. -/
theorem stringBody?_escape_append (c : Char) (rest : List Char) :
    stringBody? (escape c ++ rest) =
      (stringBody? rest).map fun body => (some c :: body.1, body.2) := by
  have hchar : ∀ n, c.toNat = n → c = Char.ofNat n := by
    rintro n rfl
    exact (Char.ofNat_toNat c).symm
  unfold escape
  split
  · next h => exact stringBody?_simpleEscape (by simp [simpleEscape?, h]) rest
  split
  · next h => exact stringBody?_simpleEscape (by simp [simpleEscape?, h]) rest
  split
  · next hquote hslash hcode => exact stringBody?_plain hquote hslash hcode rest
  split
  · next h => exact stringBody?_simpleEscape (by simp [simpleEscape?, hchar _ h]) rest
  split
  · next h => exact stringBody?_simpleEscape (by simp [simpleEscape?, hchar _ h]) rest
  split
  · next h => exact stringBody?_simpleEscape (by simp [simpleEscape?, hchar _ h]) rest
  split
  · next h => exact stringBody?_simpleEscape (by simp [simpleEscape?, hchar _ h]) rest
  split
  · next h => exact stringBody?_simpleEscape (by simp [simpleEscape?, hchar _ h]) rest
  · next hcode _ _ _ _ _ => exact stringBody?_codeEscape (by omega) rest

theorem stringBody?_escaped (chars rest : List Char) :
    stringBody? (chars.flatMap escape ++ '"' :: rest) = some (chars.map some, rest) := by
  induction chars with
  | nil => simp [stringBody?]
  | cons c chars ih =>
      rw [List.flatMap_cons, List.append_assoc, stringBody?_escape_append, ih]
      rfl

theorem wholeText?_map_some (text : String) :
    wholeText? (text.toList.map some) = some text := by
  rw [wholeText?, Text.mapM_id_map_some, Option.map_some, String.ofList_toList]

theorem quote_append (text : String) (rest : List Char) :
    quote text ++ rest = '"' :: (text.toList.flatMap escape ++ '"' :: rest) := by
  simp [quote]

theorem stringValue?_escaped (text : String) (rest : List Char) :
    stringValue? (text.toList.flatMap escape ++ '"' :: rest) = some (.string text, rest) := by
  simp [stringValue?, stringBody?_escaped, wholeText?_map_some]

theorem key?_quote_append (text : String) (rest : List Char) :
    key? (quote text ++ rest) = some (some text, rest) := by
  rw [quote_append]
  simp [key?, stringBody?_escaped, wholeText?_map_some]

/-! ## Values -/

/-- What the text of a value begins with: neither space nor a closing bracket. -/
theorem Plain.write_eq_cons {value : Value} (h : Plain value) (layout : Layout) (level : Nat) :
    ∃ first more, value.write layout level = first :: more ∧ isSpace first = false ∧
      first ≠ ']' := by
  cases h with
  | null => exact ⟨_, _, rfl, by decide, by decide⟩
  | bool value => cases value <;> exact ⟨_, _, rfl, by decide, by decide⟩
  | natural n =>
      obtain ⟨first, others, hdigits, hfirst⟩ := exists_toDigits_eq_cons n
      exact ⟨first, others, by simpa [Value.natural, Value.write] using hdigits,
        isSpace_of_isDigit hfirst, ne_of_isDigit hfirst (by decide)⟩
  | string text => exact ⟨_, _, by rw [Value.write, quote]; rfl, by decide, by decide⟩
  | @array elements h =>
      cases elements with
      | nil => exact ⟨_, _, rfl, by decide, by decide⟩
      | cons first rest => exact ⟨_, _, by rw [Value.write]; rfl, by decide, by decide⟩
  | @object members h =>
      cases members with
      | nil => exact ⟨_, _, rfl, by decide, by decide⟩
      | cons first rest => exact ⟨_, _, by rw [Value.write]; rfl, by decide, by decide⟩

/-- The value is read back from its text at a level, whatever follows. -/
def ReadsBack (layout : Layout) (level : Nat) (value : Value) : Prop :=
  ∀ (fuel : Nat) (rest : List Char), 2 * (value.write layout level).length ≤ fuel →
    EndsNumber rest → value? fuel (value.write layout level ++ rest) = some (value, rest)

theorem readsBack_natural (layout : Layout) (level n : Nat) :
    ReadsBack layout level (.natural n) := by
  intro fuel rest hfuel hrest
  obtain ⟨first, others, hdigits, hfirst⟩ := exists_toDigits_eq_cons n
  have hnumber := number?_toDigits_append n hrest
  have hwrite : (Value.natural n).write layout level = first :: others := by
    simpa [Value.natural, Value.write] using hdigits
  have hother : ∀ c, c.isDigit = false → first ≠ c := fun c => ne_of_isDigit hfirst
  rw [hwrite] at hfuel ⊢
  rw [hdigits] at hnumber
  cases fuel with
  | zero => simp at hfuel
  | succ fuel =>
      rw [List.cons_append] at hnumber ⊢
      rw [value?, skipSpace_cons (isSpace_of_isDigit hfirst)]
      split
      · next h => exact absurd (List.cons.inj h).1 (hother 'n' (by decide))
      · next h => exact absurd (List.cons.inj h).1 (hother 't' (by decide))
      · next h => exact absurd (List.cons.inj h).1 (hother 'f' (by decide))
      · next h => exact absurd (List.cons.inj h).1 (hother '"' (by decide))
      · next h => exact absurd (List.cons.inj h).1 (hother '[' (by decide))
      · next h => exact absurd (List.cons.inj h).1 (hother '\x7b' (by decide))
      · rw [hnumber, Value.natural, hdigits]
        rfl

theorem readsBack_string (layout : Layout) (level : Nat) (text : String) :
    ReadsBack layout level (.string text) := by
  intro fuel rest hfuel _
  rw [Value.write] at hfuel ⊢
  cases fuel with
  | zero => simp [quote] at hfuel
  | succ fuel =>
      rw [quote_append, value?, skipSpace_cons (by decide)]
      exact stringValue?_escaped text rest

/-! ## Arrays and objects -/

/-- The elements from some element on are read back, up to the closing bracket. -/
theorem elements?_write {layout : Layout} {level : Nat} {closing after : List Char}
    (hclosing : skipSpace closing = ']' :: after) (hends : EndsNumber closing)
    (first : Value) (others : List Value)
    (hback : ∀ value ∈ first :: others, ReadsBack layout level value) (fuel : Nat)
    (hfuel : 2 * ((first.write layout level).length +
      (writeElements layout level others).length) < fuel) :
    elements? fuel (first.write layout level ++ writeElements layout level others ++ closing) =
      some (first :: others, after) := by
  induction others generalizing first fuel with
  | nil =>
      obtain ⟨fuel, rfl⟩ := Nat.exists_eq_succ_of_ne_zero (by omega : fuel ≠ 0)
      simp only [writeElements, List.length_nil, List.append_nil] at hfuel ⊢
      rw [elements?, hback first (by simp) fuel closing (by omega) hends]
      simp only [hclosing]
  | cons second others ih =>
      obtain ⟨fuel, rfl⟩ := Nat.exists_eq_succ_of_ne_zero (by omega : fuel ≠ 0)
      simp only [writeElements, List.length_cons, List.length_append] at hfuel
      have hrest := ih second (fun value hvalue => hback value (List.mem_cons_of_mem _ hvalue)) fuel
        (by omega)
      have hfirst := hback first (by simp) fuel
        (writeElements layout level (second :: others) ++ closing) (by omega)
        (endsNumber_cons (by decide))
      rw [elements?, List.append_assoc, hfirst]
      simp only [writeElements, List.cons_append, List.append_assoc] at hrest ⊢
      rw [skipSpace_cons (by decide)]
      simp only
      rw [elements?_eq_of_skipSpace_eq (skipSpace_lineBreak_append layout level _), hrest]
      rfl

/-- The members from some member on are read back, up to the closing brace. -/
theorem members?_write {layout : Layout} {level : Nat} {closing after : List Char}
    (hclosing : skipSpace closing = '\x7d' :: after) (hends : EndsNumber closing)
    (key : String) (first : Value) (others : List (String × Value))
    (hback : ∀ member ∈ (key, first) :: others, ReadsBack layout level member.2) (fuel : Nat)
    (hfuel : 2 * ((first.write layout level).length +
      (writeMembers layout level others).length) < fuel) :
    members? fuel (quote key ++ layout.colon ++ first.write layout level ++
      writeMembers layout level others ++ closing) =
      some (((key, first) :: others).map fun member => (some member.1, member.2), after) := by
  induction others generalizing key first fuel with
  | nil =>
      obtain ⟨fuel, rfl⟩ := Nat.exists_eq_succ_of_ne_zero (by omega : fuel ≠ 0)
      simp only [writeMembers, List.length_nil, List.append_nil, List.append_assoc] at hfuel ⊢
      obtain ⟨start, hcolon, hstart⟩ :=
        skipSpace_colon_append layout (first.write layout level ++ closing)
      have hfirst : ReadsBack layout level first := hback (key, first) (by simp)
      rw [members?, quote_append, skipSpace_cons (by decide), ← quote_append, key?_quote_append]
      simp only [hcolon, value?_eq_of_skipSpace_eq hstart, hfirst fuel closing (by omega) hends,
        hclosing]
      rfl
  | cons second others ih =>
      obtain ⟨fuel, rfl⟩ := Nat.exists_eq_succ_of_ne_zero (by omega : fuel ≠ 0)
      obtain ⟨secondKey, second⟩ := second
      simp only [writeMembers, List.length_cons, List.length_append] at hfuel
      have hrest := ih secondKey second
        (fun member hmember => hback member (List.mem_cons_of_mem _ hmember)) fuel (by omega)
      have hfirst : ReadsBack layout level first := hback (key, first) (by simp)
      have hread :=
        hfirst fuel (writeMembers layout level ((secondKey, second) :: others) ++ closing)
        (by omega) (endsNumber_cons (by decide))
      obtain ⟨start, hcolon, hstart⟩ := skipSpace_colon_append layout (first.write layout level ++
        (writeMembers layout level ((secondKey, second) :: others) ++ closing))
      simp only [List.append_assoc] at hrest ⊢
      rw [members?, quote_append, skipSpace_cons (by decide), ← quote_append, key?_quote_append]
      simp only [hcolon, value?_eq_of_skipSpace_eq hstart, hread]
      simp only [writeMembers, List.cons_append, List.append_assoc]
      rw [skipSpace_cons (by decide)]
      simp only
      rw [members?_eq_of_skipSpace_eq (skipSpace_lineBreak_append layout level _), hrest]
      rfl

theorem readsBack_array {layout : Layout} {level : Nat} {elements : List Value}
    (hplain : ∀ element ∈ elements, Plain element)
    (hback : ∀ element ∈ elements, ReadsBack layout (level + 1) element) :
    ReadsBack layout level (.array elements) := by
  intro fuel rest hfuel _
  cases elements with
  | nil =>
      obtain ⟨fuel, rfl⟩ := Nat.exists_eq_succ_of_ne_zero
        (by simp only [Value.write, List.length_cons] at hfuel; omega : fuel ≠ 0)
      rw [Value.write, List.cons_append, value?, skipSpace_cons (by decide)]
      simp only [List.cons_append]
      rw [skipSpace_cons (by decide)]
      rfl
  | cons first others =>
      have hclosing : skipSpace (layout.lineBreak level ++ ']' :: rest) = ']' :: rest := by
        rw [skipSpace_lineBreak_append, skipSpace_cons (by decide)]
      have hends : EndsNumber (layout.lineBreak level ++ ']' :: rest) :=
        endsNumber_lineBreak_append layout level (endsNumber_cons (by decide))
      simp only [Value.write, List.length_cons, List.length_append] at hfuel
      obtain ⟨fuel, rfl⟩ := Nat.exists_eq_succ_of_ne_zero (by omega : fuel ≠ 0)
      have hread := elements?_write hclosing hends first others hback fuel (by omega)
      obtain ⟨opening, more, hwrite, hspace, hbracket⟩ :=
        (hplain first (by simp)).write_eq_cons layout (level + 1)
      simp only [Value.write, List.cons_append, List.append_assoc] at hread ⊢
      rw [value?, skipSpace_cons (by decide)]
      simp only [skipSpace_lineBreak_append, List.nil_append]
      rw [hwrite, List.cons_append] at hread ⊢
      rw [skipSpace_cons hspace]
      split
      · next h => exact absurd (List.cons.inj h).1 hbracket
      · rw [hread]
        rfl

theorem objectValue_whole (members : List (String × Value)) :
    objectValue (members.map fun member => (some member.1, member.2)) = .object members := by
  have hwhole : (members.map fun member => (some member.1, member.2)).mapM wholeMember? =
      some members := by
    induction members with
    | nil => rfl
    | cons member members ih => simp [List.mapM_cons, wholeMember?, ih]
  rw [objectValue, hwhole]
  rfl

theorem readsBack_object {layout : Layout} {level : Nat} {members : List (String × Value)}
    (hback : ∀ member ∈ members, ReadsBack layout (level + 1) member.2) :
    ReadsBack layout level (.object members) := by
  intro fuel rest hfuel _
  cases members with
  | nil =>
      obtain ⟨fuel, rfl⟩ := Nat.exists_eq_succ_of_ne_zero
        (by simp only [Value.write, List.length_cons] at hfuel; omega : fuel ≠ 0)
      rw [Value.write, List.cons_append, value?, skipSpace_cons (by decide)]
      simp only [List.cons_append]
      rw [skipSpace_cons (by decide)]
      rfl
  | cons first others =>
      obtain ⟨key, first⟩ := first
      have hclosing : skipSpace (layout.lineBreak level ++ '\x7d' :: rest) = '\x7d' :: rest := by
        rw [skipSpace_lineBreak_append, skipSpace_cons (by decide)]
      have hends : EndsNumber (layout.lineBreak level ++ '\x7d' :: rest) :=
        endsNumber_lineBreak_append layout level (endsNumber_cons (by decide))
      simp only [Value.write, List.length_cons, List.length_append] at hfuel
      obtain ⟨fuel, rfl⟩ := Nat.exists_eq_succ_of_ne_zero (by omega : fuel ≠ 0)
      have hread := members?_write hclosing hends key first others hback fuel (by omega)
      simp only [Value.write, List.cons_append, List.append_assoc] at hread ⊢
      rw [value?, skipSpace_cons (by decide)]
      simp only [skipSpace_lineBreak_append, List.nil_append]
      rw [quote_append] at hread ⊢
      rw [skipSpace_cons (by decide)]
      split
      · next h => exact absurd (List.cons.inj h).1 (by decide)
      · simp only [hread, Option.map_some, objectValue_whole]

/-! ## Documents -/

theorem Plain.readsBack {value : Value} (h : Plain value) (layout : Layout) (level : Nat) :
    ReadsBack layout level value := by
  induction h generalizing level with
  | null =>
      intro fuel rest hfuel _
      obtain ⟨fuel, rfl⟩ := Nat.exists_eq_succ_of_ne_zero
        (by simp only [Value.write, List.length_cons] at hfuel; omega : fuel ≠ 0)
      rfl
  | bool value =>
      intro fuel rest hfuel _
      obtain ⟨fuel, rfl⟩ := Nat.exists_eq_succ_of_ne_zero
        (by cases value <;> simp only [Value.write, List.length_cons] at hfuel <;> omega : fuel ≠ 0)
      cases value <;> rfl
  | natural n => exact readsBack_natural layout level n
  | string text => exact readsBack_string layout level text
  | array hplain ih => exact readsBack_array hplain fun element helement => ih element helement _
  | object _ ih => exact readsBack_object fun member hmember => ih member hmember _

/-- A document is read back from its text. -/
theorem Plain.read?_write {value : Value} (h : Plain value) (layout : Layout) :
    read? (String.ofList (value.write layout 0)) = some value := by
  have hback := h.readsBack layout 0 (2 * (value.write layout 0).length + 1) [] (by omega)
    endsNumber_nil
  rw [List.append_nil] at hback
  simp only [read?, String.toList_ofList, hback]
  rfl

end LiveExports.Json

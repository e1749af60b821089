import LiveExports.Json.Reader
import LiveExports.Proofs.Source.Blanking
import LiveExports.Source.Reading

/-!
# Documents as sources

A JSON document is never refused as a source (`Source.exists_read_of_document`).  Outside of its
strings there is no slash, so that it has no comments, and no letter that the word `import` begins
with; and its strings do not go beyond the end of a line, so that no line begins inside of one.
-/

namespace LiveExports.Json

open Source

/-- Characters that do not stand outside of the strings of a document. -/
def foreignChars : List Char :=
  ['/', '\'', '"', templateQuote, 'i']

/-- From a text to what is left of it after a part of a document. -/
def Spans (text rest : List Char) : Prop :=
  PassesTo (· ∉ foreignChars) rest text

/-- Where a reader changes only what was read, what is left is left by the reader inside. -/
theorem exists_of_map_eq_some {α β : Type} {change : α × List Char → β × List Char}
    {inner : Option (α × List Char)} {read : β} {rest : List Char}
    (h : inner.map change = some (read, rest)) (hchange : ∀ read, (change read).2 = read.2) :
    ∃ inside, inner = some (inside, rest) := by
  obtain ⟨⟨inside, after⟩, hinner, heq⟩ := Option.map_eq_some_iff.mp h
  have hafter : rest = after := by
    rw [← show (read, rest).2 = rest from rfl, ← heq]
    exact hchange (inside, after)
  exact ⟨inside, by rw [hinner, hafter]⟩

/-! ## Strings -/

/-- A digit in base sixteen is nothing special inside a string. -/
theorem closesTo_of_hexValue? {c : Char} {value : Nat} (hc : hexValue? c = some value)
    {text rest : List Char} (h : ClosesTo '"' rest text) : ClosesTo '"' rest (c :: text) := by
  have hne : ∀ special : Char, hexValue? special = none → c ≠ special := by
    intro special hspecial heq
    rw [heq, hspecial] at hc
    cases hc
  exact .char (hne '"' (by decide)) (hne '\\' (by decide)) (hne '\n' (by decide)) h

theorem closesTo_of_codeUnit? {a b c d : Char} {unit : Nat} (hunit : codeUnit? a b c d = some unit)
    {text rest : List Char} (h : ClosesTo '"' rest text) :
    ClosesTo '"' rest ('\\' :: 'u' :: a :: b :: c :: d :: text) := by
  obtain ⟨_, ha, hunit⟩ := Option.bind_eq_some_iff.mp hunit
  obtain ⟨_, hb, hunit⟩ := Option.bind_eq_some_iff.mp hunit
  obtain ⟨_, hc, hunit⟩ := Option.bind_eq_some_iff.mp hunit
  obtain ⟨_, hd, -⟩ := Option.bind_eq_some_iff.mp hunit
  apply ClosesTo.escaped (by decide)
  apply closesTo_of_hexValue? ha
  apply closesTo_of_hexValue? hb
  apply closesTo_of_hexValue? hc
  exact closesTo_of_hexValue? hd h

/-- A string ends at its closing quote, on the line it begins on. -/
theorem closesTo_of_stringBody? {text rest : List Char} {characters : List (Option Char)}
    (h : stringBody? text = some (characters, rest)) : ClosesTo '"' rest text := by
  fun_induction stringBody? text generalizing characters rest with
  | case1 => cases h
  | case2 after =>
      cases h
      exact .quote
  | case3 => cases h
  | case4 a b c d after unit hunit =>
      rename_i ih
      obtain ⟨inside, hinside⟩ := exists_of_map_eq_some h fun _ => rfl
      exact closesTo_of_codeUnit? hunit (ih hinside)
  | case5 => cases h
  | case6 a b c d unit hunit hhigh e f g h' after low hlow =>
      rename_i ih
      obtain ⟨inside, hinside⟩ := exists_of_map_eq_some h fun _ => rfl
      exact closesTo_of_codeUnit? hunit (closesTo_of_codeUnit? hlow (ih hinside))
  | case7 a b c d unit hunit hhigh e f g h' after low hlow =>
      rename_i ih
      obtain ⟨inside, hinside⟩ := exists_of_map_eq_some h fun _ => rfl
      exact closesTo_of_codeUnit? hunit (ih hinside)
  | case8 a b c d after unit hunit =>
      rename_i ih
      obtain ⟨inside, hinside⟩ := exists_of_map_eq_some h fun _ => rfl
      exact closesTo_of_codeUnit? hunit (ih hinside)
  | case9 => cases h
  | case10 mark after _ c hescape ih =>
      obtain ⟨inside, hinside⟩ := exists_of_map_eq_some h fun _ => rfl
      refine .escaped ?_ (ih hinside)
      rintro rfl
      cases hescape
  | case11 => cases h
  | case12 c after hquote _ _ hplain ih =>
      obtain ⟨inside, hinside⟩ := exists_of_map_eq_some h fun _ => rfl
      refine .char hquote (fun heq => hplain (.inl heq)) ?_ (ih hinside)
      rintro rfl
      exact hplain (.inr (by decide))

/-! ## Space and numbers -/

namespace Spans

theorem trans {first second third : List Char} (h : Spans first second)
    (hnext : Spans second third) : Spans first third :=
  PassesTo.trans h hnext

theorem dropWhile {picks : Char → Bool} (h : foreignChars.any picks = false)
    (text : List Char) : Spans text (text.dropWhile picks) :=
  PassesTo.dropWhile (fun c hc hforeign => List.any_eq_false.mp h c hforeign hc) text

theorem skipSpace (text : List Char) : Spans text (Json.skipSpace text) :=
  dropWhile (by decide) text

theorem digits? {text run rest : List Char} (h : Json.digits? text = some (run, rest)) :
    Spans text rest := by
  unfold Json.digits? at h
  dsimp only at h
  split at h
  · cases h
  · cases h
    exact dropWhile (by decide) text

theorem wholePart? {text run rest : List Char} (h : Json.wholePart? text = some (run, rest)) :
    Spans text rest := by
  unfold Json.wholePart? at h
  split at h
  · split at h
    · cases h
    · cases h
      exact .char (by decide) .refl
  · exact digits? h

theorem fraction? {text run rest : List Char} (h : Json.fraction? text = some (run, rest)) :
    Spans text rest := by
  unfold Json.fraction? at h
  split at h
  · obtain ⟨inside, hinside⟩ := exists_of_map_eq_some h fun _ => rfl
    exact .char (by decide) (digits? hinside)
  · cases h
    exact .refl

theorem exponentSign (text : List Char) : Spans text (Json.exponentSign text).2 := by
  unfold Json.exponentSign
  split
  · exact .char (by decide) .refl
  · exact .char (by decide) .refl
  · exact .refl

theorem exponent? {text run rest : List Char} (h : Json.exponent? text = some (run, rest)) :
    Spans text rest := by
  unfold Json.exponent? at h
  split at h
  · cases h
    exact .refl
  · next mark after =>
    split at h
    · next hmark =>
      obtain ⟨inside, hinside⟩ := exists_of_map_eq_some h fun _ => rfl
      have hmark : mark ∉ foreignChars := by
        rcases hmark with rfl | rfl <;> decide
      exact .char hmark ((exponentSign after).trans (digits? hinside))
    · cases h
      exact .refl

theorem unsigned? {text literal rest : List Char}
    (h : Json.unsigned? text = some (literal, rest)) : Spans text rest := by
  obtain ⟨⟨whole, _⟩, hwhole, h⟩ := Option.bind_eq_some_iff.mp h
  obtain ⟨⟨places, _⟩, hplaces, h⟩ := Option.bind_eq_some_iff.mp h
  obtain ⟨⟨power, _⟩, hpower, h⟩ := Option.bind_eq_some_iff.mp h
  cases h
  exact (wholePart? hwhole).trans ((fraction? hplaces).trans (exponent? hpower))

theorem number? {text literal rest : List Char} (h : Json.number? text = some (literal, rest)) :
    Spans text rest := by
  unfold Json.number? at h
  split at h
  · obtain ⟨inside, hinside⟩ := exists_of_map_eq_some h fun _ => rfl
    exact .char (by decide) (unsigned? hinside)
  · exact unsigned? h

/-! ## Values -/

theorem string {text rest : List Char} {characters : List (Option Char)}
    (h : stringBody? text = some (characters, rest)) : Spans ('"' :: text) rest :=
  .quoted (by decide) (closesTo_of_stringBody? h) .refl

theorem key? {text rest : List Char} {key : Option String}
    (h : Json.key? text = some (key, rest)) : Spans text rest := by
  unfold Json.key? at h
  split at h
  · obtain ⟨inside, hinside⟩ := exists_of_map_eq_some h fun _ => rfl
    exact string hinside
  · cases h

theorem literal? {word : String} (hword : word.toList.any foreignChars.contains = false)
    {value read : Value} {text rest : List Char}
    (h : Json.literal? word value text = some (read, rest)) :
    Spans text rest := by
  unfold Json.literal? at h
  split at h
  · next hprefix =>
    cases h
    obtain ⟨after, rfl⟩ := List.isPrefixOf_iff_prefix.mp hprefix
    rw [← String.length_toList, List.drop_left]
    refine PassesTo.append (fun c hc hforeign => ?_) after
    exact List.any_eq_false.mp hword c hc (List.contains_iff_mem.mpr hforeign)
  · cases h

/-- What a reader leaves is left after a part of a document. -/
def LeftBy {α : Type} (reader : List Char → Option (α × List Char)) : Prop :=
  ∀ text rest read, reader text = some (read, rest) → Spans text rest

section Readers

variable {fuel : Nat} (hvalue : LeftBy (Json.value? fuel))
  (helements : LeftBy (Json.elements? fuel))
  (hmembers : LeftBy (Json.members? fuel))

include helements hmembers in
theorem value? : LeftBy (Json.value? (fuel + 1)) := by
  intro text rest value h
  apply (skipSpace text).trans
  unfold Json.value? at h
  split at h
  -- the words
  · next heq => exact heq ▸ .char (by decide) (literal? (by decide) h)
  · next heq => exact heq ▸ .char (by decide) (literal? (by decide) h)
  · next heq => exact heq ▸ .char (by decide) (literal? (by decide) h)
  · next after heq =>
    obtain ⟨inside, hinside⟩ := exists_of_map_eq_some h fun _ => rfl
    exact heq ▸ string hinside
  -- an array, then an object: each may be empty
  · next after heq =>
    rw [heq]
    refine .char (by decide) ((skipSpace after).trans ?_)
    split at h
    · next hclose =>
      cases h
      exact hclose ▸ .char (by decide) .refl
    · obtain ⟨inside, hinside⟩ := exists_of_map_eq_some h fun _ => rfl
      exact helements _ _ _ hinside
  · next after heq =>
    rw [heq]
    refine .char (by decide) ((skipSpace after).trans ?_)
    split at h
    · next hclose =>
      cases h
      exact hclose ▸ .char (by decide) .refl
    · obtain ⟨inside, hinside⟩ := exists_of_map_eq_some h fun _ => rfl
      exact hmembers _ _ _ hinside
  · obtain ⟨inside, hinside⟩ := exists_of_map_eq_some h fun _ => rfl
    exact number? hinside

include hvalue helements in
theorem elements? : LeftBy (Json.elements? (fuel + 1)) := by
  intro text rest elements h
  unfold Json.elements? at h
  split at h
  · cases h
  · next element after hread =>
    apply (hvalue _ _ _ hread).trans
    apply (skipSpace after).trans
    split at h
    · next heq =>
      cases h
      exact heq ▸ .char (by decide) .refl
    · next heq =>
      obtain ⟨inside, hinside⟩ := exists_of_map_eq_some h fun _ => rfl
      exact heq ▸ .char (by decide) (helements _ _ _ hinside)
    · cases h

include hvalue hmembers in
theorem members? : LeftBy (Json.members? (fuel + 1)) := by
  intro text rest members h
  unfold Json.members? at h
  split at h
  · cases h
  · next key after hkey =>
    apply (skipSpace text).trans
    apply (key? hkey).trans
    apply (skipSpace after).trans
    split at h
    · next afterColon hcolon =>
      rw [hcolon]
      split at h
      · cases h
      · next value afterValue hread =>
        refine .char (by decide) ((hvalue _ _ _ hread).trans ?_)
        apply (skipSpace afterValue).trans
        split at h
        · next heq =>
          cases h
          exact heq ▸ .char (by decide) .refl
        · next heq =>
          obtain ⟨inside, hinside⟩ := exists_of_map_eq_some h fun _ => rfl
          exact heq ▸ .char (by decide) (hmembers _ _ _ hinside)
        · cases h
    · cases h

end Readers

/-- The three readers call each other with one unit of fuel less. -/
theorem readers (fuel : Nat) :
    LeftBy (Json.value? fuel) ∧ LeftBy (Json.elements? fuel) ∧ LeftBy (Json.members? fuel) := by
  induction fuel with
  | zero =>
      refine ⟨?_, ?_, ?_⟩ <;> intro text rest read h
      · unfold Json.value? at h
        cases h
      · unfold Json.elements? at h
        cases h
      · unfold Json.members? at h
        cases h
  | succ fuel ih =>
      obtain ⟨hvalue, helements, hmembers⟩ := ih
      exact ⟨value? helements hmembers, elements? hvalue helements, members? hvalue hmembers⟩

/-- A document is a part of itself, with nothing left. -/
theorem of_read? {text : String} {value : Value} (h : read? text = some value) :
    Spans text.toList [] := by
  unfold read? at h
  dsimp only at h
  split at h
  · next read rest hread =>
    split at h
    · next hempty =>
      apply ((readers _).1 _ _ _ hread).trans
      rw [← List.isEmpty_iff.mp hempty]
      exact skipSpace rest
    · cases h
  · cases h

end Spans

end LiveExports.Json

/-! ## No line begins with an import -/

namespace LiveExports.Source

open Json

/-- A line of a document does not begin with the word. -/
theorem importWord?_of_spans {text : List Char} (h : Spans text []) : importWord? text = none := by
  have hhead : ∀ c, (c == ' ' || c == '\t') = false → c ≠ 'i' → ∀ rest,
      importWord? (c :: rest) = none := by
    intro c hc hi rest
    simp [importWord?, afterIndent, hc, Text.after?, Ne.symm hi]
  induction h with
  | refl => rfl
  | @char c text hc _ ih =>
      cases hblank : c == ' ' || c == '\t' with
      | false => exact hhead c hblank (fun heq => hc (by rw [heq]; decide)) text
      | true =>
          have hskip : importWord? (c :: text) = importWord? text := by
            simp [importWord?, afterIndent, hblank]
          rw [hskip, ih]
  | @quoted quote text after hquote _ _ _ =>
      simp only [isSpecifierQuote, Bool.or_eq_true, beq_iff_eq] at hquote
      rcases hquote with rfl | rfl <;> exact hhead _ (by decide) (by decide) text

/-- No line begins inside of a string. -/
theorem matchesFrom_of_closesTo {quote : Char} {rest text : List Char}
    (h : ClosesTo quote rest text)
    (hrest : ∀ previous offset, matchesFrom beginsLine importWord? previous offset 0 rest = [])
    {previous : Char} (hprevious : previous ≠ '\n') (offset : Nat) :
    matchesFrom beginsLine importWord? (some previous) offset 0 text = [] := by
  induction h generalizing previous offset with
  | quote => simp [matchesFrom, beginsLine, hprevious, hrest]
  | escaped hend _ ih => simp [matchesFrom, beginsLine, hprevious, ih, hend]
  | char hne hbackslash hend _ ih => simp [matchesFrom, beginsLine, hprevious, ih, hend]

theorem matchesFrom_of_spans {text : List Char} (h : Spans text []) (previous : Option Char)
    (offset : Nat) : matchesFrom beginsLine importWord? previous offset 0 text = [] := by
  induction h generalizing previous offset with
  | refl => rfl
  | @char c text hc h ih =>
      have hnone : importWord? (c :: text) = none := importWord?_of_spans (.char hc h)
      simp [matchesFrom, hnone, ih]
  | @quoted quote text after hquote hclose h ih =>
      have hnone : importWord? (quote :: text) = none :=
        importWord?_of_spans (.quoted hquote hclose h)
      have hend : quote ≠ '\n' := by
        rintro rfl
        cases hquote
      simp only [matchesFrom, hnone, ite_self]
      exact matchesFrom_of_closesTo hclose ih hend _

/-- A document has declarations, if none that are of interest. -/
theorem exists_read_of_document {text : String} {value : Value} (h : read? text = some value) :
    ∃ declarations, Source.read text.toList = .ok declarations := by
  have hspans := Spans.of_read? h
  have hkind : ∀ c, c ∉ foreignChars → c ≠ '/' ∧ isQuote c = false := by
    intro c hc
    simp only [foreignChars, List.mem_cons, not_or] at hc
    simp [isQuote, hc]
  have hwords : lineOccurrences importWord? text.toList = [] := by
    rw [lineOccurrences, occurrences, matchesFrom_of_spans hspans, List.map_nil]
  unfold Source.read
  rw [blankComments_of_passesTo hspans hkind]
  simp [readBlanked, unreadableImport?, hwords]

end LiveExports.Source

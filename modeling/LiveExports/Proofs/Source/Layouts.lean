import LiveExports.Proofs.Source.Code
import LiveExports.Proofs.Source.Recognition

/-!
# Exported declarations in any layout

An exported declaration is a line of words with spaces and tabs between them: `export`, modifiers,
the word of the declaration and the name.  However the words are set apart, the line declares the
name (`Declarations.ofSource_declarationLine`).  The one exception is a generator whose star touches
the name: a blank must follow the star, and a line without it declares nothing.
-/

namespace LiveExports.Source

/-! ## Layouts -/

/-- Spaces and tabs, or nothing at all. -/
structure Gap where
  chars : List Char
  isGap : ∀ c ∈ chars, c = ' ' ∨ c = '\t'

/-- One or more spaces and tabs. -/
structure Space extends Gap where
  ne_nil : chars ≠ []

/-- The words that a declaration may begin with. -/
def keywords : List String :=
  ["function", "class", "const", "let", "var", "interface", "type", "enum", "namespace"]

/-- What stands before the name of a declaration: one of the words and the space after it, or
`function` and a star with gaps around it. -/
inductive Opening where
  | word (keyword : String) (mem : keyword ∈ keywords) (space : Space)
  | generator (before after : Gap)

namespace Opening

def chars : Opening → List Char
  | word keyword _ space => keyword.toList ++ space.chars
  | generator before after =>
    ['f', 'u', 'n', 'c', 't', 'i', 'o', 'n'] ++ (before.chars ++ '*' :: after.chars)

def keyword : Opening → String
  | word keyword _ _ => keyword
  | generator .. => "function"

/-- Does the star of a generator touch the name? -/
def touchesName : Opening → Bool
  | word .. => false
  | generator _ after => after.chars.isEmpty

end Opening

/-- A word that may be left out, with the space after it. -/
def optionalWord (word : String) : Option Space → List Char
  | none => []
  | some space => word.toList ++ space.chars

/-- The quotes, the slash and the line end. -/
def lineMarks : List Char :=
  ['\'', '"', templateQuote, '/', '\n']

/-- A line `export ... N` with more text after a blank. -/
structure DeclarationLine where
  space : Space
  /-- The space after `declare`, if it is there; likewise for the two that follow. -/
  declared : Option Space := none
  asynchronous : Option Space := none
  abstracted : Option Space := none
  opening : Opening
  name : Identifier
  blank : Char
  isGap : blank = ' ' ∨ blank = '\t'
  more : List Char := []
  unmarked : ∀ c ∈ more, c ∉ lineMarks

namespace DeclarationLine

variable (line : DeclarationLine)

/-- The name and what follows it. -/
def named : List Char :=
  line.name.chars ++ line.blank :: line.more

/-- What follows the modifiers. -/
def plain : List Char :=
  line.opening.chars ++ line.named

/-- What follows `export` and the space after it. -/
def body : List Char :=
  optionalWord "declare" line.declared ++ (optionalWord "async" line.asynchronous ++
    (optionalWord "abstract" line.abstracted ++ line.plain))

def chars : List Char :=
  ['e', 'x', 'p', 'o', 'r', 't'] ++ (line.space.chars ++ line.body)

end DeclarationLine

/-! ## Gaps -/

theorem isBlank_of_gap {c : Char} (hc : c = ' ' ∨ c = '\t') : Text.isBlank c = true := by
  rcases hc with rfl | rfl <;> decide

theorem Gap.trimStart_append (gap : Gap) {text : List Char} (htext : Text.trimStart text = text) :
    Text.trimStart (gap.chars ++ text) = text :=
  trimStart_blanks (fun c hc => isBlank_of_gap (gap.isGap c hc)) htext

namespace Space

variable (space : Space)

theorem exists_chars_eq_cons :
    ∃ c rest, space.chars = c :: rest ∧ (c = ' ' ∨ c = '\t') ∧ ∀ d ∈ rest, d = ' ' ∨ d = '\t' := by
  have hgap := space.isGap
  cases hchars : space.chars with
  | nil => exact absurd hchars space.ne_nil
  | cons c rest =>
      rw [hchars] at hgap
      exact ⟨c, rest, rfl, hgap c List.mem_cons_self,
        fun d hd => hgap d (List.mem_cons_of_mem c hd)⟩

theorem afterBlanks?_append {text : List Char} (htext : Text.trimStart text = text) :
    afterBlanks? (space.chars ++ text) = some text := by
  obtain ⟨c, rest, hchars, hc, hrest⟩ := space.exists_chars_eq_cons
  rw [hchars, List.cons_append, afterBlanks?, if_pos (isBlank_of_gap hc)]
  exact congrArg some (Gap.trimStart_append ⟨rest, hrest⟩ htext)

end Space

/-! ## Words -/

/-- The words that may follow `export`. -/
def openingWords : List String :=
  "declare" :: "async" :: "abstract" :: keywords

theorem isLower_openingWords :
    (openingWords.all fun word => !word.toList.isEmpty && word.toList.all Char.isLower) = true := by
  decide

/-- A text that begins with one of the words; a space, a tab or a star stands after it. -/
def OpensWith (words : List String) (text : List Char) : Prop :=
  ∃ word ∈ words, ∃ stop ∈ [' ', '\t', '*'], ∃ rest, text = word.toList ++ stop :: rest

theorem continuesIdentifier_of_isLower {c : Char} (hc : c.isLower = true) :
    continuesIdentifier c = true := by
  have halpha : c.isAlpha = (c.isUpper || c.isLower) := rfl
  apply continuesIdentifier_of_begins
  simp [beginsIdentifier, halpha, hc]

theorem isBlank_of_isLower {c : Char} (hc : c.isLower = true) : Text.isBlank c = false :=
  isBlank_of_continuesIdentifier (continuesIdentifier_of_isLower hc)

/-- A word is passed over with the space after it. -/
theorem afterWord?_space (word : String) (space : Space) {text : List Char}
    (htext : Text.trimStart text = text) :
    afterWord? word (word.toList ++ (space.chars ++ text)) = some text := by
  rw [afterWord?, Text.after?_append, Option.bind_some, space.afterBlanks?_append htext]

section Words

variable {word : String} (hword : word ∈ openingWords)

include hword

theorem isLower_of_mem_word {c : Char} (hc : c ∈ word.toList) : c.isLower = true := by
  have hletters := List.all_eq_true.mp isLower_openingWords word hword
  rw [Bool.and_eq_true] at hletters
  exact List.all_eq_true.mp hletters.2 c hc

/-- Another word is not taken for it. -/
theorem afterWord?_of_ne {other : String} (hother : other ∈ openingWords) (hne : word ≠ other)
    {stop : Char} (hstop : stop ∈ [' ', '\t', '*']) (rest : List Char) :
    afterWord? word (other.toList ++ stop :: rest) = none := by
  have hletter : stop ∉ word.toList := by
    intro hmem
    have hlower := isLower_of_mem_word hword hmem
    simp only [List.mem_cons, List.not_mem_nil, or_false] at hstop
    rcases hstop with rfl | rfl | rfl <;> exact absurd hlower (by decide)
  rw [afterWord?]
  cases hafter : Text.after? word.toList (other.toList ++ stop :: rest) with
  | none => rfl
  | some left =>
      -- The other word goes on, with a letter where the blanks should be.
      obtain ⟨more, hmore, rfl⟩ := exists_of_after?_append hletter hafter
      cases more with
      | nil =>
          rw [List.append_nil] at hmore
          exact absurd (String.toList_inj.mp hmore.symm) hne
      | cons c more =>
          have hc : c ∈ other.toList := by simp [hmore]
          have hblank := isBlank_of_isLower (isLower_of_mem_word hother hc)
          simp [afterBlanks?, hblank]

end Words

theorem opensWith_space (word : String) (space : Space) (text : List Char) :
    OpensWith [word] (word.toList ++ (space.chars ++ text)) := by
  obtain ⟨c, rest, hchars, hc, -⟩ := space.exists_chars_eq_cons
  refine ⟨word, List.mem_singleton_self word, c, ?_, rest ++ text, by simp [hchars]⟩
  rcases hc with rfl | rfl <;> decide

namespace OpensWith

variable {words : List String} {text : List Char} (h : OpensWith words text)

include h

theorem mono {more : List String} (hmore : words ⊆ more) : OpensWith more text := by
  obtain ⟨word, hword, hrest⟩ := h
  exact ⟨word, hmore hword, hrest⟩

theorem optionalWord (word : String) (space : Option Space) :
    OpensWith (word :: words) (optionalWord word space ++ text) := by
  cases space with
  | none => exact h.mono (List.subset_cons_self word words)
  | some space =>
      rw [Source.optionalWord, List.append_assoc]
      exact (opensWith_space word space text).mono (by simp)

variable (hwords : words ⊆ openingWords)

include hwords

theorem exists_eq_cons : ∃ c rest, text = c :: rest ∧ c.isLower = true := by
  obtain ⟨word, hword, stop, -, rest, rfl⟩ := h
  have hletters := List.all_eq_true.mp isLower_openingWords word (hwords hword)
  cases hchars : word.toList with
  | nil => simp [hchars] at hletters
  | cons c others =>
      have hc := isLower_of_mem_word (hwords hword) (hchars ▸ List.mem_cons_self)
      exact ⟨c, others ++ stop :: rest, rfl, hc⟩

theorem trimStart_eq : Text.trimStart text = text := by
  obtain ⟨c, rest, rfl, hc⟩ := h.exists_eq_cons hwords
  exact trimStart_cons (isBlank_of_isLower hc) rest

theorem afterWord?_eq_none {word : String} (hword : word ∈ openingWords) (hnot : word ∉ words) :
    afterWord? word text = none := by
  obtain ⟨other, hother, stop, hstop, rest, rfl⟩ := h
  have hne : word ≠ other := by
    rintro rfl
    exact hnot hother
  exact afterWord?_of_ne hword (hwords hother) hne hstop rest

/-- A word that may be left out is passed over if it is there. -/
theorem afterOptional_optionalWord {word : String} (hword : word ∈ openingWords)
    (hnot : word ∉ words) (space : Option Space) :
    afterOptional word (Source.optionalWord word space ++ text) = text := by
  unfold afterOptional
  cases space with
  | none =>
      rw [Source.optionalWord, List.nil_append, h.afterWord?_eq_none hwords hword hnot]
      rfl
  | some space =>
      rw [Source.optionalWord, List.append_assoc,
        afterWord?_space word space (h.trimStart_eq hwords)]
      rfl

end OpensWith

/-- A word that may be left out is not taken for another. -/
theorem afterWord?_optionalWord {word other : String} (hword : word ∈ openingWords)
    (hother : other ∈ openingWords) (hne : word ≠ other) (space : Option Space) (text : List Char) :
    afterWord? word (optionalWord other space ++ text) = none ∨
      afterWord? word (optionalWord other space ++ text) = afterWord? word text := by
  cases space with
  | none => exact .inr rfl
  | some space =>
      rw [optionalWord, List.append_assoc]
      exact .inl
        ((opensWith_space other space text).afterWord?_eq_none (by simpa using hother) hword
        (by simpa using hne))

/-! ## The word of a declaration -/

theorem keywords_subset : keywords ⊆ openingWords := fun _ h =>
  List.mem_cons_of_mem _ (List.mem_cons_of_mem _ (List.mem_cons_of_mem _ h))

/-- After the star of a generator come blanks of its own. -/
theorem afterDeclarationWord?_star (before : Gap) (rest : List Char) :
    afterDeclarationWord? (['f', 'u', 'n', 'c', 't', 'i', 'o', 'n'] ++
      (before.chars ++ '*' :: rest)) = afterBlanks? rest := by
  have hfunction : Text.after? "function".toList (['f', 'u', 'n', 'c', 't', 'i', 'o', 'n'] ++
      (before.chars ++ '*' :: rest)) = some (before.chars ++ '*' :: rest) :=
    Text.after?_append _ _
  have hstar : Text.trimStart (before.chars ++ '*' :: rest) = '*' :: rest :=
    before.trimStart_append rfl
  unfold afterDeclarationWord?
  rw [hfunction]
  dsimp only
  rw [hstar]
  rfl

section Keyword

variable {text : List Char} (htext : Text.trimStart text = text) (space : Space)

include htext

theorem findSome?_afterWord? {keyword : String} {words : List String} (hmem : keyword ∈ words)
    (hwords : words ⊆ openingWords) :
    (words.findSome? fun word => afterWord? word (keyword.toList ++ (space.chars ++ text))) =
      some text := by
  have hkeyword : [keyword] ⊆ openingWords := by simpa using hwords hmem
  induction words with
  | nil => cases hmem
  | cons word words ih =>
      rw [List.findSome?_cons]
      by_cases hword : word = keyword
      · rw [hword, afterWord?_space keyword space htext]
      · have hnone := (opensWith_space keyword space text).afterWord?_eq_none hkeyword
          (hwords List.mem_cons_self) (by simpa using hword)
        rw [hnone]
        exact ih (List.mem_of_ne_of_mem (Ne.symm hword) hmem) fun _ h =>
          hwords (List.mem_cons_of_mem word h)

/-- The word of a declaration is passed over with the space after it. -/
theorem afterDeclarationWord?_keyword {keyword : String} (hmem : keyword ∈ keywords)
    (hstar : text.head? ≠ some '*') :
    afterDeclarationWord? (keyword.toList ++ (space.chars ++ text)) = some text := by
  have hother : ∀ word ∈ declarationWords, ∀ rest,
      Text.after? "function".toList (word.toList ++ rest) = none := by
    intro word hword rest
    simp only [declarationWords, List.mem_cons, List.not_mem_nil, or_false] at hword
    rcases hword with rfl | rfl | rfl | rfl | rfl | rfl | rfl | rfl <;> rfl
  unfold afterDeclarationWord?
  rcases List.mem_cons.mp hmem with rfl | hword
  · rw [Text.after?_append]
    dsimp only
    rw [space.trimStart_append htext]
    split
    · exact absurd rfl hstar
    · exact space.afterBlanks?_append htext
  · rw [hother keyword hword]
    exact findSome?_afterWord? htext space hword fun _ h =>
      keywords_subset (List.mem_cons_of_mem _ h)

end Keyword

/-! ## The parts of a line -/

theorem enclosed?_of_not_opens {opens closes : Char → Bool} {c : Char} (hc : (!opens c) = true)
    (text : List Char) : enclosed? opens closes (c :: text) = none := by
  rw [enclosed?, if_neg (by simpa using hc)]

namespace DeclarationLine

variable (line : DeclarationLine)

theorem trimStart_named : Text.trimStart line.named = line.named :=
  line.name.trimStart_append _

theorem name?_named : name? line.named = some (line.name.text, line.blank :: line.more) := by
  apply line.name.name?_append
  rcases line.isGap with hblank | hblank <;> rw [hblank] <;> decide

theorem exists_named_eq_cons : ∃ c rest, line.named = c :: rest ∧ continuesIdentifier c = true :=
  line.name.exists_append_eq_cons _

theorem opensWith_keyword : OpensWith [line.opening.keyword] line.plain := by
  unfold plain
  cases line.opening with
  | word keyword mem space =>
      rw [Opening.chars, List.append_assoc]
      exact opensWith_space keyword space line.named
  | generator before after =>
      refine ⟨"function", List.mem_singleton_self _, ?_⟩
      have hgap := before.isGap
      cases hchars : before.chars with
      | nil => exact ⟨'*', by decide, after.chars ++ line.named, by simp [Opening.chars, hchars]⟩
      | cons c rest =>
          rw [hchars] at hgap
          refine ⟨c, ?_,
            rest ++ '*' :: (after.chars ++ line.named), by simp [Opening.chars, hchars]⟩
          rcases hgap c List.mem_cons_self with rfl | rfl <;> decide

theorem keyword_mem : line.opening.keyword ∈ keywords := by
  cases line.opening with
  | word keyword mem space => exact mem
  | generator before after => exact List.mem_cons_self

theorem opensWith_plain : OpensWith keywords line.plain :=
  line.opensWith_keyword.mono (by simpa using line.keyword_mem)

theorem opensWith_body : OpensWith openingWords line.body :=
  ((line.opensWith_plain.optionalWord "abstract" line.abstracted).optionalWord "async"
    line.asynchronous).optionalWord "declare" line.declared

/-- The modifiers are passed over. -/
theorem afterOptional_body :
    afterOptional "abstract" (afterOptional "async" (afterOptional "declare" line.body)) =
      line.plain := by
  have habstract := line.opensWith_plain.optionalWord "abstract" line.abstracted
  have hasync := habstract.optionalWord "async" line.asynchronous
  have hsubset : "abstract" :: keywords ⊆ openingWords := fun _ h =>
    List.mem_cons_of_mem _ (List.mem_cons_of_mem _ h)
  unfold body
  rw [hasync.afterOptional_optionalWord (List.subset_cons_self _ _) (by decide) (by decide),
    habstract.afterOptional_optionalWord hsubset (by decide) (by decide),
    line.opensWith_plain.afterOptional_optionalWord keywords_subset (by decide) (by decide)]

theorem afterExport?_chars : afterExport? line.chars = some line.body := by
  have hindent : afterIndent line.chars = line.chars := rfl
  rw [afterExport?, hindent]
  exact afterWord?_space "export" line.space (line.opensWith_body.trimStart_eq fun _ h => h)

/-- The word of a declaration is passed over, unless the star after it touches the name. -/
theorem afterDeclarationWord?_plain :
    afterDeclarationWord? line.plain =
      if line.opening.touchesName then none else some line.named := by
  obtain ⟨c, rest, hnamed, hc⟩ := line.exists_named_eq_cons
  unfold plain
  cases line.opening with
  | word keyword mem space =>
      have hstar : line.named.head? ≠ some '*' := by
        rw [hnamed]
        rintro ⟨rfl⟩
        exact absurd hc (by decide)
      rw [Opening.chars, List.append_assoc]
      exact afterDeclarationWord?_keyword line.trimStart_named space mem hstar
  | generator before after =>
      have htext : (Opening.generator before after).chars ++ line.named =
          ['f', 'u', 'n', 'c', 't', 'i', 'o', 'n'] ++
            (before.chars ++ '*' :: (after.chars ++ line.named)) := by
        simp [Opening.chars]
      rw [htext, afterDeclarationWord?_star, Opening.touchesName]
      by_cases hempty : after.chars = []
      · have hblank := isBlank_of_continuesIdentifier hc
        simp [hempty, hnamed, afterBlanks?, hblank]
      · rw [if_neg (by simpa using hempty)]
        exact Space.afterBlanks?_append ⟨after, hempty⟩ line.trimStart_named

/-- Where the word of a declaration other than a function follows the modifiers, so does the
name. -/
theorem afterWord?_plain {word : String} (hword : word ∈ declarationWords) :
    afterWord? word line.plain = none ∨ afterWord? word line.plain = some line.named := by
  by_cases hsame : word = line.opening.keyword
  · right
    unfold plain
    cases hopening : line.opening with
    | word keyword mem space =>
        rw [hopening] at hsame
        subst hsame
        rw [Opening.chars, List.append_assoc]
        exact afterWord?_space _ space line.trimStart_named
    | generator before after =>
        rw [hopening] at hsame
        subst hsame
        exact absurd hword (show "function" ∉ declarationWords by decide)
  · left
    refine line.opensWith_keyword.afterWord?_eq_none ?_ ?_ (by simpa using hsame)
    · simpa using keywords_subset line.keyword_mem
    · exact keywords_subset (List.mem_cons_of_mem _ hword)

theorem afterWord?_body {word : String} (hword : word ∈ declarationWords) :
    afterWord? word line.body = none ∨ afterWord? word line.body = some line.named := by
  have hmem : word ∈ openingWords := keywords_subset (List.mem_cons_of_mem _ hword)
  have hskip : ∀ other ∈ ["declare", "async", "abstract"], ∀ space text,
      afterWord? word (optionalWord other space ++ text) = none ∨
        afterWord? word (optionalWord other space ++ text) = afterWord? word text := by
    intro other hother space text
    have hne : word ≠ other := by
      rintro rfl
      simp only [List.mem_cons, List.not_mem_nil, or_false] at hother
      rcases hother with rfl | rfl | rfl <;> exact absurd hword (by decide)
    apply afterWord?_optionalWord hmem _ hne
    exact List.mem_append_left keywords hother
  rcases hskip "declare" (by decide) line.declared _ with hdeclare | hdeclare
  · exact .inl hdeclare
  rcases hskip "async" (by decide) line.asynchronous _ with hasync | hasync
  · exact .inl (hdeclare.trans hasync)
  rcases hskip "abstract" (by decide) line.abstracted _ with habstract | habstract
  · exact .inl (hdeclare.trans (hasync.trans habstract))
  rw [body, hdeclare, hasync, habstract]
  exact line.afterWord?_plain hword

/-! ## The forms of statements -/

theorem exportDeclaration?_chars :
    exportDeclaration? line.chars =
      if line.opening.touchesName then none
      else some (line.name.text, line.blank :: line.more) := by
  unfold exportDeclaration?
  rw [line.afterExport?_chars, Option.bind_eq_bind, Option.bind_some]
  dsimp only
  rw [line.afterOptional_body, line.afterDeclarationWord?_plain]
  cases line.opening.touchesName with
  | true => rfl
  | false => exact line.name?_named

theorem exists_body_eq_cons : ∃ c rest, line.body = c :: rest ∧ continuesIdentifier c = true := by
  obtain ⟨c, rest, hbody, hc⟩ := line.opensWith_body.exists_eq_cons fun _ h => h
  exact ⟨c, rest, hbody, continuesIdentifier_of_isLower hc⟩

/-- Neither `export` nor a word of a declaration is followed by a mark. -/
theorem exportList?_chars : exportList? line.chars = none := by
  have hbrace : ∀ text, (∃ c rest, text = c :: rest ∧ continuesIdentifier c = true) →
      braced? text = none := by
    rintro _ ⟨c, rest, rfl, hc⟩
    apply enclosed?_of_not_opens
    exact of_continuesIdentifier (! · == '\x7b') (by decide) hc
  unfold exportList?
  rw [line.afterExport?_chars, Option.bind_eq_bind, Option.bind_some, afterOptional]
  rcases line.afterWord?_body (show "type" ∈ declarationWords by decide) with htype | htype
  · rw [htype]
    exact hbrace _ line.exists_body_eq_cons
  · rw [htype]
    exact hbrace _ line.exists_named_eq_cons

theorem exportFrom?_chars : exportFrom? line.chars = none := by
  rw [exportFrom?, line.exportList?_chars]
  rfl

theorem exportStar?_chars : exportStar? line.chars = none := by
  obtain ⟨c, rest, hbody, hc⟩ := line.exists_body_eq_cons
  have hstar : '*' ≠ c := by
    rintro rfl
    exact absurd hc (by decide)
  rw [exportStar?, line.afterExport?_chars, hbody]
  simp [Text.after?, hstar]

theorem exportPattern?_chars : exportPattern? line.chars = none := by
  have hfound : ∀ text, ["const", "let", "var"].findSome? (afterWord? · line.body) = some text →
      text = line.named := by
    intro text htext
    obtain ⟨word, hword, hafter⟩ := List.exists_of_findSome?_eq_some htext
    have hmem : word ∈ declarationWords := by
      simp only [List.mem_cons, List.not_mem_nil, or_false] at hword
      rcases hword with rfl | rfl | rfl <;> decide
    rcases line.afterWord?_body hmem with hnone | hsome
    · rw [hnone] at hafter
      cases hafter
    · rw [hsome] at hafter
      exact (Option.some.inj hafter).symm
  unfold exportPattern?
  rw [line.afterExport?_chars, Option.bind_eq_bind, Option.bind_some]
  cases hpattern : ["const", "let", "var"].findSome? (afterWord? · line.body) with
  | none => rfl
  | some text =>
      obtain ⟨c, rest, hnamed, hc⟩ := line.exists_named_eq_cons
      rw [hfound text hpattern, hnamed, Option.bind_some]
      apply enclosed?_of_not_opens
      exact of_continuesIdentifier (fun c => !(c == '\x7b' || c == '[')) (by decide) hc

theorem exportDefault?_chars : exportDefault? line.chars = none := by
  have hdefault : Text.after? "default".toList line.body = none := by
    obtain ⟨word, hword, stop, -, rest, hbody⟩ := line.opensWith_body
    rw [hbody]
    simp only [openingWords, keywords, List.mem_cons, List.not_mem_nil, or_false] at hword
    rcases hword with rfl | rfl | rfl | rfl | rfl | rfl | rfl | rfl | rfl | rfl | rfl | rfl <;> rfl
  rw [exportDefault?, line.afterExport?_chars, Option.bind_eq_bind, Option.bind_some, hdefault]
  rfl

/-- A space follows `export`, so that it does not begin an assignment to `exports`. -/
theorem assignedName?_chars : assignedName? line.chars = none := by
  obtain ⟨c, rest, hspace, hc, -⟩ := line.space.exists_chars_eq_cons
  unfold chars
  rw [hspace]
  rcases hc with rfl | rfl <;> rfl

end DeclarationLine

/-! ## Texts on one line -/

section OneLine

variable {α : Type} {recognise : List Char → Option (α × List Char)}
  (hnothing : recognise [] = none)
  {text : List Char} (hline : '\n' ∉ text)

include hnothing hline

/-- On one line a recogniser finds what it finds at the beginning. -/
theorem lineOccurrences_oneLine :
    lineOccurrences recognise text =
      (recognise text).toList.map fun found => { offset := 0, line := 1, found := found.1 } := by
  have hstays : ∀ found after, recognise (text ++ tailOf []) = some (found, after) →
      (tailOf []).length ≤ after.length := fun _ after _ => Nat.zero_le after.length
  have hfirst :=
    occurrencesFrom_line hline hstays hnothing (show beginsLine none = true from rfl) 0 1
  rw [tailOf, List.append_nil] at hfirst
  rw [lineOccurrences, occurrences_eq_occurrencesFrom, hfirst]
  simp [Text.join, occurrencesFrom]

theorem lineOccurrences_eq_nil (hnone : recognise text = none) :
    lineOccurrences recognise text = [] := by
  rw [lineOccurrences_oneLine hnothing hline, hnone]
  rfl

end OneLine

theorem Form.statements_oneLine_eq_nil {δ : Type} {form : Form δ}
    (hnothing : form.recognise [] = none) (hbegins : form.mayBegin = beginsLine) {text : List Char}
    (hline : '\n' ∉ text) (hnone : form.recognise text = none) : form.statements text = [] := by
  have hoccurrences := lineOccurrences_eq_nil hnothing hline hnone
  rw [lineOccurrences, ← hbegins] at hoccurrences
  rw [Form.statements, hoccurrences]
  rfl

theorem declarationsOf_nil {α : Type} : declarationsOf ([] : List (Occurrence (List α))) = [] := by
  simp [declarationsOf, inOrder]

theorem declarationsOf_singleton {α : Type} (statement : Occurrence (List α)) :
    declarationsOf [statement] = statement.found := by
  simp [declarationsOf, inOrder]

/-! ## Whole lines -/

def isUnmarked (c : Char) : Bool :=
  !lineMarks.contains c

theorem isUnmarked_of_continuesIdentifier {c : Char} (hc : continuesIdentifier c = true) :
    isUnmarked c = true :=
  of_continuesIdentifier isUnmarked (by decide) hc

theorem isUnmarked_of_gap {c : Char} (hc : c = ' ' ∨ c = '\t') : isUnmarked c = true := by
  rcases hc with rfl | rfl <;> decide

theorem all_isUnmarked_word {word : String} (hword : word ∈ openingWords) :
    word.toList.all isUnmarked = true :=
  List.all_eq_true.mpr fun _ hc => isUnmarked_of_continuesIdentifier
    (continuesIdentifier_of_isLower (isLower_of_mem_word hword hc))

theorem Gap.all_isUnmarked (gap : Gap) : gap.chars.all isUnmarked = true :=
  List.all_eq_true.mpr fun c hc => isUnmarked_of_gap (gap.isGap c hc)

theorem all_isUnmarked_optionalWord {word : String} (hword : word ∈ openingWords)
    (space : Option Space) : (optionalWord word space).all isUnmarked = true := by
  cases space with
  | none => rfl
  | some space =>
      rw [optionalWord, List.all_append, all_isUnmarked_word hword, space.all_isUnmarked]
      rfl

theorem Opening.all_isUnmarked (opening : Opening) : opening.chars.all isUnmarked = true := by
  cases opening with
  | word keyword mem space =>
      rw [chars, List.all_append, all_isUnmarked_word (keywords_subset mem), space.all_isUnmarked]
      rfl
  | generator before after =>
      have hstar : ('*' :: after.chars).all isUnmarked = true := by
        rw [List.all_cons, after.all_isUnmarked]
        rfl
      rw [chars, List.all_append, List.all_append, before.all_isUnmarked, hstar]
      rfl

namespace DeclarationLine

variable (line : DeclarationLine)

theorem all_isUnmarked : line.chars.all isUnmarked = true := by
  have hexport : ['e', 'x', 'p', 'o', 'r', 't'].all isUnmarked = true := by decide
  have hmore : line.more.all isUnmarked = true :=
    List.all_eq_true.mpr fun c hc => by simpa [isUnmarked] using line.unmarked c hc
  have hname : line.name.chars.all isUnmarked = true :=
    line.name.all_chars fun _ => isUnmarked_of_continuesIdentifier
  simp only [chars, body, plain, named, List.all_append, List.all_cons, hexport, hmore, hname,
    isUnmarked_of_gap line.isGap, line.space.all_isUnmarked, line.opening.all_isUnmarked,
    all_isUnmarked_optionalWord (show "declare" ∈ openingWords by decide),
    all_isUnmarked_optionalWord (show "async" ∈ openingWords by decide),
    all_isUnmarked_optionalWord (show "abstract" ∈ openingWords by decide), Bool.and_self]

theorem not_mem_chars {c : Char} (hc : c ∈ lineMarks) : c ∉ line.chars := by
  intro hmem
  have hunmarked := List.all_eq_true.mp line.all_isUnmarked c hmem
  simp [isUnmarked, hc] at hunmarked

theorem blankComments_chars : blankComments line.chars = .ok line.chars := by
  have hpasses := PassesTo.append (List.all_eq_true.mp line.all_isUnmarked) []
  rw [List.append_nil] at hpasses
  apply blankComments_of_passesTo hpasses
  intro c hc
  simp only [isUnmarked, lineMarks, List.contains_cons, List.contains_nil, Bool.not_eq_true',
    Bool.or_eq_false_iff, beq_eq_false_iff_ne] at hc
  simp [isQuote, hc]

theorem callImport_chars : Form.callImport.statements line.chars = [] := by
  have hquote : ∀ c ∈ line.chars, isSpecifierQuote c = false := by
    intro c hc
    cases hquote : isSpecifierQuote c with
    | false => rfl
    | true =>
        simp only [isSpecifierQuote, Bool.or_eq_true, beq_iff_eq] at hquote
        rcases hquote with rfl | rfl <;> exact absurd hc (line.not_mem_chars (by decide))
  have hcalls : CallFree line.chars := by
    intro rest hrest
    have hnone := specifier?_trimStart
      (fun c hc => hquote c (hrest.subset (List.mem_cons_of_mem _ hc)))
      (show specifier? (Text.trimStart []) = none from rfl)
    rwa [List.append_nil] at hnone
  apply Form.statements_eq_nil
  intro rest hrest
  exact importCall?_of_callFree fun later hlater => hcalls later (hlater.trans hrest)

theorem importStatements_chars : importStatements line.chars = [] := by
  have hline : '\n' ∉ line.chars := line.not_mem_chars (by decide)
  have hclause : Form.clauseImport.statements line.chars = [] :=
    Form.statements_oneLine_eq_nil rfl rfl hline rfl
  have hbare : Form.bareImport.statements line.chars = [] :=
    Form.statements_oneLine_eq_nil rfl rfl hline rfl
  simp [importStatements, importForms, hclause, hbare, line.callImport_chars]

/-- The line is found as a declaration, and as nothing else. -/
theorem exportStatements_chars (imports : List ImportDecl) :
    exportStatements imports line.chars = Form.declaration.statements line.chars := by
  have hline : '\n' ∉ line.chars := line.not_mem_chars (by decide)
  have hnone : ∀ form : Form ExportDecl, form.recognise [] = none → form.mayBegin = beginsLine →
      form.recognise line.chars = none → form.statements line.chars = [] :=
    fun form hnothing hbegins => Form.statements_oneLine_eq_nil hnothing hbegins hline
  simp only [exportStatements, exportForms, List.flatMap_cons, List.flatMap_nil, List.append_nil,
    List.nil_append, hnone .forwardedList rfl rfl line.exportFrom?_chars,
    hnone .forwardedModule rfl rfl line.exportStar?_chars,
    hnone (.exportedList imports) rfl rfl line.exportList?_chars,
    hnone .pattern rfl rfl line.exportPattern?_chars,
    hnone (.default imports) rfl rfl line.exportDefault?_chars,
    hnone .assignedName rfl rfl line.assignedName?_chars, hnone .assignedDefault rfl rfl rfl]

/-- What a line declares. -/
def declarations : Declarations where
  exports := if line.opening.touchesName then [] else [{ name := line.name.text, line := 1 }]

theorem declarationsOf_declaration :
    declarationsOf (Form.declaration.statements line.chars) = line.declarations.exports := by
  have hline : '\n' ∉ line.chars := line.not_mem_chars (by decide)
  have hfound := lineOccurrences_oneLine (show exportDeclaration? [] = none from rfl) hline
  rw [line.exportDeclaration?_chars] at hfound
  rw [Form.statements_of_taken_eq_nil rfl]
  show declarationsOf ((lineOccurrences exportDeclaration? line.chars).map _) = _
  rw [hfound, declarations]
  cases line.opening.touchesName with
  | true => exact declarationsOf_nil
  | false => exact declarationsOf_singleton _

theorem readBlanked_chars : readBlanked line.chars = .ok line.declarations := by
  have hline : '\n' ∉ line.chars := line.not_mem_chars (by decide)
  have hunreadable : unreadableImport? line.chars [] = none := by
    rw [unreadableImport?, lineOccurrences_eq_nil rfl hline rfl]
    rfl
  have hstars : Form.star.statements line.chars = [] :=
    Form.statements_oneLine_eq_nil rfl rfl hline line.exportStar?_chars
  unfold readBlanked
  rw [line.importStatements_chars]
  dsimp only
  rw [hunreadable]
  dsimp only
  rw [line.exportStatements_chars, line.declarationsOf_declaration, hstars, declarationsOf_nil,
    declarationsOf_nil]
  rfl

end DeclarationLine

end LiveExports.Source

namespace LiveExports

/-- A line with an exported declaration declares its name, however it is laid out; but if the star
of a generator touches the name, it declares nothing. -/
theorem Declarations.ofSource_declarationLine (module : ModuleId) (line : Source.DeclarationLine) :
    Declarations.ofSource module (String.ofList line.chars) =
      .ok { exports :=
        if line.opening.touchesName then [] else [{ name := line.name.text, line := 1 }] } := by
  unfold Declarations.ofSource Source.read
  rw [String.toList_ofList, line.blankComments_chars]
  dsimp only
  rw [line.readBlanked_chars]
  rfl

/-- A generator whose star touches its name. -/
def Source.touchingGenerator : DeclarationLine where
  space := ⟨⟨[' '], by simp⟩, by simp⟩
  opening := .generator ⟨[' '], by simp⟩ ⟨[], by simp⟩
  name := ⟨['g', 'e', 'n'], rfl⟩
  blank := ' '
  isGap := .inl rfl
  more := ['(', ')', ' ', '\x7b', '\x7d']
  unmarked := by simp [lineMarks, templateQuote]

theorem Declarations.ofSource_declarationLine_touching :
    String.ofList Source.touchingGenerator.chars = "export function *gen () \x7b\x7d" ∧
    Declarations.ofSource ⟨"/p/mod.js"⟩ (String.ofList Source.touchingGenerator.chars) = .ok {} :=
  ⟨by decide +kernel, ofSource_declarationLine _ _⟩

-- With a blank after the star the name is declared.
example :
    Declarations.ofSource ⟨"/p/mod.js"⟩
      "export\tdeclare async  abstract function* gen () \x7b\x7d" =
      .ok { exports := [{ name := "gen", line := 1 }] } := by
  decide +kernel

end LiveExports

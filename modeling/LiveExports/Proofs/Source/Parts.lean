import LiveExports.Proofs.Path.Cleaning
import LiveExports.Proofs.Source.Programs

/-!
# The parts of statements

How the names, specifiers, lists and clauses of a program are read where they stand, whatever
follows them.  A clause may hold any names, `from` and `type` among them: the `from` that counts is
the one that a specifier follows (`clauseFrom?_append`).
-/

namespace LiveExports.Source

/-! ## Characters of names -/

theorem toNat_of_continuesIdentifier {c : Char} (hc : continuesIdentifier c = true) :
    c.toNat < 128 := by
  have hranges : c.isAlphanum = (decide (c.val ≥ 'A'.val ∧ c.val ≤ 'Z'.val) ||
      decide (c.val ≥ 'a'.val) && decide (c.val ≤ 'z'.val) ||
      decide (c.val ≥ '0'.val) && decide (c.val ≤ '9'.val)) := rfl
  simp only [continuesIdentifier, hranges, Bool.or_eq_true, Bool.and_eq_true, beq_iff_eq,
    decide_eq_true_eq, UInt32.le_iff_toNat_le] at hc
  have hcode : c.toNat = c.val.toNat := rfl
  rcases hc with (((⟨-, hupper⟩ | ⟨-, hlower⟩) | ⟨-, hdigit⟩) | rfl) | rfl
  · have hlast : 'Z'.val.toNat = 90 := rfl
    omega
  · have hlast : 'z'.val.toNat = 122 := rfl
    omega
  · have hlast : '9'.val.toNat = 57 := rfl
    omega
  · decide
  · decide

/-- What holds of the ASCII characters of names holds of all characters of names. -/
theorem of_continuesIdentifier (holds : Char → Bool)
    (h : ∀ code < 128, continuesIdentifier (Char.ofNat code) = true →
      holds (Char.ofNat code) = true)
    {c : Char} (hc : continuesIdentifier c = true) : holds c = true := by
  have hcode := toNat_of_continuesIdentifier hc
  have hself : Char.ofNat c.toNat = c := Char.ofNat_toNat c
  rw [← hself] at hc ⊢
  exact h c.toNat hcode hc

theorem isNameChar_of_continuesIdentifier {c : Char} (hc : continuesIdentifier c = true) :
    isNameChar c = true :=
  of_continuesIdentifier isNameChar (by decide) hc

theorem isBlank_of_continuesIdentifier {c : Char} (hc : continuesIdentifier c = true) :
    Text.isBlank c = false := by
  have hnot : (!Text.isBlank c) = true :=
    of_continuesIdentifier (fun c => !Text.isBlank c) (by decide) hc
  simpa using hnot

theorem continuesIdentifier_of_begins {c : Char} (hc : beginsIdentifier c = true) :
    continuesIdentifier c = true := by
  simp only [beginsIdentifier, Bool.or_eq_true] at hc
  simp only [continuesIdentifier, Char.isAlphanum, Bool.or_eq_true]
  rcases hc with (hc | hc) | hc
  · exact .inl (.inl (.inl hc))
  · exact .inl (.inr hc)
  · exact .inr hc

namespace Identifier

variable (name : Identifier)

theorem exists_chars_eq_cons : ∃ c rest, name.chars = c :: rest ∧ beginsIdentifier c = true := by
  have h := name.isIdentifier
  cases hchars : name.chars with
  | nil =>
      rw [hchars] at h
      cases h
  | cons c rest =>
      rw [hchars, Source.isIdentifier, Bool.and_eq_true] at h
      exact ⟨c, rest, rfl, h.1⟩

theorem continues_of_mem {c : Char} (hc : c ∈ name.chars) : continuesIdentifier c = true := by
  have h := name.isIdentifier
  cases hchars : name.chars with
  | nil =>
      rw [hchars] at hc
      cases hc
  | cons first rest =>
      rw [hchars, Source.isIdentifier, Bool.and_eq_true] at h
      rw [hchars] at hc
      rcases List.mem_cons.mp hc with rfl | hrest
      · exact continuesIdentifier_of_begins h.1
      · exact List.all_eq_true.mp h.2 c hrest

/-- A name holds no other characters. -/
theorem not_mem {c : Char} (hc : continuesIdentifier c = false) : c ∉ name.chars := by
  intro hmem
  rw [name.continues_of_mem hmem] at hc
  cases hc

end Identifier

/-! ## Names and specifiers -/

theorem trimStart_cons {c : Char} (hc : Text.isBlank c = false) (text : List Char) :
    Text.trimStart (c :: text) = c :: text := by
  simp [Text.trimStart, hc]

theorem trimStart_space (text : List Char) :
    Text.trimStart (' ' :: text) = Text.trimStart text := by
  have hspace : Text.isBlank ' ' = true := by decide
  simp [Text.trimStart, hspace]

theorem trimStart_blanks {blanks text : List Char} (hblanks : ∀ c ∈ blanks, Text.isBlank c = true)
    (htext : Text.trimStart text = text) : Text.trimStart (blanks ++ text) = text := by
  unfold Text.trimStart at htext ⊢
  rw [List.dropWhile_append_of_pos hblanks, htext]

theorem afterBlanks?_space (text : List Char) :
    afterBlanks? (' ' :: text) = some (Text.trimStart text) := by
  have hspace : Text.isBlank ' ' = true := by decide
  simp [afterBlanks?, hspace]

theorem takeWhile_append_stop {holds : Char → Bool} {text : List Char}
    (htext : ∀ c ∈ text, holds c = true) {stop : Char} (hstop : holds stop = false)
    (rest : List Char) :
    (text ++ stop :: rest).takeWhile holds = text ∧
      (text ++ stop :: rest).dropWhile holds = stop :: rest := by
  constructor
  · rw [List.takeWhile_append_of_pos htext, List.takeWhile_cons_of_neg (by simp [hstop]),
      List.append_nil]
  · rw [List.dropWhile_append_of_pos htext, List.dropWhile_cons_of_neg (by simp [hstop])]

namespace Identifier

variable (name : Identifier)

theorem trimStart_append (rest : List Char) :
    Text.trimStart (name.chars ++ rest) = name.chars ++ rest := by
  obtain ⟨c, others, hchars, hbegins⟩ := name.exists_chars_eq_cons
  have hblank := isBlank_of_continuesIdentifier (continuesIdentifier_of_begins hbegins)
  rw [hchars, List.cons_append, trimStart_cons hblank]

theorem name?_append {stop : Char} (hstop : isNameChar stop = false) (rest : List Char) :
    name? (name.chars ++ stop :: rest) = some (name.text, stop :: rest) := by
  have hchars : ∀ c ∈ name.chars, isNameChar c = true := fun c hc =>
    isNameChar_of_continuesIdentifier (name.continues_of_mem hc)
  obtain ⟨htake, hdrop⟩ := takeWhile_append_stop hchars hstop rest
  obtain ⟨c, others, hcons, -⟩ := name.exists_chars_eq_cons
  unfold name?
  dsimp only
  rw [htake, hdrop, hcons]
  simp [text, hcons]

end Identifier

namespace Specifier

variable (source : Specifier)

/-- A quoted specifier is read, and nothing after it. -/
theorem specifier?_append (rest : List Char) :
    specifier? (source.quoted ++ rest) = some (source.text, rest) := by
  have hchars : ∀ c ∈ source.chars, isSpecifierChar c = true := by
    intro c hc
    have hunmarked := source.unmarked c hc
    simp only [specifierMarks, List.mem_cons, not_or] at hunmarked
    simp [isSpecifierChar, isSpecifierQuote, hunmarked]
  obtain ⟨htake, hdrop⟩ := takeWhile_append_stop hchars
    (show isSpecifierChar '\'' = false by decide) rest
  have hquoted : source.quoted ++ rest = '\'' :: (source.chars ++ '\'' :: rest) := by
    simp [quoted]
  have hnonempty : source.chars.isEmpty = false := by
    simpa using source.ne_nil
  rw [hquoted, specifier?, htake, hdrop]
  simp [isSpecifierQuote, hnonempty, text]

theorem fromSpecifier?_append (rest : List Char) :
    fromSpecifier? (fromText source ++ rest) = some (source.text, ';' :: rest) := by
  have htext : fromText source ++ rest =
      ' ' :: ("from".toList ++ ' ' :: (source.quoted ++ ';' :: rest)) := by
    simp [fromText]
  have hfrom : Text.trimStart ("from".toList ++ ' ' :: (source.quoted ++ ';' :: rest)) =
      "from".toList ++ ' ' :: (source.quoted ++ ';' :: rest) :=
    trimStart_cons (by decide) _
  have hquote : Text.trimStart (source.quoted ++ ';' :: rest) = source.quoted ++ ';' :: rest :=
    trimStart_cons (by decide) _
  rw [htext, fromSpecifier?, trimStart_space, hfrom, Text.after?_append, Option.bind_eq_bind,
    Option.bind_some, trimStart_space, hquote, specifier?_append]

end Specifier

/-! ## Clauses -/

/-- A literal that ends before a character which it does not hold. -/
theorem exists_of_after?_append {literal text rest left : List Char} {stop : Char}
    (hstop : stop ∉ literal) (h : Text.after? literal (text ++ stop :: rest) = some left) :
    ∃ more, text = literal ++ more ∧ left = more ++ stop :: rest := by
  induction literal generalizing text with
  | nil =>
      rw [Text.after?] at h
      exact ⟨text, rfl, (Option.some.inj h).symm⟩
  | cons l literal ih =>
      rw [List.mem_cons, not_or] at hstop
      cases text with
      | nil =>
          rw [List.nil_append, Text.after?, if_neg (Ne.symm hstop.1)] at h
          cases h
      | cons c text =>
          rw [List.cons_append, Text.after?] at h
          split at h
          · next hsame =>
            obtain ⟨more, hmore, hleft⟩ := ih hstop.2 h
            exact ⟨more, by rw [hmore, hsame]; rfl, hleft⟩
          · cases h

theorem specifier?_cons {c : Char} (hc : isSpecifierQuote c = false) (text : List Char) :
    specifier? (c :: text) = none := by
  simp [specifier?, hc]

/-- No specifier follows through characters that are not quotes, if none follows after them. -/
theorem specifier?_trimStart {text rest : List Char}
    (htext : ∀ c ∈ text, isSpecifierQuote c = false)
    (hrest : specifier? (Text.trimStart rest) = none) :
    specifier? (Text.trimStart (text ++ rest)) = none := by
  induction text with
  | nil => exact hrest
  | cons c text ih =>
      have hlater := ih fun d hd => htext d (List.mem_cons_of_mem c hd)
      rw [List.cons_append]
      cases hc : Text.isBlank c with
      | true =>
          have hskip : Text.trimStart (c :: (text ++ rest)) = Text.trimStart (text ++ rest) := by
            simp [Text.trimStart, hc]
          rw [hskip, hlater]
      | false => rw [trimStart_cons hc, specifier?_cons (htext c List.mem_cons_self)]

theorem isSpecifierQuote_of_isClauseChar {c : Char} (hc : isClauseChar c = true) :
    isSpecifierQuote c = false := by
  cases hquote : isSpecifierQuote c with
  | false => rfl
  | true =>
      simp only [isSpecifierQuote, Bool.or_eq_true, beq_iff_eq] at hquote
      rcases hquote with rfl | rfl <;> exact absurd hc (by decide)

/-- Inside of a clause no `from` is followed by a specifier. -/
theorem fromSpecifier?_clause {text : List Char} (htext : ∀ c ∈ text, isClauseChar c = true)
    (hsome : ∃ c ∈ text, Text.isBlank c = false) (rest : List Char) :
    fromSpecifier? (text ++ ' ' :: 'f' :: rest) = none := by
  induction text with
  | nil =>
      obtain ⟨c, hc, -⟩ := hsome
      cases hc
  | cons c text ih =>
      cases hblank : Text.isBlank c with
      | true =>
          rw [List.cons_append, fromSpecifier?_cons_of_isBlank _ hblank]
          apply ih fun d hd => htext d (List.mem_cons_of_mem c hd)
          obtain ⟨d, hd, hdblank⟩ := hsome
          rcases List.mem_cons.mp hd with rfl | hd
          · rw [hblank] at hdblank
            cases hdblank
          · exact ⟨d, hd, hdblank⟩
      | false =>
          unfold fromSpecifier?
          rw [List.cons_append, trimStart_cons hblank, ← List.cons_append]
          cases hfrom : Text.after? "from".toList (c :: text ++ ' ' :: 'f' :: rest) with
          | none => rfl
          | some left =>
              -- What comes after this `from` is more of the clause, or the `from` after it.
              obtain ⟨more, hmore, hleft⟩ := exists_of_after?_append (by decide) hfrom
              have hquotes : ∀ d ∈ more, isSpecifierQuote d = false := by
                intro d hd
                apply isSpecifierQuote_of_isClauseChar
                apply htext d
                rw [hmore]
                exact List.mem_append_right _ hd
              rw [hleft]
              exact specifier?_trimStart hquotes rfl

/-- The clause before the last `from` is taken. -/
theorem clauseFrom?_append {clause : List Char} (hchars : ∀ c ∈ clause, isClauseChar c = true)
    {last : Char} (hlast : clause.getLast? = some last) (hblank : Text.isBlank last = false)
    (failed : Bool) (source : Specifier) (rest : List Char) :
    clauseFrom? failed (clause ++ (fromText source ++ rest)) =
      some ((clause, source.text), ';' :: rest) := by
  induction clause generalizing failed with
  | nil => cases hlast
  | cons c clause ih =>
      have hc := hchars c List.mem_cons_self
      rw [List.cons_append, clauseFrom?, if_pos hc]
      cases clause with
      | nil =>
          have hnonblank : Text.isBlank c = false := by
            cases hlast
            exact hblank
          rw [hnonblank, Bool.and_false, if_neg Bool.false_ne_true, List.nil_append,
            source.fromSpecifier?_append]
      | cons d clause =>
          have hmore : ∀ e ∈ d :: clause, isClauseChar e = true := fun e he =>
            hchars e (List.mem_cons_of_mem c he)
          have hsome : ∃ e ∈ d :: clause, Text.isBlank e = false :=
            ⟨last, List.mem_of_getLast? (by simpa using hlast), hblank⟩
          have hnone : fromSpecifier? (d :: clause ++ (fromText source ++ rest)) = none := by
            have htext : fromText source ++ rest =
                ' ' :: 'f' :: ("rom ".toList ++ source.quoted ++ ';' :: rest) := by
              simp [fromText]
            rw [htext]
            exact fromSpecifier?_clause hmore hsome _
          rw [hnone, ite_self, ih hmore (by simpa using hlast)]
          rfl

/-- Without a clause there is none before `from`. -/
theorem clause?_fromText (source : Specifier) (rest : List Char) :
    clause? (fromText source ++ rest) = none := by
  have htext : fromText source ++ rest =
      ' ' :: 'f' :: 'r' :: 'o' :: 'm' :: ' ' :: '\'' :: (source.chars ++ '\'' :: ';' :: rest) := by
    simp [fromText, Specifier.quoted]
  rw [htext]
  rfl

theorem clause?_cons {c : Char} (hc : Text.isBlank c = false) (text : List Char) :
    clause? (c :: text) = none := by
  simp [clause?, afterBlanks?, blankClause?, hc]

/-! ## Lists and clauses as they are written -/

/-- The characters of clauses outside of names. -/
def clauseMarks : List Char :=
  [' ', ',', '\x7b', '\x7d', '*']

section Characters

variable {holds : Char → Bool} (hname : ∀ c, continuesIdentifier c = true → holds c = true)

include hname

theorem Identifier.all_chars (name : Identifier) : name.chars.all holds = true := by
  rw [List.all_eq_true]
  intro c hc
  exact hname c (name.continues_of_mem hc)

theorem Item.all_chars (hspace : holds ' ' = true) (item : Item) :
    item.chars.all holds = true := by
  have hword : [' ', 'a', 's', ' '].all holds = true := by
    simp [hspace, hname 'a' (by decide), hname 's' (by decide)]
  unfold Item.chars
  split
  · exact item.name.all_chars hname
  · next given _ =>
    rw [List.all_append, List.all_append, item.name.all_chars hname, hword, given.all_chars hname]
    rfl

theorem all_listBody (hspace : holds ' ' = true) (hcomma : holds ',' = true) (items : List Item) :
    (listBody items).all holds = true := by
  rw [listBody, List.all_append, Bool.and_eq_true]
  constructor
  · rw [List.all_eq_true]
    intro c hc
    rcases Text.mem_join hc with rfl | ⟨piece, hpiece, hc⟩
    · exact hcomma
    · obtain ⟨item, -, rfl⟩ := List.mem_map.mp hpiece
      rcases List.mem_cons.mp hc with rfl | hc
      · exact hspace
      · exact List.all_eq_true.mp (item.all_chars hname hspace) c hc
  · simp [hspace]

/-- What holds of the characters of names and of the marks holds of a whole clause. -/
theorem Clause.all_chars (hmarks : clauseMarks.all holds = true) (clause : Clause) :
    clause.chars.all holds = true := by
  simp only [clauseMarks, List.all_cons, List.all_nil, Bool.and_true, Bool.and_eq_true] at hmarks
  obtain ⟨hspace, hcomma, hopen, hclose, hstar⟩ := hmarks
  have hlist : ∀ items, (bracedList items).all holds = true := by
    intro items
    simp [bracedList, hopen, hclose, all_listBody hname hspace hcomma items]
  cases clause with
  | defaultOnly name => exact name.all_chars hname
  | wholeModule name =>
      simp [chars, hstar, hspace, hname 'a' (by decide), hname 's' (by decide),
        name.all_chars hname]
  | listOnly items => exact hlist items
  | defaultAndList name items => simp [chars, name.all_chars hname, hcomma, hspace, hlist items]

end Characters

theorem braced?_append (items : List Item) (rest : List Char) :
    braced? (bracedList items ++ rest) = some (listBody items, rest) := by
  have hbody : ∀ c ∈ listBody items, (!(c == '\x7d')) = true :=
    List.all_eq_true.mp (all_listBody (fun _ => of_continuesIdentifier (! · == '\x7d') (by decide))
      rfl rfl items)
  obtain ⟨htake, hdrop⟩ := takeWhile_append_stop hbody
    (show (!('\x7d' == '\x7d')) = false by decide) rest
  have htext : bracedList items ++ rest = '\x7b' :: (listBody items ++ '\x7d' :: rest) := by
    simp [bracedList]
  rw [htext, braced?, enclosed?, htake, hdrop]
  rfl

theorem getLast?_bracedList (items : List Item) : (bracedList items).getLast? = some '\x7d' := by
  rw [bracedList, List.getLast?_append]
  rfl

namespace Identifier

variable (name : Identifier)

theorem isBlank_of_mem {c : Char} (hc : c ∈ name.chars) : Text.isBlank c = false :=
  isBlank_of_continuesIdentifier (name.continues_of_mem hc)

theorem exists_getLast?_chars : ∃ last, name.chars.getLast? = some last ∧
    Text.isBlank last = false := by
  obtain ⟨c, rest, hchars, -⟩ := name.exists_chars_eq_cons
  have hne : name.chars ≠ [] := by simp [hchars]
  exact ⟨name.chars.getLast hne, List.getLast?_eq_some_getLast hne,
    name.isBlank_of_mem (List.getLast_mem hne)⟩

end Identifier

namespace Clause

variable (clause : Clause)

theorem isClauseChar_of_mem {c : Char} (hc : c ∈ clause.chars) : isClauseChar c = true := by
  have hname : ∀ c, continuesIdentifier c = true → isClauseChar c = true := by
    intro c hc
    simp [isClauseChar, isNameChar_of_continuesIdentifier hc]
  exact List.all_eq_true.mp (clause.all_chars hname (by decide)) c hc

theorem exists_getLast?_chars : ∃ last, clause.chars.getLast? = some last ∧
    Text.isBlank last = false := by
  cases clause with
  | defaultOnly name => exact name.exists_getLast?_chars
  | wholeModule name =>
      obtain ⟨last, hlast, hblank⟩ := name.exists_getLast?_chars
      exact ⟨last, by rw [chars, List.getLast?_append, hlast]; rfl, hblank⟩
  | listOnly items => exact ⟨'\x7d', getLast?_bracedList items, by decide⟩
  | defaultAndList name items =>
      refine ⟨'\x7d', ?_, by decide⟩
      rw [chars, List.getLast?_append, getLast?_bracedList]
      rfl

/-- A clause begins with no blank and no quote. -/
theorem exists_chars_eq_cons : ∃ c rest, clause.chars = c :: rest ∧ Text.isBlank c = false ∧
    isSpecifierQuote c = false := by
  obtain ⟨last, hlast, -⟩ := clause.exists_getLast?_chars
  have hfirst : ∀ c, clause.chars.head? = some c → Text.isBlank c = false := by
    intro c hc
    cases clause with
    | defaultOnly name => exact name.isBlank_of_mem (List.mem_of_head? hc)
    | wholeModule name =>
        cases hc
        decide
    | listOnly items =>
        cases hc
        decide
    | defaultAndList name items =>
        obtain ⟨first, rest, hchars, hbegins⟩ := name.exists_chars_eq_cons
        rw [chars, hchars] at hc
        cases hc
        exact isBlank_of_continuesIdentifier (continuesIdentifier_of_begins hbegins)
  cases hchars : clause.chars with
  | nil =>
      rw [hchars] at hlast
      cases hlast
  | cons c rest =>
      refine ⟨c, rest, rfl, hfirst c (by rw [hchars]; rfl), ?_⟩
      exact isSpecifierQuote_of_isClauseChar
        (clause.isClauseChar_of_mem (by rw [hchars]; exact List.mem_cons_self))

/-- A clause that begins with `type` is read as it is, and not as the rest after that word. -/
theorem clause?_of_after?_type {source : Specifier} {rest left : List Char}
    (h : Text.after? "type".toList (clause.chars ++ (fromText source ++ rest)) = some left) :
    clause? left = none := by
  have hname : ∀ (name : Identifier) (stop : Char) (more : List Char), stop ∉ "type".toList →
      Text.after? "type".toList (name.chars ++ stop :: more) = some left →
      clause? (stop :: more) = none → clause? left = none := by
    intro name stop more hstop hafter hmore
    obtain ⟨others, hothers, hleft⟩ := exists_of_after?_append hstop hafter
    rw [hleft]
    cases others with
    | nil => exact hmore
    | cons c others =>
        apply clause?_cons
        apply name.isBlank_of_mem
        rw [hothers]
        exact List.mem_append_right _ List.mem_cons_self
  cases clause with
  | defaultOnly name => exact hname name ' ' _ (by decide) h (clause?_fromText source rest)
  | wholeModule name => cases h
  | listOnly items => cases h
  | defaultAndList name items =>
      have htext : chars (defaultAndList name items) ++ (fromText source ++ rest) =
          name.chars ++ ',' :: ' ' :: (bracedList items ++ (fromText source ++ rest)) := by
        simp [chars]
      rw [htext] at h
      exact hname name ',' _ (by decide) h (clause?_cons (by decide) _)

end Clause

end LiveExports.Source

import LiveExports.Proofs.Source.Lines
import LiveExports.Proofs.Source.Parts

/-!
# Recognising the statements of a program

What each recogniser finds on a line that a statement is written on: a statement of its form is
taken apart into its parts, and a statement of another form is not taken for one.  This holds
whatever the names and the specifier are, and whatever comes on the lines after it.
-/

namespace LiveExports.Source

/-! ## Statements -/

namespace Statement

/-- Is the statement an import? -/
def isImport : Statement → Bool
  | imports .. | runs _ => true
  | _ => false

/-- Is the statement an export? -/
def isExport : Statement → Bool
  | blank | imports .. | runs _ => false
  | _ => true

variable (statement : Statement) {tail : List Char} (htail : EndsLine tail)

include htail

/-- What follows the word `import` at the beginning of a statement. -/
theorem after?_import :
    Text.after? "import".toList (afterIndent (statement.chars ++ tail)) =
      if statement.isImport then some (' ' :: (statement.body ++ tail)) else none := by
  cases statement with
  | blank =>
      rcases htail with rfl | ⟨more, rfl⟩ <;> rfl
  | imports clause source => rfl
  | runs source => rfl
  | _ => rfl

/-- What follows the word `export` at the beginning of a statement. -/
theorem afterExport?_chars :
    afterExport? (statement.chars ++ tail) =
      if statement.isExport then some (statement.body ++ tail) else none := by
  cases statement with
  | blank =>
      rcases htail with rfl | ⟨more, rfl⟩ <;> rfl
  | declares declared name => cases declared <;> rfl
  | _ => rfl

end Statement

/-! ## Imports -/

namespace Statement

/-- The clause and the specifier of an import. -/
def clause? : Statement → Option (List Char × String)
  | imports clause source => some (clause.chars, source.text)
  | _ => none

/-- The specifier of an import without a clause. -/
def bareSource? : Statement → Option String
  | runs source => some source.text
  | _ => none

end Statement

theorem importFrom?_clause (clause : Clause) (source : Specifier) (rest : List Char) :
    ((afterBlanks? (' ' :: (clause.chars ++ (fromText source ++ rest))) >>=
        Text.after? "type".toList >>= Source.clause?) <|>
      Source.clause? (' ' :: (clause.chars ++ (fromText source ++ rest)))) =
        some ((clause.chars, source.text), ';' :: rest) := by
  obtain ⟨c, others, hchars, hblank, -⟩ := clause.exists_chars_eq_cons
  have hblanks : afterBlanks? (' ' :: (clause.chars ++ (fromText source ++ rest))) =
      some (clause.chars ++ (fromText source ++ rest)) := by
    rw [afterBlanks?_space, hchars, List.cons_append, trimStart_cons hblank]
  have htype : (afterBlanks? (' ' :: (clause.chars ++ (fromText source ++ rest))) >>=
      Text.after? "type".toList >>= Source.clause?) = none := by
    rw [hblanks, Option.bind_eq_bind, Option.bind_eq_bind, Option.bind_some]
    cases hafter : Text.after? "type".toList (clause.chars ++ (fromText source ++ rest)) with
    | none => rfl
    | some left => exact clause.clause?_of_after?_type hafter
  obtain ⟨last, hlast, hlastBlank⟩ := clause.exists_getLast?_chars
  have hclause := clauseFrom?_append (fun c hc => clause.isClauseChar_of_mem hc) hlast hlastBlank
    false source rest
  rw [htype, Source.clause?, hblanks, Option.bind_some, hclause]
  rfl

theorem recognises_importFrom : Recognises Statement.chars importFrom? Statement.clause? := by
  intro statement tail htail
  have himport := statement.after?_import htail
  unfold importFrom?
  rw [himport]
  cases statement with
  | imports clause source =>
      refine ⟨';' :: tail, by simp, ?_⟩
      have hparts := importFrom?_clause clause source tail
      rw [← List.append_assoc] at hparts
      exact hparts
  | runs source => exact ⟨tail, Nat.le_refl _, rfl⟩
  | _ => exact ⟨tail, Nat.le_refl _, rfl⟩

theorem recognises_importBare : Recognises Statement.chars importBare? Statement.bareSource? := by
  intro statement tail htail
  have himport := statement.after?_import htail
  unfold importBare?
  rw [himport]
  cases statement with
  | imports clause source =>
      refine ⟨tail, Nat.le_refl _, ?_⟩
      obtain ⟨c, others, hchars, hblank, hquote⟩ := clause.exists_chars_eq_cons
      have htext : (Statement.imports clause source).body ++ tail =
          c :: (others ++ fromText source ++ tail) := by
        simp [Statement.body, hchars]
      show specifier? (Text.trimStart (' ' :: ((Statement.imports clause source).body ++ tail))) =
        none
      rw [trimStart_space, htext, trimStart_cons hblank, specifier?_cons hquote]
  | runs source =>
      refine ⟨';' :: tail, by simp, ?_⟩
      have hquote : Text.trimStart (source.quoted ++ ';' :: tail) = source.quoted ++ ';' :: tail :=
        trimStart_cons (by decide) _
      have htext : (Statement.runs source).body ++ tail = source.quoted ++ ';' :: tail := by
        simp [Statement.body]
      show specifier? (Text.trimStart (' ' :: ((Statement.runs source).body ++ tail))) =
        some (source.text, ';' :: tail)
      rw [trimStart_space, htext, hquote, source.specifier?_append]
  | _ => exact ⟨tail, Nat.le_refl _, rfl⟩

/-! ## Exports -/

namespace Statement

/-- The list and the specifier of a statement that forwards a list. -/
def forwardedList? : Statement → Option (List Char × String)
  | forwards items source => some (listBody items, source.text)
  | _ => none

/-- The list of an export, with or without a specifier. -/
def exportedList? : Statement → Option (List Char)
  | forwards items _ | exportsList items => some (listBody items)
  | _ => none

/-- The name and the specifier of a statement that forwards a module. -/
def forwardedModule? : Statement → Option (Option String × String)
  | forwardsAll source => some (none, source.text)
  | forwardsWhole name source => some (some name.text, source.text)
  | _ => none

/-- The name of an exported declaration. -/
def declaredName? : Statement → Option String
  | declares _ name => some name.text
  | _ => none

/-- The word after `export default`. -/
def defaultWord? : Statement → Option (Option String)
  | exportsDefault name _ => some (some name.text)
  | _ => none

end Statement

/-- A list is taken up to its closing brace. -/
theorem exportList?_chars (statement : Statement) {tail : List Char} (htail : EndsLine tail) :
    exportList? (statement.chars ++ tail) =
      match statement with
      | .forwards items source => some (listBody items, fromText source ++ tail)
      | .exportsList items => some (listBody items, ';' :: tail)
      | _ => none := by
  have hexport := statement.afterExport?_chars htail
  unfold exportList?
  rw [hexport]
  cases statement with
  | forwards items source =>
      have hbraced := braced?_append items (fromText source ++ tail)
      rw [← List.append_assoc] at hbraced
      exact hbraced
  | exportsList items =>
      have hbraced := braced?_append items (';' :: tail)
      have htext : bracedList items ++ ';' :: tail = bracedList items ++ [';'] ++ tail := by simp
      rw [htext] at hbraced
      exact hbraced
  | declares declared name => cases declared <;> rfl
  | _ => rfl

theorem recognises_exportList : Recognises Statement.chars exportList? Statement.exportedList? := by
  intro statement tail htail
  rw [exportList?_chars statement htail]
  cases statement with
  | forwards items source => exact ⟨fromText source ++ tail, by simp, rfl⟩
  | exportsList items => exact ⟨';' :: tail, by simp, rfl⟩
  | _ => exact ⟨tail, Nat.le_refl _, rfl⟩

theorem recognises_exportFrom :
    Recognises Statement.chars exportFrom? Statement.forwardedList? := by
  intro statement tail htail
  unfold exportFrom?
  rw [exportList?_chars statement htail]
  cases statement with
  | forwards items source =>
      refine ⟨';' :: tail, by simp, ?_⟩
      show ((fromSpecifier? (fromText source ++ tail)).bind fun read =>
        some ((listBody items, read.1), read.2)) = _
      rw [source.fromSpecifier?_append]
      rfl
  | exportsList items => exact ⟨tail, Nat.le_refl _, rfl⟩
  | _ => exact ⟨tail, Nat.le_refl _, rfl⟩

theorem asName?_name (name : Identifier) (source : Specifier) (rest : List Char) :
    asName? ('a' :: 's' :: ' ' :: (name.chars ++ (fromText source ++ rest))) =
      some (name.text, Text.trimStart (fromText source ++ rest)) := by
  have htext : fromText source ++ rest =
      ' ' :: (['f', 'r', 'o', 'm', ' '] ++ source.quoted ++ ';' :: rest) := by
    simp [fromText]
  have hword : afterWord? "as" ('a' :: 's' :: ' ' :: (name.chars ++ (fromText source ++ rest))) =
      some (name.chars ++ (fromText source ++ rest)) := by
    show afterBlanks? (' ' :: (name.chars ++ (fromText source ++ rest))) = _
    rw [afterBlanks?_space, name.trimStart_append]
  unfold asName?
  rw [hword, Option.bind_eq_bind, Option.bind_some, htext,
    name.name?_append (show isNameChar ' ' = false by decide), Option.bind_eq_bind,
    Option.bind_some]
  dsimp only
  rw [afterBlanks?_space, trimStart_space]
  rfl

theorem fromSpecifier?_trimStart (text : List Char) :
    fromSpecifier? (Text.trimStart text) = fromSpecifier? text := by
  induction text with
  | nil => rfl
  | cons c text ih =>
      cases hc : Text.isBlank c with
      | true =>
          have hskip : Text.trimStart (c :: text) = Text.trimStart text := by
            simp [Text.trimStart, hc]
          rw [hskip, ih, fromSpecifier?_cons_of_isBlank text hc]
      | false => rw [trimStart_cons hc]

theorem recognises_exportStar :
    Recognises Statement.chars exportStar? Statement.forwardedModule? := by
  intro statement tail htail
  have hexport := statement.afterExport?_chars htail
  unfold exportStar?
  rw [hexport]
  cases statement with
  | forwardsAll source =>
      refine ⟨';' :: tail, by simp, ?_⟩
      have hspecifier := source.fromSpecifier?_append tail
      rw [← fromSpecifier?_trimStart] at hspecifier
      have hname : asName? (Text.trimStart (fromText source ++ tail)) = none := rfl
      simp [Statement.isExport, Statement.body, Text.after?, hname, hspecifier,
        Statement.forwardedModule?]
  | forwardsWhole name source =>
      refine ⟨';' :: tail, by simp, ?_⟩
      have hspecifier := source.fromSpecifier?_append tail
      rw [← fromSpecifier?_trimStart] at hspecifier
      have hname := asName?_name name source tail
      have hspace :
          Text.trimStart (' ' :: 'a' :: 's' :: ' ' :: (name.chars ++ (fromText source ++ tail))) =
          'a' :: 's' :: ' ' :: (name.chars ++ (fromText source ++ tail)) := rfl
      simp [Statement.isExport, Statement.body, Text.after?, hspace, hname, hspecifier,
        Statement.forwardedModule?]
  | declares declared name =>
      cases declared <;> exact ⟨tail, Nat.le_refl _, rfl⟩
  | _ => exact ⟨tail, Nat.le_refl _, rfl⟩

theorem Identifier.exists_append_eq_cons (name : Identifier) (rest : List Char) :
    ∃ c others, name.chars ++ rest = c :: others ∧ continuesIdentifier c = true := by
  obtain ⟨c, others, hchars, hbegins⟩ := name.exists_chars_eq_cons
  exact ⟨c, others ++ rest, by rw [hchars]; rfl, continuesIdentifier_of_begins hbegins⟩

/-- The words before the name of a declaration are passed over. -/
theorem afterDeclarationWord?_word (declared : Declared) (name : Identifier) (rest : List Char) :
    afterDeclarationWord? (declared.word ++ ' ' :: (name.chars ++ rest)) =
      some (name.chars ++ rest) := by
  have htrim := name.trimStart_append rest
  cases declared with
  | functionValue =>
      have hfunction : Text.after? "function".toList
          (Declared.functionValue.word ++ ' ' :: (name.chars ++ rest)) =
            some (' ' :: (name.chars ++ rest)) := rfl
      obtain ⟨c, others, htext, hc⟩ := name.exists_append_eq_cons rest
      have hstar : c ≠ '*' := by
        rintro rfl
        exact absurd hc (by decide)
      unfold afterDeclarationWord?
      rw [hfunction]
      dsimp only
      rw [trimStart_space, htrim, afterBlanks?_space, htrim, htext]
      split
      · next heq => exact absurd (List.cons.inj heq).1 hstar
      · rfl
  | classValue =>
      show some (Text.trimStart (name.chars ++ rest)) = _
      rw [htrim]
  | constantValue =>
      show some (Text.trimStart (name.chars ++ rest)) = _
      rw [htrim]

theorem recognises_exportDeclaration :
    Recognises Statement.chars exportDeclaration? Statement.declaredName? := by
  intro statement tail htail
  have hexport := statement.afterExport?_chars htail
  unfold exportDeclaration?
  rw [hexport]
  cases statement with
  | declares declared name =>
      refine ⟨declared.ending ++ tail, by simp, ?_⟩
      have hword := afterDeclarationWord?_word declared name (declared.ending ++ tail)
      have hname : name? (name.chars ++ (declared.ending ++ tail)) =
          some (name.text, declared.ending ++ tail) := by
        cases declared <;> exact name.name?_append (by decide) _
      have htext : (Statement.declares declared name).body ++ tail =
          declared.word ++ ' ' :: (name.chars ++ (declared.ending ++ tail)) := by
        simp [Statement.body]
      have hoptional : afterOptional "abstract" (afterOptional "async" (afterOptional "declare"
          (declared.word ++ ' ' :: (name.chars ++ (declared.ending ++ tail))))) =
          declared.word ++ ' ' :: (name.chars ++ (declared.ending ++ tail)) := by
        cases declared <;> rfl
      rw [htext]
      show (afterDeclarationWord? (afterOptional "abstract" (afterOptional "async"
        (afterOptional "declare" (declared.word ++ ' ' :: (name.chars ++ (declared.ending ++
          tail))))))).bind name? = _
      rw [hoptional, hword, Option.bind_some, hname]
      rfl
  | _ => exact ⟨tail, Nat.le_refl _, rfl⟩

theorem recognises_exportPattern :
    Recognises Statement.chars exportPattern? fun _ => none := by
  intro statement tail htail
  refine ⟨tail, Nat.le_refl _, ?_⟩
  have hexport := statement.afterExport?_chars htail
  unfold exportPattern?
  rw [hexport]
  cases statement with
  | declares declared name =>
      cases declared with
      | constantValue =>
          -- A name is no pattern.
          obtain ⟨c, others, htext, hc⟩ :=
            name.exists_append_eq_cons (Declared.constantValue.ending ++ tail)
          have hopens : (c == '\x7b' || c == '[') = false := by
            cases hopen : c == '\x7b' || c == '[' with
            | false => rfl
            | true =>
                simp only [Bool.or_eq_true, beq_iff_eq] at hopen
                rcases hopen with rfl | rfl <;> exact absurd hc (by decide)
          show enclosed? (fun c => c == '\x7b' || c == '[') (fun c => c == '\x7d' || c == ']')
            (Text.trimStart (name.chars ++ Declared.constantValue.ending ++ tail)) = none
          rw [List.append_assoc, name.trimStart_append, htext]
          simp [enclosed?, hopens]
      | functionValue => rfl
      | classValue => rfl
  | _ => rfl

theorem recognises_exportDefault :
    Recognises Statement.chars exportDefault? Statement.defaultWord? := by
  intro statement tail htail
  have hexport := statement.afterExport?_chars htail
  unfold exportDefault?
  rw [hexport]
  cases statement with
  | exportsDefault name ne_keyword =>
      refine ⟨';' :: tail, by simp, ?_⟩
      have hname := name.name?_append (show isNameChar ';' = false by decide) tail
      have htrim := name.trimStart_append (';' :: tail)
      have hafter : Text.after? "default".toList
          ((Statement.exportsDefault name ne_keyword).body ++ tail) =
            some (' ' :: (name.chars ++ ';' :: tail)) := by
        have htext : (Statement.exportsDefault name ne_keyword).body ++ tail =
            ['d', 'e', 'f', 'a', 'u', 'l', 't'] ++ ' ' :: (name.chars ++ ';' :: tail) := by
          simp [Statement.body]
        rw [htext]
        rfl
      have hend : isWordEnd (' ' :: (name.chars ++ ';' :: tail)) = true := rfl
      simp only [Statement.isExport, if_true, Option.bind_eq_bind, Option.bind_some, hafter, hend,
        trimStart_space, htrim, hname, Statement.defaultWord?, Option.map_some]
      rfl
  | declares declared name =>
      cases declared <;> exact ⟨tail, Nat.le_refl _, rfl⟩
  | _ => exact ⟨tail, Nat.le_refl _, rfl⟩

/-! ## Assignments -/

theorem recognises_assignedName : Recognises Statement.chars assignedName? fun _ => none := by
  intro statement tail htail
  refine ⟨tail, Nat.le_refl _, ?_⟩
  cases statement with
  | blank => rcases htail with rfl | ⟨more, rfl⟩ <;> rfl
  | _ => rfl

theorem recognises_assignedDefault :
    Recognises Statement.chars assignedDefault? fun _ => none := by
  intro statement tail htail
  refine ⟨tail, Nat.le_refl _, ?_⟩
  cases statement with
  | blank => rcases htail with rfl | ⟨more, rfl⟩ <;> rfl
  | _ => rfl

end LiveExports.Source

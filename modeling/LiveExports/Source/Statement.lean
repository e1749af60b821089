import LiveExports.Source.Specifiers

/-!
# Statements

Each form of import and export statement has a recogniser, which takes the text from where the
statement would begin and gives what it says together with the rest.  Forms are recognised in a text
whose comments are blanked; nothing is asked of what follows them.

All but one run in a form end where the next part begins, so they are taken whole.  The exception is
the clause of an import: it is the shortest one after which `from` and a specifier follow, and the
last blank before it may be all there is to it (`blankClause?`).
-/

namespace LiveExports.Source

/-! ## Parts of statements -/

/-- The text after the spaces and tabs that a line begins with. -/
def afterIndent (text : List Char) : List Char :=
  text.dropWhile fun c => c == ' ' || c == '\t'

/-- The text after one or more blanks. -/
def afterBlanks? : List Char → Option (List Char)
  | [] => none
  | c :: rest => if Text.isBlank c then some (Text.trimStart rest) else none

/-- The text after a word and the blanks that must follow it. -/
def afterWord? (word : String) (text : List Char) : Option (List Char) :=
  (Text.after? word.toList text).bind afterBlanks?

/-- The text after a word and the blanks that must follow it, if they stand there. -/
def afterOptional (word : String) (text : List Char) : List Char :=
  (afterWord? word text).getD text

/-- Is the text not the continuation of a word? -/
def isWordEnd (text : List Char) : Bool :=
  !text.head?.any Text.isWord

/-- A name, as long as it goes. -/
def name? (text : List Char) : Option (String × List Char) :=
  let name := text.takeWhile isNameChar
  if name.isEmpty then none else some (String.ofList name, text.dropWhile isNameChar)

def isSpecifierQuote (c : Char) : Bool :=
  c == '\'' || c == '"'

/-- Characters inside the quotes of a specifier. -/
def isSpecifierChar (c : Char) : Bool :=
  !isSpecifierQuote c && c != '\n'

/-- A specifier in quotes; the closing quote may be of the other kind. -/
def specifier? : List Char → Option (String × List Char)
  | [] => none
  | opening :: rest =>
    if isSpecifierQuote opening then
      let body := rest.takeWhile isSpecifierChar
      match rest.dropWhile isSpecifierChar with
      | [] => none
      | closing :: rest =>
        if isSpecifierQuote closing ∧ ¬ body.isEmpty then some (String.ofList body, rest) else none
    else none

/-- `from` and a specifier, with blanks allowed before each. -/
def fromSpecifier? (text : List Char) : Option (String × List Char) := do
  let text ← Text.after? "from".toList (Text.trimStart text)
  specifier? (Text.trimStart text)

/-- A blank before `from` changes nothing. -/
theorem fromSpecifier?_cons_of_isBlank {c : Char} (text : List Char) (h : Text.isBlank c = true) :
    fromSpecifier? (c :: text) = fromSpecifier? text := by
  simp [fromSpecifier?, Text.trimStart, h]

/-- The text up to a closing character, after an opening one. -/
def enclosed? (opens closes : Char → Bool) : List Char → Option (List Char × List Char)
  | [] => none
  | opening :: rest =>
    if opens opening then
      match rest.dropWhile (! closes ·) with
      | [] => none
      | _ :: after => some (rest.takeWhile (! closes ·), after)
    else none

/-- The text between braces. -/
def braced? (text : List Char) : Option (List Char × List Char) :=
  enclosed? (· == '\x7b') (· == '\x7d') text

/-! ## Imports -/

/-- Characters of an import clause. -/
def isClauseChar (c : Char) : Bool :=
  isNameChar c || Text.isBlank c || c == '\x7b' || c == '\x7d' || c == ',' || c == '*'

/-- The shortest clause, of at least one character, that `from` and a specifier follow.  Where
`failed` says that they do not follow at the head of the text, they do not follow after a blank at
its head either. -/
def clauseFrom? (failed : Bool) : List Char → Option ((List Char × String) × List Char)
  | [] => none
  | c :: rest =>
    if isClauseChar c then
      match if failed && Text.isBlank c then none else fromSpecifier? rest with
      | some (source, rest) => some (([c], source), rest)
      | none =>
        (clauseFrom? true rest).map fun ((clause, source), rest) => ((c :: clause, source), rest)
    else none

/-- A clause that is only the last of two or more blanks, with `from` and a specifier after it. -/
def blankClause? (text : List Char) : Option ((List Char × String) × List Char) :=
  match (text.takeWhile Text.isBlank).reverse with
  | last :: _ :: _ => (fromSpecifier? text).map fun (source, rest) => (([last], source), rest)
  | _ => none

/-- A clause, `from` and a specifier, after the blanks that must stand before them.  The blanks are
all taken before the clause; only if it cannot be read so, the last of them is left to it. -/
def clause? (text : List Char) : Option ((List Char × String) × List Char) :=
  (afterBlanks? text).bind (clauseFrom? false) <|> blankClause? text

/-- `import CLAUSE from 'SOURCE'` or `import type CLAUSE from 'SOURCE'` -/
def importFrom? (text : List Char) : Option ((List Char × String) × List Char) := do
  let text ← Text.after? "import".toList (afterIndent text)
  (afterBlanks? text >>= Text.after? "type".toList >>= clause?) <|> clause? text

/-- `import 'SOURCE'` -/
def importBare? (text : List Char) : Option (String × List Char) := do
  let text ← Text.after? "import".toList (afterIndent text)
  specifier? (Text.trimStart text)

/-- `require('SOURCE')` or `import('SOURCE')` -/
def importCall? (text : List Char) : Option (String × List Char) := do
  let text ← Text.after? "require".toList text <|> Text.after? "import".toList text
  let text ← Text.after? ['('] (Text.trimStart text)
  let (source, text) ← specifier? (Text.trimStart text)
  let text ← Text.after? [')'] (Text.trimStart text)
  return (source, text)

/-- The word `import` at the beginning of a line, with what follows it. -/
def importWord? (text : List Char) : Option (List Char × List Char) := do
  let text ← Text.after? "import".toList (afterIndent text)
  if isWordEnd text then return (text, text) else none

/-! ## Exports -/

/-- The word `export` at the beginning of a line, and the blanks after it. -/
def afterExport? (text : List Char) : Option (List Char) :=
  afterWord? "export" (afterIndent text)

/-- `export { LIST }` -/
def exportList? (text : List Char) : Option (List Char × List Char) := do
  let text ← afterExport? text
  braced? (afterOptional "type" text)

/-- `export { LIST } from 'SOURCE'` -/
def exportFrom? (text : List Char) : Option ((List Char × String) × List Char) := do
  let (list, text) ← exportList? text
  let (source, text) ← fromSpecifier? text
  return ((list, source), text)

/-- `as NAME` and the blanks that must follow it. -/
def asName? (text : List Char) : Option (String × List Char) := do
  let text ← afterWord? "as" text
  let (name, text) ← name? text
  let text ← afterBlanks? text
  return (name, text)

/-- `export * from 'SOURCE'` or `export * as NAME from 'SOURCE'` -/
def exportStar? (text : List Char) : Option ((Option String × String) × List Char) := do
  let text ← afterExport? text
  let text ← Text.after? ['*'] text
  let text := Text.trimStart text
  match asName? text with
  | some (name, text) => do
    let (source, text) ← fromSpecifier? text
    return ((some name, source), text)
  | none => do
    let (source, text) ← fromSpecifier? text
    return ((none, source), text)

/-- The words that a declaration begins with, `function` apart. -/
def declarationWords : List String :=
  ["class", "const", "let", "var", "interface", "type", "enum", "namespace"]

/-- The text after the word of a declaration and the blanks that must follow it; the star of a
generator has blanks of its own after it. -/
def afterDeclarationWord? (text : List Char) : Option (List Char) :=
  match Text.after? "function".toList text with
  | some rest =>
    match Text.trimStart rest with
    | '*' :: rest => afterBlanks? rest
    | _ => afterBlanks? rest
  | none => declarationWords.findSome? (afterWord? · text)

/-- `export function NAME`, `export const NAME` and so on. -/
def exportDeclaration? (text : List Char) : Option (String × List Char) := do
  let text ← afterExport? text
  let text := afterOptional "abstract" (afterOptional "async" (afterOptional "declare" text))
  let text ← afterDeclarationWord? text
  name? text

/-- `export const { PATTERN }` or `export const [ PATTERN ]` -/
def exportPattern? (text : List Char) : Option (List Char × List Char) := do
  let text ← afterExport? text
  let text ← ["const", "let", "var"].findSome? (afterWord? · text)
  enclosed? (fun c => c == '\x7b' || c == '[') (fun c => c == '\x7d' || c == ']') text

/-- `export default`, with the word that follows it. -/
def exportDefault? (text : List Char) : Option (Option String × List Char) := do
  let text ← afterExport? text
  let text ← Text.after? "default".toList text
  if isWordEnd text then
    let text := Text.trimStart text
    match name? text with
    | some (name, text) => return (some name, text)
    | none => return (none, text)
  else none

/-- `exports.NAME =` or `module.exports.NAME =` -/
def assignedName? (text : List Char) : Option (String × List Char) := do
  let text := afterIndent text
  let text := (Text.after? "module.".toList text).getD text
  let text ← Text.after? "exports.".toList text
  let (name, text) ← name? text
  let text ← Text.after? ['='] (Text.trimStart text)
  return (name, text)

/-- `module.exports =` -/
def assignedDefault? (text : List Char) : Option (Unit × List Char) := do
  let text ← Text.after? "module.exports".toList (afterIndent text)
  let text ← Text.after? ['='] (Text.trimStart text)
  return ((), text)

end LiveExports.Source

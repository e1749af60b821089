import LiveExports.Source.Reading

/-!
# Programs of imports and exports

The statements that a program of imports and exports is made of, how they are written, and what they
declare.  Every statement stands on a line of its own; lines may also be empty.  An exported name
that is the name of an import forwards what the last such import imports.
-/

namespace LiveExports.Source

/-! ## Names and specifiers -/

/-- Characters that a name may begin with. -/
def beginsIdentifier (c : Char) : Bool :=
  c.isAlpha || c == '_' || c == '$'

/-- Characters that a name may go on with. -/
def continuesIdentifier (c : Char) : Bool :=
  c.isAlphanum || c == '_' || c == '$'

def isIdentifier : List Char → Bool
  | [] => false
  | c :: rest => beginsIdentifier c && rest.all continuesIdentifier

/-- A name of ASCII characters. -/
structure Identifier where
  chars : List Char
  isIdentifier : isIdentifier chars = true

def Identifier.text (name : Identifier) : String :=
  String.ofList name.chars

/-- Characters that a specifier does not hold. -/
def specifierMarks : List Char :=
  ['\'', '"', '\\', '\n']

/-- A specifier that can stand in quotes as it is. -/
structure Specifier where
  chars : List Char
  ne_nil : chars ≠ []
  unmarked : ∀ c ∈ chars, c ∉ specifierMarks

def Specifier.text (source : Specifier) : String :=
  String.ofList source.chars

/-- A specifier in quotes. -/
def Specifier.quoted (source : Specifier) : List Char :=
  '\'' :: source.chars ++ ['\'']

/-! ## Lists and clauses -/

/-- An item of a list: a name, and the name it is given if that is another.  A name that is given
another is not `type`. -/
structure Item where
  name : Identifier
  renamed : Option Identifier := none
  ne_type : renamed.isSome = true → name.chars ≠ "type".toList

namespace Item

/-- The name that an item is given. -/
def given (item : Item) : Identifier :=
  item.renamed.getD item.name

/-- `a` or `a as b` -/
def chars (item : Item) : List Char :=
  match item.renamed with
  | none => item.name.chars
  | some given => item.name.chars ++ [' ', 'a', 's', ' '] ++ given.chars

end Item

/-- What stands between the braces of a list. -/
def listBody (items : List Item) : List Char :=
  Text.join ',' (items.map fun item => ' ' :: item.chars) ++ [' ']

/-- `{ a as b, ... }` -/
def bracedList (items : List Item) : List Char :=
  '\x7b' :: listBody items ++ ['\x7d']

/-- What stands between `import` and `from`. -/
inductive Clause where
  /-- `D` -/
  | defaultOnly (name : Identifier)
  /-- `* as N` -/
  | wholeModule (name : Identifier)
  /-- `{ a as b, ... }` -/
  | listOnly (items : List Item)
  /-- `D, { a as b, ... }` -/
  | defaultAndList (name : Identifier) (items : List Item)

namespace Clause

def chars : Clause → List Char
  | defaultOnly name => name.chars
  | wholeModule name => ['*', ' ', 'a', 's', ' '] ++ name.chars
  | listOnly items => bracedList items
  | defaultAndList name items => name.chars ++ [',', ' '] ++ bracedList items

/-- The import of the default export under a name. -/
def defaultImport (name : Identifier) (source : String) : ImportDecl :=
  { source, name := defaultName, localName := name.text }

/-- The imports of a list. -/
def listImports (items : List Item) (source : String) : List ImportDecl :=
  items.map fun item => { source, name := item.name.text, localName := item.given.text }

/-- What a clause imports. -/
def imports (source : String) : Clause → List ImportDecl
  | defaultOnly name => [defaultImport name source]
  | wholeModule name => [{ source, name := namespaceName, localName := name.text }]
  | listOnly items => listImports items source
  | defaultAndList name items => defaultImport name source :: listImports items source

end Clause

/-! ## Statements -/

/-- What an exported declaration declares. -/
inductive Declared where
  | functionValue
  | classValue
  | constantValue
deriving DecidableEq

namespace Declared

/-- The word that the declaration begins with. -/
def word : Declared → List Char
  | functionValue => ['f', 'u', 'n', 'c', 't', 'i', 'o', 'n']
  | classValue => ['c', 'l', 'a', 's', 's']
  | constantValue => ['c', 'o', 'n', 's', 't']

/-- What follows the name. -/
def ending : Declared → List Char
  | functionValue => ['(', ')', ' ', '\x7b', '\x7d']
  | classValue => [' ', '\x7b', '\x7d']
  | constantValue => [' ', '=', ' ', '0', ';']

end Declared

/-- A line of a program. -/
inductive Statement where
  /-- An empty line. -/
  | blank
  /-- `import CLAUSE from 'S';` -/
  | imports (clause : Clause) (source : Specifier)
  /-- `import 'S';` -/
  | runs (source : Specifier)
  /-- `export { a as b, ... } from 'S';` -/
  | forwards (items : List Item) (source : Specifier)
  /-- `export * from 'S';` -/
  | forwardsAll (source : Specifier)
  /-- `export * as N from 'S';` -/
  | forwardsWhole (name : Identifier) (source : Specifier)
  /-- `export { a as b, ... };` -/
  | exportsList (items : List Item)
  /-- `export function N() {}`, `export class N {}` or `export const N = 0;` -/
  | declares (declared : Declared) (name : Identifier)
  /-- `export default D;` -/
  | exportsDefault (name : Identifier) (ne_keyword : name.text ∉ defaultKeywords)

/-- ` from 'S';` -/
def fromText (source : Specifier) : List Char :=
  [' ', 'f', 'r', 'o', 'm', ' '] ++ source.quoted ++ [';']

namespace Statement

/-- What follows the first word of a statement and the space after it. -/
def body : Statement → List Char
  | blank => []
  | imports clause source => clause.chars ++ fromText source
  | runs source => source.quoted ++ [';']
  | forwards items source => bracedList items ++ fromText source
  | forwardsAll source => '*' :: fromText source
  | forwardsWhole name source => ['*', ' ', 'a', 's', ' '] ++ name.chars ++ fromText source
  | exportsList items => bracedList items ++ [';']
  | declares declared name => declared.word ++ ' ' :: name.chars ++ declared.ending
  | exportsDefault name _ => ['d', 'e', 'f', 'a', 'u', 'l', 't', ' '] ++ name.chars ++ [';']

/-- How a statement is written. -/
def chars (statement : Statement) : List Char :=
  match statement with
  | blank => []
  | imports .. | runs _ => ['i', 'm', 'p', 'o', 'r', 't', ' '] ++ statement.body
  | _ => ['e', 'x', 'p', 'o', 'r', 't', ' '] ++ statement.body

/-- What a statement on a line imports. -/
def importDecls (line : Nat) : Statement → List ImportDecl
  | imports clause source =>
    (clause.imports source.text).map fun decl => { decl with line }
  | runs source => [{ source := source.text, name := "", localName := "", line }]
  | _ => []

/-- The specifier of a statement that forwards all names. -/
def stars : Statement → List String
  | forwardsAll source => [source.text]
  | _ => []

/-- The last of the imports that a name is given by. -/
def lastImport? (imports : List ImportDecl) (name : Identifier) : Option ImportDecl :=
  imports.reverse.find? (·.localName == name.text)

/-- The export of a name of the program: a forward of what it was last imported as, or else a
value. -/
def exportOf (imports : List ImportDecl) (name : Identifier) (exported : String) (line : Nat) :
    ExportDecl where
  name := exported
  forward := (lastImport? imports name).map fun decl => ⟨decl.source, decl.name⟩
  line := line

/-- What a statement on a line exports, in a program with the given imports. -/
def exportDecls (imports : List ImportDecl) (line : Nat) : Statement → List ExportDecl
  | forwards items source =>
    items.map fun item =>
      { name := item.given.text, forward := some ⟨source.text, item.name.text⟩, line }
  | forwardsWhole name source =>
    [{ name := name.text, forward := some ⟨source.text, namespaceName⟩, line }]
  | exportsList items => items.map fun item => exportOf imports item.name item.given.text line
  | declares _ name => [{ name := name.text, line }]
  | exportsDefault name _ => [exportOf imports name defaultName line]
  | _ => []

end Statement

/-! ## Programs -/

namespace Program

variable (program : List Statement)

/-- The text of a program, one statement a line. -/
def text : List Char :=
  Text.join '\n' (program.map Statement.chars)

example :
    text [.imports (.defaultAndList ⟨['D'], rfl⟩ [⟨⟨['a'], rfl⟩, some ⟨['b'], rfl⟩, by decide⟩,
        ⟨⟨['c'], rfl⟩, none, nofun⟩]) ⟨['.', '/', 's'], nofun, by simp [specifierMarks]⟩,
      .blank, .declares .functionValue ⟨['N'], rfl⟩] =
      "import D, \x7b a as b, c \x7d from './s';\n\nexport function N() \x7b\x7d".toList := by
  decide

/-- What is gathered from the statements of a program, whose lines are counted from one. -/
def gather {α : Type} (found : Nat → Statement → List α) : List α :=
  (program.zipIdx 1).flatMap fun (statement, line) => found line statement

def imports : List ImportDecl :=
  gather program Statement.importDecls

/-- What a program declares. -/
def declarations : Declarations where
  exports := gather program (Statement.exportDecls (imports program))
  stars := gather program fun _ statement => statement.stars
  imports := imports program

end Program

end LiveExports.Source

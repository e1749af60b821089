import LiveExports.Fault
import LiveExports.Source.Comments
import LiveExports.Source.Form

/-!
# Reading a source

The declarations of a source text.  Comments are blanked first; then each form of statement is
looked for on its own, and what was found is put in the order of the text.

A source is refused where a block comment does not end, and where a line begins with `import` but is
no import that can be read.
-/

namespace LiveExports.Source

/-- Why a source is refused, and on which line. -/
inductive Refusal where
  | unterminatedComment (line : Nat)
  | unreadableImport (line : Nat)
deriving DecidableEq, Repr

namespace Refusal

def line : Refusal → Nat
  | unterminatedComment line => line
  | unreadableImport line => line

def message : Refusal → String
  | unterminatedComment _ => "unterminated block comment"
  | unreadableImport _ => "unreadable import statement"

end Refusal

/-- Does the word `import` before this text begin something other than an import statement: a call,
a property or an assignment? -/
def isNoStatement (rest : List Char) : Bool :=
  match (Text.trimStart rest).head? with
  | some c => c == '(' || c == '.' || c == '='
  | none => false

/-- The first line that begins with `import` without being one of the statements. -/
def unreadableImport? (text : List Char) (statements : List (Occurrence (List ImportDecl))) :
    Option Nat :=
  ((lineOccurrences importWord? text).find? fun o =>
    !isNoStatement o.found && !statements.any (·.offset == o.offset)).map (·.line)

/-- The declarations of a list of statements, in the order of the text. -/
def declarationsOf {α : Type} (statements : List (Occurrence (List α))) : List α :=
  (inOrder statements).flatMap (·.found)

/-- The declarations of a text without comments. -/
def readBlanked (text : List Char) : Except Refusal Declarations :=
  let statements := importStatements text
  match unreadableImport? text statements with
  | some line => .error (.unreadableImport line)
  | none =>
    let imports := declarationsOf statements
    .ok
      { exports := declarationsOf (exportStatements imports text)
        stars := declarationsOf (Form.star.statements text)
        imports }

/-- The declarations of a source. -/
def read (source : List Char) : Except Refusal Declarations :=
  match blankComments source with
  | .error line => .error (.unterminatedComment line)
  | .ok text => readBlanked text

end LiveExports.Source

namespace LiveExports

/-- The declarations of a module with the given source. -/
def Declarations.ofSource (module : ModuleId) (source : String) : Except Fault Declarations :=
  match Source.read source.toList with
  | .error refusal => .error (.parse module.text refusal.message (some refusal.line))
  | .ok declarations => .ok declarations

end LiveExports

import LiveExports.Declarations
import LiveExports.Text.Pieces
import LiveExports.Text.Word

/-!
# Clauses and lists of names

What stands between `import` and `from`, between the braces of an import or export, and in a
destructuring pattern.
-/

namespace LiveExports.Source

/-- Characters of names: word characters and the dollar sign. -/
def isNameChar (c : Char) : Bool :=
  Text.isWord c || c == '$'

/-- One item of a list: a name, and the name it is given by `as`.  An item may be marked with
`type`. -/
def readItem (item : List Char) : String × String :=
  let item := ((Text.after? "type ".toList item).map Text.trim).getD item
  match Text.words item with
  | [] => ("", "")
  | [name] => (String.ofList name, String.ofList name)
  | name :: second :: rest =>
    match rest with
    | [] => (String.ofList name, String.ofList name)
    | third :: _ =>
      if second = "as".toList then (String.ofList name, String.ofList third)
      else (String.ofList name, String.ofList name)

/-- The items between the commas, without blanks around them; empty ones do not count. -/
def listItems (list : List Char) : List (List Char) :=
  ((Text.split ',' list).map Text.trim).filter (! ·.isEmpty)

/-- The names of a list, each with the name it is given. -/
def readList (list : List Char) : List (String × String) :=
  (listItems list).map readItem

/-! ## Import clauses -/

/-- The text before the first opening brace and the text between it and the last closing brace, if
the two braces stand in this order. -/
def splitBraces (clause : List Char) : List Char × Option (List Char) :=
  match clause.dropWhile (· ≠ '\x7b') with
  | [] => (clause, none)
  | _ :: afterOpen =>
    match afterOpen.reverse.dropWhile (· ≠ '\x7d') with
    | [] => (clause, none)
    | _ :: beforeClose => (clause.takeWhile (· ≠ '\x7b'), some beforeClose.reverse)

/-- A part of a clause outside braces: a namespace after a star, or a default import. -/
def readHeadPart (source : String) (part : List Char) : ImportDecl :=
  match part with
  | '*' :: rest =>
    let bound := ((Text.after? "as".toList (Text.trim rest)).map Text.trim).getD []
    { source, name := namespaceName, localName := String.ofList bound }
  | _ => { source, name := defaultName, localName := String.ofList part }

/-- The imports of a clause. -/
def readClause (clause : List Char) (source : String) : List ImportDecl :=
  let (head, named) := splitBraces (Text.trim clause)
  (listItems head).map (readHeadPart source) ++
    (readList (named.getD [])).map fun (name, localName) => { source, name, localName }

/-! ## Destructuring patterns -/

/-- The text after the last colon. -/
def afterLastColon (text : List Char) : List Char :=
  (text.reverse.takeWhile (· ≠ ':')).reverse

/-- The text without the dots of a rest pattern. -/
def dropRestDots : List Char → List Char
  | '.' :: '.' :: '.' :: rest => dropRestDots rest
  | text => text

/-- The name that one part of a destructuring pattern binds. -/
def boundName? (part : List Char) : Option String :=
  let target := Text.trim (part.takeWhile (· ≠ '='))
  let name := Text.trim (dropRestDots (Text.trim (afterLastColon target)))
  if name.isEmpty then none
  else if name.all fun c => Text.isAlphanumeric c || c == '_' || c == '$' then
    some (String.ofList name)
  else none

/-- The names that a destructuring pattern binds. -/
def boundNames (pattern : List Char) : List String :=
  (Text.split ',' pattern).filterMap boundName?

end LiveExports.Source

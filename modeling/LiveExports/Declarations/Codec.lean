import LiveExports.Declarations
import LiveExports.Json.Decode
import LiveExports.Json.Reader
import LiveExports.Json.Writer

/-!
# Declarations as documents

The stored form of declarations.  An export that forwards a name is written with the key `name`
twice, once for the exported and once for the forwarded name.  As no known field may stand twice,
such an export cannot be read back.
-/

namespace LiveExports

/-- Line numbers and times are below this bound. -/
def wordBound : Nat := Nat.pow 2 64

/-- Documents are nested no deeper than this where their values are kept. -/
def nestingLimit : Nat := 127

namespace ExportDecl

def encode (decl : ExportDecl) : Json.Value :=
  .object (
    [("name", .string decl.name)] ++
    (match decl.forward with
      | none => [("kind", .string "value")]
      | some forward =>
        [("kind", .string "re_export"), ("source", .string forward.source),
          ("name", .string forward.name)]) ++
    [("line", .natural decl.line)])

/-- Does the value stand for an export of the module's own, by name or by number? -/
def isOwnKind : Json.Value → Bool
  | .string text => text == "value"
  | value => value.natural? wordBound == some 0

/-- Reads an export that stands inside `enclosing` arrays and objects.  The forwarded name of a
forwarding export would be a second `name`, so only exports of the module's own are read. -/
def decode? (enclosing : Nat) : Json.Value → Option ExportDecl
  | .object members => do
    let name ← (← Json.Value.member? "name" members).bind Json.Value.string?
    let line ← (← Json.Value.member? "line" members).elim (some 0) (Json.Value.natural? wordBound)
    let kind ← ← Json.Value.member? "kind" members
    let others := members.filter fun (key, _) => key != "name" && key != "line"
    let room := nestingLimit - (enclosing + 1)
    if isOwnKind kind ∧ others.all fun (_, value) => value.isWithin room then
      some { name, line }
    else none
  | _ => none

end ExportDecl

namespace ImportDecl

def encode (decl : ImportDecl) : Json.Value :=
  .object
    [("source", .string decl.source), ("name", .string decl.name),
      ("alias", .string decl.localName), ("line", .natural decl.line)]

def decode? (value : Json.Value) : Option ImportDecl := do
  match ← value.fields? ["source", "name", "alias", "line"] with
  | [source, name, localName, line] =>
    return {
      source := ← source.bind Json.Value.string?
      name := ← name.bind Json.Value.string?
      localName := ← localName.bind Json.Value.string?
      line := ← line.elim (some 0) (Json.Value.natural? wordBound) }
  | _ => none

end ImportDecl

namespace Declarations

def encode (declarations : Declarations) : Json.Value :=
  .object
    [("exports", .array (declarations.exports.map ExportDecl.encode)),
      ("star_reexports", .strings declarations.stars),
      ("imports", .array (declarations.imports.map ImportDecl.encode))]

/-- Reads declarations that stand inside `enclosing` arrays and objects. -/
def decode? (enclosing : Nat) (value : Json.Value) : Option Declarations := do
  match ← value.fields? ["exports", "star_reexports", "imports"] with
  | [exports, stars, imports] =>
    return {
      exports := ← exports.bind (Json.Value.list? (ExportDecl.decode? (enclosing + 2)))
      stars := ← stars.elim (some []) (Json.Value.list? Json.Value.string?)
      imports := ← imports.bind (Json.Value.list? ImportDecl.decode?) }
  | _ => none

/-- Reads a whole document of declarations. -/
def parse? (text : String) : Option Declarations :=
  (Json.read? text).bind (decode? 0)

end Declarations

end LiveExports

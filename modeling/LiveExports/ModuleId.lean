import LiveExports.Ordered.Basic
import LiveExports.Path
import LiveExports.Text.Lower

/-!
# Module identifiers

A module is identified by its path: cleaned, with slashes in place of backslashes, and in lower case
where the file system does not tell cases apart.  Two spellings of one path give the same
identifier.
-/

namespace LiveExports

/-- Slashes in place of backslashes. -/
def Path.forward (path : List Char) : List Char :=
  Text.replaceChar '\\' '/' path

/-- The identifier of a module: its path in canonical spelling. -/
structure ModuleId where
  text : String
deriving DecidableEq, Repr, Inhabited

namespace ModuleId

instance : ToString ModuleId := ⟨ModuleId.text⟩

/-- Modules are listed by their text. -/
instance : StrictOrder ModuleId :=
  StrictOrder.ofKey ModuleId.text fun a b h => by
    cases a
    cases b
    exact congrArg ModuleId.mk h

/-- The canonical spelling of a path. -/
def spell (ignoreCase : Bool) (path : List Char) : List Char :=
  let cleaned := Path.forward (Path.clean path)
  if ignoreCase then Text.lower cleaned else cleaned

/-- The module that a path denotes. -/
def ofPath (path : String) (ignoreCase : Bool := false) : ModuleId :=
  ⟨String.ofList (spell ignoreCase path.toList)⟩

def isAbsolute (id : ModuleId) : Bool :=
  Path.isAbsolute id.text.toList

/-- The folder that relative specifiers of the module start from. -/
def folder (id : ModuleId) : String :=
  String.ofList ((Path.parent? id.text.toList).getD ['/'])

/-- What follows the last slash. -/
def fileName (id : ModuleId) : String :=
  String.ofList ((Path.segments id.text.toList).getLast?.getD [])

/-- The identifier as seen from the project root: a module below the root is shown from `.`, any
other by its whole identifier. -/
def relativeTo (root : String) (id : ModuleId) : String :=
  match Text.after? (Path.forward (Path.clean root.toList)) id.text.toList with
  | some ('/' :: rest) => String.ofList ('.' :: '/' :: rest)
  | _ => id.text

end ModuleId

end LiveExports

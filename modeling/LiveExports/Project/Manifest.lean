import LiveExports.Declarations.Codec
import LiveExports.Files.FileSystem
import LiveExports.Ordered.Table
import LiveExports.Resolution

/-!
# Entry modules

The entry modules of a project are named by its package manifest.  Where it names none that exist,
they are the index files of the root, or else of the source folder.
-/

namespace LiveExports.Manifest

def fileName : String := "package.json"

/-! ## What a manifest names -/

/-- The value of a member; of two under one key the later one counts. -/
def member? (key : String) : Json.Value → Option Json.Value
  | .object members => members.reverse.lookup key
  | _ => none

/-- The members of an object by key; of two under one key the later one counts. -/
def byKey (members : List (String × List String)) : List (String × List String) :=
  (Table.ofList members).entries

mutual

/-- The targets of a conditional export, condition by condition in order.  Type declarations are not
run, so that their condition does not count. -/
def targets : Json.Value → List String
  | .string text => [text]
  | .object members => (byKey (memberTargets members)).flatMap (·.2)
  | _ => []

/-- The targets under each condition. -/
def memberTargets : List (String × Json.Value) → List (String × List String)
  | [] => []
  | (condition, value) :: rest =>
    (condition, if condition = "types" then [] else targets value) :: memberTargets rest

end

/-- The targets of the package itself among its exports. -/
def exportTargets : Json.Value → List String
  | .string text => [text]
  | value => ((member? "." value).map targets).getD []

/-- The specifiers that a manifest names as entries. -/
def specifiers (manifest : Json.Value) : List String :=
  (["main", "module", "source"].filterMap fun key =>
      (member? key manifest).bind Json.Value.string?) ++
    ((member? "exports" manifest).map exportTargets).getD []

/-- Reads a whole text as a manifest. -/
def parse? (text : String) : Option Json.Value :=
  (Json.read? text).filter (·.isWithin nestingLimit)

/-! ## Entries -/

/-- A path in a manifest starts from the root unless it says otherwise. -/
def anchored (specifier : String) : String :=
  if isBareSpecifier specifier then "./" ++ specifier else specifier

/-- The entries that the manifest of a project names. -/
def namedEntries (root : String) (fs : FileSystem) : List String :=
  let path := Path.below root fileName
  match (fs.readText path).toOption.bind parse? with
  | none => []
  | some manifest =>
    let resolver : Resolver := { isFile := fs.isFile }
    (specifiers manifest).filterMap fun specifier =>
      (resolver.resolve (ModuleId.ofPath path) (anchored specifier)).toOption.map ModuleId.text

/-- The index files of a folder. -/
def indexFiles (folder : String) (fs : FileSystem) : List String :=
  (["js", "ts", "mjs", "jsx", "tsx"].map fun ext => Path.below folder s!"index.{ext}").filter
    fs.isFile

/-- The first list that holds anything. -/
def firstNonempty : List (List String) → List String
  | [] => []
  | list :: rest => if list.isEmpty then firstNonempty rest else list

/-- The paths in order of their components, the first of each. -/
def listing (paths : List String) : List String :=
  (Table.ofList (paths.reverse.map fun path =>
    ((Path.components path.toList).map String.ofList, path))).values

/-- The paths of the entry modules of a project, in order. -/
def entries (root : String) (fs : FileSystem) : List String :=
  let found := firstNonempty
    [namedEntries root fs, indexFiles root fs, indexFiles (Path.below root "src") fs]
  listing (found.map fun path => (ModuleId.ofPath path).text)

end LiveExports.Manifest

import LiveExports.Failure
import LiveExports.Toml.Reader

/-!
# Configuration files

A project may hold a configuration file at its root.  Every key is optional; a key that is not known
is refused, except in the output table.
-/

namespace LiveExports

/-- How results are to be written. -/
structure OutputConfig where
  format : Option String := none
deriving DecidableEq, Repr

/-- What a configuration file sets. -/
structure Config where
  entries : Option (List String) := none
  ignore : Option (List String) := none
  excluded : Option (List String) := none
  extensions : Option (List String) := none
  ignoreCase : Option Bool := none
  entryExportsUsed : Option Bool := none
  output : Option OutputConfig := none
deriving DecidableEq, Repr

/-- The text in lower case, as far as it is ASCII. -/
def asciiLower (text : String) : String :=
  String.ofList (text.toList.map Char.toLower)

/-- The output table.  It may be written as a list of its fields, and a date counts as a table
without any of them. -/
def OutputConfig.decode? : Toml.Value → Option OutputConfig
  | .table members =>
    match members.lookup "format" with
    | none => some {}
    | some value => (Toml.Value.string? value).map fun format => { format := some format }
  | .array (value :: _) => (Toml.Value.string? value).map fun format => { format := some format }
  | .date _ => some {}
  | _ => none

namespace Config

/-- Does the configuration ask for results as a document? -/
def wantsDocument (config : Config) : Bool :=
  (config.output.bind OutputConfig.format).any fun format => asciiLower format == "json"

/-- Takes in one member of a configuration. -/
def add (config : Config) (key : String) (value : Toml.Value) : Option Config :=
  match key with
  | "entries" => value.strings?.map fun texts => { config with entries := some texts }
  | "ignore" => value.strings?.map fun texts => { config with ignore := some texts }
  | "exclude_dirs" => value.strings?.map fun texts => { config with excluded := some texts }
  | "extensions" => value.strings?.map fun texts => { config with extensions := some texts }
  | "case_insensitive" => value.bool?.map fun b => { config with ignoreCase := some b }
  | "entry_exports_used" => value.bool?.map fun b => { config with entryExportsUsed := some b }
  | "output" => (OutputConfig.decode? value).map fun output => { config with output := some output }
  | _ => none

/-- Reads a whole text as a configuration. -/
def parse? (text : String) : Option Config := do
  (← Toml.read? text).foldlM (fun config (key, value) => config.add key value) {}

def fileName : String := "deadexport.toml"

/-- The configuration of a project, if it has one. -/
def load (root : String) (fs : FileSystem) : Except Failure (Option Config) :=
  let path := Path.below root fileName
  if fs.has path then
    match fs.readText path with
    | .error error => .error (.ofSystem s!"Failed to read {path}" error)
    | .ok text =>
      match parse? text with
      | some config => .ok (some config)
      | none => .error { cause := .text s!"Invalid {fileName}" }
  else .ok none

end Config

end LiveExports

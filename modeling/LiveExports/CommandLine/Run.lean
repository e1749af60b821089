import LiveExports.CommandLine.Arguments
import LiveExports.CommandLine.OutputPath
import LiveExports.Report.Document
import LiveExports.Report.Drawing
import LiveExports.Report.Plain

/-!
# Running a command line

A run analyses a project and prints the result; it may also draw the module graph.  It ends with
code 1 if there are dead exports or the analysis fails, with code 2 if the arguments or the output
path are refused, and with code 0 otherwise.
-/

namespace LiveExports

/-- What a run leaves behind. -/
structure Outcome where
  code : Nat := 0
  output : String := ""
  /-- What is written to the error stream. -/
  notes : String := ""
  files : FileSystem

namespace Arguments

variable (arguments : Arguments)

/-- The settings that the arguments and a configuration ask for.  Entries on the command line take
the place of configured ones. -/
def settings (config : Option Config) : Settings :=
  let config : Config := config.getD {}
  let config := if arguments.entries.isEmpty then config else { config with entries := none }
  let base := Settings.configured {} config
  { base with
    entries := base.entries ++ arguments.entries
    ignore := base.ignore ++ arguments.ignore
    excluded := base.excluded ++ arguments.exclude
    useCache := !arguments.noCache
    entryExportsUsed := arguments.entryExportsUsed || base.entryExportsUsed
    ignoreCase := arguments.caseInsensitive || base.ignoreCase
    strict := arguments.strict }

/-- The result as it is printed. -/
def printed (config : Option Config) (analysis : Analysis) : String :=
  if arguments.json || config.any Config.wantsDocument then analysis.document.pretty ++ "\n"
  else analysis.plain

/-- Writes the drawing to a file.  Failing to write it does not count as a failure of the run. -/
def writeDrawing (path drawing : String) (outcome : Outcome) : Outcome :=
  match outputPath path with
  | .error error =>
    { outcome with
      code := 2, notes := outcome.notes ++ s!"[ERROR] Invalid output path: {error.message}\n" }
  | .ok path =>
    match outcome.files.write path (Text.encode drawing) with
    | .error error =>
      { outcome with
        notes := outcome.notes ++ s!"[WARN] DOT write failed to {path}: {error.message}\n" }
    | .ok files =>
      { outcome with
        files, notes := outcome.notes ++ s!"DOT graph saved to: {path}\n" }

/-- Draws the module graph where the arguments ask for it. -/
def draw (analysis : Analysis) (outcome : Outcome) : Outcome :=
  match arguments.dotFile with
  | some path => writeDrawing path analysis.drawing outcome
  | none =>
    if arguments.dot then { outcome with output := outcome.output ++ analysis.drawing ++ "\n" }
    else outcome

/-- A run that ends in a failure. -/
def fail (failure : Failure) (outcome : Outcome) : Outcome :=
  { outcome with code := 1, notes := outcome.notes ++ s!"Error: {failure.report}\n" }

/-- Analyses the project at a root that exists. -/
def runAt (root : String) (moment : Moment) (files : FileSystem) : Outcome :=
  let (config, notes) :=
    match Config.load root files with
    | .ok config => (config, "")
    | .error failure => (none, s!"[WARN] config load failed: {failure.inline}\n")
  match (arguments.settings config).analyze root moment files with
  | (.error failure, files) =>
    fail (failure.during s!"Analysis failed for: {root}") { files, notes }
  | (.ok analysis, files) =>
    arguments.draw analysis
      { code := if analysis.hasDead then 1 else 0
        output := arguments.printed config analysis, notes, files }

/-- Runs with arguments that could be read. -/
def run (moment : Moment) (files : FileSystem) : Outcome :=
  let path := arguments.path.getD "."
  match files.canonical path with
  | .error error => fail (.ofSystem s!"Project root not found: {path}" error) { files }
  | .ok root => arguments.runAt root moment files

end Arguments

/-- Runs a command line. -/
def runCommandLine (arguments : List String) (moment : Moment) (files : FileSystem) : Outcome :=
  match Arguments.read? arguments with
  | some arguments => arguments.run moment files
  | none => { code := 2, notes := "error: invalid arguments\n", files }

end LiveExports

import LiveExports.Project.Analysis
import LiveExports.Report.Percentage

/-!
# Results as plain text

The dead exports under the names of their modules, the diagnostics, and a line of counts.
-/

namespace LiveExports.Analysis

variable (analysis : Analysis)

/-- The line of a dead export. -/
def deadLine (record : ExportRecord) : String :=
  s!"  - {record.name} (line {record.line}): {record.reason}\n"

/-- The lines of dead exports; the name of a module stands above the first of a run of its
exports. -/
def deadLines : (above : Option ModuleId) → List ExportRecord → List String
  | _, [] => []
  | above, record :: rest =>
    (if above = some record.module then [] else [analysis.relative record.module ++ "\n"]) ++
      deadLine record :: deadLines (some record.module) rest

def deadPart : List String :=
  if analysis.dead.isEmpty then ["No dead exports found.\n"]
  else s!"DEAD EXPORTS ({analysis.dead.length}):\n" :: analysis.deadLines none analysis.dead

/-- The line of a diagnostic. -/
def diagnosticLine (diagnostic : Diagnostic) : String :=
  let place := analysis.relative diagnostic.module ++
    match diagnostic.line with
    | some line => s!":{line}"
    | none => ""
  s!"- {place} [{diagnostic.kind.words}] {diagnostic.message}\n"

def diagnosticPart : List String :=
  if analysis.diagnostics.isEmpty then []
  else
    s!"\nDIAGNOSTICS ({analysis.diagnostics.length}):\n" ::
      analysis.diagnostics.map analysis.diagnosticLine

/-- How much of the exports is dead, in percent. -/
def deadPercentage : String :=
  showTenths (tenths (percentage analysis.dead.length analysis.statistics.exports))

/-- The line of counts. -/
def countLine : String :=
  let s := analysis.statistics
  let percent := analysis.deadPercentage
  s!"\n{s.files} files, {s.exports} exports, {s.used} used, " ++
    s!"{s.dead} dead ({percent}%), {s.ignored} ignored\n"

/-- The result as plain text. -/
def plain : String :=
  String.join (analysis.deadPart ++ analysis.diagnosticPart ++ [analysis.countLine])

end LiveExports.Analysis

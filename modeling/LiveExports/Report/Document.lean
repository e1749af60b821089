import LiveExports.Project.Analysis

/-!
# Results as a document

All records and diagnostics, with modules as seen from the root.  The keys of an object are in
alphabetical order.
-/

namespace LiveExports

def Statistics.document (s : Statistics) : Json.Value :=
  .object
    [("cache_hits", .natural s.cacheHits), ("dead", .natural s.dead), ("edges", .natural s.edges),
      ("exports", .natural s.exports), ("files", .natural s.files),
      ("ignored", .natural s.ignored), ("live_modules", .natural s.liveModules),
      ("modules", .natural s.modules), ("used", .natural s.used)]

namespace Analysis

variable (analysis : Analysis)

def recordDocument (record : ExportRecord) : Json.Value :=
  .object
    [("export", .string record.name), ("line", .natural record.line),
      ("module", .string (analysis.relative record.module)), ("reason", .string record.reason),
      ("used", .bool record.used)]

def diagnosticDocument (diagnostic : Diagnostic) : Json.Value :=
  .object
    [("kind", .string diagnostic.kind.tag),
      ("line", .optional .natural diagnostic.line),
      ("message", .string diagnostic.message),
      ("module", .string (analysis.relative diagnostic.module))]

/-- The result as a document. -/
def document : Json.Value :=
  .object
    [("dead", .array (analysis.dead.map analysis.recordDocument)),
      ("diagnostics", .array (analysis.diagnostics.map analysis.diagnosticDocument)),
      ("entries", .strings (analysis.entries.map analysis.relative)),
      ("exports", .array (analysis.records.map analysis.recordDocument)),
      ("root", .string analysis.root),
      ("stats", analysis.statistics.document)]

end Analysis

end LiveExports

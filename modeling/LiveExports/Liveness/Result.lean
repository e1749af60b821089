import LiveExports.Diagnostic
import LiveExports.Graph.Codec
import LiveExports.Graph.Validity
import LiveExports.Liveness.WorkList

/-!
# The result of a liveness analysis

For every export a record says whether it is used, and why or why not.  An export is used if a use
was noted up to the final stage; the sites of its uses are its *triggers*.  A name that is asked for
by name of a module that does not provide it is reported to everyone who asks.
-/

namespace LiveExports

/-! ## Names that nobody provides -/

/-- The modules that a name may come from when it is asked of a module: the module itself and, for a
name other than `default`, whatever is reached from it over stars. -/
def Graph.providers (graph : Graph) (module : ModuleId) (name : String) : List ModuleId :=
  let stars (id : ModuleId) : List ModuleId :=
    if name = defaultName then []
    else ((graph.node? id).map Node.stars).getD []
  reachable graph.ids stars [module]

/-- Does a module export a name, itself or over stars? -/
def Graph.provides (graph : Graph) (module : ModuleId) (name : String) : Bool :=
  (graph.providers module name).any fun id => graph.declares id name

/-- The report to a module that asks for a name that is not exported. -/
def missingExportReport (requester module : ModuleId) (name : String) : Diagnostic where
  module := requester
  kind := .missingExport
  message := s!"'{name}' is not exported by {module}"

/-- The reports on one demand. -/
def Graph.missingReports (graph : Graph) (demand : Demand) (standing : Standing) :
    List Diagnostic :=
  match demand.wanted with
  | .named name =>
    if graph.provides demand.module name then []
    else standing.requesters.elements.map fun requester =>
      missingExportReport requester demand.module name
  | _ => []

/-- All reports on names that nobody provides, in order. -/
def Stage.missingReports (stage : Stage) (graph : Graph) : List Diagnostic :=
  Diagnostic.listing
    (stage.standings.entries.flatMap fun (demand, standing) => graph.missingReports demand standing)

/-! ## Reasons -/

/-- Why an export is dead, as far as the edges into its module tell. -/
inductive DeadReason where
  | importedByUnreachable
  | forwardedButUnused
  | neverImported
deriving DecidableEq, Repr

namespace DeadReason

def message : DeadReason → String
  | importedByUnreachable => "imported only by unreachable modules"
  | forwardedButUnused => "re-exported but never used"
  | neverImported => "never imported"

/-- Could the edge carry the name to another module? -/
def concerns (name : String) (edge : Edge) : Bool :=
  !edge.isLoop && (edge.name == name || edge.name == namespaceName)

/-- The reason why an export of a module is dead. -/
def of (graph : Graph) (module : ModuleId) (name : String) : DeadReason :=
  let edges := (graph.edgesInto module).filter (concerns name)
  if edges.any (·.kind == .imports) then .importedByUnreachable
  else if edges.any (·.kind == .forwards) then .forwardedButUnused
  else .neverImported

end DeadReason

/-- The wording for a use by its first trigger. -/
def firstUse : List UsageSite → String
  | [] => "used"
  | site :: _ =>
    if site.name = namespaceName then s!"namespace import in {site.module}"
    else s!"imported as '{site.name}' by {site.module}"

/-- The wording for the triggers after the first. -/
def furtherUses (triggers : List UsageSite) : String :=
  let further := triggers.length - 1
  if further = 0 then "" else s!" (+{further} more)"

/-- Why an export is used. -/
def usedReason (target : Option Target) (triggers : List UsageSite) : String :=
  let uses := firstUse triggers ++ furtherUses triggers
  match target with
  | some target => s!"{uses}; forwarded to {target.module}#{target.name}"
  | none => uses

/-! ## Records -/

structure Verdict where
  used : Bool
  triggers : List UsageSite
deriving DecidableEq, Repr

/-- What is found out about one export. -/
structure ExportRecord where
  module : ModuleId
  name : String
  target : Option Target := none
  used : Bool
  reason : String
  triggers : List UsageSite := []
  line : Nat
deriving DecidableEq, Repr

def ExportRecord.encode (record : ExportRecord) : Json.Value :=
  .object (
    [("module", .string record.module.text), ("export_name", .string record.name)] ++
    encodeTarget record.target ++
    [("used", .bool record.used), ("reason", .string record.reason)] ++
    (if record.triggers.isEmpty then []
      else [("triggers", .array (record.triggers.map fun site =>
        .object [("module", .string site.module.text), ("name", .string site.name)]))]) ++
    [("line", .natural record.line)])

/-- The result of an analysis; records are listed by the module and the name that the
exports stand under. -/
structure Liveness where
  verdicts : Table (ModuleId × String) Verdict
  records : List ExportRecord
  live : SortedSet ModuleId
  diagnostics : List Diagnostic

namespace Liveness

/-- The verdict on an export of the module at a path. -/
def verdict? (liveness : Liveness) (path name : String) : Option Verdict :=
  liveness.verdicts.find? (ModuleId.ofPath path, name)

def isUsed (liveness : Liveness) (path name : String) : Bool :=
  ((liveness.verdict? path name).map Verdict.used).getD false

def isLive (liveness : Liveness) (id : ModuleId) : Bool :=
  decide (id ∈ liveness.live)

def dead (liveness : Liveness) : List ExportRecord :=
  liveness.records.filter (! ·.used)

def usedCount (liveness : Liveness) : Nat :=
  liveness.records.countP (·.used)

def deadCount (liveness : Liveness) : Nat :=
  liveness.records.length - liveness.usedCount

end Liveness

/-- The verdict on a name of a module in the final stage. -/
def Stage.verdict (stage : Stage) (module : ModuleId) (name : String) : Verdict :=
  { used := stage.used.contains (module, name)
    triggers := (stage.uses module name).elements }

/-- The record of an export in the final stage.  It tells of the export by its own name, whatever
name it stands under. -/
def Stage.record (stage : Stage) (graph : Graph) (entry : Export) : ExportRecord :=
  let verdict := stage.verdict entry.owner entry.name
  { module := entry.owner
    name := entry.name
    target := entry.target
    used := verdict.used
    reason :=
      if verdict.used then usedReason entry.target verdict.triggers
      else (DeadReason.of graph entry.owner entry.name).message
    triggers := verdict.triggers
    line := entry.line }

/-- The result of a final stage. -/
def Stage.result (stage : Stage) (graph : Graph) : Liveness where
  verdicts := Table.ofList (graph.exports.map fun (_, _, entry) =>
    ((entry.owner, entry.name), stage.verdict entry.owner entry.name))
  records := graph.exports.map fun (_, _, entry) => stage.record graph entry
  live := stage.live
  diagnostics := stage.missingReports graph

/-- Finds out which exports of a graph are used, starting from the entry modules.  Only a graph with
a flaw is refused. -/
def Graph.liveness (graph : Graph) (entries : List ModuleId) (entryExportsUsed : Bool) :
    Except Fault Liveness := do
  graph.validate
  return (graph.finalStage entries entryExportsUsed).result graph

end LiveExports

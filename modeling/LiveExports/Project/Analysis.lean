import LiveExports.Cache.Extraction
import LiveExports.Files.Scan
import LiveExports.Liveness.Result
import LiveExports.Project.Manifest
import LiveExports.Project.Settings

/-!
# Analysing a project

An analysis scans a project for sources, reads their declarations, builds the graph, and finds out
which exports are used from the entry modules.  A source that cannot be read counts as a module
without declarations and is reported, unless the settings are strict.
-/

namespace LiveExports

/-- Counts of what an analysis came across. -/
structure Statistics where
  files : Nat := 0
  modules : Nat := 0
  liveModules : Nat := 0
  edges : Nat := 0
  exports : Nat := 0
  used : Nat := 0
  /-- Dead exports that are reported. -/
  dead : Nat := 0
  /-- Dead exports that are not reported because of a pattern. -/
  ignored : Nat := 0
  cacheHits : Nat := 0
deriving DecidableEq, Repr

/-- The result of an analysis. -/
structure Analysis where
  root : String
  entries : List ModuleId
  records : List ExportRecord
  /-- The dead exports that are reported. -/
  dead : List ExportRecord
  diagnostics : List Diagnostic
  statistics : Statistics
  graph : Graph
  live : SortedSet ModuleId

/-- A module as seen from the root. -/
def Analysis.relative (analysis : Analysis) (id : ModuleId) : String :=
  id.relativeTo analysis.root

def Analysis.hasDead (analysis : Analysis) : Bool :=
  !analysis.dead.isEmpty

/-- Goes through records: those to be left out are counted, from a number on, and the others are
kept. -/
def sift (leftOut : ExportRecord → Bool) (count : Nat) :
    List ExportRecord → List ExportRecord × Nat
  | [] => ([], count)
  | record :: rest =>
    if leftOut record then sift leftOut (count + 1) rest
    else
      let sifted := sift leftOut count rest
      (record :: sifted.1, sifted.2)

namespace Settings

variable (settings : Settings)

/-- The extensions of sources. -/
def sourceExtensions : List String :=
  settings.extensions.getD defaultExtensions

/-! ## Entries -/

/-- The module that a configured entry denotes. -/
def entry (resolver : Resolver) (anchor : ModuleId) (specifier : String) :
    Except Failure ModuleId :=
  let path := Manifest.anchored specifier
  match resolver.resolve anchor path with
  | .ok id => .ok id
  | .error _ =>
    let tried := ", ".intercalate (resolver.candidatesFor anchor path)
    .error (.ofFault (.invalidArgument
      s!"entry '{specifier}' matches no source file (tried {tried})"))

/-- The entry modules: those configured, in order and each once, or else those found out. -/
def entryModules (resolver : Resolver) (root : String) (fs : FileSystem) :
    Except Failure (List ModuleId) :=
  if settings.entries.isEmpty then
    .ok ((Manifest.entries root fs).map (ModuleId.ofPath · settings.ignoreCase))
  else do
    let anchor := ModuleId.ofPath (Path.below root Manifest.fileName) settings.ignoreCase
    let ids ← settings.entries.mapM (entry resolver anchor)
    return (SortedSet.ofList ids).elements

/-! ## The stages of an analysis -/

/-- Is a record left out of the report? -/
def ignoresRecord (root : String) (record : ExportRecord) : Bool :=
  settings.ignores record.name || settings.ignores (record.module.relativeTo root)

/-- The modules to build the graph of: those that were read, then those that were not, without
declarations. -/
def submissions (extraction : Extraction) : List Submission :=
  extraction.submissions ++ extraction.failures.map fun (module, _) => ⟨module, {}⟩

/-- The result for files that were read, with the file system as it is by then. -/
def conclude (root : String) (files : List FilePath) (extraction : Extraction) (fs : FileSystem) :
    Except Failure Analysis := do
  let resolver : Resolver :=
    { isFile := (KnownFiles.ofPaths (files.map (·.text)) settings.ignoreCase).has
      extensions := settings.sourceExtensions
      ignoreCase := settings.ignoreCase }
  let construction := Graph.build resolver (submissions extraction)
  let entries ← settings.entryModules resolver root fs
  let liveness ← (construction.graph.liveness entries settings.entryExportsUsed).mapError
    fun fault => (Failure.ofFault fault).during "Reachability analysis failed"
  let failures := extraction.failures.map fun (module, fault) => Diagnostic.ofFault module fault
  let (dead, ignored) := sift (settings.ignoresRecord root) 0 liveness.dead
  return {
    root, entries, dead
    records := liveness.records
    diagnostics :=
      Diagnostic.listing (failures ++ construction.diagnostics ++ liveness.diagnostics)
    statistics :=
      { files := files.length
        modules := construction.graph.nodes.size
        liveModules := liveness.live.size
        edges := construction.graph.edges.length
        exports := liveness.records.length
        used := liveness.usedCount
        dead := dead.length
        ignored
        cacheHits := extraction.hits }
    graph := construction.graph
    live := liveness.live }

/-- The failure of a strict analysis: that of the first file that cannot be read. -/
def refusal? (extraction : Extraction) : Option Failure :=
  if settings.strict then
    extraction.failures.head?.map fun (_, fault) =>
      (Failure.ofFault fault).during "Unreadable source file in strict mode"
  else none

/-- Analyses the project at a root that exists, and saves the cache if it is used.  A cache that
cannot be saved is left at that. -/
def analyzeAt (root : String) (moment : Moment) (fs : FileSystem) :
    Except Failure Analysis × FileSystem :=
  let scan : Scan := { extensions := settings.sourceExtensions, excluded := settings.excluded }
  match scan.files fs root with
  | .error failure => (.error (failure.during "Failed to gather source files"), fs)
  | .ok files =>
    let (cache, fs) := if settings.useCache then Cache.load root fs else (none, fs)
    let extraction := Extraction.ofFiles fs cache settings.ignoreCase files
    let fs :=
      if settings.useCache then (Cache.save root moment (extraction.cache moment.seconds) fs).2
      else fs
    match settings.refusal? extraction with
    | some failure => (.error failure, fs)
    | none => (settings.conclude root files extraction fs, fs)

/-- Analyses the project at a root. -/
def analyze (root : String) (moment : Moment) (fs : FileSystem) :
    Except Failure Analysis × FileSystem :=
  match fs.canonical root with
  | .error error => (.error (.ofSystem s!"Project root not found: {root}" error), fs)
  | .ok root => settings.analyzeAt root moment fs

end Settings

end LiveExports

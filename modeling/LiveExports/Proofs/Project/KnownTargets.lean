import LiveExports.Proofs.Graph.Building
import LiveExports.Proofs.Project.Transparency
import LiveExports.Proofs.Resolution.Closure

/-!
# All edges of a project lead to its sources

Resolution never leaves the known files, and an identifier that it gives is a fixed point of it
(`Resolver.resolve_known`).  In an analysis the known files are the sources that were found, and
each of them is submitted, whether it could be read or not.  So no edge leads out of the project,
and the graph has no node that stands there only because an edge leads to it.
-/

namespace LiveExports

/-! ## Where sources are found -/

/-- What lies below an absolute path has an absolute path. -/
theorem Path.isAbsolute_below_of_isAbsolute {folder : String}
    (h : Path.isAbsolute folder.toList = true) (name : String) :
    Path.isAbsolute (Path.below folder name).toList = true := by
  obtain ⟨rest, hrest⟩ := Path.eq_cons_of_isAbsolute h
  unfold below join
  rw [String.toList_ofList, hrest]
  split
  · next habsolute => exact habsolute
  · split <;> rfl

theorem FilePath.isAbsolute_text (path : FilePath)
    (h : Path.isAbsolute path.folder.toList = true) : Path.isAbsolute path.text.toList = true := by
  obtain ⟨folder, names⟩ := path
  unfold text
  induction names generalizing folder with
  | nil => exact h
  | cons name names ih => exact ih _ (Path.isAbsolute_below_of_isAbsolute h _)

/-- Everything that a scan finds has the path that it starts from. -/
theorem Scan.folder_of_mem_files {scan : Scan} {fs : FileSystem} {root : String}
    {files : List FilePath} (h : scan.files fs root = .ok files) {file : FilePath}
    (hfile : file ∈ files) : file.folder = root := by
  obtain ⟨place, -, h⟩ := exists_of_bind_eq_ok h
  unfold collect at h
  split at h
  · cases h
  · rw [← Except.ok.inj h] at hfile
    obtain ⟨names, -, rfl⟩ := List.mem_map.mp hfile
    rfl

theorem FileSystem.isAbsolute_fullName (fs : FileSystem) (root : String) :
    Path.isAbsolute (fs.fullName root).toList = true := by
  rw [fullName, String.toList_ofList]
  rfl

/-! ## What is submitted -/

namespace Extraction

theorem exists_submission (extraction : Extraction) {reading : Reading}
    (h : reading ∈ extraction.readings) :
    ∃ submission ∈ Settings.submissions extraction, submission.module = reading.module := by
  cases houtcome : reading.outcome with
  | ok entry =>
      have hentry : (reading.module, entry) ∈ extraction.entries :=
        List.mem_filterMap.mpr ⟨reading, h, by rw [houtcome]; rfl⟩
      exact ⟨_, List.mem_append_left _ (List.mem_map_of_mem hentry), rfl⟩
  | error fault =>
      have hfailure : (reading.module, fault) ∈ extraction.failures :=
        List.mem_filterMap.mpr ⟨reading, h, by rw [houtcome]⟩
      exact ⟨_, List.mem_append_right _ (List.mem_map_of_mem hfailure), rfl⟩

/-- The module of every file that was to be read is submitted. -/
theorem exists_accepted (fs : FileSystem) (cache : Option Cache) (ignoreCase : Bool)
    {files : List FilePath} {file : FilePath} (hfile : file ∈ files) :
    ∃ declarations, (Graph.accepted (Settings.submissions
      (ofFiles fs cache ignoreCase files))).find? (ModuleId.ofPath file.text ignoreCase) =
        some declarations := by
  obtain ⟨submission, hsubmission, hmodule⟩ :=
    exists_submission (ofFiles fs cache ignoreCase files) (List.mem_map_of_mem hfile)
  rw [Reading.module_ofFile] at hmodule
  rw [Graph.find?_accepted]
  cases hfound : (Settings.submissions (ofFiles fs cache ignoreCase files)).find?
      (·.module = ModuleId.ofPath file.text ignoreCase) with
  | none =>
      have hnone := List.find?_eq_none.mp hfound submission hsubmission
      exact absurd hmodule (by simpa using hnone)
  | some found => exact ⟨found.declarations, rfl⟩

end Extraction

/-! ## Graphs over known files -/

namespace Graph

variable {files extensions : List String} {ignoreCase : Bool} {submissions : List Submission}
  (hfiles : ∀ file ∈ files, Path.IsPlain file)

include hfiles

/-- Every edge leads to a known file. -/
theorem target_mem_of_mem_edges {edge : Edge}
    (h : edge ∈ (build (.ofFiles files extensions ignoreCase) submissions).graph.edges) :
    edge.target ∈ files.map (ModuleId.ofPath · ignoreCase) := by
  obtain ⟨module, declarations, -, hedge⟩ := mem_edges_build_iff.mp h
  obtain ⟨specifier, htarget⟩ := Declarations.exists_target?_of_mem_edges hedge
  obtain ⟨file, hfile, hid⟩ :=
    Resolver.exists_file_of_resolve hfiles (Resolver.resolve_of_target? htarget)
  exact List.mem_map.mpr ⟨file, hfile, hid.symm⟩

variable (hsubmitted : ∀ file ∈ files, ∃ declarations,
  (accepted submissions).find? (ModuleId.ofPath file ignoreCase) = some declarations)

include hsubmitted

/-- If all known files are submitted, every edge leads to a submitted module. -/
theorem exists_accepted_of_mem_edges {edge : Edge}
    (h : edge ∈ (build (.ofFiles files extensions ignoreCase) submissions).graph.edges) :
    ∃ declarations, (accepted submissions).find? edge.target = some declarations := by
  obtain ⟨file, hfile, hid⟩ := List.mem_map.mp (target_mem_of_mem_edges hfiles h)
  rw [← hid]
  exact hsubmitted file hfile

/-- If all known files are submitted, there is no other node. -/
theorem submitted_of_node?_build {id : ModuleId} {node : Node}
    (h : (build (.ofFiles files extensions ignoreCase) submissions).graph.node? id = some node) :
    node.submitted = true := by
  rw [node?_build] at h
  cases haccepted : (accepted submissions).find? id with
  | some declarations =>
      rw [haccepted, Option.map_some, Option.some_or] at h
      rw [← Option.some.inj h]
      rfl
  | none =>
      rw [haccepted, Option.map_none, Option.none_or] at h
      split at h
      · next hedge =>
        obtain ⟨edge, hedge, rfl⟩ := hedge
        obtain ⟨declarations, hfound⟩ := exists_accepted_of_mem_edges hfiles hsubmitted hedge
        rw [haccepted] at hfound
        cases hfound
      · cases h

/-- The target of an edge has a node, and so a submitted one. -/
theorem exists_node?_of_mem_edges {edge : Edge}
    (h : edge ∈ (build (.ofFiles files extensions ignoreCase) submissions).graph.edges) :
    ∃ node, (build (.ofFiles files extensions ignoreCase) submissions).graph.node? edge.target =
      some node ∧ node.submitted = true := by
  obtain ⟨declarations, hfound⟩ := exists_accepted_of_mem_edges hfiles hsubmitted h
  rw [node?_build, hfound]
  exact ⟨_, rfl, rfl⟩

end Graph

/-! ## Runs -/

namespace Settings

variable (settings : Settings)

/-- The sources of a project; a root that is not there has none. -/
def sourceFiles (root : String) (fs : FileSystem) : List FilePath :=
  ((fs.canonical root).toOption.bind fun full => (settings.scan.files fs full).toOption).getD []

/-- The paths of the sources of a project. -/
def sourcePaths (root : String) (fs : FileSystem) : List String :=
  (settings.sourceFiles root fs).map (·.text)

theorem sourceFiles_of_canonical {root full : String} {fs : FileSystem}
    (h : fs.canonical root = .ok full) :
    settings.sourceFiles root fs =
      (settings.scan.files fs (fs.fullName root)).toOption.getD [] := by
  rw [sourceFiles, h, FileSystem.eq_fullName_of_canonical h]
  rfl

theorem sourceFiles_of_files {root full : String} {files : List FilePath} {fs : FileSystem}
    (hcanonical : fs.canonical root = .ok full)
    (h : settings.scan.files fs (fs.fullName root) = .ok files) :
    settings.sourceFiles root fs = files := by
  rw [settings.sourceFiles_of_canonical hcanonical, h]
  rfl

theorem isAbsolute_of_mem_sourcePaths {root : String} {fs : FileSystem} {path : String}
    (h : path ∈ settings.sourcePaths root fs) : Path.isAbsolute path.toList = true := by
  obtain ⟨file, hfile, rfl⟩ := List.mem_map.mp h
  cases hcanonical : fs.canonical root with
  | error error =>
      rw [sourceFiles, hcanonical] at hfile
      cases hfile
  | ok full =>
      rw [settings.sourceFiles_of_canonical hcanonical] at hfile
      cases hfiles : settings.scan.files fs (fs.fullName root) with
      | error failure =>
          rw [hfiles] at hfile
          cases hfile
      | ok files =>
          rw [hfiles] at hfile
          have hfolder := Scan.folder_of_mem_files hfiles hfile
          exact file.isAbsolute_text (hfolder ▸ fs.isAbsolute_fullName root)

theorem graph_of_conclude {root : String} {files : List FilePath} {extraction : Extraction}
    {fs : FileSystem} {analysis : Analysis}
    (h : settings.conclude root files extraction fs = .ok analysis) :
    analysis.graph = (Graph.build
      (.ofFiles (files.map (·.text)) settings.sourceExtensions settings.ignoreCase)
      (submissions extraction)).graph := by
  obtain ⟨entries, -, h⟩ := exists_of_bind_eq_ok h
  obtain ⟨liveness, -, h⟩ := exists_of_bind_eq_ok h
  rw [← Except.ok.inj h]
  rfl

/-- A run that succeeds concludes it from what was read of the sources, with a cache or none. -/
theorem exists_conclude_of_analyze {root : String} {moment : Moment} {fs : FileSystem}
    {analysis : Analysis} (h : (settings.analyze root moment fs).1 = .ok analysis) :
    ∃ (start : FileSystem) (cache : Option Cache) (final : FileSystem),
      settings.conclude (fs.fullName root) (settings.sourceFiles root fs)
        (Extraction.ofFiles start cache settings.ignoreCase (settings.sourceFiles root fs)) final =
          .ok analysis := by
  cases hcanonical : fs.canonical root with
  | error error =>
      rw [settings.analyze_of_error hcanonical] at h
      cases h
  | ok full =>
      rw [settings.analyze_of_canonical hcanonical] at h
      cases hfiles : settings.scan.files fs (fs.fullName root) with
      | error failure =>
          rw [settings.analyzeAt_of_error hfiles] at h
          cases h
      | ok files =>
          rw [settings.sourceFiles_of_files hcanonical hfiles]
          unfold scan at hfiles
          unfold analyzeAt at h
          dsimp only at h
          rw [hfiles] at h
          dsimp only at h
          split at h
          · cases h
          · exact ⟨_, _, _, h⟩

/-- A run that succeeds has built the graph of what was read from the sources, with a cache or
none. -/
theorem exists_build_of_analyze {root : String} {moment : Moment} {fs : FileSystem}
    {analysis : Analysis} (h : (settings.analyze root moment fs).1 = .ok analysis) :
    ∃ (start : FileSystem) (cache : Option Cache),
      analysis.graph = (Graph.build
        (.ofFiles (settings.sourcePaths root fs) settings.sourceExtensions settings.ignoreCase)
        (submissions (Extraction.ofFiles start cache settings.ignoreCase
          (settings.sourceFiles root fs)))).graph := by
  obtain ⟨start, cache, final, hconclude⟩ := settings.exists_conclude_of_analyze h
  exact ⟨start, cache, settings.graph_of_conclude hconclude⟩

end Settings

/-- Whatever a resolver over absolute paths without backslashes gives is a known file, and is
resolved to itself from everywhere if extensions begin with a full stop and hold no slash.  So in an
analysis of a project with such paths every edge leads to a submitted module, and no other module
has a node. -/
theorem Resolver.resolve_known :
    (∀ (files extensions : List String) (ignoreCase : Bool),
      (∀ file ∈ files, Path.IsPlain file) →
      ∀ (source : ModuleId) (specifier : String) (id : ModuleId),
        (ofFiles files extensions ignoreCase).resolve source specifier = .ok id →
          id ∈ files.map (ModuleId.ofPath · ignoreCase) ∧
          ((∀ ext ∈ extensions, Path.IsExtension ext) →
            ∀ other, (ofFiles files extensions ignoreCase).resolve other id.text = .ok id)) ∧
    ∀ (settings : Settings) (root : String) (moment : Moment) (fs : FileSystem)
      (analysis : Analysis),
      (∀ file ∈ settings.sourcePaths root fs, '\\' ∉ file.toList) →
      (settings.analyze root moment fs).1 = .ok analysis →
        (∀ edge ∈ analysis.graph.edges,
          edge.target ∈ (settings.sourcePaths root fs).map (ModuleId.ofPath · settings.ignoreCase) ∧
          ∃ node, analysis.graph.node? edge.target = some node ∧ node.submitted = true) ∧
        ∀ id node, analysis.graph.node? id = some node → node.submitted = true := by
  constructor
  · intro files extensions ignoreCase hfiles source specifier id h
    obtain ⟨file, hfile, hid⟩ := exists_file_of_resolve hfiles h
    refine ⟨List.mem_map.mpr ⟨file, hfile, hid.symm⟩, ?_⟩
    intro hextensions other
    exact resolve_text_of_resolve hfiles hextensions h other
  · intro settings root moment fs analysis hbackslash h
    have hfiles : ∀ file ∈ settings.sourcePaths root fs, Path.IsPlain file := fun file hfile =>
      ⟨settings.isAbsolute_of_mem_sourcePaths hfile, hbackslash file hfile⟩
    obtain ⟨start, cache, hgraph⟩ := settings.exists_build_of_analyze h
    have hsubmitted : ∀ file ∈ settings.sourcePaths root fs, ∃ declarations,
        (Graph.accepted (Settings.submissions (Extraction.ofFiles start cache settings.ignoreCase
          (settings.sourceFiles root fs)))).find? (ModuleId.ofPath file settings.ignoreCase) =
            some declarations :=
      List.forall_mem_map.mpr fun _ => Extraction.exists_accepted start cache settings.ignoreCase
    rw [hgraph]
    refine ⟨fun edge hedge => ⟨?_, ?_⟩, fun id node hnode => ?_⟩
    · exact Graph.target_mem_of_mem_edges hfiles hedge
    · exact Graph.exists_node?_of_mem_edges hfiles hsubmitted hedge
    · exact Graph.submitted_of_node?_build hfiles hsubmitted hnode

/-- A project whose library cannot be read, and where case has to be ignored to find it. -/
def torn : FileSystem where
  tree := .folder [("p", .folder
    [("index.js", .file (Text.encode "import \x7b x \x7d from './LIB';\nexport * from './lib';")),
      ("lib", .folder [("Index.TS", .file (Text.encode "/* export const x = 1;"))])])]

/-- Where the edges of a graph lead according to a result. -/
def edgeTargets? (result : Except Failure Analysis) : Option (List ModuleId) :=
  result.toOption.map fun analysis => analysis.graph.edges.map (·.target)

theorem Resolver.resolve_known_torn :
    (∀ file ∈ ["/p/index.js", "/p/lib/Index.TS"], Path.IsPlain file) ∧
    (∀ ext ∈ [".js", ".TS"], Path.IsExtension ext) ∧
    (ofFiles ["/p/index.js", "/p/lib/Index.TS"] [".js", ".TS"] true).resolve ⟨"/p/index.js"⟩
      "./LIB" = .ok ⟨"/p/lib/index.ts"⟩ ∧
    (∀ other, (ofFiles ["/p/index.js", "/p/lib/Index.TS"] [".js", ".TS"] true).resolve other
      "/p/lib/index.ts" = .ok ⟨"/p/lib/index.ts"⟩) ∧
    ∃ analysis,
      (Settings.analyze { ignoreCase := true, extensions := some [".js", ".TS"], useCache := false }
        "/p" {} torn).1 = .ok analysis ∧
      analysis.graph.edges.map (·.target) = [⟨"/p/lib/index.ts"⟩, ⟨"/p/lib/index.ts"⟩] ∧
      ∀ id node, analysis.graph.node? id = some node → node.submitted = true := by
  have hfiles : ∀ file ∈ ["/p/index.js", "/p/lib/Index.TS"], Path.IsPlain file := by
    intro file hfile
    simp only [List.mem_cons, List.not_mem_nil, or_false] at hfile
    rcases hfile with rfl | rfl <;> exact ⟨by decide, by decide⟩
  have hextensions : ∀ ext ∈ [".js", ".TS"], Path.IsExtension ext := by
    intro ext hext
    simp only [List.mem_cons, List.not_mem_nil, or_false] at hext
    rcases hext with rfl | rfl
    · exact ⟨['j', 's'], by decide, by decide⟩
    · exact ⟨['T', 'S'], by decide, by decide⟩
  have hresolve : (ofFiles ["/p/index.js", "/p/lib/Index.TS"] [".js", ".TS"] true).resolve
      ⟨"/p/index.js"⟩ "./LIB" = .ok ⟨"/p/lib/index.ts"⟩ :=
    eq_ok_of_toOption (by decide +kernel)
  have hedges : edgeTargets? (Settings.analyze
      { ignoreCase := true, extensions := some [".js", ".TS"], useCache := false } "/p" {} torn).1 =
        some [⟨"/p/lib/index.ts"⟩, ⟨"/p/lib/index.ts"⟩] := by
    decide +kernel
  have hbackslash : ∀ file ∈ Settings.sourcePaths
      { ignoreCase := true, extensions := some [".js", ".TS"], useCache := false } "/p" torn,
        '\\' ∉ file.toList := by
    decide +kernel
  obtain ⟨analysis, hanalysis, htargets⟩ := Option.map_eq_some_iff.mp hedges
  have hanalyze := eq_ok_of_toOption hanalysis
  exact ⟨hfiles, hextensions, hresolve,
    (resolve_known.1 _ _ _ hfiles _ _ _ hresolve).2 hextensions, analysis, hanalyze, htargets,
    (resolve_known.2 _ _ _ _ _ hbackslash hanalyze).2⟩

end LiveExports

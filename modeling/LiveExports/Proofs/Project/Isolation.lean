import LiveExports.Proofs.Files.Contents
import LiveExports.Proofs.Project.KnownTargets
import LiveExports.Proofs.Source.Documents

/-!
# A rejected source is isolated

A source that is rejected counts as an empty one.  An analysis of a project gives what it gives of
the project in which all rejected sources are empty, with one more diagnostic for each of them
(`Settings.analyze_isolated`).

Modules that were not read are submitted after all the others, so that this needs the order of
submissions not to matter; and this is so where no two sources are the same module.  The manifest of
a project may be among its sources.  If it is rejected as a source, it is no document either, and so
names as few entries as an empty one.
-/

namespace LiveExports

/-- The project with the given files emptied. -/
def FileSystem.emptied (fs : FileSystem) (files : List FilePath) : FileSystem :=
  fs.mapContents fun place content => if place ∈ files.map fs.placeOfFile then [] else content

/-- An analysis with more diagnostics. -/
def Analysis.withDiagnostics (diagnostics : List Diagnostic) (analysis : Analysis) : Analysis :=
  { analysis with diagnostics := Diagnostic.listing (diagnostics ++ analysis.diagnostics) }

theorem Diagnostic.listing_eq_of_mem_iff {first second : List Diagnostic}
    (h : ∀ diagnostic, diagnostic ∈ first ↔ diagnostic ∈ second) : listing first = listing second :=
  SortedSet.eq_of_mem_iff (sorted_listing first) (sorted_listing second) fun diagnostic => by
    rw [mem_listing, mem_listing, h]

/-- Why a content is rejected as the source of a module, if it is. -/
def Declarations.fault? (module : ModuleId) (content : List UInt8) : Option Fault :=
  match ofSource module (Text.decodeLossy content) with
  | .error fault => some fault
  | .ok _ => none

namespace Settings

variable (settings : Settings)

/-- Why the content of a source is rejected, if it is. -/
def rejection? (fs : FileSystem) (file : FilePath) : Option Fault :=
  (fs.readFile file).toOption.bind
    (Declarations.fault? (ModuleId.ofPath file.text settings.ignoreCase))

/-- The sources of a project that are rejected, in the order of the scan. -/
def rejected (root : String) (fs : FileSystem) : List FilePath :=
  (settings.sourceFiles root fs).filter fun file => (settings.rejection? fs file).isSome

/-- The project with an empty text instead of every source that is rejected. -/
def isolated (root : String) (fs : FileSystem) : FileSystem :=
  fs.emptied (settings.rejected root fs)

/-- The diagnostics of the sources that are rejected. -/
def rejections (root : String) (fs : FileSystem) : List Diagnostic :=
  (settings.sourceFiles root fs).filterMap fun file =>
    (settings.rejection? fs file).map
      (Diagnostic.ofFault (ModuleId.ofPath file.text settings.ignoreCase))

/-- Why a source has no declarations: it cannot be read, or it is rejected. -/
def fault? (fs : FileSystem) (file : FilePath) : Option Fault :=
  match fs.readFile file with
  | .error error => some (.io file.text error.message)
  | .ok _ => settings.rejection? fs file

end Settings

/-! ## Contents -/

namespace FileSystem

variable (fs : FileSystem)

theorem read_emptied (files : List FilePath) (path : String) :
    (fs.emptied files).read path = (fs.read path).map fun content =>
      if fs.placeOf path ∈ files.map fs.placeOfFile then [] else content :=
  fs.read_mapContents _ path

theorem readFile_emptied (files : List FilePath) (file : FilePath) :
    (fs.emptied files).readFile file = (fs.readFile file).map fun content =>
      if fs.placeOfFile file ∈ files.map fs.placeOfFile then [] else content :=
  fs.readFile_mapContents _ file

end FileSystem

namespace Declarations

/-- Whether a content is rejected does not depend on the module. -/
theorem isSome_fault? (module : ModuleId) (content : List UInt8) :
    (fault? module content).isSome =
      (Source.read (Text.decodeLossy content).toList).toOption.isNone := by
  unfold fault? ofSource
  cases Source.read (Text.decodeLossy content).toList <;> rfl

theorem ofSource_empty (module : ModuleId) : ofSource module (Text.decodeLossy []) = .ok {} := by
  have hread : Source.read (Text.decodeLossy []).toList = .ok {} :=
    eq_ok_of_toOption (by decide +kernel)
  unfold ofSource
  rw [hread]

/-- No document is rejected. -/
theorem parse?_of_fault? {module : ModuleId} {content : List UInt8} {text : String}
    (hfault : (fault? module content).isSome = true) (hdecode : Text.decode? content = some text) :
    Manifest.parse? text = none := by
  rw [isSome_fault?, Text.decodeLossy_of_decode? hdecode] at hfault
  unfold Manifest.parse?
  cases hdocument : Json.read? text with
  | none => rfl
  | some value =>
      obtain ⟨declarations, hread⟩ := Source.exists_read_of_document hdocument
      rw [hread] at hfault
      cases hfault

end Declarations

/-! ## Readings -/

/-- What a reading submits. -/
def Reading.submission (reading : Reading) : Submission where
  module := reading.module
  declarations := (reading.outcome.toOption.map (·.declarations)).getD {}

/-- The diagnostic of a reading that failed. -/
def Reading.diagnostic? (reading : Reading) : Option Diagnostic :=
  match reading.outcome with
  | .ok _ => none
  | .error fault => some (Diagnostic.ofFault reading.module fault)

namespace Extraction

variable (extraction : Extraction)

/-- Submissions are those of the readings, up to their order. -/
theorem submissions_perm :
    (Settings.submissions extraction).Perm (extraction.readings.map Reading.submission) := by
  obtain ⟨readings⟩ := extraction
  induction readings with
  | nil => exact .refl _
  | cons reading rest ih =>
      cases houtcome : reading.outcome with
      | ok entry =>
          have hsubmission : reading.submission = ⟨reading.module, entry.declarations⟩ := by
            rw [Reading.submission, houtcome]
            rfl
          simp only [Settings.submissions, submissions, entries, failures, List.filterMap_cons,
            houtcome, Except.toOption, Option.map_some, List.map_cons, List.cons_append,
            hsubmission]
          exact ih.cons _
      | error fault =>
          have hsubmission : reading.submission = ⟨reading.module, {}⟩ := by
            rw [Reading.submission, houtcome]
            rfl
          simp only [Settings.submissions, submissions, entries, failures, List.filterMap_cons,
            houtcome, Except.toOption, Option.map_none, List.map_cons, hsubmission]
          exact List.perm_middle.trans (ih.cons _)

theorem failures_map_diagnostic :
    (extraction.failures.map fun (module, fault) => Diagnostic.ofFault module fault) =
      extraction.readings.filterMap Reading.diagnostic? := by
  rw [failures, List.map_filterMap]
  refine List.filterMap_congr fun reading _ => ?_
  unfold Reading.diagnostic?
  cases reading.outcome <;> rfl

theorem hits_ofFiles_none (fs : FileSystem) (ignoreCase : Bool) (files : List FilePath) :
    (ofFiles fs none ignoreCase files).hits = 0 := by
  unfold hits
  rw [List.countP_eq_zero]
  intro reading hreading
  obtain ⟨file, -, rfl⟩ := List.mem_map.mp hreading
  unfold Reading.ofFile
  dsimp only
  split <;> simp

end Extraction

namespace Settings

variable (settings : Settings)

theorem outcome_of_rejection? {fs : FileSystem} {file : FilePath} {fault : Fault}
    (h : settings.rejection? fs file = some fault) :
    (Reading.ofFile fs none settings.ignoreCase file).outcome = .error fault := by
  obtain ⟨content, hcontent, hfault⟩ := Option.bind_eq_some_iff.mp h
  have hread := eq_ok_of_toOption hcontent
  unfold Declarations.fault? at hfault
  split at hfault
  · next found hsource =>
    cases hfault
    simp [Reading.ofFile, hread, hsource, Except.map]
  · cases hfault

theorem outcome_of_empty {fs : FileSystem} {file : FilePath} (h : fs.readFile file = .ok []) :
    (Reading.ofFile fs none settings.ignoreCase file).outcome = .ok ⟨Digest.ofBytes [], {}⟩ := by
  simp [Reading.ofFile, h, Declarations.ofSource_empty, Except.map]

theorem ofFile_eq_of_read {fs other : FileSystem} {file : FilePath}
    (h : other.readFile file = fs.readFile file) (cache : Option Cache) (ignoreCase : Bool) :
    Reading.ofFile other cache ignoreCase file = Reading.ofFile fs cache ignoreCase file := by
  unfold Reading.ofFile
  rw [h]

section Isolated

variable {root : String} {fs : FileSystem}

/-- The content at the place of a rejected source is rejected as a source of any module. -/
theorem fault?_of_mem_rejected {place : List Name} {content : List UInt8}
    (hkind : fs.tree.kindAt? place = some (.file content))
    (hplace : place ∈ (settings.rejected root fs).map fs.placeOfFile) (module : ModuleId) :
    (Declarations.fault? module content).isSome = true := by
  obtain ⟨file, hfile, rfl⟩ := List.mem_map.mp hplace
  have hrejected : (settings.rejection? fs file).isSome = true := (List.mem_filter.mp hfile).2
  obtain ⟨fault, hfault⟩ := Option.isSome_iff_exists.mp hrejected
  obtain ⟨other, hother, hfault⟩ := Option.bind_eq_some_iff.mp hfault
  rw [FileSystem.kindAt?_of_readFile (eq_ok_of_toOption hother)] at hkind
  have hcontent : other = content := Tree.Kind.file.inj (Option.some.inj hkind)
  rw [Declarations.isSome_fault? module,
    ← Declarations.isSome_fault? (ModuleId.ofPath file.text settings.ignoreCase), ← hcontent,
    hfault]
  rfl

/-- Among the sources, exactly those that are rejected are emptied. -/
theorem readFile_isolated {file : FilePath} (hfile : file ∈ settings.sourceFiles root fs) :
    (settings.isolated root fs).readFile file =
      if (settings.rejection? fs file).isSome then .ok [] else fs.readFile file := by
  unfold isolated
  rw [FileSystem.readFile_emptied]
  cases hread : fs.readFile file with
  | error error =>
      have hnone : settings.rejection? fs file = none := by
        rw [rejection?, hread]
        rfl
      rw [hnone]
      rfl
  | ok content =>
      have hrejection : settings.rejection? fs file =
          Declarations.fault? (ModuleId.ofPath file.text settings.ignoreCase) content := by
        rw [rejection?, hread]
        rfl
      -- Two paths of one place have one content, and are rejected together.
      have hiff : fs.placeOfFile file ∈ (settings.rejected root fs).map fs.placeOfFile ↔
          (settings.rejection? fs file).isSome = true := by
        constructor
        · intro hplace
          rw [hrejection]
          exact settings.fault?_of_mem_rejected (FileSystem.kindAt?_of_readFile hread) hplace _
        · intro hsome
          exact List.mem_map_of_mem (List.mem_filter.mpr ⟨hfile, hsome⟩)
      simp only [Except.map, hiff]
      split <;> rfl

/-- The manifest names as much as before. -/
theorem manifest_isolated (path : String) :
    ((settings.isolated root fs).readText path).toOption.bind Manifest.parse? =
      (fs.readText path).toOption.bind Manifest.parse? := by
  unfold isolated FileSystem.readText
  rw [FileSystem.read_emptied]
  cases hread : fs.read path with
  | error error => rfl
  | ok content =>
      dsimp only [Except.map, bind, Except.bind]
      by_cases hplace : fs.placeOf path ∈ (settings.rejected root fs).map fs.placeOfFile
      · -- An empty text is no document, and neither is a text that is rejected.
        have hempty : Text.decode? [] = some "" := by decide
        have hnothing : Manifest.parse? "" = none := by decide +kernel
        rw [if_pos hplace, hempty]
        cases hdecode : Text.decode? content with
        | none => exact hnothing
        | some text =>
            have hkind := FileSystem.kindAt?_of_read hread
            have hfault := settings.fault?_of_mem_rejected hkind hplace ⟨path⟩
            have hrejected := Declarations.parse?_of_fault? hfault hdecode
            exact hnothing.trans hrejected.symm
      · rw [if_neg hplace]

theorem isFile_isolated (path : String) :
    (settings.isolated root fs).isFile path = fs.isFile path :=
  fs.isFile_mapContents _ path

theorem entries_isolated (folder : String) :
    Manifest.entries folder (settings.isolated root fs) = Manifest.entries folder fs := by
  have hisFile : (settings.isolated root fs).isFile = fs.isFile :=
    funext settings.isFile_isolated
  unfold Manifest.entries Manifest.namedEntries Manifest.indexFiles
  dsimp only
  rw [settings.manifest_isolated, hisFile]

variable (root fs) in
theorem canonical_isolated (path : String) :
    (settings.isolated root fs).canonical path = fs.canonical path :=
  fs.canonical_mapContents _ path

variable (root fs) in
theorem files_isolated (scan : Scan) (folder : String) :
    scan.files (settings.isolated root fs) folder = scan.files fs folder :=
  scan.files_mapContents fs _ folder

/-- What is submitted for a source is the same, and its diagnostic is gone if it is one of a
rejection. -/
theorem ofFile_isolated {file : FilePath} (hfile : file ∈ settings.sourceFiles root fs) :
    (Reading.ofFile (settings.isolated root fs) none settings.ignoreCase file).submission =
        (Reading.ofFile fs none settings.ignoreCase file).submission ∧
      (Reading.ofFile fs none settings.ignoreCase file).diagnostic? =
        ((settings.rejection? fs file).map
          (Diagnostic.ofFault (ModuleId.ofPath file.text settings.ignoreCase))).or
        (Reading.ofFile (settings.isolated root fs) none settings.ignoreCase file).diagnostic? := by
  have hread := settings.readFile_isolated hfile
  cases hrejection : settings.rejection? fs file with
  | none =>
      rw [hrejection] at hread
      rw [ofFile_eq_of_read hread]
      exact ⟨rfl, by simp⟩
  | some fault =>
      rw [hrejection] at hread
      have hempty := settings.outcome_of_empty hread
      have hfault := settings.outcome_of_rejection? hrejection
      refine ⟨?_, ?_⟩
      · rw [Reading.submission, Reading.submission, hempty, hfault, Reading.module_ofFile,
          Reading.module_ofFile]
        rfl
      · rw [Reading.diagnostic?, hfault, Reading.module_ofFile]
        rfl

end Isolated

/-! ## Results -/

/-- The result depends on what is submitted, on the entries that are found out and on the
diagnostics of what was not read. -/
theorem conclude_eq {root : String} {files : List FilePath} {first second : Extraction}
    {fs other : FileSystem} {more : List Diagnostic}
    (hbuild : ∀ resolver, Graph.build resolver (submissions first) =
      Graph.build resolver (submissions second))
    (hhits : first.hits = second.hits)
    (hentries : Manifest.entries root fs = Manifest.entries root other)
    (hdiagnostics : ∀ diagnostic,
      diagnostic ∈ first.readings.filterMap Reading.diagnostic? ↔
        diagnostic ∈ more ∨ diagnostic ∈ second.readings.filterMap Reading.diagnostic?) :
    settings.conclude root files first fs =
      (settings.conclude root files second other).map (Analysis.withDiagnostics more) := by
  unfold conclude
  dsimp only
  rw [hbuild, settings.entryModules_eq fun _ => hentries, Extraction.failures_map_diagnostic,
    Extraction.failures_map_diagnostic, hhits]
  generalize Graph.build _ (submissions second) = construction
  cases settings.entryModules _ root other with
  | error failure => rfl
  | ok entries =>
      dsimp only [bind, Except.bind]
      cases (construction.graph.liveness entries settings.entryExportsUsed).mapError _ with
      | error failure => rfl
      | ok liveness =>
          -- A listing depends on its members only, not on where they come from.
          have hlisting : Diagnostic.listing (first.readings.filterMap Reading.diagnostic? ++
                construction.diagnostics ++ liveness.diagnostics) =
              Diagnostic.listing (more ++ Diagnostic.listing
                (second.readings.filterMap Reading.diagnostic? ++ construction.diagnostics ++
                  liveness.diagnostics)) := by
            refine Diagnostic.listing_eq_of_mem_iff fun diagnostic => ?_
            simp only [List.mem_append, Diagnostic.mem_listing, hdiagnostics, or_assoc]
          dsimp only [Except.map, pure, Except.pure, Analysis.withDiagnostics]
          rw [hlisting]

/-! ## Runs -/

theorem analyzeAt_of_uncached {root : String} {files : List FilePath} {fs : FileSystem}
    (huse : settings.useCache = false) (hfiles : settings.scan.files fs root = .ok files)
    (moment : Moment) :
    (settings.analyzeAt root moment fs).1 =
      settings.judge root files (Extraction.ofFiles fs none settings.ignoreCase files) fs := by
  unfold scan at hfiles
  unfold analyzeAt judge
  simp only [hfiles, huse, Bool.false_eq_true, if_false]
  split
  · next failure hrefusal => rw [hrefusal, Option.map_some, Option.getD_some]
  · next hrefusal => rw [hrefusal, Option.map_none, Option.getD_none]

section Isolated

variable {root : String} {fs : FileSystem}

/-- The same graph is built, with the same reports. -/
theorem build_isolated
    (hdistinct : ((settings.sourcePaths root fs).map (ModuleId.ofPath · settings.ignoreCase)).Nodup)
    (resolver : Resolver) :
    Graph.build resolver (submissions (Extraction.ofFiles fs none settings.ignoreCase
        (settings.sourceFiles root fs))) =
      Graph.build resolver (submissions (Extraction.ofFiles (settings.isolated root fs) none
        settings.ignoreCase (settings.sourceFiles root fs))) := by
  -- What was not read is submitted last, so both sides are put in the order of the sources.
  have hperm := fun start => Extraction.submissions_perm
    (Extraction.ofFiles start none settings.ignoreCase (settings.sourceFiles root fs))
  have hsame : (Extraction.ofFiles fs none settings.ignoreCase
        (settings.sourceFiles root fs)).readings.map Reading.submission =
      (Extraction.ofFiles (settings.isolated root fs) none settings.ignoreCase
        (settings.sourceFiles root fs)).readings.map Reading.submission := by
    simp only [Extraction.ofFiles, List.map_map]
    exact List.map_congr_left fun file hfile => (settings.ofFile_isolated hfile).1.symm
  have hmodules : ((Extraction.ofFiles fs none settings.ignoreCase
        (settings.sourceFiles root fs)).readings.map Reading.submission).map (·.module) =
      (settings.sourcePaths root fs).map (ModuleId.ofPath · settings.ignoreCase) := by
    simp only [Extraction.ofFiles, sourcePaths, List.map_map]
    exact List.map_congr_left fun file _ => Reading.module_ofFile ..
  apply Graph.build_eq_of_perm
  · have hfirst := hperm fs
    rw [hsame] at hfirst
    exact hfirst.trans (hperm _).symm
  · rw [((hperm fs).map _).nodup_iff, hmodules]
    exact hdistinct

/-- Only the diagnostics of the rejected sources are missing. -/
theorem mem_diagnostics_isolated_iff (diagnostic : Diagnostic) :
    diagnostic ∈ (Extraction.ofFiles fs none settings.ignoreCase
        (settings.sourceFiles root fs)).readings.filterMap Reading.diagnostic? ↔
      diagnostic ∈ settings.rejections root fs ∨
        diagnostic ∈ (Extraction.ofFiles (settings.isolated root fs) none settings.ignoreCase
          (settings.sourceFiles root fs)).readings.filterMap Reading.diagnostic? := by
  simp only [Extraction.ofFiles, rejections, List.filterMap_map, List.mem_filterMap,
    Function.comp_apply, ← exists_or, ← and_or_left]
  refine exists_congr fun file => and_congr_right fun hfile => ?_
  rw [(settings.ofFile_isolated hfile).2]
  cases hrejection : settings.rejection? fs file with
  | none => simp
  | some fault =>
      have hread := settings.readFile_isolated hfile
      rw [hrejection] at hread
      have hnone : (Reading.ofFile (settings.isolated root fs) none settings.ignoreCase
          file).diagnostic? = none := by
        rw [Reading.diagnostic?, settings.outcome_of_empty hread]
      simp [hnone]

/-- The sources of an isolated project give the same result but for the diagnostics. -/
theorem conclude_isolated
    (hdistinct : ((settings.sourcePaths root fs).map (ModuleId.ofPath · settings.ignoreCase)).Nodup)
    (folder : String) :
    settings.conclude folder (settings.sourceFiles root fs)
        (Extraction.ofFiles fs none settings.ignoreCase (settings.sourceFiles root fs)) fs =
      (settings.conclude folder (settings.sourceFiles root fs)
        (Extraction.ofFiles (settings.isolated root fs) none settings.ignoreCase
          (settings.sourceFiles root fs)) (settings.isolated root fs)).map
        (Analysis.withDiagnostics (settings.rejections root fs)) := by
  apply settings.conclude_eq (settings.build_isolated hdistinct)
  · rw [Extraction.hits_ofFiles_none, Extraction.hits_ofFiles_none]
  · exact (settings.entries_isolated folder).symm
  · exact settings.mem_diagnostics_isolated_iff

/-- A run that is not strict goes on whatever it cannot read. -/
theorem analyze_of_lenient {files : List FilePath} {full : String}
    (hstrict : settings.strict = false)
    (huse : settings.useCache = false) (hcanonical : fs.canonical root = .ok full)
    (hfiles : settings.scan.files fs (fs.fullName root) = .ok files) (moment : Moment) :
    (settings.analyze root moment fs).1 = settings.conclude (fs.fullName root) files
      (Extraction.ofFiles fs none settings.ignoreCase files) fs := by
  rw [settings.analyze_of_canonical hcanonical, settings.analyzeAt_of_uncached huse hfiles, judge,
    refusal?, hstrict]
  rfl

theorem analyze_lenient_isolated (hstrict : settings.strict = false)
    (huse : settings.useCache = false)
    (hdistinct : ((settings.sourcePaths root fs).map (ModuleId.ofPath · settings.ignoreCase)).Nodup)
    (moment : Moment) :
    (settings.analyze root moment fs).1 =
      (settings.analyze root moment (settings.isolated root fs)).1.map
        (Analysis.withDiagnostics (settings.rejections root fs)) := by
  have hsame := settings.canonical_isolated root fs root
  have hname : (settings.isolated root fs).fullName root = fs.fullName root :=
    FileSystem.fullName_eq_of_workingFolder rfl root
  cases hcanonical : fs.canonical root with
  | error error =>
      rw [hcanonical] at hsame
      rw [settings.analyze_of_error hcanonical, settings.analyze_of_error hsame]
      rfl
  | ok full =>
      have hscan := settings.files_isolated root fs settings.scan (fs.fullName root)
      rw [hcanonical] at hsame
      cases hfiles : settings.scan.files fs (fs.fullName root) with
      | error failure =>
          rw [hfiles, ← hname] at hscan
          rw [settings.analyze_of_canonical hcanonical, settings.analyze_of_canonical hsame,
            settings.analyzeAt_of_error hfiles, settings.analyzeAt_of_error hscan]
          rfl
      | ok files =>
          have hsources := settings.sourceFiles_of_files hcanonical hfiles
          rw [hfiles, ← hname] at hscan
          rw [settings.analyze_of_lenient hstrict huse hcanonical hfiles,
            settings.analyze_of_lenient hstrict huse hsame hscan, hname, ← hsources]
          exact settings.conclude_isolated hdistinct _

end Isolated

/-! ## Strict runs -/

/-- A source has a fault if its reading fails. -/
theorem fault?_eq (fs : FileSystem) (file : FilePath) :
    settings.fault? fs file =
      match (Reading.ofFile fs none settings.ignoreCase file).outcome with
      | .ok _ => none
      | .error fault => some fault := by
  unfold fault?
  cases hread : fs.readFile file with
  | error error => simp [Reading.ofFile, hread]
  | ok content =>
      have houtcome : (Reading.ofFile fs none settings.ignoreCase file).outcome =
          (Declarations.ofSource (ModuleId.ofPath file.text settings.ignoreCase)
            (Text.decodeLossy content)).map fun declarations =>
              ⟨Digest.ofBytes content, declarations⟩ := by
        simp [Reading.ofFile, hread]
      rw [houtcome, rejection?, hread]
      simp only [Except.toOption, Option.bind_some, Declarations.fault?]
      cases Declarations.ofSource (ModuleId.ofPath file.text settings.ignoreCase)
        (Text.decodeLossy content) <;> rfl

theorem refusal?_of_strict (hstrict : settings.strict = true) (fs : FileSystem)
    (files : List FilePath) :
    settings.refusal? (Extraction.ofFiles fs none settings.ignoreCase files) =
      (files.findSome? (settings.fault? fs)).map fun fault =>
        (Failure.ofFault fault).during "Unreadable source file in strict mode" := by
  have hfirst : (Extraction.ofFiles fs none settings.ignoreCase files).failures.head?.map (·.2) =
      files.findSome? (settings.fault? fs) := by
    rw [Extraction.failures, List.head?_filterMap, Extraction.ofFiles, List.findSome?_map,
      List.map_findSome?]
    refine congrArg (List.findSome? · files) (funext fun file => ?_)
    rw [fault?_eq, Function.comp_apply, Function.comp_apply]
    cases (Reading.ofFile fs none settings.ignoreCase file).outcome <;> rfl
  rw [refusal?, if_pos hstrict, ← hfirst, Option.map_map]
  rfl

/-- The first source without declarations stops a strict run; without such a source it is like any
other. -/
theorem analyze_strict (hstrict : settings.strict = true) (huse : settings.useCache = false)
    (root : String) (moment : Moment) (fs : FileSystem) :
    (settings.analyze root moment fs).1 =
      (((settings.sourceFiles root fs).findSome? (settings.fault? fs)).map fun fault =>
        .error ((Failure.ofFault fault).during "Unreadable source file in strict mode")).getD
      ({ settings with strict := false }.analyze root moment fs).1 := by
  cases hcanonical : fs.canonical root with
  | error error =>
      rw [settings.analyze_of_error hcanonical,
        analyze_of_error { settings with strict := false } hcanonical, sourceFiles, hcanonical]
      rfl
  | ok full =>
      cases hfiles : settings.scan.files fs (fs.fullName root) with
      | error failure =>
          rw [settings.analyze_of_canonical hcanonical,
            analyze_of_canonical { settings with strict := false } hcanonical,
            settings.analyzeAt_of_error hfiles,
            analyzeAt_of_error { settings with strict := false } hfiles,
            settings.sourceFiles_of_canonical hcanonical, hfiles]
          rfl
      | ok files =>
          rw [settings.analyze_of_canonical hcanonical, settings.analyzeAt_of_uncached huse hfiles,
            judge, settings.refusal?_of_strict hstrict, Option.map_map,
            analyze_of_lenient { settings with strict := false } rfl huse hcanonical hfiles,
            settings.sourceFiles_of_files hcanonical hfiles]
          rfl

theorem kind_of_mem_rejections {root : String} {fs : FileSystem} {diagnostic : Diagnostic}
    (h : diagnostic ∈ settings.rejections root fs) : diagnostic.kind = .extractionFailed := by
  obtain ⟨file, -, hdiagnostic⟩ := List.mem_filterMap.mp h
  obtain ⟨fault, hrejection, rfl⟩ := Option.map_eq_some_iff.mp hdiagnostic
  obtain ⟨content, -, hfault⟩ := Option.bind_eq_some_iff.mp hrejection
  unfold Declarations.fault? Declarations.ofSource at hfault
  split at hfault
  · next found hsource =>
    split at hsource
    · cases hsource
      cases hfault
      unfold Diagnostic.ofFault Diagnostic.atLine
      dsimp only
      split <;> rfl
    · cases hsource
  · cases hfault

end Settings

/-- Where no two sources are the same module, a run without a cache gives what it gives of the
project with every rejected source emptied, and adds the diagnostic of each rejection.  A strict run
fails with the fault of the first source that has no declarations, and is like any other run if
there is none. -/
theorem Settings.analyze_isolated (settings : Settings) (root : String) (moment : Moment)
    (fs : FileSystem)
    (hdistinct : ((settings.sourcePaths root fs).map
      (ModuleId.ofPath · settings.ignoreCase)).Nodup) :
    ({ settings with strict := false, useCache := false }.analyze root moment fs).1 =
        ({ settings with strict := false, useCache := false }.analyze root moment
          (settings.isolated root fs)).1.map
            (Analysis.withDiagnostics (settings.rejections root fs)) ∧
      (∀ diagnostic ∈ settings.rejections root fs, diagnostic.kind = .extractionFailed) ∧
      ({ settings with strict := true, useCache := false }.analyze root moment fs).1 =
        (((settings.sourceFiles root fs).findSome? (settings.fault? fs)).map fun fault =>
          .error ((Failure.ofFault fault).during "Unreadable source file in strict mode")).getD
        ({ settings with strict := false, useCache := false }.analyze root moment fs).1 := by
  refine ⟨?_, fun diagnostic h => settings.kind_of_mem_rejections h, ?_⟩
  · exact analyze_lenient_isolated { settings with strict := false, useCache := false } rfl rfl
      hdistinct moment
  · exact analyze_strict { settings with strict := true, useCache := false } rfl rfl root moment fs

/-- A project with a library and a manifest that are rejected. -/
def damaged : FileSystem where
  tree := .folder [("p", .folder
    [("index.js", .file (Text.encode "import \x7b x \x7d from './lib.js';")),
      ("lib.js", .file (Text.encode "\nimport x;")),
      ("package.json", .file (Text.encode "\x7b\"main\": \"./lib.js\"\x7d /*"))])]

/-- Settings by which a manifest is a source. -/
def manifestSettings : Settings :=
  { extensions := some [".js", ".json"] }

theorem Settings.analyze_isolated_damaged :
    ((manifestSettings.sourcePaths "/p" damaged).map
        (ModuleId.ofPath · manifestSettings.ignoreCase)).Nodup ∧
      manifestSettings.rejections "/p" damaged =
        [⟨⟨"/p/lib.js"⟩, .extractionFailed,
            "Parse error in /p/lib.js: unreadable import statement", some 2⟩,
          ⟨⟨"/p/package.json"⟩, .extractionFailed,
            "Parse error in /p/package.json: unterminated block comment", some 1⟩] ∧
      ({ manifestSettings with strict := false, useCache := false }.analyze "/p" {} damaged).1 =
        ({ manifestSettings with strict := false, useCache := false }.analyze "/p" {}
          (manifestSettings.isolated "/p" damaged)).1.map
          (Analysis.withDiagnostics (manifestSettings.rejections "/p" damaged)) ∧
      ({ manifestSettings with strict := true, useCache := false }.analyze "/p" {} damaged).1 =
        .error ((Failure.ofFault (.parse "/p/lib.js" "unreadable import statement" (some 2))).during
          "Unreadable source file in strict mode") := by
  have hdistinct : ((manifestSettings.sourcePaths "/p" damaged).map
      (ModuleId.ofPath · manifestSettings.ignoreCase)).Nodup := by
    decide +kernel
  have hrejections : manifestSettings.rejections "/p" damaged =
      [⟨⟨"/p/lib.js"⟩, .extractionFailed,
          "Parse error in /p/lib.js: unreadable import statement", some 2⟩,
        ⟨⟨"/p/package.json"⟩, .extractionFailed,
          "Parse error in /p/package.json: unterminated block comment", some 1⟩] := by
    decide +kernel
  have hfault : (manifestSettings.sourceFiles "/p" damaged).findSome?
      (manifestSettings.fault? damaged) =
        some (.parse "/p/lib.js" "unreadable import statement" (some 2)) := by
    decide +kernel
  obtain ⟨hlenient, -, hstrict⟩ := analyze_isolated manifestSettings "/p" {} damaged hdistinct
  rw [hfault] at hstrict
  exact ⟨hdistinct, hrejections, hlenient, hstrict⟩

end LiveExports

import LiveExports.Project.Analysis
import LiveExports.Proofs.Cache.Faithful
import LiveExports.Proofs.Cache.Store
import LiveExports.Proofs.Project.Entries

/-!
# The cache does not show in an analysis

A project without a cache is edited and analysed again and again, with settings that may change from
run to run.  At any time the cache, if there is one, is faithful to the sources that were read so
far (`History.stored`).  A run with the cache therefore gives the same result as one without, except
that it counts the modules that it takes from the cache.

There is one way in which the cache does show: it is saved before the entries of the project are
found out, so that a manifest that names the file of the cache as an entry finds it there.
-/

namespace LiveExports

/-- An analysis but for the count of modules taken from the cache. -/
def Analysis.withoutHits (analysis : Analysis) : Analysis :=
  { analysis with statistics := { analysis.statistics with cacheHits := 0 } }

namespace FileSystem

/-- The absolute path of what a path leads to, if it can be followed. -/
def fullName (fs : FileSystem) (path : String) : String :=
  String.ofList ('/' :: Text.join '/' ((fs.placeOf path).map (·.shown.toList)))

theorem fullName_ne_empty (fs : FileSystem) (path : String) : fs.fullName path ≠ "" := by
  intro h
  have hchars := congrArg String.toList h
  rw [fullName, String.toList_ofList] at hchars
  simp at hchars

theorem eq_fullName_of_canonical {fs : FileSystem} {path full : String}
    (h : fs.canonical path = .ok full) : full = fs.fullName path := by
  obtain ⟨_, -, h⟩ := exists_of_bind_eq_ok h
  obtain ⟨place, hwalk, h⟩ := exists_of_bind_eq_ok h
  have hplace : place = fs.placeOf path := eq_destination_of_walk hwalk
  rw [fullName, ← hplace]
  exact (Except.ok.inj h).symm

/-- The place of the folder of a project's cache. -/
def cachePlace (fs : FileSystem) (root : String) : List Name :=
  fs.placeOf (Cache.folderOf (fs.fullName root))

theorem placeOf_eq_of_workingFolder {fs other : FileSystem}
    (h : other.workingFolder = fs.workingFolder) (path : String) :
    other.placeOf path = fs.placeOf path := by
  rw [placeOf, placeOf, start, start, h]

theorem fullName_eq_of_workingFolder {fs other : FileSystem}
    (h : other.workingFolder = fs.workingFolder) (path : String) :
    other.fullName path = fs.fullName path := by
  rw [fullName, fullName, placeOf_eq_of_workingFolder h]

end FileSystem

/-- Loading takes a faithful cache or none, and removes nothing. -/
theorem Cache.load_of_faithful {root : String} {seen : List (List UInt8)} {fs : FileSystem}
    (h : Stored root (IsFaithful seen) fs) :
    (load root fs).2 = fs ∧ ∀ cache, (load root fs).1 = some cache → cache.IsFaithful seen :=
  load_of_stored h fun _ hcache => hcache.isCompatible

namespace Settings

variable (settings : Settings)

/-- The scan for the sources of a project. -/
def scan : Scan :=
  { extensions := settings.sourceExtensions, excluded := settings.excluded }

/-- The contents of the sources of the project at a root that exists. -/
def sourcesAt (root : String) (fs : FileSystem) : List (List UInt8) :=
  ((settings.scan.files fs root).toOption.map fs.contents).getD []

theorem sourcesAt_of_files {root : String} {files : List FilePath} {fs : FileSystem}
    (h : settings.scan.files fs root = .ok files) :
    settings.sourcesAt root fs = fs.contents files := by
  rw [sourcesAt, h]
  rfl

/-- The contents of the sources of a project. -/
def sources (root : String) (fs : FileSystem) : List (List UInt8) :=
  ((fs.canonical root).toOption.map fun root => settings.sourcesAt root fs).getD []

/-! ## The stages of an analysis -/

/-- The sources of a project as they are read by a run. -/
def extraction (root : String) (files : List FilePath) (fs : FileSystem) : Extraction :=
  Extraction.ofFiles fs (if settings.useCache then (Cache.load root fs).1 else none)
    settings.ignoreCase files

/-- The file system when the sources are read and the cache is saved. -/
def saved (root : String) (files : List FilePath) (moment : Moment) (fs : FileSystem) :
    FileSystem :=
  if settings.useCache then
    (Cache.save root moment ((settings.extraction root files fs).cache moment.seconds) fs).2
  else fs

/-- The result for files that were read, unless one that was not read stops the analysis. -/
def judge (root : String) (files : List FilePath) (extraction : Extraction) (fs : FileSystem) :
    Except Failure Analysis :=
  ((settings.refusal? extraction).map Except.error).getD
    (settings.conclude root files extraction fs)

theorem analyzeAt_of_files {root : String} {files : List FilePath} {moment : Moment}
    {fs : FileSystem}
    (hfiles : settings.scan.files fs root = .ok files) (hload : (Cache.load root fs).2 = fs) :
    settings.analyzeAt root moment fs =
      (settings.judge root files (settings.extraction root files fs)
        (settings.saved root files moment fs), settings.saved root files moment fs) := by
  have hloaded : (if settings.useCache then Cache.load root fs else (none, fs)) =
      (if settings.useCache then (Cache.load root fs).1 else none, fs) := by
    generalize Cache.load root fs = loaded at hload ⊢
    obtain ⟨cache, left⟩ := loaded
    have hleft : left = fs := hload
    rw [hleft]
    cases settings.useCache <;> rfl
  unfold scan at hfiles
  unfold analyzeAt
  dsimp only
  rw [hfiles]
  dsimp only
  rw [hloaded]
  unfold judge saved extraction
  dsimp only
  split
  · next failure hrefusal => rw [hrefusal, Option.map_some, Option.getD_some]
  · next hrefusal => rw [hrefusal, Option.map_none, Option.getD_none]

theorem analyzeAt_of_error {root : String} {moment : Moment} {fs : FileSystem} {failure : Failure}
    (hfiles : settings.scan.files fs root = .error failure) :
    settings.analyzeAt root moment fs =
      (.error (failure.during "Failed to gather source files"), fs) := by
  unfold scan at hfiles
  unfold analyzeAt
  dsimp only
  rw [hfiles]

theorem locate_of_files {root : String} {files : List FilePath} {fs : FileSystem}
    (h : settings.scan.files fs root = .ok files) : ∃ place, fs.locate root = .ok place := by
  obtain ⟨place, hplace, -⟩ := exists_of_bind_eq_ok h
  cases hlocate : fs.locate root with
  | error error =>
      rw [hlocate] at hplace
      cases hplace
  | ok place => exact ⟨place, rfl⟩

/-! ## What the result depends on -/

theorem entryModules_eq {resolver : Resolver} {root : String} {fs other : FileSystem}
    (h : settings.entries = [] → Manifest.entries root other = Manifest.entries root fs) :
    settings.entryModules resolver root other = settings.entryModules resolver root fs := by
  unfold entryModules
  split
  · next hempty => rw [h (List.isEmpty_iff.mp hempty)]
  · rfl

/-- The file system counts only as far as entries are found out there. -/
theorem judge_eq_of_entries {root : String} {files : List FilePath} {extraction : Extraction}
    {fs other : FileSystem}
    (h : settings.entries = [] → Manifest.entries root other = Manifest.entries root fs) :
    settings.judge root files extraction other = settings.judge root files extraction fs := by
  unfold judge conclude
  dsimp only
  rw [settings.entryModules_eq h]

/-- What was read counts, and where it was taken from only for the hits. -/
theorem conclude_withoutHits_eq {root : String} {files : List FilePath} {first second : Extraction}
    (hentries : first.entries = second.entries) (hfailures : first.failures = second.failures)
    (fs : FileSystem) :
    (settings.conclude root files first fs).map Analysis.withoutHits =
      (settings.conclude root files second fs).map Analysis.withoutHits := by
  have hsubmissions : submissions first = submissions second := by
    rw [submissions, submissions, Extraction.submissions, Extraction.submissions, hentries,
      hfailures]
  unfold conclude
  dsimp only
  rw [hsubmissions, hfailures]
  generalize Graph.build _ (submissions second) = construction
  cases settings.entryModules _ root fs with
  | error failure => rfl
  | ok entries =>
      dsimp only [bind, Except.bind]
      cases (construction.graph.liveness entries settings.entryExportsUsed).mapError _ with
      | error failure => rfl
      | ok liveness => rfl

theorem judge_withoutHits_eq {root : String} {files : List FilePath} {first second : Extraction}
    (hentries : first.entries = second.entries) (hfailures : first.failures = second.failures)
    (fs : FileSystem) :
    (settings.judge root files first fs).map Analysis.withoutHits =
      (settings.judge root files second fs).map Analysis.withoutHits := by
  have hrefusal : settings.refusal? first = settings.refusal? second := by
    rw [refusal?, refusal?, hfailures]
  unfold judge
  rw [hrefusal]
  cases settings.refusal? second with
  | some failure => rw [Option.map_some, Option.getD_some, Option.getD_some]
  | none => exact settings.conclude_withoutHits_eq hentries hfailures fs

/-! ## One run -/

section Run

variable {root : String} {files : List FilePath} {seen : List (List UInt8)} {fs : FileSystem}
  (hstored : Cache.Stored root (Cache.IsFaithful seen) fs)

include hstored

/-- Sources are read with a faithful cache or none. -/
theorem isFaithful_loaded (loaded : Cache)
    (h : (if settings.useCache then (Cache.load root fs).1 else none) = some loaded) :
    loaded.IsFaithful seen := by
  split at h
  · exact (Cache.load_of_faithful hstored).2 loaded h
  · cases h

theorem isFaithful_extraction (time : Nat) :
    ((settings.extraction root files fs).cache time).IsFaithful (fs.contents files ++ seen) :=
  Extraction.isFaithful_cache (settings.isFaithful_loaded hstored) time

/-- Sources are read as if there were no cache. -/
theorem extraction_eq (hdigest : Digest.TellsApart (fs.contents files ++ seen)) :
    (settings.extraction root files fs).entries =
        (Extraction.ofFiles fs none settings.ignoreCase files).entries ∧
      (settings.extraction root files fs).failures =
        (Extraction.ofFiles fs none settings.ignoreCase files).failures := by
  have hcache := settings.isFaithful_loaded hstored
  exact ⟨Extraction.entries_eq hcache hdigest, Extraction.failures_eq hcache hdigest⟩

omit hstored in
/-- A run only saves the cache. -/
theorem step_saved {place : List Name} (hroot : root ≠ "") (hlocate : fs.locate root = .ok place)
    (files : List FilePath) (moment : Moment) :
    Cache.Step root
      (Text.encode ((settings.extraction root files fs).cache moment.seconds).text) fs
      (settings.saved root files moment fs) := by
  unfold saved
  split
  · exact Cache.step_save hroot hlocate moment _
  · exact .refl root _ fs

/-- After a run the cache is faithful to what was read so far. -/
theorem stored_analyzeAt (hroot : root ≠ "") (moment : Moment) :
    (settings.analyzeAt root moment fs).2.workingFolder = fs.workingFolder ∧
      Cache.Stored root (Cache.IsFaithful (settings.sourcesAt root fs ++ seen))
        (settings.analyzeAt root moment fs).2 := by
  have hmore : Cache.Stored root (Cache.IsFaithful (settings.sourcesAt root fs ++ seen)) fs :=
    hstored.imp fun cache hcache => hcache.mono (List.subset_append_right _ _)
  cases hfiles : settings.scan.files fs root with
  | error failure =>
      rw [settings.analyzeAt_of_error hfiles]
      exact ⟨rfl, hmore⟩
  | ok files =>
      obtain ⟨place, hlocate⟩ := settings.locate_of_files hfiles
      have hstep := settings.step_saved hroot hlocate files moment
      rw [settings.analyzeAt_of_files hfiles (Cache.load_of_faithful hstored).1]
      refine ⟨hstep.changes.workingFolder, hstep.stored hmore ?_⟩
      rw [settings.sourcesAt_of_files hfiles]
      exact settings.isFaithful_extraction hstored _

/-- A run with the cache gives what a run without it gives: its entries are those that are found out
before the cache is saved, and its modules are those that are read without a cache. -/
theorem analyzeAt_withoutHits_eq (hroot : root ≠ "") (moment : Moment)
    (hdigest : Digest.TellsApart (settings.sourcesAt root fs ++ seen))
    (htried : settings.entries = [] → ∀ path ∈ Manifest.tried root fs,
      ¬ fs.LeadsThrough (fs.placeOf (Cache.folderOf root)) path) :
    ({ settings with useCache := true }.analyzeAt root moment fs).1.map Analysis.withoutHits =
      ({ settings with useCache := false }.analyzeAt root moment fs).1.map
        Analysis.withoutHits := by
  cases hfiles : settings.scan.files fs root with
  | error failure =>
      rw [analyzeAt_of_error { settings with useCache := true } hfiles,
        analyzeAt_of_error { settings with useCache := false } hfiles]
  | ok files =>
      obtain ⟨place, hlocate⟩ := settings.locate_of_files hfiles
      have hload := (Cache.load_of_faithful hstored).1
      rw [settings.sourcesAt_of_files hfiles] at hdigest
      rw [analyzeAt_of_files { settings with useCache := true } hfiles hload,
        analyzeAt_of_files { settings with useCache := false } hfiles hload]
      dsimp only
      -- No entry is looked for in the folder of the cache, so that saving does not matter to them.
      have hstep := step_saved { settings with useCache := true } hroot hlocate files moment
      rw [judge_eq_of_entries { settings with useCache := true } fun hempty =>
        Manifest.entries_eq hroot hlocate Cache.isName_folderName (by decide) hstep.changes
          (htried hempty)]
      obtain ⟨hentries, hfailures⟩ :=
        extraction_eq { settings with useCache := true } hstored hdigest
      exact judge_withoutHits_eq { settings with useCache := true } hentries hfailures fs

end Run

theorem analyze_of_canonical {root full : String} {moment : Moment} {fs : FileSystem}
    (h : fs.canonical root = .ok full) :
    settings.analyze root moment fs = settings.analyzeAt (fs.fullName root) moment fs := by
  rw [analyze, h, FileSystem.eq_fullName_of_canonical h]

theorem analyze_of_error {root : String} {moment : Moment} {fs : FileSystem} {error : SystemError}
    (h : fs.canonical root = .error error) :
    settings.analyze root moment fs =
      (.error (.ofSystem s!"Project root not found: {root}" error), fs) := by
  unfold analyze
  rw [h]

theorem sources_of_canonical {root full : String} {fs : FileSystem}
    (h : fs.canonical root = .ok full) :
    settings.sources root fs = settings.sourcesAt (fs.fullName root) fs := by
  rw [sources, h, FileSystem.eq_fullName_of_canonical h]
  simp only [Except.toOption, Option.map_some, Option.getD_some]

theorem stored_analyze {root : String} {seen : List (List UInt8)} {fs : FileSystem}
    (hstored : Cache.Stored (fs.fullName root) (Cache.IsFaithful seen) fs) (moment : Moment) :
    (settings.analyze root moment fs).2.workingFolder = fs.workingFolder ∧
      Cache.Stored (fs.fullName root) (Cache.IsFaithful (settings.sources root fs ++ seen))
        (settings.analyze root moment fs).2 := by
  cases hcanonical : fs.canonical root with
  | error error =>
      rw [settings.analyze_of_error hcanonical]
      exact ⟨rfl, hstored.imp fun cache hcache => hcache.mono (List.subset_append_right _ _)⟩
  | ok full =>
      rw [settings.analyze_of_canonical hcanonical, settings.sources_of_canonical hcanonical]
      exact settings.stored_analyzeAt hstored (fs.fullName_ne_empty root) moment

end Settings

/-! ## Histories -/

/-- A project is edited and analysed any number of times, starting without a folder for its cache.
An edit changes anything but what is in that folder, unless it takes the folder away.  The contents
of the sources that were there in each run are listed. -/
inductive History (root : String) : List (List UInt8) → FileSystem → Prop where
  | start {fs : FileSystem} (h : fs.tree.kindAt? (fs.cachePlace root) ≠ some .folder) :
      History root [] fs
  | edit {seen : List (List UInt8)} {fs other : FileSystem} (h : History root seen fs)
      (hworkingFolder : other.workingFolder = fs.workingFolder)
      (hcache : (∀ rest, other.tree.kindAt? (fs.cachePlace root ++ rest) =
          fs.tree.kindAt? (fs.cachePlace root ++ rest)) ∨
        other.tree.kindAt? (fs.cachePlace root) ≠ some .folder) :
      History root seen other
  | run {seen : List (List UInt8)} {fs : FileSystem} (h : History root seen fs)
      (settings : Settings) (moment : Moment) :
      History root (settings.sources root fs ++ seen) (settings.analyze root moment fs).2

/-- Writing a file outside of the folder of the cache is an edit. -/
theorem History.put {root : String} {seen : List (List UInt8)} {fs : FileSystem}
    (h : History root seen fs) {folder : List Name} {name : Name}
    (hfolder : fs.tree.kindAt? folder = some .folder)
    (hname : ∀ rest, ¬ folder ++ [name] <+: fs.cachePlace root ++ rest) (content : List UInt8) :
    History root seen { fs with tree := fs.tree.put (folder ++ [name]) (.file content) } :=
  .edit h rfl (.inl fun rest => Tree.kindAt?_put_of_not_prefix hfolder _ (hname rest))

/-- Where the cache has no folder, no cache is stored. -/
theorem Cache.stored_of_no_folder {root : String} {holds : Cache → Prop} {fs : FileSystem}
    (h : fs.tree.kindAt? (fs.placeOf (folderOf root)) ≠ some .folder) : Stored root holds fs := by
  intro kind hkind
  exact absurd (Tree.kindAt?_eq_folder_of_append (by rw [hkind]; rfl)) h

/-- All along a history, the cache is faithful to what was read so far. -/
theorem History.stored {root : String} {seen : List (List UInt8)} {fs : FileSystem}
    (h : History root seen fs) :
    Cache.Stored (fs.fullName root) (Cache.IsFaithful seen) fs := by
  induction h with
  | start hnone => exact Cache.stored_of_no_folder hnone
  | @edit seen fs other _ hworkingFolder hcache ih =>
      have hplace := FileSystem.placeOf_eq_of_workingFolder hworkingFolder
      rw [FileSystem.fullName_eq_of_workingFolder hworkingFolder]
      rcases hcache with hsame | hnone
      · intro kind hkind
        rw [hplace] at hkind
        exact ih kind ((hsame [.ofText Cache.fileName]).symm.trans hkind)
      · refine Cache.stored_of_no_folder ?_
        rw [hplace]
        exact hnone
  | @run seen fs _ settings moment ih =>
      obtain ⟨hworkingFolder, hstored⟩ := settings.stored_analyze ih moment
      rw [FileSystem.fullName_eq_of_workingFolder hworkingFolder]
      exact hstored

/-- After any history, a run gives the same result with the cache as without it, provided that
digests tell the sources apart and that no entry is looked for in the folder of the cache. -/
theorem Settings.analyze_withoutHits_eq {root : String} {seen : List (List UInt8)} {fs : FileSystem}
    (history : History root seen fs) (settings : Settings) (moment : Moment)
    (hdigest : Digest.TellsApart (settings.sources root fs ++ seen))
    (htried : settings.entries = [] → ∀ path ∈ Manifest.tried (fs.fullName root) fs,
      ¬ fs.LeadsThrough (fs.cachePlace root) path) :
    ({ settings with useCache := true }.analyze root moment fs).1.map Analysis.withoutHits =
      ({ settings with useCache := false }.analyze root moment fs).1.map Analysis.withoutHits := by
  cases hcanonical : fs.canonical root with
  | error error =>
      rw [analyze_of_error { settings with useCache := true } hcanonical,
        analyze_of_error { settings with useCache := false } hcanonical]
  | ok full =>
      rw [settings.sources_of_canonical hcanonical] at hdigest
      rw [analyze_of_canonical { settings with useCache := true } hcanonical,
        analyze_of_canonical { settings with useCache := false } hcanonical]
      exact settings.analyzeAt_withoutHits_eq history.stored (fs.fullName_ne_empty root) moment
        hdigest
        htried

/-- What a first run does, with a root that is given in full and a cache that is not too large. -/
theorem Settings.analyze_start (settings : Settings) (root : String) (files : List FilePath)
    (moment : Moment) (fs : FileSystem) (huse : settings.useCache = true)
    (hstart : fs.tree.kindAt? (fs.cachePlace root) ≠ some .folder)
    (hroot : (fs.canonical root).toOption = some root)
    (hfiles : (settings.scan.files fs root).toOption = some files)
    (hmade : (Cache.makeFolder root fs).1.toOption.isSome = true)
    (hsize : ((((settings.extraction root files fs).cache moment.seconds).encode.write
      .indented 0).flatMap Text.encodeChar).length ≤ Cache.sizeLimit) :
    settings.analyze root moment fs =
      (settings.judge root files (settings.extraction root files fs)
        (settings.saved root files moment fs), settings.saved root files moment fs) ∧
    settings.saved root files moment fs =
      (Cache.replace root moment
        (Text.encode ((settings.extraction root files fs).cache moment.seconds).text)
        (Cache.makeFolder root fs).2).2 := by
  have hcanonical := eq_ok_of_toOption hroot
  have hload := (Cache.load_of_faithful (History.start hstart).stored).1
  rw [← FileSystem.eq_fullName_of_canonical hcanonical] at hload
  constructor
  · rw [settings.analyze_of_canonical hcanonical, ← FileSystem.eq_fullName_of_canonical hcanonical,
      settings.analyzeAt_of_files (eq_ok_of_toOption hfiles) hload]
  · rw [saved, if_pos huse, Cache.save_of_small hmade hsize]

/-- A project with an entry that does not use the library yet. -/
def growing : FileSystem where
  tree := .folder [("p", .folder
    [("index.js", .file []), ("lib.js", .file (Text.encode "export const x = 1;")),
      ("package.json", .file (Text.encode "\x7b\"main\":\"./index.js\"\x7d"))])]

/-- The sources of the project. -/
def growingFiles : List FilePath :=
  [⟨"/p", ["index.js"]⟩, ⟨"/p", ["lib.js"]⟩]

/-- What a first run leaves. -/
def grown : FileSystem :=
  (Cache.replace "/p" {} (Text.encode ((Settings.extraction {} "/p" growingFiles
    growing).cache (Moment.seconds {})).text) (Cache.makeFolder "/p" growing).2).2

theorem start_growing : growing.tree.kindAt? (growing.cachePlace "/p") ≠ some .folder := by
  decide +kernel

theorem analyze_growing : (Settings.analyze {} "/p" {} growing).2 = grown := by
  obtain ⟨hanalyze, hsaved⟩ := Settings.analyze_start {} "/p" growingFiles {} growing rfl
    start_growing (by decide +kernel) (by decide +kernel) (by decide +kernel) (by decide +kernel)
  unfold grown
  rw [hanalyze, ← hsaved]

/-- The project after a first run, with an entry that uses the library. -/
def regrown : FileSystem :=
  { grown with
    tree := grown.tree.put ([Name.ofText "p"] ++ [Name.ofText "index.js"])
      (.file (Text.encode "import \x7b x \x7d from './lib.js';")) }

theorem history_regrown : History "/p" (Settings.sources {} "/p" growing ++ []) regrown := by
  have hrun : History "/p" (Settings.sources {} "/p" growing ++ []) grown := by
    rw [← analyze_growing]
    exact .run (.start start_growing) {} {}
  have hplace : grown.cachePlace "/p" = ["p", ".deadexport"] := by decide +kernel
  have hfolder : grown.tree.kindAt? ["p"] = some .folder := by decide +kernel
  unfold regrown
  refine hrun.put hfolder (fun rest => ?_) _
  rw [hplace]
  simp [List.cons_prefix_cons]

theorem Settings.analyze_withoutHits_eq_regrown :
    History "/p" (sources {} "/p" growing ++ []) regrown ∧
      Digest.TellsApart (sources { ignoreCase := true } "/p" regrown ++
        (sources {} "/p" growing ++ [])) ∧
      (∀ path ∈ Manifest.tried (regrown.fullName "/p") regrown,
        ¬ regrown.LeadsThrough (regrown.cachePlace "/p") path) ∧
      (analyze { ignoreCase := true, useCache := true } "/p" {} regrown).1.map
          Analysis.withoutHits =
        (analyze { ignoreCase := true, useCache := false } "/p" {} regrown).1.map
          Analysis.withoutHits := by
  have hdigest : Digest.TellsApart (sources { ignoreCase := true } "/p" regrown ++
      (sources {} "/p" growing ++ [])) := by
    decide +kernel
  have htried : ∀ path ∈ Manifest.tried (regrown.fullName "/p") regrown,
      ¬ regrown.LeadsThrough (regrown.cachePlace "/p") path := by
    decide +kernel
  exact ⟨history_regrown, hdigest, htried,
    analyze_withoutHits_eq history_regrown { ignoreCase := true } {} hdigest fun _ => htried⟩

/-! ## A manifest that names the cache -/

/-- A project whose manifest names the file of its cache. -/
def selfNaming : FileSystem where
  tree := .folder [("p", .folder
    [("index.js", .file []),
      ("package.json", .file (Text.encode "\x7b\"main\":\"./.deadexport/cache.json\"\x7d"))])]

/-- The modules that are live according to a result. -/
def liveModules? (result : Except Failure Analysis) : Option (List ModuleId) :=
  result.toOption.map fun analysis => analysis.live.elements

theorem liveModules?_withoutHits (result : Except Failure Analysis) :
    liveModules? (result.map Analysis.withoutHits) = liveModules? result := by
  cases result <;> rfl

/-- In a first run with the cache its file is the entry, so that no module is live; without the
cache the index file is the entry. -/
theorem Settings.analyze_withoutHits_ne_selfNaming :
    History "/p" [] selfNaming ∧ Digest.TellsApart (sources {} "/p" selfNaming ++ []) ∧
      (analyze { useCache := true } "/p" {} selfNaming).1.map Analysis.withoutHits ≠
        (analyze { useCache := false } "/p" {} selfNaming).1.map Analysis.withoutHits := by
  have hstart : selfNaming.tree.kindAt? (selfNaming.cachePlace "/p") ≠ some .folder := by
    decide +kernel
  have hwith : liveModules? (analyze { useCache := true } "/p" {} selfNaming).1 = some [] := by
    obtain ⟨hanalyze, hsaved⟩ := analyze_start { useCache := true } "/p" [⟨"/p", ["index.js"]⟩] {}
      selfNaming rfl hstart (by decide +kernel) (by decide +kernel) (by decide +kernel)
      (by decide +kernel)
    rw [hanalyze, hsaved]
    decide +kernel
  have hwithout : liveModules? (analyze { useCache := false } "/p" {} selfNaming).1 =
      some [⟨"/p/index.js"⟩] := by
    decide +kernel
  refine ⟨.start hstart, by decide +kernel, fun heq => ?_⟩
  have hlive := congrArg liveModules? heq
  rw [liveModules?_withoutHits, liveModules?_withoutHits, hwith, hwithout] at hlive
  cases hlive

end LiveExports

import LiveExports.Cache.Store
import LiveExports.Digest
import LiveExports.Graph.Build
import LiveExports.Source.Reading

/-!
# Reading sources with a cache

The declarations of a file are taken from the cache if it holds its module with the digest of the
file's content; otherwise they are read from the content, with a replacement character for what is
not text.  Every file is read on its own: one that cannot be read becomes a failure, and the others
do not notice.
-/

namespace LiveExports

/-- What comes of a file: its module with its declarations, or a fault. -/
structure Reading where
  module : ModuleId
  outcome : Except Fault CachedModule
  cached : Bool := false

/-- Reads a file. -/
def Reading.ofFile (fs : FileSystem) (cache : Option Cache) (ignoreCase : Bool) (file : FilePath) :
    Reading :=
  let module := ModuleId.ofPath file.text ignoreCase
  match fs.readFile file with
  | .error error => { module, outcome := .error (.io file.text error.message) }
  | .ok content =>
    let digest := Digest.ofBytes content
    let known := (cache.bind fun cache => cache.modules.find? module.text).filter
      (·.digest == digest)
    match known with
    | some entry => { module, outcome := .ok entry, cached := true }
    | none =>
      { module
        outcome := (Declarations.ofSource module (Text.decodeLossy content)).map
          fun declarations => ⟨digest, declarations⟩ }

/-- What comes of a list of files. -/
structure Extraction where
  readings : List Reading

namespace Extraction

/-- Reads files one by one. -/
def ofFiles (fs : FileSystem) (cache : Option Cache) (ignoreCase : Bool) (files : List FilePath) :
    Extraction :=
  ⟨files.map (Reading.ofFile fs cache ignoreCase)⟩

/-- The modules that were read, in order. -/
def entries (extraction : Extraction) : List (ModuleId × CachedModule) :=
  extraction.readings.filterMap fun reading =>
    reading.outcome.toOption.map (reading.module, ·)

def submissions (extraction : Extraction) : List Submission :=
  extraction.entries.map fun (module, entry) => ⟨module, entry.declarations⟩

/-- The modules that were not read, in order. -/
def failures (extraction : Extraction) : List (ModuleId × Fault) :=
  extraction.readings.filterMap fun reading =>
    match reading.outcome with
    | .ok _ => none
    | .error fault => some (reading.module, fault)

/-- How many modules were taken from the cache? -/
def hits (extraction : Extraction) : Nat :=
  extraction.readings.countP (·.cached)

/-- The cache for the next run. -/
def cache (extraction : Extraction) (time : Nat) : Cache where
  stamp := Stamp.current time
  modules := Table.ofList (extraction.entries.map fun (module, entry) => (module.text, entry))

end Extraction

/-- The digest of a file. -/
def FileSystem.digest (fs : FileSystem) (path : String) : Except Failure String :=
  ((fs.read path).mapError (Failure.ofSystem s!"Failed to read {path} for hashing")).map
    Digest.ofBytes

end LiveExports

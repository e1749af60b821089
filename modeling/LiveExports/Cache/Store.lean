import LiveExports.Cache.Basic
import LiveExports.Failure

/-!
# Caches in the file system

The cache of a project lies in a folder of its own below the root.  A new cache is written beside
the old one and then takes its name, so that the old one stands until the new one is complete.
-/

namespace LiveExports

/-- When a run takes place, and in which process. -/
structure Moment where
  nanoseconds : Nat := 0
  process : Nat := 0

/-- Whole seconds. -/
def Moment.seconds (moment : Moment) : Nat :=
  moment.nanoseconds / 1000000000

namespace Cache

def folderName : String := ".deadexport"

def fileName : String := "cache.json"

/-- The folder of the cache of a project. -/
def folderOf (root : String) : String :=
  Path.below root folderName

/-- The file of the cache of a project. -/
def pathOf (root : String) : String :=
  Path.below (folderOf root) fileName

/-- Caches with more bytes than this are not kept. -/
def sizeLimit : Nat := 50000000

/-! ## Loading -/

/-- The cache of a project, if there is one that this release can use.  One that it cannot use is
removed; one that cannot be read is left alone. -/
def load (root : String) (fs : FileSystem) : Option Cache × FileSystem :=
  match fs.readText (pathOf root) with
  | .error _ => (none, fs)
  | .ok text =>
    match parse? text with
    | none => (none, fs)
    | some cache =>
      if cache.stamp.isCompatible then (some cache, fs)
      else (none, (fs.removeFile (pathOf root)).toOption.getD fs)

/-! ## Saving -/

/-- The file that a cache is written to before it takes its place. -/
def draftOf (root : String) (moment : Moment) : String :=
  Path.below (folderOf root) s!"{fileName}.{moment.process}.{moment.nanoseconds}.tmp"

/-- Makes the folder of the cache unless something is there. -/
def makeFolder (root : String) (fs : FileSystem) : Except Failure Unit × FileSystem :=
  let folder := folderOf root
  if fs.has folder then (.ok (), fs)
  else
    let (result, fs) := fs.makeFolders folder
    (result.mapError fun error => .ofFault (.io folder error.message), fs)

/-- Writes a text beside the cache and gives it the name of the cache.  A text that cannot take its
place is removed again. -/
def replace (root : String) (moment : Moment) (content : List UInt8) (fs : FileSystem) :
    Except Failure Unit × FileSystem :=
  let path := pathOf root
  let draft := draftOf root moment
  match fs.write draft content with
  | .error error => (.error (.ofSystem s!"Failed to write temp cache file: {draft}" error), fs)
  | .ok written =>
    match written.rename draft path with
    | .error error =>
      (.error (.ofSystem s!"Failed to rename cache file to: {path}" error),
        (written.removeFile draft).toOption.getD written)
    | .ok renamed => (.ok (), renamed)

/-- Saves the cache of a project.  A cache above the limit is not kept, and neither is the one it
would replace. -/
def save (root : String) (moment : Moment) (cache : Cache) (fs : FileSystem) :
    Except Failure Unit × FileSystem :=
  match makeFolder root fs with
  | (.error failure, fs) => (.error failure, fs)
  | (.ok _, fs) =>
    let content := Text.encode cache.text
    if sizeLimit < content.length then
      (.ok (), (fs.removeFile (pathOf root)).toOption.getD fs)
    else replace root moment content fs

end Cache

end LiveExports

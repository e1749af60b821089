import LiveExports.CommandLine.Run
import LiveExports.Files.Change

/-!
# The command

The command takes a picture of the project and of the folders that it writes to, runs on the
picture, and carries out the changes.  Of folders that a scan does not enter only the names of the
files are taken.  Names are taken as the texts that they are read as.
-/

namespace LiveExports

/-- The names on the way to an absolute path. -/
def placeOf (path : String) : List Name :=
  (Path.components path.toList).map .ofChars

def pathOfPlace (place : List Name) : String :=
  "/" ++ "/".intercalate (place.map (·.shown))

/-- The tree at a path.  Links are passed over; the contents of files are read where `deep` says
so. -/
partial def picture (path : String) (deep : Bool) : IO Tree := do
  let here ← IO.FS.realPath path
  if ← here.isDir then
    let mut children := []
    for entry in ← here.readDir do
      let kind := (← entry.path.symlinkMetadata).type
      if kind == .dir || kind == .file then
        let known := excludedFolders.contains entry.fileName
        let child ← picture entry.path.toString
          ((deep && !known) || entry.fileName == Cache.folderName)
        children := (.ofText entry.fileName, child) :: children
    return .folder children
  else if deep then return .file (← IO.FS.readBinFile here).toList
  else return .file []

/-- The tree at a place, without what lies in its folders. -/
def glance (place : List Name) : IO Tree := do
  let here ← IO.FS.realPath (pathOfPlace place)
  if ← here.isDir then
    let children ← (← here.readDir).toList.mapM fun entry => do
      return (.ofText entry.fileName, if ← entry.path.isDir then Tree.folder [] else Tree.file [])
    return .folder children
  else return .file []

/-- Adds what lies on the way from a place along names, as far as there are folders. -/
def glanceAlong (tree : Tree) (place : List Name) : List Name → IO Tree
  | [] => return tree.put place (← glance place)
  | name :: names => do
    let tree := tree.put place (← glance place)
    match tree.at? (place ++ [name]) with
    | some (.folder _) => glanceAlong tree (place ++ [name]) names
    | _ => return tree

/-- The file system as far as a run can see it. -/
def pictureFor (arguments : Arguments) : IO FileSystem := do
  let workingFolder := placeOf (← IO.currentDir).toString
  let output := placeOf (arguments.dotFile.getD "")
  let names := workingFolder.map (·.shown)
  let surroundings ← glanceAlong (.folder []) workingFolder output
  let path := arguments.path.getD "."
  try
    let place := placeOf (← IO.FS.realPath path).toString
    return { tree := surroundings.put place (← picture path true), workingFolder := names }
  catch _ => return { tree := surroundings, workingFolder := names }

/-- Writes a file beside its place and then gives it its name. -/
def replaceFile (path : String) (content : List UInt8) : IO Unit := do
  let draft := path ++ ".tmp"
  IO.FS.writeBinFile draft ⟨content.toArray⟩
  IO.FS.rename draft path

/-- Carries out a change. -/
def Change.carryOut : Change → IO Unit
  | .makeFolder place => IO.FS.createDirAll (pathOfPlace place)
  | .writeFile place content => replaceFile (pathOfPlace place) content
  | .remove place => IO.FS.removeFile (pathOfPlace place)

/-- The time at which a new file is made. -/
def currentMoment : IO Moment := do
  let (_, path) ← IO.FS.createTempFile
  let time := (← path.metadata).modified
  IO.FS.removeFile path
  return {
    nanoseconds := time.sec.toNat * 1000000000 + time.nsec.toNat
    process := ← IO.rand 1 65535 }

end LiveExports

open LiveExports in
def main (arguments : List String) : IO UInt32 := do
  let before ← pictureFor ((Arguments.read? arguments).getD {})
  let outcome := runCommandLine arguments (← currentMoment) before
  for change in Change.between [] before.tree outcome.files.tree do
    change.carryOut
  IO.print outcome.output
  IO.eprint outcome.notes
  return UInt32.ofNat outcome.code

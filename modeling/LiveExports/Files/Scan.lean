import LiveExports.Failure
import LiveExports.Ordered.SortedSet
import LiveExports.Resolution

/-!
# Finding the sources of a project

A scan walks through the folders below a path, except that it does not enter folders with certain
names, and takes the files whose names end in one of the extensions and have something before it.
The names of the folder itself and of the files do not count for entering.  A name that is no text
is neither one that keeps the scan out nor the name of a source.  Sources are listed by the names
that lead to them.
-/

namespace LiveExports

/-! ## Names of sources -/

/-- Does the name end in one of the extensions, with at least one character before it? -/
def isSourceName (extensions : List String) (name : String) : Bool :=
  extensions.any fun ext =>
    ext.toList.isSuffixOf name.toList && decide (ext.toList.length < name.toList.length)

/-- Does the path end in the name of a source? -/
def isSourcePath (extensions : List String) (path : FilePath) : Bool :=
  (path.fileName?.bind Name.text?).any (isSourceName extensions)

/-! ## Scans -/

/-- Folders that are never entered. -/
def excludedFolders : List String :=
  ["node_modules", ".git", "dist", "build", "coverage", ".deadexport"]

/-- What a scan looks for. -/
structure Scan where
  extensions : List String := defaultExtensions
  excluded : List String := []

namespace Scan

/-- Does the scan enter a folder of this name? -/
def enters (scan : Scan) (name : Name) : Bool :=
  !name.text?.any (excludedFolders ++ scan.excluded).contains

mutual

/-- What a walk comes to, beginning with the tree itself, and the names that lead there. -/
def walk (scan : Scan) : Tree → List (List Name × Tree)
  | .file content => [([], .file content)]
  | .folder children => ([], .folder children) :: walkChildren scan children

/-- What a walk comes to among children. -/
def walkChildren (scan : Scan) : List (Name × Tree) → List (List Name × Tree)
  | [] => []
  | (name, child) :: rest =>
    (if child.isFile || scan.enters name then
      (walk scan child).map fun found => (name :: found.1, found.2)
    else []) ++ walkChildren scan rest

end

/-- A walk from `root` that cannot go on at a path. -/
def failure (root path : String) (error : SystemError) : Failure where
  context :=
    [s!"Failed to gather source files from {root}",
      s!"IO error for operation on {path}: {error.message}"]
  cause := .system error

/-- Is this a folder that cannot be opened, since its path is too long? -/
def isBarred (root : String) (found : List Name × Tree) : Bool :=
  found.2.isFolder && (FilePath.mk root found.1).isTooLong

/-- Is this a source? -/
def takes (scan : Scan) (root : String) (found : List Name × Tree) : Bool :=
  found.2.isFile && isSourcePath scan.extensions ⟨root, found.1⟩

/-- The sources among what a walk comes to, in order.  A folder that cannot be opened ends the
walk. -/
def collect (scan : Scan) (root : String) (found : List (List Name × Tree)) :
    Except Failure (List FilePath) :=
  match found.find? (isBarred root) with
  | some barred => .error (failure root (FilePath.mk root barred.1).text .nameTooLong)
  | none =>
    .ok ((SortedSet.ofList ((found.filter (scan.takes root)).map (·.1))).elements.map
      (FilePath.mk root))

/-- The sources at or below a path. -/
def files (scan : Scan) (fs : FileSystem) (root : String) : Except Failure (List FilePath) := do
  let place ← (fs.locate root).mapError (failure root root)
  scan.collect root (((fs.tree.at? place).map scan.walk).getD [])

end Scan

end LiveExports

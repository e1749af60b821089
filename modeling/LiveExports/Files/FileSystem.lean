import LiveExports.Files.Tree
import LiveExports.Path
import LiveExports.Text.Utf8

/-!
# A file system

A file tree together with a working folder, read and written by paths.  A path is followed from the
root, or from the working folder if it is relative, through folders that exist: unlike cleaning,
following `..` first needs the folder that it leaves.  Names and paths are limited in length.  Every
operation is a function; one that writes gives the file system afterwards.

Paths that are given are texts, and so is the working folder; what is found below a path has a name
of its own, which need not be a text.
-/

namespace LiveExports

/-- Why the file system refuses an operation. -/
inductive SystemError where
  | notFound
  | alreadyThere
  | notFolder
  | isFolder
  | nameTooLong
  | nullInName
  | invalidText
deriving DecidableEq, Repr

def SystemError.message : SystemError → String
  | notFound => "No such file or directory (os error 2)"
  | alreadyThere => "File exists (os error 17)"
  | notFolder => "Not a directory (os error 20)"
  | isFolder => "Is a directory (os error 21)"
  | nameTooLong => "File name too long (os error 36)"
  | nullInName => "file name contained an unexpected NUL byte"
  | invalidText => "stream did not contain valid UTF-8"

/-- The largest number of bytes in a name. -/
def nameLimit : Nat := 255

/-- The largest number of bytes in a path. -/
def pathLimit : Nat := 4095

/-- The path of something that was found below a path: the names that lead to it are not all
texts. -/
structure FilePath where
  folder : String
  names : List Name := []
deriving DecidableEq, Repr

namespace FilePath

instance : Coe String FilePath :=
  ⟨fun path => { folder := path }⟩

/-- The slash between a folder and a name in it, unless the folder ends in one. -/
def separator (folder : List UInt8) : List UInt8 :=
  if folder = [] ∨ folder.getLast? = some 0x2F then [] else [0x2F]

def bytes (path : FilePath) : List UInt8 :=
  path.names.foldl (fun folder name => folder ++ separator folder ++ name.bytes)
    (Text.encode path.folder)

def isTooLong (path : FilePath) : Bool :=
  pathLimit < path.bytes.length

/-- The name that the path ends in. -/
def fileName? (path : FilePath) : Option Name :=
  path.names.getLast?.or ((Path.fileName? path.folder.toList).map .ofChars)

/-- The path as it is shown. -/
def text (path : FilePath) : String :=
  path.names.foldl (fun folder name => Path.below folder name.shown) path.folder

end FilePath

/-- A file tree, and the folder in it that relative paths start from. -/
structure FileSystem where
  tree : Tree := .folder []
  workingFolder : List String := []

namespace FileSystem

/-! ## Limits -/

def isLongName (name : List Char) : Bool :=
  nameLimit < (Text.encode (String.ofList name)).length

/-- Does the text spell a path? -/
def checkSpelling (path : String) : Except SystemError Unit :=
  if path.toList.contains (Char.ofNat 0) then .error .nullInName
  else if path = "" then .error .notFound
  else .ok ()

/-- Does the text spell a path that is not too long? -/
def checkPath (path : String) : Except SystemError Unit := do
  checkSpelling path
  if (path : FilePath).isTooLong then .error .nameTooLong

/-! ## Following paths -/

/-- Follows segments from a place.  Every segment needs a folder to be followed from. -/
def walk (fs : FileSystem) : List Name → List (List Char) → Except SystemError (List Name)
  | place, [] => .ok place
  | place, segment :: rest =>
    match fs.tree.at? place with
    | some (.folder children) =>
      if segment = [] ∨ segment = ['.'] then walk fs place rest
      else if segment = ['.', '.'] then walk fs place.dropLast rest
      else if isLongName segment then .error .nameTooLong
      else if (children.lookup (.ofChars segment)).isSome then
        walk fs (place ++ [.ofChars segment]) rest
      else .error .notFound
    | some (.file _) => .error .notFolder
    | none => .error .notFound

/-- The place that a path is followed from. -/
def start (fs : FileSystem) (path : String) : List Name :=
  if Path.isAbsolute path.toList then [] else fs.workingFolder.map .ofText

/-- The place of what a path leads to. -/
def locate (fs : FileSystem) (path : String) : Except SystemError (List Name) := do
  checkPath path
  fs.walk (fs.start path) (Path.segments path.toList)

/-- What a path leads to. -/
def lookup? (fs : FileSystem) (path : String) : Option Tree :=
  match fs.locate path with
  | .ok place => fs.tree.at? place
  | .error _ => none

def has (fs : FileSystem) (path : String) : Bool :=
  (fs.lookup? path).isSome

def isFile (fs : FileSystem) (path : String) : Bool :=
  (fs.lookup? path).any Tree.isFile

def isFolder (fs : FileSystem) (path : String) : Bool :=
  (fs.lookup? path).any Tree.isFolder

/-- The absolute path of what a path leads to.  The path is followed name by name, so that its own
length does not matter. -/
def canonical (fs : FileSystem) (path : String) : Except SystemError String := do
  checkSpelling path
  let place ← fs.walk (fs.start path) (Path.segments path.toList)
  return String.ofList ('/' :: Text.join '/' (place.map (·.shown.toList)))

/-! ## Reading -/

/-- The content of the file at a place. -/
def contentAt (fs : FileSystem) (place : List Name) : Except SystemError (List UInt8) :=
  match fs.tree.at? place with
  | some (.file content) => .ok content
  | some (.folder _) => .error .isFolder
  | none => .error .notFound

def read (fs : FileSystem) (path : String) : Except SystemError (List UInt8) := do
  fs.contentAt (← fs.locate path)

def readText (fs : FileSystem) (path : String) : Except SystemError String := do
  match Text.decode? (← fs.read path) with
  | some text => .ok text
  | none => .error .invalidText

/-- Reads a file that was found below a path. -/
def readFile (fs : FileSystem) (file : FilePath) : Except SystemError (List UInt8) := do
  let place ← fs.locate file.folder
  if file.isTooLong then .error .nameTooLong
  else fs.contentAt (place ++ file.names)

/-- The names in a folder. -/
def names (fs : FileSystem) (path : String) : List Name :=
  match fs.lookup? path with
  | some (.folder children) => children.map (·.1)
  | _ => []

/-! ## Writing -/

/-- The folder that a path leads to without its last segment, and that segment.  Slashes at the end
of the path are passed over. -/
def lastStep (fs : FileSystem) (path : String) : Except SystemError (List Name × List Char) := do
  checkPath path
  let named := ((Path.segments path.toList).reverse.dropWhile (·.isEmpty)).reverse
  let folder ← fs.walk (fs.start path) named.dropLast
  match fs.tree.at? folder with
  | some (.folder _) => .ok (folder, named.getLast?.getD [])
  | some (.file _) => .error .notFolder
  | none => .error .notFound

/-- Does the segment lead to a folder that is there already? -/
def leadsToFolder (segment : List Char) : Bool :=
  segment = [] ∨ segment = ['.'] ∨ segment = ['.', '.']

/-- The folder and the name that a path ends in, for a file to be put there.  A path that ends in a
slash asks for a folder. -/
def slot (fs : FileSystem) (path : String) : Except SystemError (List Name × Name) := do
  let (folder, name) ← fs.lastStep path
  if leadsToFolder name ∨ path.toList.getLast? = some '/' then .error .isFolder
  else if isLongName name then .error .nameTooLong
  else .ok (folder, .ofChars name)

/-- Writes a file, over one that is there. -/
def write (fs : FileSystem) (path : String) (content : List UInt8) :
    Except SystemError FileSystem := do
  let (folder, name) ← fs.slot path
  match fs.tree.at? (folder ++ [name]) with
  | some (.folder _) => .error .isFolder
  | _ => .ok { fs with tree := fs.tree.put (folder ++ [name]) (.file content) }

/-- Makes a folder in one that is there. -/
def makeFolder (fs : FileSystem) (path : String) : Except SystemError FileSystem := do
  let (folder, name) ← fs.lastStep path
  let place := folder ++ [.ofChars name]
  if leadsToFolder name then .error .alreadyThere
  else if isLongName name then .error .nameTooLong
  else if (fs.tree.at? place).isSome then .error .alreadyThere
  else .ok { fs with tree := fs.tree.put place (.folder []) }

/-- Makes a folder unless it is there.  What the path lies in is given from the inside out and made
first where it is missing.  On failure the folders made so far stay. -/
def makeFoldersAlong (fs : FileSystem) : List String → Except SystemError Unit × FileSystem
  | [] => (.ok (), fs)
  | path :: above =>
    match fs.makeFolder path with
    | .ok made => (.ok (), made)
    | .error .notFound =>
      match makeFoldersAlong fs above with
      | (.error error, made) => (.error error, made)
      | (.ok _, made) =>
        match made.makeFolder path with
        | .ok complete => (.ok (), complete)
        | .error error => (if made.isFolder path then .ok () else .error error, made)
    | .error error => (if fs.isFolder path then .ok () else .error error, fs)

/-- Makes a folder and the folders that lead to it. -/
def makeFolders (fs : FileSystem) (path : String) : Except SystemError Unit × FileSystem :=
  fs.makeFoldersAlong ((Path.ancestors path.toList).map String.ofList)

/-- Removes a file. -/
def removeFile (fs : FileSystem) (path : String) : Except SystemError FileSystem := do
  let place ← fs.locate path
  match fs.tree.at? place with
  | some (.file _) => .ok { fs with tree := fs.tree.erase place }
  | some (.folder _) => .error .isFolder
  | none => .error .notFound

/-- Gives a file a new path, over a file that is there. -/
def rename (fs : FileSystem) (old new : String) : Except SystemError FileSystem := do
  let content ← fs.read old
  let written ← fs.write new content
  written.removeFile old

end FileSystem

end LiveExports

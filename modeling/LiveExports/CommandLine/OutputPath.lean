import LiveExports.ModuleId

/-!
# Output paths

A file is written only below the working folder: its path has to be relative and must not leave any
folder, with either kind of slash.
-/

namespace LiveExports

/-- Why a path is no output path. -/
inductive OutputPathError where
  | nullCharacter
  | absolute (path : String)
  | leavesFolder (path : String)
  | traversal (path : String)
deriving DecidableEq, Repr

def OutputPathError.message : OutputPathError → String
  | nullCharacter => "Output path contains null bytes"
  | absolute path => s!"Output path must be relative, not absolute: {path}"
  | leavesFolder path => s!"Path traversal (..) not allowed in output paths: {path}"
  | traversal path => s!"Path traversal attempt detected: {path}"

/-- What is wrong with an output path, if anything. -/
def outputPathError? (path : String) : Option OutputPathError :=
  let chars := path.toList
  let forward := Path.forward chars
  if chars.contains (Char.ofNat 0) then some .nullCharacter
  else if Path.isAbsolute chars then some (.absolute path)
  else if (Path.components chars).contains ['.', '.'] then some (.leavesFolder path)
  else if Text.occursIn ['/', '.', '.', '/'] forward || ['.', '.', '/'].isPrefixOf forward then
    some (.traversal path)
  else none

/-- The path to write to: the given one as it stands, unless something is wrong with it. -/
def outputPath (path : String) : Except OutputPathError String :=
  match outputPathError? path with
  | some error => .error error
  | none => .ok path

end LiveExports

import LiveExports.Fault

/-!
# Resolution of specifiers

A specifier written in a module is resolved by trying candidates in a fixed order: the path itself
if it carries an extension, the path with each extension, and the index file of the folder with each
extension.  The first candidate that is a file wins.  A specifier that ends in a slash can only name
a folder.
-/

namespace LiveExports

/-- The extensions tried where none are configured. -/
def defaultExtensions : List String :=
  [".js", ".mjs", ".cjs", ".jsx", ".ts", ".tsx", ".d.ts"]

/-- Does the specifier name an installed package rather than a file of the project? -/
def isBareSpecifier (specifier : String) : Bool :=
  match specifier.toList with
  | '.' :: _ => false
  | '/' :: _ => false
  | _ => true

/-! ## Known files -/

/-- A fixed set of files, held by their canonical spelling. -/
structure KnownFiles where
  files : List String
  ignoreCase : Bool

namespace KnownFiles

def ofPaths (paths : List String) (ignoreCase : Bool := false) : KnownFiles :=
  ⟨(paths.map fun path => (ModuleId.ofPath path ignoreCase).text).eraseDups, ignoreCase⟩

/-- Is the path, as it is spelled up to case, one of the files? -/
def has (known : KnownFiles) (path : String) : Bool :=
  if known.ignoreCase then known.files.contains (String.ofList (Text.lower path.toList))
  else known.files.contains path

end KnownFiles

/-! ## The resolver -/

/-- What resolution depends on besides the specifier and the module it is written in. -/
structure Resolver where
  isFile : String → Bool
  extensions : List String := defaultExtensions
  ignoreCase : Bool := false

namespace Resolver

/-- The path that a specifier stands for in a module of the given folder, before any extension. -/
def basePath (folder specifier : String) : List Char :=
  let joined := Path.join folder.toList specifier.toList
  let cleaned := Path.forward (Path.clean joined)
  (cleaned.reverse.dropWhile (· == '/')).reverse

/-- The candidates for a base path, in the order in which they are tried. -/
def candidates (extensions : List String) (base : List Char) (folderOnly : Bool) : List String :=
  let stem := String.ofList base
  let files :=
    if folderOnly then []
    else (if Path.hasExtension base then [stem] else []) ++ extensions.map (stem ++ ·)
  files ++ extensions.map (stem ++ "/index" ++ ·)

/-- The candidates for `specifier` as written in `source`; a blank specifier has none. -/
def candidatesFor (resolver : Resolver) (source : ModuleId) (specifier : String) : List String :=
  if (Text.trim specifier.toList).isEmpty then []
  else
    candidates resolver.extensions (basePath source.folder specifier)
      (specifier.toList.getLast? == some '/')

/-- The module that `specifier` denotes in `source`. -/
def resolve (resolver : Resolver) (source : ModuleId) (specifier : String) :
    Except Fault ModuleId :=
  let tried := resolver.candidatesFor source specifier
  match tried.find? resolver.isFile with
  | some path => .ok (ModuleId.ofPath path resolver.ignoreCase)
  | none => .error (.unresolvedPath source specifier tried)

end Resolver

end LiveExports

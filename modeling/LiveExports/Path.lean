import LiveExports.Text.Pieces

/-!
# Paths

A path is a text of segments between slashes.  *Cleaning* follows the segments one by one: an empty
segment and `.` stay where they are, `..` goes back one segment.  Above the root there is nothing to
go back to; a relative path keeps the `..` that lead out of it.

The other functions read a path as it stands, without cleaning it: an empty segment and `.` are
passed over, except a `.` that opens a relative path.
-/

namespace LiveExports.Path

/-- The segments between the slashes of a path, empty ones included. -/
def segments (path : List Char) : List (List Char) :=
  Text.split '/' path

def isAbsolute (path : List Char) : Bool :=
  path.head? == some '/'

/-! ## Cleaning -/

/-- Follows one segment from `position`, a list of segments with the last one first. -/
def follow (absolute : Bool) (position : List (List Char)) (segment : List Char) :
    List (List Char) :=
  if segment = [] ∨ segment = ['.'] then position
  else if segment = ['.', '.'] then
    match position with
    | [] => if absolute then [] else [segment]
    | last :: above => if last = ['.', '.'] then segment :: position else above
  else segment :: position

/-- The segments that are left when all of them are followed from the start. -/
def reduce (absolute : Bool) (segments : List (List Char)) : List (List Char) :=
  (segments.foldl (follow absolute) []).reverse

/-- The shortest path with the same meaning; an empty one is written `.`. -/
def clean (path : List Char) : List Char :=
  let body := Text.join '/' (reduce (isAbsolute path) (segments path))
  if isAbsolute path then '/' :: body
  else if body = [] then ['.']
  else body

/-! ## Folders and names -/

/-- `path` as seen from `folder`. -/
def join (folder path : List Char) : List Char :=
  if isAbsolute path then path
  else if folder = [] ∨ folder.getLast? = some '/' then folder ++ path
  else folder ++ '/' :: path

/-- The path of a name in a folder. -/
def below (folder name : String) : String :=
  String.ofList (join folder.toList name.toList)

/-- The segments that name something. -/
def components (path : List Char) : List (List Char) :=
  match segments path with
  | [] => []
  | first :: others =>
    (if first = [] then [] else [first]) ++ others.filter fun s => s ≠ [] ∧ s ≠ ['.']

/-- The name at the end of a path, if it ends in one. -/
def fileName? (path : List Char) : Option (List Char) :=
  (components path).getLast?.filter fun name => name ≠ ['.'] ∧ name ≠ ['.', '.']

/-- Does the name at the end of the path hold a full stop after its first character? -/
def hasExtension (path : List Char) : Bool :=
  match fileName? path with
  | none => false
  | some name => name.tail.contains '.'

/-- Passes over the segments at the end of a path that name nothing; the last segment stands
first. -/
def dropUnnamed (absolute : Bool) : List (List Char) → List (List Char)
  | [] => []
  | last :: above =>
    if last = [] ∨ (last = ['.'] ∧ (absolute ∨ above ≠ [])) then dropUnnamed absolute above
    else last :: above

/-- The path without its last component, if it has one. -/
def parent? (path : List Char) : Option (List Char) :=
  let absolute := isAbsolute path
  let body := if absolute then path.tail else path
  match dropUnnamed absolute (segments body).reverse with
  | [] => none
  | _ :: above =>
    let folder := Text.join '/' (dropUnnamed absolute above).reverse
    some (if absolute then '/' :: folder else folder)

/-- A path and at most `bound` paths that it lies in, from the inside out. -/
def ancestorsUpTo : Nat → List Char → List (List Char)
  | 0, path => [path]
  | bound + 1, path => path :: ((parent? path).map (ancestorsUpTo bound)).getD []

/-- A path and the paths that it lies in, from the inside out; the working folder is not among
them. -/
def ancestors (path : List Char) : List (List Char) :=
  (ancestorsUpTo path.length path).filter (· ≠ [])

end LiveExports.Path

import LiveExports.Files.Tree

/-!
# Changes between file trees

What has to be done to make one file tree into another, step by step: folders are made before what
lies in them is written.
-/

namespace LiveExports

/-- A step from one tree to another, at a place. -/
inductive Change where
  | makeFolder (place : List Name)
  | writeFile (place : List Name) (content : List UInt8)
  | remove (place : List Name)

namespace Change

mutual

/-- The steps that make a tree at a place where nothing is. -/
def creation (place : List Name) : Tree → List Change
  | .file content => [.writeFile place content]
  | .folder children => .makeFolder place :: creations place children

def creations (place : List Name) : List (Name × Tree) → List Change
  | [] => []
  | (name, child) :: rest => creation (place ++ [name]) child ++ creations place rest

end

mutual

/-- The steps from the tree that was at a place to the tree that is there now. -/
def between (place : List Name) (old : Tree) : Tree → List Change
  | .file content =>
    match old with
    | .file before => if before = content then [] else [.writeFile place content]
    | .folder _ => [.remove place, .writeFile place content]
  | .folder children =>
    match old with
    | .file _ => .remove place :: .makeFolder place :: creations place children
    | .folder before =>
      ((before.filter fun (name, _) => (children.lookup name).isNone).map fun (name, _) =>
        .remove (place ++ [name])) ++ amongChildren place before children

/-- The steps for the children that are there now. -/
def amongChildren (place : List Name) (old : List (Name × Tree)) :
    List (Name × Tree) → List Change
  | [] => []
  | (name, child) :: rest =>
    (match old.lookup name with
      | some before => between (place ++ [name]) before child
      | none => creation (place ++ [name]) child) ++ amongChildren place old rest

end

end Change

end LiveExports

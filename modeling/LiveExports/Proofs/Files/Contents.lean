import LiveExports.Files.Scan
import LiveExports.Proofs.Files.Following

/-!
# Changing the contents of files

Where only the contents of files change, every path leads where it led before, and a scan finds the
same sources.  Reading gives the changed content.
-/

namespace LiveExports

namespace Tree

mutual

/-- The tree with the content of every file changed, depending on its place. -/
def mapContents (change : List Name → List UInt8 → List UInt8) : Tree → Tree
  | .file content => .file (change [] content)
  | .folder children => .folder (mapChildren change children)

/-- The children of a folder with the contents of files changed. -/
def mapChildren (change : List Name → List UInt8 → List UInt8) :
    List (Name × Tree) → List (Name × Tree)
  | [] => []
  | (name, child) :: rest =>
    (name, mapContents (fun place => change (name :: place)) child) :: mapChildren change rest

end

variable (change : List Name → List UInt8 → List UInt8)

theorem lookup_mapChildren (children : List (Name × Tree)) (name : Name) :
    (mapChildren change children).lookup name =
      (children.lookup name).map (mapContents fun place => change (name :: place)) := by
  induction children with
  | nil => simp [mapChildren]
  | cons child rest ih =>
      obtain ⟨other, tree⟩ := child
      by_cases hname : name = other
      · subst hname
        simp [mapChildren]
      · have hne : (name == other) = false := by simpa using hname
        simp [mapChildren, List.lookup_cons, hne, ih]

/-- What stands at a place is what stood there, with its contents changed. -/
theorem at?_mapContents (tree : Tree) (place : List Name) :
    (tree.mapContents change).at? place =
      (tree.at? place).map (mapContents fun rest => change (place ++ rest)) := by
  induction place generalizing tree change with
  | nil => simp [at?]
  | cons name place ih =>
      cases tree with
      | file content => simp [mapContents, at?]
      | folder children =>
          simp only [mapContents, at?, lookup_mapChildren]
          cases children.lookup name with
          | none => rfl
          | some child => simpa using ih _ child

@[simp] theorem isFile_mapContents (tree : Tree) :
    (tree.mapContents change).isFile = tree.isFile := by
  cases tree <;> simp [mapContents, isFile]

@[simp] theorem isFolder_mapContents (tree : Tree) :
    (tree.mapContents change).isFolder = tree.isFolder := by
  cases tree <;> simp [mapContents, isFolder]

end Tree

/-! ## Following and reading -/

namespace FileSystem

/-- The file system with the content of every file changed, depending on its place. -/
def mapContents (fs : FileSystem) (change : List Name → List UInt8 → List UInt8) : FileSystem :=
  { fs with tree := fs.tree.mapContents change }

variable (fs : FileSystem) (change : List Name → List UInt8 → List UInt8)

theorem at?_tree_mapContents (place : List Name) :
    (fs.mapContents change).tree.at? place =
      (fs.tree.at? place).map (Tree.mapContents fun rest => change (place ++ rest)) :=
  fs.tree.at?_mapContents change place

theorem walk_mapContents (place : List Name) (segments : List (List Char)) :
    (fs.mapContents change).walk place segments = fs.walk place segments := by
  induction segments generalizing place with
  | nil => rfl
  | cons segment rest ih =>
      unfold walk
      rw [at?_tree_mapContents]
      cases fs.tree.at? place with
      | none => rfl
      | some tree =>
          cases tree with
          | file content => rfl
          | folder children =>
              simp only [Option.map_some, Tree.mapContents, Tree.lookup_mapChildren,
                Option.isSome_map, ih]

theorem locate_mapContents (path : String) :
    (fs.mapContents change).locate path = fs.locate path := by
  unfold locate
  rw [walk_mapContents]
  rfl

theorem canonical_mapContents (path : String) :
    (fs.mapContents change).canonical path = fs.canonical path := by
  unfold canonical
  rw [walk_mapContents]
  rfl

theorem isFile_mapContents (path : String) :
    (fs.mapContents change).isFile path = fs.isFile path := by
  unfold isFile lookup?
  rw [locate_mapContents]
  cases fs.locate path with
  | error error => rfl
  | ok place =>
      dsimp only
      rw [at?_tree_mapContents]
      cases fs.tree.at? place <;> simp

theorem contentAt_mapContents (place : List Name) :
    (fs.mapContents change).contentAt place = (fs.contentAt place).map (change place) := by
  unfold contentAt
  rw [at?_tree_mapContents]
  cases fs.tree.at? place with
  | none => rfl
  | some tree =>
      cases tree with
      | file content => simp [Tree.mapContents, Except.map]
      | folder children => rfl

/-- Reading gives the changed content. -/
theorem read_mapContents (path : String) :
    (fs.mapContents change).read path = (fs.read path).map (change (fs.placeOf path)) := by
  unfold FileSystem.read
  rw [locate_mapContents]
  cases hlocate : fs.locate path with
  | error error => rfl
  | ok place =>
      rw [← eq_placeOf_of_locate hlocate]
      exact fs.contentAt_mapContents change place

theorem readFile_mapContents (file : FilePath) :
    (fs.mapContents change).readFile file =
      (fs.readFile file).map (change (fs.placeOfFile file)) := by
  unfold readFile placeOfFile
  rw [locate_mapContents]
  cases hlocate : fs.locate file.folder with
  | error error => rfl
  | ok place =>
      rw [← eq_placeOf_of_locate hlocate]
      dsimp only [bind, Except.bind]
      split
      · rfl
      · exact fs.contentAt_mapContents change _

end FileSystem

/-! ## Scanning -/

namespace Scan

variable (scan : Scan)

/-- What a walk found, with the contents of files changed. -/
def changeFound (change : List Name → List UInt8 → List UInt8) (found : List Name × Tree) :
    List Name × Tree :=
  (found.1, found.2.mapContents fun rest => change (found.1 ++ rest))

mutual

/-- A walk comes to the same places, and finds there what it found with changed contents. -/
theorem walk_mapContents (change : List Name → List UInt8 → List UInt8) (tree : Tree) :
    scan.walk (tree.mapContents change) = (scan.walk tree).map (changeFound change) := by
  cases tree with
  | file content => simp [Tree.mapContents, walk, changeFound]
  | folder children =>
      simp [Tree.mapContents, walk, walkChildren_mapChildren change children, changeFound]

theorem walkChildren_mapChildren (change : List Name → List UInt8 → List UInt8)
    (children : List (Name × Tree)) :
    scan.walkChildren (Tree.mapChildren change children) =
      (scan.walkChildren children).map (changeFound change) := by
  cases children with
  | nil => simp [Tree.mapChildren, walkChildren]
  | cons child rest =>
      obtain ⟨name, tree⟩ := child
      simp only [Tree.mapChildren, walkChildren, Tree.isFile_mapContents, walk_mapContents _ tree,
        walkChildren_mapChildren change rest, List.map_append]
      split
      · rw [List.map_map, List.map_map]
        rfl
      · rfl

end

/-- The contents of files do not count for what is taken. -/
theorem collect_map_changeFound (change : List Name → List UInt8 → List UInt8) (root : String)
    (found : List (List Name × Tree)) :
    scan.collect root (found.map (changeFound change)) = scan.collect root found := by
  have hbarred : isBarred root ∘ changeFound change = isBarred root := by
    funext found
    simp [isBarred, changeFound]
  have htakes : scan.takes root ∘ changeFound change = scan.takes root := by
    funext found
    simp [takes, changeFound]
  have hnames : (·.1) ∘ changeFound change = fun found => found.1 := rfl
  unfold collect
  rw [List.find?_map, List.filter_map, List.map_map, hbarred, htakes, hnames]
  cases found.find? (isBarred root) <;> rfl

theorem files_mapContents (fs : FileSystem) (change : List Name → List UInt8 → List UInt8)
    (root : String) : scan.files (fs.mapContents change) root = scan.files fs root := by
  unfold files
  rw [FileSystem.locate_mapContents]
  cases fs.locate root with
  | error error => rfl
  | ok place =>
      dsimp only [Except.mapError, bind, Except.bind]
      rw [FileSystem.at?_tree_mapContents]
      cases fs.tree.at? place with
      | none => rfl
      | some tree =>
          rw [Option.map_some, Option.map_some, Option.getD_some, walk_mapContents]
          exact scan.collect_map_changeFound _ root (scan.walk tree)

end Scan

end LiveExports

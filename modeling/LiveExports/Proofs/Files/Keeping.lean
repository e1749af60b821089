import LiveExports.Proofs.Files.Writing

/-!
# Files that stay as they are

Writing a file, or removing one, changes what stands at its place and nothing else, since nothing
stands below a file.  Making folders changes no file at all, even if it fails halfway
(`keeps_makeFoldersAlong`).
-/

namespace LiveExports

/-! ## Changes at one place -/

namespace Tree

/-- The content of the file at a place, if a file stands there. -/
def fileAt? (tree : Tree) (place : List Name) : Option (List UInt8) :=
  match tree.kindAt? place with
  | some (.file content) => some content
  | _ => none

theorem fileAt?_congr {tree other : Tree} {place : List Name}
    (h : other.kindAt? place = tree.kindAt? place) : other.fileAt? place = tree.fileAt? place := by
  rw [fileAt?, fileAt?, h]

theorem kindAt?_below_eq_none {tree : Tree} {place : List Name}
    (h : tree.kindAt? place ≠ some .folder) (name : Name) (rest : List Name) :
    tree.kindAt? (place ++ name :: rest) = none := by
  cases hthere : tree.kindAt? (place ++ name :: rest) with
  | none => rfl
  | some kind => exact absurd (kindAt?_eq_folder_of_append (by rw [hthere]; rfl)) h

variable {tree : Tree} {folder : List Name} {name : Name} {other : List Name}

/-- A tree with nothing below it changes its own place only, unless it is put over a folder. -/
theorem kindAt?_put_of_ne {new : Tree} (hfolder : tree.kindAt? folder = some .folder)
    (hold : tree.kindAt? (folder ++ [name]) ≠ some .folder)
    (hnew : ∀ first rest, new.at? (first :: rest) = none) (hother : other ≠ folder ++ [name]) :
    (tree.put (folder ++ [name]) new).kindAt? other = tree.kindAt? other := by
  by_cases hprefix : folder ++ [name] <+: other
  · obtain ⟨rest, rfl⟩ := hprefix
    cases rest with
    | nil => exact absurd (List.append_nil _) hother
    | cons first rest =>
        have hput :
            (tree.put (folder ++ [name]) new).at? (folder ++ [name] ++ first :: rest) = none := by
          rw [List.append_assoc, List.singleton_append, at?_put_append hfolder, hnew]
        rw [kindAt?_below_eq_none hold, kindAt?, hput]
        rfl
  · exact kindAt?_put_of_not_prefix hfolder new hprefix

theorem kindAt?_erase_of_ne (hold : tree.kindAt? (folder ++ [name]) ≠ some .folder)
    (hother : other ≠ folder ++ [name]) :
    (tree.erase (folder ++ [name])).kindAt? other = tree.kindAt? other := by
  by_cases hprefix : folder ++ [name] <+: other
  · obtain ⟨rest, rfl⟩ := hprefix
    cases rest with
    | nil => exact absurd (List.append_nil _) hother
    | cons first rest =>
        have herase :
            (tree.erase (folder ++ [name])).at? (folder ++ [name] ++ first :: rest) = none := by
          rw [List.append_assoc, List.singleton_append, at?_erase_append]
        rw [kindAt?_below_eq_none hold, kindAt?, herase]
        rfl
  · exact kindAt?_erase_of_not_prefix tree hprefix

end Tree

namespace FileSystem

/-- The files at the spared places stay as they are, or stay away, and every folder stays. -/
structure Keeps (spared : List Name → Prop) (fs other : FileSystem) : Prop where
  workingFolder : other.workingFolder = fs.workingFolder
  files : ∀ place, spared place → other.tree.fileAt? place = fs.tree.fileAt? place
  folders : ∀ place, fs.tree.kindAt? place = some .folder →
    other.tree.kindAt? place = some .folder

namespace Keeps

variable {spared : List Name → Prop} {fs other : FileSystem}

theorem refl (spared : List Name → Prop) (fs : FileSystem) : Keeps spared fs fs :=
  ⟨rfl, fun _ _ => rfl, fun _ h => h⟩

theorem trans {third : FileSystem} (h : Keeps spared fs other) (h' : Keeps spared other third) :
    Keeps spared fs third where
  workingFolder := h'.workingFolder.trans h.workingFolder
  files place hplace := (h'.files place hplace).trans (h.files place hplace)
  folders place hplace := h'.folders place (h.folders place hplace)

theorem mono {fewer : List Name → Prop} (h : Keeps spared fs other)
    (hfewer : ∀ place, fewer place → spared place) : Keeps fewer fs other :=
  ⟨h.workingFolder, fun place hplace => h.files place (hfewer place hplace), h.folders⟩

theorem placeOf (h : Keeps spared fs other) (path : String) :
    other.placeOf path = fs.placeOf path := by
  rw [FileSystem.placeOf, FileSystem.placeOf, start, start, h.workingFolder]

/-- One place changes, where no folder stands. -/
theorem of_kindAt? {place : List Name} (hworking : other.workingFolder = fs.workingFolder)
    (hold : fs.tree.kindAt? place ≠ some .folder)
    (h : ∀ stop, stop ≠ place → other.tree.kindAt? stop = fs.tree.kindAt? stop) :
    Keeps (· ≠ place) fs other where
  workingFolder := hworking
  files stop hstop := Tree.fileAt?_congr (h stop hstop)
  folders stop hstop := by
    have hne : stop ≠ place := by
      intro heq
      exact hold (heq ▸ hstop)
    rw [h stop hne, hstop]

end Keeps

/-! ## Making folders -/

theorem kindAt?_of_lastStep {fs : FileSystem} {path : String} {step : List Name × List Char}
    (h : fs.lastStep path = .ok step) : fs.tree.kindAt? step.1 = some .folder := by
  obtain ⟨_, -, h⟩ := exists_of_bind_eq_ok h
  obtain ⟨folder, -, h⟩ := exists_of_bind_eq_ok h
  split at h
  · next children hfolder =>
    rw [← Except.ok.inj h, Tree.kindAt?, hfolder]
    rfl
  · cases h
  · cases h

theorem keeps_makeFolder {fs made : FileSystem} {path : String}
    (h : fs.makeFolder path = .ok made) :
    Keeps (fun _ => True) fs made := by
  obtain ⟨⟨folder, name⟩, hstep, h⟩ := exists_of_bind_eq_ok h
  have hfolder : fs.tree.kindAt? folder = some .folder := kindAt?_of_lastStep hstep
  dsimp only at h
  split at h
  · cases h
  split at h
  · cases h
  split at h
  · cases h
  next hnothing =>
    have hold : fs.tree.kindAt? (folder ++ [.ofChars name]) = none := by
      simpa [Tree.kindAt?] using hnothing
    obtain rfl := Except.ok.inj h
    have hkeeps : Keeps (· ≠ folder ++ [.ofChars name]) fs
        { fs with tree := fs.tree.put (folder ++ [.ofChars name]) (.folder []) } := by
      refine .of_kindAt? rfl (by rw [hold]; simp) fun stop hstop => ?_
      exact Tree.kindAt?_put_of_ne hfolder (by rw [hold]; simp) (fun _ _ => rfl) hstop
    refine ⟨rfl, fun place _ => ?_, hkeeps.folders⟩
    by_cases hplace : place = folder ++ [.ofChars name]
    · -- The new folder is no file, and nothing was there before.
      have hnew : (fs.tree.put (folder ++ [.ofChars name]) (.folder [])).at?
          (folder ++ [.ofChars name]) = some (.folder []) := Tree.at?_put_append hfolder _ _ []
      rw [hplace, Tree.fileAt?, Tree.fileAt?, hold, Tree.kindAt?, hnew]
      rfl
    · exact hkeeps.files place hplace

theorem keeps_makeFoldersAlong (fs : FileSystem) (paths : List String) :
    Keeps (fun _ => True) fs (fs.makeFoldersAlong paths).2 := by
  induction paths with
  | nil => exact .refl _ fs
  | cons path above ih =>
      unfold makeFoldersAlong
      split
      · next made hmade => exact keeps_makeFolder hmade
      · split
        · next error made habove =>
          rw [habove] at ih
          exact ih
        · next made habove =>
          rw [habove] at ih
          split
          · next complete hcomplete => exact ih.trans (keeps_makeFolder hcomplete)
          · exact ih
      · exact .refl _ fs

/-! ## Files of a folder -/

section Below

variable {fs : FileSystem} {folder name : String} (hfolder : folder ≠ "")
  (hname : Path.IsName name)

include hfolder hname

theorem keeps_write {content : List UInt8} {written : FileSystem}
    (h : fs.write (Path.below folder name) content = .ok written) :
    Keeps (· ≠ fs.placeOf folder ++ [.ofText name]) fs written := by
  obtain ⟨hplace, hkind, rfl⟩ := write_below_eq_ok hfolder hname h
  exact .of_kindAt? rfl hkind fun stop => Tree.kindAt?_put_of_ne hplace hkind fun _ _ => rfl

theorem keeps_removeFile {removed : FileSystem}
    (h : fs.removeFile (Path.below folder name) = .ok removed) :
    Keeps (· ≠ fs.placeOf folder ++ [.ofText name]) fs removed := by
  obtain ⟨⟨content, hkind⟩, rfl⟩ := removeFile_below_eq_ok hfolder hname h
  have hold : fs.tree.kindAt? (fs.placeOf folder ++ [.ofText name]) ≠ some .folder := by
    rw [hkind]
    simp
  exact .of_kindAt? rfl hold fun stop => Tree.kindAt?_erase_of_ne hold

theorem fileAt?_removeFile {removed : FileSystem}
    (h : fs.removeFile (Path.below folder name) = .ok removed) :
    removed.tree.fileAt? (fs.placeOf folder ++ [.ofText name]) = none := by
  have hkind := kindAt?_removeFile hfolder hname h (.ofText name)
  rw [if_pos rfl] at hkind
  rw [Tree.fileAt?, hkind]

/-- A file that was just written can be removed. -/
theorem exists_removeFile_of_write {content : List UInt8} {written : FileSystem}
    (h : fs.write (Path.below folder name) content = .ok written) :
    ∃ removed, written.removeFile (Path.below folder name) = .ok removed := by
  have hkind := kindAt?_write hfolder hname h (.ofText name)
  rw [if_pos rfl] at hkind
  have hread := read_below_of_write hfolder hname h (changesIn_write hfolder hname h) hkind
  obtain ⟨place, hlocate, hcontent⟩ := exists_of_bind_eq_ok hread
  have hfile : written.tree.at? place = some (.file content) :=
    Tree.kindAt?_eq_file_iff.mp (contentAt_eq_ok_iff.mp hcontent)
  unfold removeFile
  rw [hlocate]
  exact ⟨{ written with tree := written.tree.erase place }, by simp [bind, Except.bind, hfile]⟩

end Below

end FileSystem

end LiveExports

import LiveExports.Proofs.Files.Following

/-!
# What writing changes

An operation that succeeds on a file of a folder leaves everything outside of the folder as it was,
and no folder is ever lost (`ChangesIn`).
-/

namespace LiveExports.FileSystem

/-- Nothing changes but in a folder, and every folder stays. -/
structure ChangesIn (folder : List Name) (fs other : FileSystem) : Prop where
  workingFolder : other.workingFolder = fs.workingFolder
  outside : ∀ place, ¬ folder <+: place → other.tree.kindAt? place = fs.tree.kindAt? place
  folders : ∀ place, fs.tree.kindAt? place = some .folder →
    other.tree.kindAt? place = some .folder

namespace ChangesIn

variable {folder : List Name} {fs other : FileSystem}

theorem refl (folder : List Name) (fs : FileSystem) : ChangesIn folder fs fs :=
  ⟨rfl, fun _ _ => rfl, fun _ h => h⟩

theorem trans {third : FileSystem} (h : ChangesIn folder fs other)
    (h' : ChangesIn folder other third) : ChangesIn folder fs third where
  workingFolder := h'.workingFolder.trans h.workingFolder
  outside place hplace := (h'.outside place hplace).trans (h.outside place hplace)
  folders place hplace := h'.folders place (h.folders place hplace)

theorem placeOf (h : ChangesIn folder fs other) (path : String) :
    other.placeOf path = fs.placeOf path := by
  rw [FileSystem.placeOf, FileSystem.placeOf, start, start, h.workingFolder]

/-- A file comes into a folder, perhaps in place of another. -/
theorem putFile {name : Name} (hfolder : fs.tree.kindAt? folder = some .folder)
    (hname : fs.tree.kindAt? (folder ++ [name]) ≠ some .folder) (content : List UInt8) :
    ChangesIn folder fs { fs with tree := fs.tree.put (folder ++ [name]) (.file content) } where
  workingFolder := rfl
  outside place hplace :=
    Tree.kindAt?_put_of_not_prefix hfolder _ fun hprefix =>
      hplace ((List.prefix_append _ _).trans hprefix)
  folders place hplace := by
    refine (Tree.kindAt?_put_of_not_prefix hfolder _ ?_).trans hplace
    rintro ⟨rest, rfl⟩
    cases rest with
    | nil => exact hname (by simpa using hplace)
    | cons first rest => exact hname (Tree.kindAt?_eq_folder_of_append (by rw [hplace]; rfl))

/-- A folder comes where nothing was. -/
theorem putFolder {name : Name} (hfolder : fs.tree.kindAt? folder = some .folder)
    (hname : fs.tree.kindAt? (folder ++ [name]) = none) :
    ChangesIn (folder ++ [name]) fs
      { fs with tree := fs.tree.put (folder ++ [name]) (.folder []) } where
  workingFolder := rfl
  outside place hplace := Tree.kindAt?_put_of_not_prefix hfolder _ hplace
  folders place hplace := by
    refine (Tree.kindAt?_put_of_not_prefix hfolder _ ?_).trans hplace
    rintro ⟨rest, rfl⟩
    rw [Tree.kindAt?_append_eq_none hname] at hplace
    cases hplace

/-- A file goes from a folder. -/
theorem eraseFile {name : Name} {content : List UInt8}
    (hname : fs.tree.kindAt? (folder ++ [name]) = some (.file content)) :
    ChangesIn folder fs { fs with tree := fs.tree.erase (folder ++ [name]) } where
  workingFolder := rfl
  outside place hplace :=
    Tree.kindAt?_erase_of_not_prefix _ fun hprefix =>
      hplace ((List.prefix_append _ _).trans hprefix)
  folders place hplace := by
    refine (Tree.kindAt?_erase_of_not_prefix _ ?_).trans hplace
    rintro ⟨rest, rfl⟩
    cases rest with
    | nil => simp [hname] at hplace
    | cons first rest =>
        have hfolder := Tree.kindAt?_eq_folder_of_append
          (by rw [hplace]; rfl :
            (fs.tree.kindAt? (folder ++ [name] ++ first :: rest)).isSome = true)
        rw [hname] at hfolder
        cases hfolder

end ChangesIn

/-! ## Operations on a name in a folder -/

section Below

variable {fs : FileSystem} {folder name : String} (hfolder : folder ≠ "")
  (hname : Path.IsName name)

include hfolder hname

theorem lastStep_below_eq_ok {step : List Name × List Char}
    (h : fs.lastStep (Path.below folder name) = .ok step) :
    step = (fs.placeOf folder, name.toList) ∧
      fs.tree.kindAt? (fs.placeOf folder) = some .folder := by
  rw [lastStep_below hfolder hname] at h
  obtain ⟨_, -, h⟩ := exists_of_bind_eq_ok h
  obtain ⟨place, hwalk, h⟩ := exists_of_bind_eq_ok h
  obtain rfl : place = fs.placeOf folder := eq_destination_of_walk hwalk
  split at h
  · next hplace => exact ⟨(Except.ok.inj h).symm, hplace⟩
  · split at h <;> cases h

/-- A file that can be written is put into its folder. -/
theorem write_below_eq_ok {content : List UInt8} {written : FileSystem}
    (h : fs.write (Path.below folder name) content = .ok written) :
    fs.tree.kindAt? (fs.placeOf folder) = some .folder ∧
      fs.tree.kindAt? (fs.placeOf folder ++ [.ofText name]) ≠ some .folder ∧
      written =
        { fs with tree := fs.tree.put (fs.placeOf folder ++ [.ofText name]) (.file content) } := by
  obtain ⟨_, hslot, h⟩ := exists_of_bind_eq_ok h
  obtain ⟨_, hstep, hslot⟩ := exists_of_bind_eq_ok hslot
  obtain ⟨rfl, hplace⟩ := lastStep_below_eq_ok hfolder hname hstep
  dsimp only at hslot
  split at hslot
  · cases hslot
  split at hslot
  · cases hslot
  obtain rfl := Except.ok.inj hslot
  simp only [Name.ofChars_toList] at h
  split at h
  · cases h
  next hother =>
    refine ⟨hplace, fun hkind => ?_, (Except.ok.inj h).symm⟩
    obtain ⟨children, hchildren⟩ := Tree.at?_eq_folder_of_kindAt? hkind
    exact hother children hchildren

/-- A file can be written only under a path and a name that are not too long, in a folder that the
path leads to. -/
theorem walk_of_write_below {content : List UInt8} {written : FileSystem}
    (h : fs.write (Path.below folder name) content = .ok written) :
    checkPath (Path.below folder name) = .ok () ∧
      fs.walk (fs.start folder) (Path.segments folder.toList) = .ok (fs.placeOf folder) ∧
      isLongName name.toList = false := by
  obtain ⟨_, hslot, -⟩ := exists_of_bind_eq_ok h
  obtain ⟨step, hstep, hslot⟩ := exists_of_bind_eq_ok hslot
  obtain ⟨rfl, -⟩ := lastStep_below_eq_ok hfolder hname hstep
  rw [lastStep_below hfolder hname] at hstep
  obtain ⟨_, hcheck, hstep⟩ := exists_of_bind_eq_ok hstep
  obtain ⟨place, hwalk, -⟩ := exists_of_bind_eq_ok hstep
  obtain rfl : place = fs.placeOf folder := eq_destination_of_walk hwalk
  refine ⟨hcheck, hwalk, ?_⟩
  dsimp only at hslot
  split at hslot
  · cases hslot
  split at hslot
  · cases hslot
  · next hshort => simpa using hshort

/-- A folder that can be made is put where nothing was. -/
theorem makeFolder_below_eq_ok {made : FileSystem}
    (h : fs.makeFolder (Path.below folder name) = .ok made) :
    fs.tree.kindAt? (fs.placeOf folder) = some .folder ∧
      fs.tree.kindAt? (fs.placeOf folder ++ [.ofText name]) = none ∧
      made =
        { fs with tree := fs.tree.put (fs.placeOf folder ++ [.ofText name]) (.folder []) } := by
  obtain ⟨_, hstep, h⟩ := exists_of_bind_eq_ok h
  obtain ⟨rfl, hplace⟩ := lastStep_below_eq_ok hfolder hname hstep
  dsimp only at h
  split at h
  · cases h
  split at h
  · cases h
  split at h
  · cases h
  next hnothing =>
    refine ⟨hplace, ?_, (Except.ok.inj h).symm⟩
    simpa [Tree.kindAt?] using hnothing

theorem locate_below_eq_ok {place : List Name}
    (h : fs.locate (Path.below folder name) = .ok place) :
    place = fs.placeOf folder ++ [.ofText name] := by
  obtain ⟨_, -, h⟩ := exists_of_bind_eq_ok h
  rw [start_below hfolder hname, walk_below hfolder hname] at h
  obtain ⟨middle, hwalk, h⟩ := exists_of_bind_eq_ok h
  obtain rfl : middle = fs.placeOf folder := eq_destination_of_walk hwalk
  obtain ⟨-, rfl, -⟩ := walk_singleton_eq_ok h
  rw [placeAfter_name hname.2, Name.ofChars_toList]

theorem read_below_eq_ok {content : List UInt8}
    (h : fs.read (Path.below folder name) = .ok content) :
    fs.tree.kindAt? (fs.placeOf folder ++ [.ofText name]) = some (.file content) := by
  rw [← placeOf_below hfolder hname]
  exact kindAt?_of_read h

/-- A file that can be removed is taken from its folder. -/
theorem removeFile_below_eq_ok {removed : FileSystem}
    (h : fs.removeFile (Path.below folder name) = .ok removed) :
    (∃ content, fs.tree.kindAt? (fs.placeOf folder ++ [.ofText name]) = some (.file content)) ∧
      removed = { fs with tree := fs.tree.erase (fs.placeOf folder ++ [.ofText name]) } := by
  obtain ⟨place, hlocate, h⟩ := exists_of_bind_eq_ok h
  obtain rfl := locate_below_eq_ok hfolder hname hlocate
  split at h
  · next content hfile =>
    exact ⟨⟨content, Tree.kindAt?_eq_file_iff.mpr hfile⟩, (Except.ok.inj h).symm⟩
  · cases h
  · cases h

/-! ## What becomes of the files of the folder -/

theorem changesIn_write {content : List UInt8} {written : FileSystem}
    (h : fs.write (Path.below folder name) content = .ok written) :
    ChangesIn (fs.placeOf folder) fs written := by
  obtain ⟨hplace, hkind, rfl⟩ := write_below_eq_ok hfolder hname h
  exact .putFile hplace hkind content

theorem kindAt?_write {content : List UInt8} {written : FileSystem}
    (h : fs.write (Path.below folder name) content = .ok written) (other : Name) :
    written.tree.kindAt? (fs.placeOf folder ++ [other]) =
      if other = .ofText name then some (.file content)
      else fs.tree.kindAt? (fs.placeOf folder ++ [other]) := by
  obtain ⟨hplace, -, rfl⟩ := write_below_eq_ok hfolder hname h
  split
  · next hother =>
    rw [hother, Tree.kindAt?, Tree.at?_put_append hplace]
    rfl
  · next hother =>
    refine Tree.kindAt?_put_of_not_prefix hplace _ ?_
    simpa [List.prefix_append_right_inj, eq_comm] using hother

/-- Where a file was written, the file that stands there later is read, as long as only the folder
changes in between. -/
theorem read_below_of_write {content bytes : List UInt8} {written other : FileSystem}
    (hwrite : fs.write (Path.below folder name) content = .ok written)
    (hchanges : ChangesIn (fs.placeOf folder) fs other)
    (hfile : other.tree.kindAt? (fs.placeOf folder ++ [.ofText name]) = some (.file bytes)) :
    other.read (Path.below folder name) = .ok bytes := by
  obtain ⟨hcheck, hwalk, hshort⟩ := walk_of_write_below hfolder hname hwrite
  obtain ⟨hplace, -, -⟩ := write_below_eq_ok hfolder hname hwrite
  have hstays : other.tree.kindAt? (fs.placeOf folder) = some .folder :=
    hchanges.folders _ hplace
  have hstart : other.start folder = fs.start folder := by
    rw [start, start, hchanges.workingFolder]
  have hfollow : other.walk (fs.start folder) (Path.segments folder.toList) =
      .ok (fs.placeOf folder) :=
    walk_eq_ok_of_folders hchanges.folders hwalk (by rw [hstays]; simp)
  have hlast : other.walk (fs.placeOf folder) [name.toList] =
      .ok (fs.placeOf folder ++ [.ofText name]) := by
    rw [walk_singleton, hstays, placeAfter_name hname.2, Name.ofChars_toList, hfile]
    simp [hshort]
  have hlocate :
      other.locate (Path.below folder name) = .ok (fs.placeOf folder ++ [.ofText name]) := by
    unfold locate
    rw [hcheck, start_below hfolder hname, hstart, walk_below hfolder hname, hfollow]
    exact hlast
  unfold FileSystem.read
  rw [hlocate]
  exact contentAt_eq_ok_iff.mpr hfile

theorem changesIn_makeFolder {made : FileSystem}
    (h : fs.makeFolder (Path.below folder name) = .ok made) :
    ChangesIn (fs.placeOf (Path.below folder name)) fs made := by
  obtain ⟨hplace, hkind, rfl⟩ := makeFolder_below_eq_ok hfolder hname h
  rw [placeOf_below hfolder hname]
  exact .putFolder hplace hkind

/-- A new folder is empty, and nothing was there before. -/
theorem kindAt?_makeFolder {made : FileSystem}
    (h : fs.makeFolder (Path.below folder name) = .ok made) (other : Name) :
    made.tree.kindAt? (fs.placeOf (Path.below folder name) ++ [other]) =
      fs.tree.kindAt? (fs.placeOf (Path.below folder name) ++ [other]) := by
  obtain ⟨hplace, hkind, rfl⟩ := makeFolder_below_eq_ok hfolder hname h
  rw [placeOf_below hfolder hname]
  rw [Tree.kindAt?_append_eq_none hkind, List.append_assoc, Tree.kindAt?, List.singleton_append,
    Tree.at?_put_append hplace]
  rfl

theorem changesIn_removeFile {removed : FileSystem}
    (h : fs.removeFile (Path.below folder name) = .ok removed) :
    ChangesIn (fs.placeOf folder) fs removed := by
  obtain ⟨⟨content, hkind⟩, rfl⟩ := removeFile_below_eq_ok hfolder hname h
  exact .eraseFile hkind

theorem kindAt?_removeFile {removed : FileSystem}
    (h : fs.removeFile (Path.below folder name) = .ok removed) (other : Name) :
    removed.tree.kindAt? (fs.placeOf folder ++ [other]) =
      if other = .ofText name then none else fs.tree.kindAt? (fs.placeOf folder ++ [other]) := by
  obtain ⟨-, rfl⟩ := removeFile_below_eq_ok hfolder hname h
  split
  · next hother =>
    rw [hother, Tree.kindAt?, Tree.at?_erase_append]
    rfl
  · next hother =>
    refine Tree.kindAt?_erase_of_not_prefix _ ?_
    simpa [List.prefix_append_right_inj, eq_comm] using hother

end Below

end LiveExports.FileSystem

import LiveExports.Cache.Store
import LiveExports.Proofs.Cache.Codec
import LiveExports.Proofs.Files.Writing

/-!
# Saving and loading a cache

Saving a cache changes nothing outside of the folder of the cache, and the file of the cache is then
what it was, or gone, or the text of the new cache (`step_save`).  So loading gives a cache that was
saved before, or none (`load_of_stored`).
-/

namespace LiveExports

open FileSystem

namespace Cache

/-! ## Names -/

theorem isName_folderName : Path.IsName folderName := by
  decide

theorem isName_fileName : Path.IsName fileName := by
  decide

/-- The name of the file that a cache is written to first. -/
def draftName (moment : Moment) : String :=
  s!"{fileName}.{moment.process}.{moment.nanoseconds}.tmp"

theorem draftOf_eq (root : String) (moment : Moment) :
    draftOf root moment = Path.below (folderOf root) (draftName moment) := by
  unfold draftOf draftName
  rfl

theorem toList_draftName (moment : Moment) :
    (draftName moment).toList = fileName.toList ++ '.' :: (Nat.toDigits 10 moment.process ++
      '.' :: (Nat.toDigits 10 moment.nanoseconds ++ ['.', 't', 'm', 'p'])) := by
  simp [draftName, toString, Nat.repr_eq_ofList_toDigits]

theorem isName_draftName (moment : Moment) : Path.IsName (draftName moment) := by
  have hdigits : ∀ n, '/' ∉ Nat.toDigits 10 n := fun n hmem =>
    absurd (Json.isDigit_of_mem_toDigits hmem) (by decide)
  constructor
  · rw [toList_draftName]
    simp [hdigits, fileName]
  · rw [toList_draftName]
    simp [leadsToFolder, fileName]

theorem fileName_ne_draftName (moment : Moment) : fileName ≠ draftName moment := by
  intro h
  have hlength := congrArg (·.toList.length) h
  simp only [toList_draftName, List.length_append, List.length_cons] at hlength
  omega

theorem folderOf_ne_empty (root : String) : folderOf root ≠ "" :=
  Path.below_ne_empty isName_folderName

/-! ## Steps in the folder of the cache -/

/-- What happens in the folder of a cache while it is saved: nothing else changes, and the file of
the cache stays, goes, or gets the new content. -/
structure Step (root : String) (content : List UInt8) (fs other : FileSystem) : Prop where
  changes : ChangesIn (fs.placeOf (folderOf root)) fs other
  file : other.tree.kindAt? (fs.placeOf (folderOf root) ++ [.ofText fileName]) =
        fs.tree.kindAt? (fs.placeOf (folderOf root) ++ [.ofText fileName]) ∨
      other.tree.kindAt? (fs.placeOf (folderOf root) ++ [.ofText fileName]) = none ∨
      other.tree.kindAt? (fs.placeOf (folderOf root) ++ [.ofText fileName]) = some (.file content)

namespace Step

variable {root : String} {content : List UInt8} {fs other : FileSystem}

theorem refl (root : String) (content : List UInt8) (fs : FileSystem) : Step root content fs fs :=
  ⟨.refl _ fs, .inl rfl⟩

theorem trans {third : FileSystem} (h : Step root content fs other)
    (h' : Step root content other third) : Step root content fs third := by
  have hchanges := h'.changes
  have hfile := h'.file
  rw [h.changes.placeOf] at hchanges hfile
  refine ⟨h.changes.trans hchanges, ?_⟩
  rcases hfile with hsame | hnew
  · rw [hsame]
    exact h.file
  · exact .inr hnew

/-- Only the new content is written to the file of the cache. -/
theorem write {name : String} {bytes : List UInt8} (hname : Path.IsName name)
    (hbytes : name = fileName → bytes = content)
    (h : fs.write (Path.below (folderOf root) name) bytes = .ok other) :
    Step root content fs other := by
  refine ⟨changesIn_write (folderOf_ne_empty root) hname h, ?_⟩
  rw [kindAt?_write (folderOf_ne_empty root) hname h]
  split
  · next heq => exact .inr (.inr (by rw [hbytes (Name.ofText_injective heq.symm)]))
  · exact .inl rfl

theorem removeFile {name : String} (hname : Path.IsName name)
    (h : fs.removeFile (Path.below (folderOf root) name) = .ok other) :
    Step root content fs other := by
  refine ⟨changesIn_removeFile (folderOf_ne_empty root) hname h, ?_⟩
  rw [kindAt?_removeFile (folderOf_ne_empty root) hname h]
  split
  · exact .inr (.inl rfl)
  · exact .inl rfl

/-- A file that is removed if that can be done. -/
theorem removeFile_getD {name : String} (hname : Path.IsName name) (content : List UInt8)
    (fs : FileSystem) : Step root content fs
      ((fs.removeFile (Path.below (folderOf root) name)).toOption.getD fs) := by
  cases h : fs.removeFile (Path.below (folderOf root) name) with
  | error error => exact refl root content fs
  | ok removed => exact removeFile hname h

end Step

/-! ## Making the folder -/

theorem checkPath_ne_notFound {path : String} (h : path ≠ "") :
    checkPath path ≠ .error .notFound := by
  intro hcheck
  rcases cases_of_bind_eq_error hcheck with hspelling | ⟨_, -, hlength⟩
  · unfold checkSpelling at hspelling
    rw [if_neg h] at hspelling
    split at hspelling <;> cases hspelling
  · split at hlength <;> cases hlength

/-- At a root that exists the folder of the cache is made or refused: nothing above it is
missing. -/
theorem makeFolder_folderOf_ne_notFound {fs : FileSystem} {root : String} {place : List Name}
    (hroot : root ≠ "") (h : fs.locate root = .ok place) :
    fs.makeFolder (folderOf root) ≠ .error .notFound := by
  obtain ⟨_, -, hwalk⟩ := exists_of_bind_eq_ok h
  have hthere : fs.tree.kindAt? place ≠ none :=
    Option.isSome_iff_ne_none.mp (kindAt?_isSome_of_locate h)
  intro hmake
  rcases cases_of_bind_eq_error hmake with hstep | ⟨step, -, hmade⟩
  · rw [folderOf, lastStep_below hroot isName_folderName, hwalk] at hstep
    rcases cases_of_bind_eq_error hstep with hcheck | ⟨_, -, hplace⟩
    · exact checkPath_ne_notFound (folderOf_ne_empty root) hcheck
    · simp only [Except.bind, hthere, if_false] at hplace
      split at hplace <;> cases hplace
  · dsimp only at hmade
    split at hmade
    · cases hmade
    split at hmade
    · cases hmade
    split at hmade <;> cases hmade

theorem ancestors_eq_cons {path : List Char} (h : path ≠ []) :
    ∃ above, Path.ancestors path = path :: above := by
  unfold Path.ancestors
  cases path.length with
  | zero => exact ⟨[], by simp [Path.ancestorsUpTo, h]⟩
  | succ bound =>
      rw [Path.ancestorsUpTo, List.filter_cons_of_pos (by simpa using h)]
      exact ⟨_, rfl⟩

/-- Making the folder of the cache makes this one folder or nothing. -/
theorem step_makeFolder {fs : FileSystem} {root : String} {place : List Name}
    (hroot : root ≠ "") (h : fs.locate root = .ok place) (content : List UInt8) :
    Step root content fs (makeFolder root fs).2 := by
  have hmakeFolder : (makeFolder root fs).2 =
      if fs.has (folderOf root) then fs else (fs.makeFolders (folderOf root)).2 := by
    unfold makeFolder
    dsimp only
    split
    · rfl
    · generalize fs.makeFolders (folderOf root) = made
      rfl
  rw [hmakeFolder]
  split
  · exact .refl root content fs
  obtain ⟨above, habove⟩ := ancestors_eq_cons
    (by simpa using folderOf_ne_empty root : (folderOf root).toList ≠ [])
  rw [makeFolders, habove, List.map_cons, String.ofList_toList, makeFoldersAlong]
  split
  · next made hmade =>
    exact ⟨changesIn_makeFolder hroot isName_folderName hmade,
      .inl (kindAt?_makeFolder hroot isName_folderName hmade _)⟩
  · next hmissing => exact absurd hmissing (makeFolder_folderOf_ne_notFound hroot h)
  · exact .refl root content fs

/-! ## Saving -/

theorem step_rename {fs renamed : FileSystem} {root : String} {moment : Moment}
    {content : List UInt8}
    (hdraft : fs.tree.kindAt? (fs.placeOf (folderOf root) ++ [.ofText (draftName moment)]) =
      some (.file content))
    (h : fs.rename (Path.below (folderOf root) (draftName moment)) (pathOf root) = .ok renamed) :
    Step root content fs renamed := by
  rw [pathOf] at h
  obtain ⟨bytes, hread, h⟩ := exists_of_bind_eq_ok h
  obtain ⟨written, hwrite, hremove⟩ := exists_of_bind_eq_ok h
  have hbytes : bytes = content := by
    have hfile := read_below_eq_ok (folderOf_ne_empty root) (isName_draftName moment) hread
    rw [hdraft] at hfile
    simpa using hfile.symm
  have hfirst : Step root content fs written := .write isName_fileName (fun _ => hbytes) hwrite
  exact hfirst.trans (.removeFile (isName_draftName moment) hremove)

theorem step_replace (root : String) (moment : Moment) (content : List UInt8) (fs : FileSystem) :
    Step root content fs (replace root moment content fs).2 := by
  unfold replace
  dsimp only
  rw [draftOf_eq]
  cases hwrite : fs.write (Path.below (folderOf root) (draftName moment)) content with
  | error error =>
      dsimp only
      exact .refl root content fs
  | ok written =>
      have hwritten : Step root content fs written :=
        .write (isName_draftName moment)
          (fun hname => absurd hname.symm (fileName_ne_draftName moment)) hwrite
      refine hwritten.trans ?_
      have hdraft := kindAt?_write (folderOf_ne_empty root) (isName_draftName moment) hwrite
        (.ofText (draftName moment))
      rw [if_pos rfl, ← hwritten.changes.placeOf] at hdraft
      dsimp only
      cases hrename : written.rename (Path.below (folderOf root) (draftName moment))
          (pathOf root) with
      | error error =>
          dsimp only
          exact .removeFile_getD (isName_draftName moment) content written
      | ok renamed =>
          dsimp only
          exact step_rename hdraft hrename

/-- All that saving a cache does. -/
theorem step_save {fs : FileSystem} {root : String} {place : List Name} (hroot : root ≠ "")
    (h : fs.locate root = .ok place) (moment : Moment) (cache : Cache) :
    Step root (Text.encode cache.text) fs (save root moment cache fs).2 := by
  have hmade := step_makeFolder hroot h (Text.encode cache.text)
  unfold save
  split
  · next heq =>
    rw [heq] at hmade
    exact hmade
  next made heq =>
    rw [heq] at hmade
    refine hmade.trans ?_
    dsimp only
    split
    · dsimp only [pathOf]
      exact .removeFile_getD isName_fileName _ made
    · exact step_replace root moment _ made

/-- A cache that is not too large is written where its folder can be made. -/
theorem save_of_small {root : String} {moment : Moment} {cache : Cache} {fs : FileSystem}
    (hmade : (makeFolder root fs).1.toOption.isSome = true)
    (hsize : ((cache.encode.write .indented 0).flatMap Text.encodeChar).length ≤ sizeLimit) :
    save root moment cache fs =
      replace root moment (Text.encode cache.text) (makeFolder root fs).2 := by
  have hlength : ¬ sizeLimit < (Text.encode cache.text).length := by
    rw [text, Json.Value.pretty, Text.encode, String.toList_ofList]
    exact Nat.not_lt.mpr hsize
  unfold save
  generalize makeFolder root fs = folder at hmade ⊢
  obtain ⟨made | _, left⟩ := folder
  · cases hmade
  · dsimp only
    rw [if_neg hlength]

/-! ## Loading -/

/-- The file of the cache, if there is one, holds the text of a cache that `holds`. -/
def Stored (root : String) (holds : Cache → Prop) (fs : FileSystem) : Prop :=
  ∀ kind, fs.tree.kindAt? (fs.placeOf (folderOf root) ++ [.ofText fileName]) = some kind →
    ∃ cache, kind = .file (Text.encode cache.text) ∧ holds cache

theorem Stored.imp {root : String} {holds implied : Cache → Prop} {fs : FileSystem}
    (h : Stored root holds fs) (himp : ∀ cache, holds cache → implied cache) :
    Stored root implied fs := by
  intro kind hkind
  obtain ⟨cache, hfile, hcache⟩ := h kind hkind
  exact ⟨cache, hfile, himp cache hcache⟩

theorem Step.stored {root : String} {cache : Cache} {holds : Cache → Prop} {fs other : FileSystem}
    (h : Step root (Text.encode cache.text) fs other) (hstored : Stored root holds fs)
    (hcache : holds cache) : Stored root holds other := by
  intro kind hkind
  rw [h.changes.placeOf] at hkind
  rcases h.file with hsame | hgone | hnew
  · exact hstored kind (hsame ▸ hkind)
  · rw [hgone] at hkind
    cases hkind
  · rw [hnew] at hkind
    exact ⟨cache, (Option.some.inj hkind).symm, hcache⟩

/-- Loading gives a stored cache that this release can use, and leaves it where it is. -/
theorem load_of_stored {root : String} {holds : Cache → Prop} {fs : FileSystem}
    (h : Stored root holds fs)
    (hcompatible : ∀ cache, holds cache → cache.stamp.isCompatible = true) :
    (load root fs).2 = fs ∧ ∀ cache, (load root fs).1 = some cache → holds cache := by
  unfold load
  rw [pathOf]
  split
  · exact ⟨rfl, by simp⟩
  next text hread =>
    rw [readText] at hread
    obtain ⟨content, hcontent, htext⟩ := exists_of_bind_eq_ok hread
    obtain ⟨cache, hkind, hcache⟩ :=
      h _ (read_below_eq_ok (folderOf_ne_empty root) isName_fileName hcontent)
    have hbytes : content = Text.encode cache.text := by simpa using hkind
    rw [hbytes, Text.decode?_encode] at htext
    have hsame : text = cache.text := (Except.ok.inj htext).symm
    rw [hsame]
    cases hparse : parse? cache.text with
    | none => exact ⟨rfl, by simp⟩
    | some other =>
        obtain ⟨rfl, -⟩ := (parse?_text_eq_some_iff cache other).mp hparse
        simp only [hcompatible other hcache, if_true]
        exact ⟨trivial, by simpa using hcache⟩

end Cache

end LiveExports

import LiveExports.Proofs.Cache.Reloading
import LiveExports.Proofs.Files.Keeping

/-!
# Saving a cache, or failing to

Saving makes the folder of the cache, writes a draft into it and gives the draft the name of the
cache.  Each of these can fail.  Making folders changes no file, and a draft that cannot take its
place is removed again.  So a failure leaves all files as they were, and a success changes the file
of the cache and no other, except at the place of the draft itself (`Cache.save_keeps_files`).

The draft has a name of its own, made from the process and the time.  A file of that name that is
there already is written over and lost, and the drafts of other saves are not looked at
(`Cache.save_overwrites_draftsLeft`).
-/

namespace LiveExports

open FileSystem

namespace Cache

variable {root : String} {moment : Moment} {content : List UInt8} {fs : FileSystem}

/-- The place that the draft is written to. -/
def draftPlace (root : String) (moment : Moment) (fs : FileSystem) : List Name :=
  fs.placeOf (draftOf root moment)

/-- The place of the file of the cache. -/
def filePlace (root : String) (fs : FileSystem) : List Name :=
  fs.placeOf (pathOf root)

theorem draftPlace_eq (root : String) (moment : Moment) (fs : FileSystem) :
    draftPlace root moment fs = fs.placeOf (folderOf root) ++ [.ofText (draftName moment)] := by
  rw [draftPlace, draftOf_eq, placeOf_below (folderOf_ne_empty root) (isName_draftName moment)]

theorem filePlace_eq (root : String) (fs : FileSystem) :
    filePlace root fs = fs.placeOf (folderOf root) ++ [.ofText fileName] := by
  rw [filePlace, pathOf, placeOf_below (folderOf_ne_empty root) isName_fileName]

theorem draftPlace_ne_filePlace (root : String) (moment : Moment) (fs : FileSystem) :
    draftPlace root moment fs ≠ filePlace root fs := by
  rw [draftPlace_eq, filePlace_eq]
  intro heq
  have hname := List.append_cancel_left heq
  exact fileName_ne_draftName moment (Name.ofText_injective (List.cons.inj hname).1.symm)

/-! ## Making the folder -/

theorem keeps_makeFolder (root : String) (fs : FileSystem) :
    Keeps (fun _ => True) fs (makeFolder root fs).2 := by
  have hmade : Keeps (fun _ => True) fs (fs.makeFolders (folderOf root)).2 :=
    keeps_makeFoldersAlong fs _
  unfold makeFolder
  dsimp only
  split
  · exact .refl _ fs
  · generalize fs.makeFolders (folderOf root) = made at hmade ⊢
    exact hmade

/-! ## The draft -/

/-- Writing the draft and taking its name ends in one of three ways. -/
theorem replace_cases (root : String) (moment : Moment) (content : List UInt8) (fs : FileSystem) :
    (∃ failure, replace root moment content fs = (.error failure, fs)) ∨
      ∃ written, fs.write (draftOf root moment) content = .ok written ∧
        ((∃ failure removed, written.removeFile (draftOf root moment) = .ok removed ∧
            replace root moment content fs = (.error failure, removed)) ∨
          ∃ renamed, written.rename (draftOf root moment) (pathOf root) = .ok renamed ∧
            replace root moment content fs = (.ok (), renamed)) := by
  unfold replace
  dsimp only
  cases hwrite : fs.write (draftOf root moment) content with
  | error error => exact .inl ⟨_, rfl⟩
  | ok written =>
      refine .inr ⟨written, rfl, ?_⟩
      dsimp only
      cases hrename : written.rename (draftOf root moment) (pathOf root) with
      | error error =>
          rw [draftOf_eq] at hwrite
          obtain ⟨removed, hremoved⟩ :=
            exists_removeFile_of_write (folderOf_ne_empty root) (isName_draftName moment) hwrite
          rw [← draftOf_eq] at hremoved
          refine .inl ⟨.ofSystem s!"Failed to rename cache file to: {pathOf root}" error, removed,
            hremoved, ?_⟩
          rw [hremoved]
          rfl
      | ok renamed => exact .inr ⟨renamed, rfl, rfl⟩

theorem keeps_write_draft {written : FileSystem}
    (h : fs.write (draftOf root moment) content = .ok written) :
    Keeps (· ≠ draftPlace root moment fs) fs written := by
  rw [draftOf_eq] at h
  rw [draftPlace_eq]
  exact keeps_write (folderOf_ne_empty root) (isName_draftName moment) h

theorem keeps_remove_draft {removed : FileSystem}
    (h : fs.removeFile (draftOf root moment) = .ok removed) :
    Keeps (· ≠ draftPlace root moment fs) fs removed ∧
      removed.tree.fileAt? (draftPlace root moment fs) = none := by
  rw [draftOf_eq] at h
  rw [draftPlace_eq]
  exact ⟨keeps_removeFile (folderOf_ne_empty root) (isName_draftName moment) h,
    fileAt?_removeFile (folderOf_ne_empty root) (isName_draftName moment) h⟩

/-- Taking the name of the cache changes the file of the cache, and the draft is gone. -/
theorem keeps_rename_draft {renamed : FileSystem}
    (h : fs.rename (draftOf root moment) (pathOf root) = .ok renamed) :
    Keeps (fun place => place ≠ draftPlace root moment fs ∧ place ≠ filePlace root fs) fs renamed ∧
      renamed.tree.fileAt? (draftPlace root moment fs) = none := by
  obtain ⟨bytes, -, h⟩ := exists_of_bind_eq_ok h
  obtain ⟨written, hwrite, hremove⟩ := exists_of_bind_eq_ok h
  have hwritten : Keeps (· ≠ filePlace root fs) fs written := by
    rw [filePlace_eq]
    exact keeps_write (folderOf_ne_empty root) isName_fileName hwrite
  obtain ⟨hremoved, hgone⟩ := keeps_remove_draft hremove
  have hsame : draftPlace root moment written = draftPlace root moment fs := hwritten.placeOf _
  rw [hsame] at hremoved hgone
  exact ⟨(hwritten.mono fun _ h => h.2).trans (hremoved.mono fun _ h => h.1), hgone⟩

/-- A failure leaves all files as they were, but for one in place of the draft, and no draft is
left. -/
theorem keeps_replace_of_error {failure : Failure} {after : FileSystem}
    (h : replace root moment content fs = (.error failure, after)) :
    Keeps (· ≠ draftPlace root moment fs) fs after ∧
      (after.tree.fileAt? (draftPlace root moment fs) = none ∨
        after.tree.fileAt? (draftPlace root moment fs) =
          fs.tree.fileAt? (draftPlace root moment fs)) := by
  rcases replace_cases root moment content fs with
    ⟨_, hsame⟩ | ⟨written, hwrite, ⟨_, removed, hremove, hremoved⟩ | ⟨_, -, hrenamed⟩⟩
  · rw [hsame] at h
    obtain rfl := (Prod.mk.inj h).2
    exact ⟨.refl _ fs, .inr rfl⟩
  · rw [hremoved] at h
    obtain rfl := (Prod.mk.inj h).2
    have hwritten := keeps_write_draft hwrite
    obtain ⟨hkept, hgone⟩ := keeps_remove_draft hremove
    have hsame : draftPlace root moment written = draftPlace root moment fs := hwritten.placeOf _
    rw [hsame] at hkept hgone
    exact ⟨hwritten.trans hkept, .inl hgone⟩
  · rw [hrenamed] at h
    cases (Prod.mk.inj h).1

/-- A success changes the file of the cache, and leaves no draft. -/
theorem keeps_replace_of_ok {after : FileSystem}
    (h : replace root moment content fs = (.ok (), after)) :
    Keeps (fun place => place ≠ draftPlace root moment fs ∧ place ≠ filePlace root fs) fs after ∧
      after.tree.fileAt? (draftPlace root moment fs) = none := by
  rcases replace_cases root moment content fs with
    ⟨_, hsame⟩ | ⟨written, hwrite, ⟨_, _, -, hremoved⟩ | ⟨renamed, hrename, hrenamed⟩⟩
  · rw [hsame] at h
    cases (Prod.mk.inj h).1
  · rw [hremoved] at h
    cases (Prod.mk.inj h).1
  · rw [hrenamed] at h
    obtain rfl := (Prod.mk.inj h).2
    have hwritten := keeps_write_draft hwrite
    obtain ⟨hkept, hgone⟩ := keeps_rename_draft hrename
    have hdraft : draftPlace root moment written = draftPlace root moment fs := hwritten.placeOf _
    have hfile : filePlace root written = filePlace root fs := hwritten.placeOf _
    rw [hdraft, hfile] at hkept
    rw [hdraft] at hgone
    exact ⟨(hwritten.mono fun _ h => h.1).trans hkept, hgone⟩

/-! ## Saving -/

/-- Saving a cache within the limit is making its folder and, if that can be done, replacing its
file. -/
theorem save_eq {cache : Cache} (hsize : (Text.encode cache.text).length ≤ sizeLimit) :
    save root moment cache fs =
      match (makeFolder root fs).1 with
      | .error failure => (.error failure, (makeFolder root fs).2)
      | .ok _ => replace root moment (Text.encode cache.text) (makeFolder root fs).2 := by
  unfold save
  generalize makeFolder root fs = made
  obtain ⟨result, files⟩ := made
  cases result with
  | error failure => rfl
  | ok _ =>
      dsimp only
      rw [if_neg (Nat.not_lt.mpr hsize)]

section Outcome

variable {cache : Cache} {after : FileSystem}
  (hsize : (Text.encode cache.text).length ≤ sizeLimit)

include hsize

theorem keeps_save_of_error {failure : Failure}
    (hsave : save root moment cache fs = (.error failure, after)) :
    Keeps (· ≠ draftPlace root moment fs) fs after ∧
      (after.tree.fileAt? (draftPlace root moment fs) = none ∨
        after.tree.fileAt? (draftPlace root moment fs) =
          fs.tree.fileAt? (draftPlace root moment fs)) := by
  have hmade := keeps_makeFolder root fs
  rw [save_eq hsize] at hsave
  split at hsave
  · rw [← (Prod.mk.inj hsave).2]
    exact ⟨hmade.mono fun _ _ => trivial, .inr (hmade.files _ trivial)⟩
  · have hdraft : draftPlace root moment (makeFolder root fs).2 = draftPlace root moment fs :=
      hmade.placeOf _
    obtain ⟨hkept, hleft⟩ := keeps_replace_of_error hsave
    rw [hdraft] at hkept hleft
    rw [hmade.files _ trivial] at hleft
    exact ⟨(hmade.mono fun _ _ => trivial).trans hkept, hleft⟩

theorem keeps_save_of_ok (hsave : save root moment cache fs = (.ok (), after)) :
    Keeps (fun place => place ≠ draftPlace root moment fs ∧ place ≠ filePlace root fs) fs after ∧
      after.tree.fileAt? (draftPlace root moment fs) = none := by
  have hmade := keeps_makeFolder root fs
  rw [save_eq hsize] at hsave
  split at hsave
  · cases (Prod.mk.inj hsave).1
  · have hdraft : draftPlace root moment (makeFolder root fs).2 = draftPlace root moment fs :=
      hmade.placeOf _
    have hfile : filePlace root (makeFolder root fs).2 = filePlace root fs := hmade.placeOf _
    obtain ⟨hkept, hgone⟩ := keeps_replace_of_ok hsave
    rw [hdraft, hfile] at hkept
    rw [hdraft] at hgone
    exact ⟨(hmade.mono fun _ _ => trivial).trans hkept, hgone⟩

end Outcome

/-- If saving a cache within the limit fails, every file is as it was before, the file of the cache
among them, except at the place of the draft: there no file is left, or the one that stood there
before.  If it succeeds, the file of the cache holds the text of the cache, no file is left at the
place of the draft, and every other file is as it was before. -/
theorem save_keeps_files (root : String) (moment : Moment) (cache : Cache) (fs : FileSystem)
    (hsize : (Text.encode cache.text).length ≤ sizeLimit) :
    (∀ failure after, save root moment cache fs = (.error failure, after) →
      after.tree.fileAt? (filePlace root fs) = fs.tree.fileAt? (filePlace root fs) ∧
      Keeps (· ≠ draftPlace root moment fs) fs after ∧
      (after.tree.fileAt? (draftPlace root moment fs) = none ∨
        after.tree.fileAt? (draftPlace root moment fs) =
          fs.tree.fileAt? (draftPlace root moment fs))) ∧
    ∀ after, save root moment cache fs = (.ok (), after) →
      after.read (pathOf root) = .ok (Text.encode cache.text) ∧
      after.tree.fileAt? (filePlace root fs) = some (Text.encode cache.text) ∧
      after.tree.fileAt? (draftPlace root moment fs) = none ∧
      Keeps (fun place => place ≠ draftPlace root moment fs ∧ place ≠ filePlace root fs) fs
        after := by
  constructor
  · intro failure after hsave
    obtain ⟨hkept, hdraft⟩ := keeps_save_of_error hsize hsave
    exact ⟨hkept.files _ (draftPlace_ne_filePlace root moment fs).symm, hkept, hdraft⟩
  · intro after hsave
    have hread := read_of_save hsize hsave
    obtain ⟨hkept, hgone⟩ := keeps_save_of_ok hsize hsave
    have hcontent : after.tree.fileAt? (filePlace root fs) = some (Text.encode cache.text) := by
      have hkind := read_below_eq_ok (folderOf_ne_empty root) isName_fileName hread
      rw [← filePlace_eq] at hkind
      have hplace : filePlace root after = filePlace root fs := hkept.placeOf _
      rw [← hplace, Tree.fileAt?, hkind]
    exact ⟨hread, hcontent, hgone, hkept⟩

/-! ### A folder in the way -/

/-- A project with a folder in place of its cache. -/
def blockedProject : FileSystem where
  tree := .folder [("p", .folder
    [(".deadexport", .folder [("cache.json", .folder [("notes", .file [1])])])])]

/-- A project with a source and with the file of an earlier cache. -/
def keptProject : FileSystem where
  tree := .folder [("p", .folder
    [("a.js", .file [2]), (".deadexport", .folder [("cache.json", .file [3])])])]

/-- A cache without modules. -/
def bare : Cache where
  stamp := Stamp.current 7
  modules := ∅

theorem length_text_bare : (Text.encode bare.text).length ≤ sizeLimit := by
  rw [length_text]
  decide +kernel

theorem save_keeps_files_blocked :
    (Text.encode bare.text).length ≤ sizeLimit ∧
    (∃ failure after, save "/p" {} bare blockedProject = (.error failure, after) ∧
      after.tree.fileAt? ["p", ".deadexport", "cache.json", "notes"] = some [1] ∧
      after.tree.fileAt? (draftPlace "/p" {} blockedProject) = none) ∧
    ∃ after, save "/p" {} bare keptProject = (.ok (), after) ∧
      after.read (pathOf "/p") = .ok (Text.encode bare.text) ∧
      after.tree.fileAt? ["p", "a.js"] = some [2] ∧
      after.tree.fileAt? (draftPlace "/p" {} keptProject) = none := by
  refine ⟨length_text_bare, ?_, ?_⟩
  · have hfails : (save "/p" {} bare blockedProject).1.toOption = none := by
      rw [save_eq length_text_bare]
      decide +kernel
    have hbefore : blockedProject.tree.fileAt? (draftPlace "/p" {} blockedProject) = none := by
      decide +kernel
    generalize hsave : save "/p" {} bare blockedProject = result at hfails
    obtain ⟨outcome, after⟩ := result
    cases outcome with
    | ok _ => cases hfails
    | error failure =>
        obtain ⟨-, hkept, hdraft⟩ :=
          (save_keeps_files "/p" {} bare blockedProject length_text_bare).1 failure after hsave
        rw [hbefore, or_self] at hdraft
        exact ⟨failure, after, rfl, hkept.files _ (by decide +kernel), hdraft⟩
  · have hsucceeds : (save "/p" {} bare keptProject).1.toOption = some () := by
      rw [save_eq length_text_bare]
      decide +kernel
    generalize hsave : save "/p" {} bare keptProject = result at hsucceeds
    obtain ⟨outcome, after⟩ := result
    obtain rfl : outcome = .ok () := eq_ok_of_toOption hsucceeds
    obtain ⟨hread, -, hgone, hkept⟩ :=
      (save_keeps_files "/p" {} bare keptProject length_text_bare).2 after hsave
    exact ⟨after, rfl, hread, hkept.files _ (by decide +kernel), hgone⟩

/-! ### A file in place of the draft -/

/-- Two projects with a file in place of the draft of the first moment, and with the draft of
another save.  In the first one there is a folder in place of the cache. -/
def draftsLeft (blocked : Bool) : FileSystem where
  tree := .folder [("p", .folder
    [(".deadexport", .folder
      [("cache.json", if blocked then .folder [] else .file [3]),
        ("cache.json.0.0.tmp", .file [4]), ("cache.json.7.7.tmp", .file [5])])])]

/-- The file in place of the draft is lost, whether saving fails or succeeds; the draft of another
save is still there after a success. -/
theorem save_overwrites_draftsLeft :
    (∃ failure after, save "/p" {} bare (draftsLeft true) = (.error failure, after) ∧
      (draftsLeft true).tree.fileAt? ["p", ".deadexport", "cache.json.0.0.tmp"] = some [4] ∧
      after.tree.fileAt? ["p", ".deadexport", "cache.json.0.0.tmp"] = none) ∧
    ∃ after, save "/p" {} bare (draftsLeft false) = (.ok (), after) ∧
      (draftsLeft false).tree.fileAt? ["p", ".deadexport", "cache.json.0.0.tmp"] = some [4] ∧
      after.tree.fileAt? ["p", ".deadexport", "cache.json.0.0.tmp"] = none ∧
      after.tree.fileAt? ["p", ".deadexport", "cache.json.7.7.tmp"] = some [5] := by
  constructor
  · have hfails : (save "/p" {} bare (draftsLeft true)).1.toOption = none ∧
        (save "/p" {} bare (draftsLeft true)).2.tree.fileAt?
          ["p", ".deadexport", "cache.json.0.0.tmp"] = none := by
      rw [save_eq length_text_bare]
      decide +kernel
    generalize save "/p" {} bare (draftsLeft true) = result at hfails
    obtain ⟨outcome, after⟩ := result
    cases outcome with
    | ok _ => cases hfails.1
    | error failure => exact ⟨failure, after, rfl, rfl, hfails.2⟩
  · have hsucceeds : (save "/p" {} bare (draftsLeft false)).1.toOption = some () ∧
        (save "/p" {} bare (draftsLeft false)).2.tree.fileAt?
          ["p", ".deadexport", "cache.json.0.0.tmp"] = none ∧
        (save "/p" {} bare (draftsLeft false)).2.tree.fileAt?
          ["p", ".deadexport", "cache.json.7.7.tmp"] = some [5] := by
      rw [save_eq length_text_bare]
      decide +kernel
    generalize save "/p" {} bare (draftsLeft false) = result at hsucceeds
    obtain ⟨outcome, after⟩ := result
    obtain ⟨hok, hdraft, hother⟩ := hsucceeds
    obtain rfl : outcome = .ok () := eq_ok_of_toOption hok
    exact ⟨after, rfl, rfl, hdraft, hother⟩

end Cache

end LiveExports

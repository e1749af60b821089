import Mathlib.Data.List.Basic
import LiveExports.Project.Manifest
import LiveExports.Proofs.Files.Writing

/-!
# What the detection of entries looks at

The entries of a project are found out from its manifest and from index files.  They stay the same
while a folder below the root changes, as long as the detection does not look into that folder: the
manifest and the index files never lie there, and a path that the manifest names may not lead
through it.
-/

namespace LiveExports

namespace FileSystem

/-! ## What paths lead to -/

/-- What a path leads to. -/
def kindOf (fs : FileSystem) (path : String) : Except SystemError (Option Tree.Kind) :=
  (fs.locate path).map fs.tree.kindAt?

/-- What is read where something stands. -/
def contentOf : Option Tree.Kind → Except SystemError (List UInt8)
  | some (.file content) => .ok content
  | some .folder => .error .isFolder
  | none => .error .notFound

theorem isFile_eq_kindOf (fs : FileSystem) (path : String) :
    fs.isFile path = ((fs.kindOf path).toOption.bind id).any (· ≠ .folder) := by
  unfold isFile lookup? kindOf
  cases fs.locate path with
  | error error => rfl
  | ok place =>
      cases hplace : fs.tree.at? place with
      | none => simp [Except.map, Except.toOption, Tree.kindAt?, hplace]
      | some tree =>
          cases tree <;>
            simp [Except.map, Except.toOption, Tree.kindAt?, hplace, Tree.kind, Tree.isFile]

theorem read_eq_kindOf (fs : FileSystem) (path : String) :
    fs.read path = (fs.kindOf path).bind contentOf := by
  unfold FileSystem.read contentAt kindOf
  cases fs.locate path with
  | error error => rfl
  | ok place =>
      cases hplace : fs.tree.at? place with
      | none => simp [bind, Except.bind, Except.map, Tree.kindAt?, hplace, contentOf]
      | some tree =>
          cases tree <;>
            simp [bind, Except.bind, Except.map, Tree.kindAt?, hplace, contentOf, Tree.kind]

/-! ## Changes in a folder -/

/-- The places that a path leads through. -/
def routeOf (fs : FileSystem) (path : String) : List (List Name) :=
  route (fs.start path) (Path.segments path.toList)

/-- Does the path lead through a folder or end there? -/
def LeadsThrough (fs : FileSystem) (folder : List Name) (path : String) : Prop :=
  ∃ place ∈ fs.routeOf path, folder <+: place

instance (fs : FileSystem) (folder : List Name) (path : String) :
    Decidable (fs.LeadsThrough folder path) :=
  inferInstanceAs (Decidable (∃ place ∈ fs.routeOf path, _))

theorem destination_mem_route (place : List Name) (segments : List (List Char)) :
    destination place segments ∈ route place segments := by
  induction segments generalizing place with
  | nil => simp [destination, route]
  | cons segment segments ih => exact List.mem_cons_of_mem _ (ih _)

/-- Names lead only further down. -/
theorem prefix_of_mem_route {place stop : List Name} {segments : List (List Char)}
    (hnames : ∀ segment ∈ segments, leadsToFolder segment = false)
    (h : stop ∈ route place segments) : place <+: stop := by
  induction segments generalizing place with
  | nil => simp [List.mem_singleton.mp h]
  | cons segment segments ih =>
      rcases List.mem_cons.mp h with rfl | hrest
      · exact List.prefix_refl _
      · rw [placeAfter_name (hnames segment (by simp))] at hrest
        exact (List.prefix_append _ _).trans
          (ih (fun other hother => hnames other (by simp [hother])) hrest)

namespace ChangesIn

variable {folder : List Name} {fs other : FileSystem}

theorem start (h : ChangesIn folder fs other) (path : String) :
    other.start path = fs.start path := by
  rw [FileSystem.start, FileSystem.start, h.workingFolder]

/-- A path that can be followed alike leads to the same, unless that is in the folder. -/
theorem kindOf_eq_of_walk (h : ChangesIn folder fs other) {path : String}
    (hwalk : other.walk (fs.start path) (Path.segments path.toList) =
      fs.walk (fs.start path) (Path.segments path.toList))
    (hplace : ¬ folder <+: fs.placeOf path) : other.kindOf path = fs.kindOf path := by
  unfold kindOf locate
  rw [h.start, hwalk]
  cases checkPath path with
  | error error => rfl
  | ok _ =>
      cases hlast : fs.walk (fs.start path) (Path.segments path.toList) with
      | error error => rfl
      | ok last =>
          have hdestination : last = fs.placeOf path := eq_destination_of_walk hlast
          exact congrArg Except.ok (h.outside last (hdestination ▸ hplace))

theorem kindOf_eq (h : ChangesIn folder fs other) {path : String}
    (hpath : ¬ fs.LeadsThrough folder path) : other.kindOf path = fs.kindOf path := by
  have hroute : ∀ place ∈ fs.routeOf path, ¬ folder <+: place := fun place hplace hprefix =>
    hpath ⟨place, hplace, hprefix⟩
  refine h.kindOf_eq_of_walk (walk_eq_of_route fun place hplace => ?_) ?_
  · exact h.outside place (hroute place hplace)
  · exact hroute _ (destination_mem_route _ _)

end ChangesIn

/-! ## Names below the root -/

section Root

variable {fs other : FileSystem} {root folder : String} {place : List Name} (hroot : root ≠ "")
  (hfolder : Path.IsName folder) (hlocate : fs.locate root = .ok place)
  (h : ChangesIn (fs.placeOf (Path.below root folder)) fs other)

include hroot hfolder hlocate h

/-- What is neither in the folder nor above it is as it was. -/
theorem kindAt?_place : other.tree.kindAt? place = fs.tree.kindAt? place := by
  obtain ⟨_, -, hwalk⟩ := exists_of_bind_eq_ok hlocate
  obtain rfl : place = fs.placeOf root := eq_destination_of_walk hwalk
  rw [placeOf_below hroot hfolder] at h
  refine h.outside _ fun hprefix => ?_
  have hlength := hprefix.length_le
  rw [List.length_append, List.length_singleton] at hlength
  omega

theorem kindAt?_place_append {name : String} (hname : name ≠ folder) (rest : List Name) :
    other.tree.kindAt? (place ++ .ofText name :: rest) =
      fs.tree.kindAt? (place ++ .ofText name :: rest) := by
  obtain ⟨_, -, hwalk⟩ := exists_of_bind_eq_ok hlocate
  obtain rfl : place = fs.placeOf root := eq_destination_of_walk hwalk
  rw [placeOf_below hroot hfolder] at h
  refine h.outside _ fun hprefix => hname ?_
  simpa [List.prefix_append_right_inj, eq_comm] using hprefix

/-- The root can be followed as before, as no folder is lost. -/
theorem walk_root : other.walk (fs.start root) (Path.segments root.toList) =
    fs.walk (fs.start root) (Path.segments root.toList) := by
  obtain ⟨_, -, hwalk⟩ := exists_of_bind_eq_ok hlocate
  rw [hwalk]
  refine walk_eq_ok_of_folders h.folders hwalk ?_
  rw [kindAt?_place hroot hfolder hlocate h]
  exact Option.isSome_iff_ne_none.mp (kindAt?_isSome_of_locate hlocate)

/-- From the root, other names can be followed as before. -/
theorem walk_names {name : String} (hname : Path.IsName name) (hne : name ≠ folder)
    {rest : List (List Char)} (hrest : ∀ segment ∈ rest, leadsToFolder segment = false) :
    other.walk place (name.toList :: rest) = fs.walk place (name.toList :: rest) := by
  refine walk_eq_of_route fun stop hstop => ?_
  rcases List.mem_cons.mp hstop with rfl | hstop
  · exact kindAt?_place hroot hfolder hlocate h
  · obtain ⟨more, rfl⟩ := prefix_of_mem_route hrest hstop
    rw [placeAfter_name hname.2, Name.ofChars_toList, List.append_assoc, List.singleton_append]
    exact kindAt?_place_append hroot hfolder hlocate h hne more

theorem kindOf_below_root {name : String} (hname : Path.IsName name) (hne : name ≠ folder) :
    other.kindOf (Path.below root name) = fs.kindOf (Path.below root name) := by
  obtain ⟨_, -, hwalk⟩ := exists_of_bind_eq_ok hlocate
  refine h.kindOf_eq_of_walk ?_ ?_
  · rw [start_below hroot hname, walk_below hroot hname, walk_below hroot hname,
      walk_root hroot hfolder hlocate h, hwalk]
    exact walk_names hroot hfolder hlocate h hname hne (by simp)
  · rw [placeOf_below hroot hname, placeOf_below hroot hfolder]
    simpa [List.prefix_append_right_inj] using Ne.symm hne

theorem kindOf_below_below_root {inner name : String} (hinner : Path.IsName inner)
    (hne : inner ≠ folder) (hname : Path.IsName name) :
    other.kindOf (Path.below (Path.below root inner) name) =
      fs.kindOf (Path.below (Path.below root inner) name) := by
  obtain ⟨_, -, hwalk⟩ := exists_of_bind_eq_ok hlocate
  have hbelow : Path.below root inner ≠ "" := Path.below_ne_empty hinner
  have hnames : ∀ segment ∈ [name.toList], leadsToFolder segment = false := by
    simpa using hname.2
  refine h.kindOf_eq_of_walk ?_ ?_
  · rw [start_below hbelow hname, start_below hroot hinner, walk_below hbelow hname,
      walk_below hbelow hname, walk_below hroot hinner, walk_below hroot hinner,
      walk_root hroot hfolder hlocate h, hwalk]
    change (other.walk place [inner.toList]).bind _ = (fs.walk place [inner.toList]).bind _
    rw [← walk_append, ← walk_append]
    exact walk_names hroot hfolder hlocate h hinner hne hnames
  · rw [placeOf_below hbelow hname, placeOf_below hroot hinner, placeOf_below hroot hfolder]
    simpa [List.prefix_append_right_inj] using Ne.symm hne

end Root

end FileSystem

/-! ## Entries -/

/-- Resolution depends on which of the candidates are files. -/
theorem Resolver.resolve_congr (resolver other : Resolver) (source : ModuleId) (specifier : String)
    (hextensions : other.extensions = resolver.extensions)
    (hcase : other.ignoreCase = resolver.ignoreCase)
    (h : ∀ path ∈ resolver.candidatesFor source specifier,
      other.isFile path = resolver.isFile path) :
    other.resolve source specifier = resolver.resolve source specifier := by
  have htried : other.candidatesFor source specifier = resolver.candidatesFor source specifier := by
    rw [candidatesFor, candidatesFor, hextensions]
  have hfound : (resolver.candidatesFor source specifier).find? other.isFile =
      (resolver.candidatesFor source specifier).find? resolver.isFile := by
    rw [← List.head?_filter, ← List.head?_filter, List.filter_congr h]
  rw [resolve, resolve, htried, hfound, hcase]

namespace Manifest

/-- The paths that are tried for the entries that the manifest of a project names. -/
def tried (root : String) (fs : FileSystem) : List String :=
  (((fs.readText (Path.below root fileName)).toOption.bind parse?).map fun manifest =>
    (specifiers manifest).flatMap fun specifier =>
      Resolver.candidatesFor { isFile := fs.isFile } (ModuleId.ofPath (Path.below root fileName))
        (anchored specifier)).getD []

theorem namedEntries_eq {root : String} {fs other : FileSystem}
    (hmanifest : other.kindOf (Path.below root fileName) = fs.kindOf (Path.below root fileName))
    (htried : ∀ path ∈ tried root fs, other.isFile path = fs.isFile path) :
    namedEntries root other = namedEntries root fs := by
  have hread : other.readText (Path.below root fileName) =
      fs.readText (Path.below root fileName) := by
    rw [FileSystem.readText, FileSystem.readText, FileSystem.read_eq_kindOf,
      FileSystem.read_eq_kindOf, hmanifest]
  unfold namedEntries
  unfold tried at htried
  dsimp only
  rw [hread]
  cases hparse : (fs.readText (Path.below root fileName)).toOption.bind parse? with
  | none => rfl
  | some manifest =>
      rw [hparse] at htried
      refine List.filterMap_congr fun specifier hspecifier => ?_
      rw [Resolver.resolve_congr { isFile := fs.isFile } { isFile := other.isFile } _ _ rfl rfl
        fun path hpath => htried path (List.mem_flatMap.mpr ⟨specifier, hspecifier, hpath⟩)]

/-- The extensions of index files. -/
def indexExtensions : List String := ["js", "ts", "mjs", "jsx", "tsx"]

/-- The names below the root that the detection of entries looks at. -/
def namesLookedAt : List String :=
  fileName :: "src" :: indexExtensions.map fun ext => s!"index.{ext}"

theorem isName_index {ext : String} (h : ext ∈ indexExtensions) : Path.IsName s!"index.{ext}" := by
  simp only [indexExtensions, List.mem_cons, List.not_mem_nil, or_false] at h
  rcases h with rfl | rfl | rfl | rfl | rfl <;> decide

theorem indexFiles_eq {folder : String} {fs other : FileSystem}
    (h : ∀ ext ∈ indexExtensions, other.kindOf (Path.below folder s!"index.{ext}") =
      fs.kindOf (Path.below folder s!"index.{ext}")) :
    indexFiles folder other = indexFiles folder fs := by
  refine List.filter_congr fun path hpath => ?_
  obtain ⟨ext, hext, rfl⟩ := List.mem_map.mp hpath
  rw [FileSystem.isFile_eq_kindOf, FileSystem.isFile_eq_kindOf, h ext hext]

/-- The entries of a project stay the same while a folder below its root changes that is not looked
into. -/
theorem entries_eq {fs other : FileSystem} {root folder : String} {place : List Name}
    (hroot : root ≠ "") (hlocate : fs.locate root = .ok place) (hfolder : Path.IsName folder)
    (hnames : folder ∉ namesLookedAt)
    (h : FileSystem.ChangesIn (fs.placeOf (Path.below root folder)) fs other)
    (htried : ∀ path ∈ tried root fs,
      ¬ fs.LeadsThrough (fs.placeOf (Path.below root folder)) path) :
    entries root other = entries root fs := by
  have hother : ∀ name ∈ namesLookedAt, name ≠ folder := by
    rintro name hname rfl
    exact hnames hname
  have hnamed : namedEntries root other = namedEntries root fs := by
    refine namedEntries_eq ?_ fun path hpath => ?_
    · exact FileSystem.kindOf_below_root hroot hfolder hlocate h (by decide)
        (hother fileName (by simp [namesLookedAt]))
    · rw [FileSystem.isFile_eq_kindOf, FileSystem.isFile_eq_kindOf,
        h.kindOf_eq (htried path hpath)]
  have hindex : indexFiles root other = indexFiles root fs :=
    indexFiles_eq fun ext hext => FileSystem.kindOf_below_root hroot hfolder hlocate h
      (isName_index hext)
      (hother _ (List.mem_cons_of_mem _ (List.mem_cons_of_mem _ (List.mem_map_of_mem hext))))
  have hsource : indexFiles (Path.below root "src") other = indexFiles (Path.below root "src") fs :=
    indexFiles_eq fun ext hext => FileSystem.kindOf_below_below_root hroot hfolder hlocate h
      (by decide) (hother "src" (by simp [namesLookedAt])) (isName_index hext)
  rw [entries, entries, hnamed, hindex, hsource]

end Manifest

end LiveExports

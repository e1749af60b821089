import LiveExports.Proofs.Path.Cleaning
import LiveExports.Resolution

/-!
# Resolution stays among the known files

A resolver over known files gives only identifiers of known files (`exists_file_of_resolve`), and an
identifier that it gives is resolved to itself from everywhere (`resolve_text_of_resolve`).

A candidate is looked up as it is spelled up to case, and what is given is cleaned and put into
lower case once more.  That this makes no difference is because the known files are canonical: a
candidate that is spelled like one of them is canonical as well, so that cleaning it does nothing.
An identifier resolves to itself because it is its own first candidate, and it is so because it
carries an extension.
-/

namespace LiveExports

/-- The resolver over a list of files. -/
def Resolver.ofFiles (files extensions : List String) (ignoreCase : Bool) : Resolver where
  isFile := (KnownFiles.ofPaths files ignoreCase).has
  extensions := extensions
  ignoreCase := ignoreCase

/-- An absolute path without backslashes. -/
def Path.IsPlain (path : String) : Prop :=
  Path.isAbsolute path.toList = true ∧ '\\' ∉ path.toList

/-- An extension that begins with a full stop and holds no slash. -/
def Path.IsExtension (ext : String) : Prop :=
  ∃ rest, ext.toList = '.' :: rest ∧ '/' ∉ rest

namespace Text

theorem folded_folded (ignoreCase : Bool) (text : List Char) :
    folded ignoreCase (folded ignoreCase text) = folded ignoreCase text := by
  cases ignoreCase with
  | false => rfl
  | true => exact lower_lower text

theorem backslash_mem_folded_iff (ignoreCase : Bool) (text : List Char) :
    '\\' ∈ folded ignoreCase text ↔ '\\' ∈ text := by
  cases ignoreCase with
  | false => rfl
  | true => exact (keepsMarks_lower text).mem_iff (by decide)

theorem mem_dropWhile {picks : Char → Bool} {c : Char} (hc : picks c = false) {text : List Char}
    (h : c ∈ text) : c ∈ text.dropWhile picks := by
  rw [← List.takeWhile_append_dropWhile (p := picks) (l := text)] at h
  rcases List.mem_append.mp h with hpicked | hrest
  · have := List.all_eq_true.mp List.all_takeWhile c hpicked
    rw [hc] at this
    cases this
  · exact hrest

theorem isEmpty_trim_of_mem {c : Char} (hc : isBlank c = false) {text : List Char} (h : c ∈ text) :
    (trim text).isEmpty = false := by
  have hstart : c ∈ trimStart text := mem_dropWhile hc h
  have hend : c ∈ trimEnd (trimStart text) :=
    List.mem_reverse.mpr (mem_dropWhile hc (List.mem_reverse.mpr hstart))
  exact List.isEmpty_eq_false_iff.mpr (List.ne_nil_of_mem hend)

end Text

namespace Path

theorem isCanonical_folded_iff (ignoreCase : Bool) (path : List Char) :
    IsCanonical (Text.folded ignoreCase path) ↔ IsCanonical path := by
  cases ignoreCase with
  | false => rfl
  | true => exact isCanonical_lower_iff path

theorem hasExtension_folded (ignoreCase : Bool) {path : List Char} (hcanonical : IsCanonical path)
    (h : hasExtension path = true) : hasExtension (Text.folded ignoreCase path) = true := by
  cases ignoreCase with
  | false => exact h
  | true => exact hasExtension_lower hcanonical h

end Path

/-! ## Spelling -/

namespace ModuleId

theorem spell_eq_folded (ignoreCase : Bool) (path : List Char) :
    spell ignoreCase path = Text.folded ignoreCase (Path.forward (Path.clean path)) := by
  unfold spell Text.folded
  rfl

/-- A canonical path without backslashes is only put into lower case. -/
theorem spell_of_isCanonical {ignoreCase : Bool} {path : List Char} (h : Path.IsCanonical path)
    (hbackslash : '\\' ∉ path) : spell ignoreCase path = Text.folded ignoreCase path := by
  rw [spell_eq_folded, Path.clean_of_isCanonical h, Path.forward_of_not_mem hbackslash]

/-- The spelling of a plain path is canonical. -/
theorem isCanonical_spell {ignoreCase : Bool} {path : String} (h : Path.IsPlain path) :
    Path.IsCanonical (spell ignoreCase path.toList) ∧ '\\' ∉ spell ignoreCase path.toList := by
  have hbackslash : '\\' ∉ Path.clean path.toList := fun hmem =>
    h.2 (Path.mem_of_mem_clean h.1 hmem)
  rw [spell_eq_folded, Path.forward_of_not_mem hbackslash, Path.isCanonical_folded_iff,
    Text.backslash_mem_folded_iff]
  exact ⟨Path.isCanonical_clean h.1, hbackslash⟩

end ModuleId

/-! ## Candidates -/

namespace KnownFiles

theorem has_iff {files : List String} {ignoreCase : Bool} {path : String} :
    (ofPaths files ignoreCase).has path = true ↔
      ∃ file ∈ files,
        Text.folded ignoreCase path.toList = ModuleId.spell ignoreCase file.toList := by
  have hmem : ∀ text : String, (ofPaths files ignoreCase).files.contains text = true ↔
      ∃ file ∈ files, text.toList = ModuleId.spell ignoreCase file.toList := by
    intro text
    simp only [ofPaths, List.contains_iff_mem, List.mem_eraseDups, List.mem_map, ModuleId.ofPath]
    constructor
    · rintro ⟨file, hfile, rfl⟩
      exact ⟨file, hfile, String.toList_ofList⟩
    · rintro ⟨file, hfile, htext⟩
      exact ⟨file, hfile, by rw [← htext, String.ofList_toList]⟩
  have hcase : (ofPaths files ignoreCase).ignoreCase = ignoreCase := rfl
  unfold has Text.folded
  rw [hcase]
  cases ignoreCase with
  | false => exact hmem path
  | true =>
      rw [if_pos rfl, hmem, String.toList_ofList]
      rfl

end KnownFiles

namespace Resolver

theorem exists_candidate_of_resolve {resolver : Resolver} {source : ModuleId} {specifier : String}
    {id : ModuleId} (h : resolver.resolve source specifier = .ok id) :
    ∃ path ∈ resolver.candidatesFor source specifier, resolver.isFile path = true ∧
      id = ModuleId.ofPath path resolver.ignoreCase := by
  unfold resolve at h
  dsimp only at h
  split at h
  · next path hfound =>
    exact ⟨path, List.mem_of_find?_eq_some hfound, List.find?_some hfound,
      (Except.ok.inj h).symm⟩
  · cases h

/-- A candidate is the base path if that carries an extension, or ends in an extension after
something other than a slash. -/
theorem candidate_cases {extensions : List String} {base : List Char} {folderOnly : Bool}
    {path : String} (hbase : base.getLast? ≠ some '/')
    (hextensions : ∀ ext ∈ extensions, Path.IsExtension ext)
    (h : path ∈ candidates extensions base folderOnly) :
    Path.hasExtension path.toList = true ∨
      (∃ rest, path.toList = '.' :: rest) ∨
      ∃ text c rest, path.toList = text ++ c :: '.' :: rest ∧ c ≠ '/' ∧ '/' ∉ rest := by
  unfold candidates at h
  dsimp only at h
  rcases List.mem_append.mp h with hfile | hindex
  · cases folderOnly with
    | true => simp at hfile
    | false =>
        simp only [Bool.false_eq_true, if_false] at hfile
        -- the base path itself, or with an extension put after it
        rcases List.mem_append.mp hfile with hself | hextended
        · split at hself
          · next hextension =>
            rw [List.mem_singleton.mp hself, String.toList_ofList]
            exact .inl hextension
          · cases hself
        · obtain ⟨ext, hext, rfl⟩ := List.mem_map.mp hextended
          obtain ⟨rest, hrest, hslash⟩ := hextensions ext hext
          rw [String.toList_append, String.toList_ofList, hrest]
          rcases List.eq_nil_or_concat base with rfl | ⟨text, c, rfl⟩
          · exact .inr (.inl ⟨rest, rfl⟩)
          · refine .inr (.inr ⟨text, c, rest, by simp, ?_, hslash⟩)
            rintro rfl
            exact hbase (by simp)
  · obtain ⟨ext, hext, rfl⟩ := List.mem_map.mp hindex
    obtain ⟨rest, hrest, hslash⟩ := hextensions ext hext
    refine .inr (.inr ⟨base ++ ['/', 'i', 'n', 'd', 'e'], 'x', rest, ?_, by decide, hslash⟩)
    rw [String.toList_append, String.toList_append, String.toList_ofList, hrest]
    simp

theorem getLast?_basePath (folder specifier : String) :
    (basePath folder specifier).getLast? ≠ some '/' := by
  intro h
  unfold basePath at h
  dsimp only at h
  rw [List.getLast?_reverse] at h
  have hhead := List.head?_dropWhile_not (· == '/')
    (Path.forward (Path.clean (Path.join folder.toList specifier.toList))).reverse
  rw [h] at hhead
  simp at hhead

/-! ## Closure and fixed points -/

section OfFiles

variable {files extensions : List String} {ignoreCase : Bool}
  (hfiles : ∀ file ∈ files, Path.IsPlain file)

include hfiles

/-- A candidate that is a known file is canonical, and is spelled as that file is. -/
theorem isCanonical_of_isFile {path : String}
    (h : (ofFiles files extensions ignoreCase).isFile path = true) :
    Path.IsCanonical path.toList ∧ '\\' ∉ path.toList ∧
      ∃ file ∈ files, ModuleId.ofPath path ignoreCase = ModuleId.ofPath file ignoreCase := by
  obtain ⟨file, hfile, hspelled⟩ := KnownFiles.has_iff.mp h
  obtain ⟨hcanonical, hbackslash⟩ := ModuleId.isCanonical_spell (hfiles file hfile)
  rw [← hspelled, Path.isCanonical_folded_iff] at hcanonical
  rw [← hspelled, Text.backslash_mem_folded_iff] at hbackslash
  refine ⟨hcanonical, hbackslash, file, hfile, ?_⟩
  rw [ModuleId.ofPath, ModuleId.ofPath, ModuleId.spell_of_isCanonical hcanonical hbackslash,
    hspelled]

theorem exists_file_of_resolve {source id : ModuleId} {specifier : String}
    (h : (ofFiles files extensions ignoreCase).resolve source specifier = .ok id) :
    ∃ file ∈ files, id = ModuleId.ofPath file ignoreCase := by
  obtain ⟨path, -, hisFile, rfl⟩ := exists_candidate_of_resolve h
  obtain ⟨-, -, file, hfile, hsame⟩ := isCanonical_of_isFile hfiles hisFile
  exact ⟨file, hfile, hsame⟩

/-- What is found carries an extension, if extensions look like extensions. -/
theorem hasExtension_of_candidate {source : ModuleId} {specifier path : String}
    (hextensions : ∀ ext ∈ extensions, Path.IsExtension ext)
    (hcandidate : path ∈ (ofFiles files extensions ignoreCase).candidatesFor source specifier)
    (hisFile : (ofFiles files extensions ignoreCase).isFile path = true) :
    Path.hasExtension path.toList = true := by
  obtain ⟨hcanonical, -, -⟩ := isCanonical_of_isFile hfiles hisFile
  unfold candidatesFor at hcandidate
  split at hcandidate
  · cases hcandidate
  rcases candidate_cases (getLast?_basePath _ _) hextensions hcandidate with
    hextension | ⟨rest, hrelative⟩ | ⟨text, c, rest, hpath, hc, hrest⟩
  · exact hextension
  · -- A path that begins with a full stop is no known file.
    have habsolute := Path.isAbsolute_of_isCanonical hcanonical
    rw [hrelative] at habsolute
    cases habsolute
  · exact Path.hasExtension_append hcanonical hpath hc hrest

omit hfiles in
/-- A canonical path of a known file is resolved to itself if it carries an extension, as it is then
tried first. -/
theorem resolve_of_isCanonical {text : String} (hcanonical : Path.IsCanonical text.toList)
    (hbackslash : '\\' ∉ text.toList) (hextension : Path.hasExtension text.toList = true)
    (hfolded : Text.folded ignoreCase text.toList = text.toList)
    (hisFile : (ofFiles files extensions ignoreCase).isFile text = true) (source : ModuleId) :
    (ofFiles files extensions ignoreCase).resolve source text = .ok ⟨text⟩ := by
  have habsolute := Path.isAbsolute_of_isCanonical hcanonical
  have hlast := Path.getLast?_of_hasExtension hcanonical hextension
  have hblank : (Text.trim text.toList).isEmpty = false := by
    obtain ⟨rest, hrest⟩ := Path.eq_cons_of_isAbsolute habsolute
    rw [hrest]
    exact Text.isEmpty_trim_of_mem (by decide) List.mem_cons_self
  -- An absolute path is joined to nothing, and loses no slash at its end.
  have hbase : basePath source.folder text = text.toList := by
    unfold basePath
    dsimp only
    rw [Path.join, if_pos habsolute, Path.clean_of_isCanonical hcanonical,
      Path.forward_of_not_mem hbackslash]
    have hkept : text.toList.reverse.dropWhile (· == '/') = text.toList.reverse := by
      cases hreversed : text.toList.reverse with
      | nil => rfl
      | cons c rest =>
          have hc : c ≠ '/' := by
            rintro rfl
            exact hlast (by rw [← List.head?_reverse, hreversed]; rfl)
          rw [List.dropWhile_cons_of_neg (by simpa using hc)]
    rw [hkept, List.reverse_reverse]
  have hfirst : ∃ others, (ofFiles files extensions ignoreCase).candidatesFor source text =
      text :: others := by
    unfold candidatesFor
    rw [hblank, hbase]
    simp [candidates, hextension, hlast]
  obtain ⟨others, hothers⟩ := hfirst
  have hid : ModuleId.ofPath text ignoreCase = ⟨text⟩ := by
    rw [ModuleId.ofPath, ModuleId.spell_of_isCanonical hcanonical hbackslash, hfolded,
      String.ofList_toList]
  unfold resolve
  dsimp only
  rw [hothers, List.find?_cons_of_pos hisFile]
  exact congrArg Except.ok hid

/-- An identifier that a specifier was resolved to is resolved to itself from everywhere. -/
theorem resolve_text_of_resolve {source id : ModuleId} {specifier : String}
    (hextensions : ∀ ext ∈ extensions, Path.IsExtension ext)
    (h : (ofFiles files extensions ignoreCase).resolve source specifier = .ok id)
    (other : ModuleId) : (ofFiles files extensions ignoreCase).resolve other id.text = .ok id := by
  obtain ⟨path, hcandidate, hisFile, rfl⟩ := exists_candidate_of_resolve h
  have hextension := hasExtension_of_candidate hfiles hextensions hcandidate hisFile
  obtain ⟨hcanonical, hbackslash, -⟩ := isCanonical_of_isFile hfiles hisFile
  have hid : ModuleId.ofPath path ignoreCase =
      ⟨String.ofList (Text.folded ignoreCase path.toList)⟩ := by
    rw [ModuleId.ofPath, ModuleId.spell_of_isCanonical hcanonical hbackslash]
  change (ofFiles files extensions ignoreCase).resolve other
    (ModuleId.ofPath path ignoreCase).text = .ok (ModuleId.ofPath path ignoreCase)
  rw [hid]
  -- Folding twice is folding once, so the identifier names the same file.
  have hagain : (ofFiles files extensions ignoreCase).isFile
      (String.ofList (Text.folded ignoreCase path.toList)) = true := by
    obtain ⟨file, hfile, hspelled⟩ := KnownFiles.has_iff.mp hisFile
    refine KnownFiles.has_iff.mpr ⟨file, hfile, ?_⟩
    rw [String.toList_ofList, Text.folded_folded, hspelled]
  refine resolve_of_isCanonical ?_ ?_ ?_ ?_ hagain other <;> rw [String.toList_ofList]
  · exact (Path.isCanonical_folded_iff ignoreCase _).mpr hcanonical
  · rw [Text.backslash_mem_folded_iff]
    exact hbackslash
  · exact Path.hasExtension_folded ignoreCase hcanonical hextension
  · exact Text.folded_folded ignoreCase _

end OfFiles

end Resolver

end LiveExports

import LiveExports.Cache.Extraction
import LiveExports.Proofs.Ordered.Listing

/-!
# Reading sources with a faithful cache

A cache is faithful to some contents if each of its modules holds the digest and the declarations of
one of them.  As long as digests tell these contents from those of the files, files are read with a
faithful cache as they are read without one (`Extraction.entries_eq`, `Extraction.failures_eq`).
The cache for the next run is faithful to what it was faithful to before and to what was read since
(`Extraction.isFaithful_cache`).
-/

namespace LiveExports

theorem eq_ok_of_toOption {ε α : Type} {result : Except ε α} {a : α}
    (h : result.toOption = some a) : result = .ok a := by
  cases result with
  | error error => cases h
  | ok b => exact congrArg Except.ok (Option.some.inj h)

theorem Declarations.ofSource_eq_ok_iff {module : ModuleId} {source : String}
    {declarations : Declarations} :
    ofSource module source = .ok declarations ↔ Source.read source.toList = .ok declarations := by
  unfold ofSource
  cases Source.read source.toList <;> simp

/-- Different contents have different digests. -/
def Digest.TellsApart (contents : List (List UInt8)) : Prop :=
  ∀ content ∈ contents, ∀ other ∈ contents, ofBytes content = ofBytes other → content = other

instance (contents : List (List UInt8)) : Decidable (Digest.TellsApart contents) :=
  inferInstanceAs (Decidable (∀ content ∈ contents, ∀ other ∈ contents, _))

/-- A cached module holds what is read from a content.  Which module that is does not matter. -/
structure CachedModule.IsOf (content : List UInt8) (entry : CachedModule) : Prop where
  digest : entry.digest = Digest.ofBytes content
  declarations : Source.read (Text.decodeLossy content).toList = .ok entry.declarations

/-- This release can use the cache, and its modules come from the given contents. -/
structure Cache.IsFaithful (contents : List (List UInt8)) (cache : Cache) : Prop where
  isCompatible : cache.stamp.isCompatible = true
  isOf : ∀ entry ∈ cache.modules.entries, ∃ content ∈ contents, entry.2.IsOf content

theorem Cache.IsFaithful.mono {contents more : List (List UInt8)} {cache : Cache}
    (h : cache.IsFaithful contents) (hsub : contents ⊆ more) : cache.IsFaithful more where
  isCompatible := h.isCompatible
  isOf entry hentry := by
    obtain ⟨content, hcontent, hof⟩ := h.isOf entry hentry
    exact ⟨content, hsub hcontent, hof⟩

/-- The contents of those files that can be read. -/
def FileSystem.contents (fs : FileSystem) (files : List FilePath) : List (List UInt8) :=
  files.filterMap fun file => (fs.readFile file).toOption

theorem FileSystem.mem_contents {fs : FileSystem} {files : List FilePath} {file : FilePath}
    {content : List UInt8} (hfile : file ∈ files) (h : fs.readFile file = .ok content) :
    content ∈ fs.contents files :=
  List.mem_filterMap.mpr ⟨file, hfile, by rw [h]; rfl⟩

/-! ## One file -/

namespace Reading

variable {fs : FileSystem} {cache : Option Cache} {seen : List (List UInt8)} {ignoreCase : Bool}
  {file : FilePath}

theorem module_ofFile (fs : FileSystem) (cache : Option Cache) (ignoreCase : Bool)
    (file : FilePath) :
    (ofFile fs cache ignoreCase file).module = ModuleId.ofPath file.text ignoreCase := by
  unfold ofFile
  dsimp only
  split
  · rfl
  · split <;> rfl

/-- What is found in a faithful cache under the digest of a content comes from a content with that
digest. -/
theorem isOf_of_find? {content : List UInt8} {key : String} {entry : CachedModule}
    (hcache : ∀ loaded, cache = some loaded → loaded.IsFaithful seen)
    (h : (cache.bind fun cache => cache.modules.find? key).filter
      (·.digest == Digest.ofBytes content) = some entry) :
    ∃ other ∈ seen, entry.IsOf other ∧ Digest.ofBytes other = Digest.ofBytes content := by
  obtain ⟨hfind, hdigest⟩ := Option.filter_eq_some_iff.mp h
  obtain ⟨loaded, hloaded, hfind⟩ := Option.bind_eq_some_iff.mp hfind
  obtain ⟨other, hother, hof⟩ := (hcache loaded hloaded).isOf _ (Table.find?_eq_some_iff.mp hfind)
  have hsame : entry.digest = Digest.ofBytes content := by simpa using hdigest
  exact ⟨other, hother, hof, hof.digest ▸ hsame⟩

/-- A module comes from the content of its file or from the cache. -/
theorem isOf_of_outcome {entry : CachedModule}
    (hcache : ∀ loaded, cache = some loaded → loaded.IsFaithful seen)
    (h : (ofFile fs cache ignoreCase file).outcome = .ok entry) :
    (∃ content, fs.readFile file = .ok content ∧ entry.IsOf content) ∨
      ∃ content ∈ seen, entry.IsOf content := by
  unfold ofFile at h
  dsimp only at h
  split at h
  · cases h
  next content hread =>
    split at h
    · next found hfound =>
      obtain ⟨other, hother, hof, -⟩ := isOf_of_find? hcache hfound
      have hentry : found = entry := Except.ok.inj h
      exact .inr ⟨other, hother, hentry ▸ hof⟩
    · cases hsource : Declarations.ofSource (ModuleId.ofPath file.text ignoreCase)
          (Text.decodeLossy content) with
      | error fault =>
          rw [hsource] at h
          cases h
      | ok declarations =>
          rw [hsource] at h
          have hentry : ⟨Digest.ofBytes content, declarations⟩ = entry := Except.ok.inj h
          refine .inl ⟨content, hread, ?_⟩
          rw [← hentry]
          exact ⟨rfl, Declarations.ofSource_eq_ok_iff.mp hsource⟩

/-- A hit in a faithful cache gives what would have been read. -/
theorem outcome_eq (hcache : ∀ loaded, cache = some loaded → loaded.IsFaithful seen)
    (hdigest : ∀ content, fs.readFile file = .ok content → ∀ other ∈ seen,
      Digest.ofBytes other = Digest.ofBytes content → other = content) :
    (ofFile fs cache ignoreCase file).outcome = (ofFile fs none ignoreCase file).outcome := by
  unfold ofFile
  dsimp only
  cases hread : fs.readFile file with
  | error error => rfl
  | ok content =>
      dsimp only [Option.bind_none, Option.filter_none]
      split
      · next entry hfound =>
        obtain ⟨other, hother, hof, hsame⟩ := isOf_of_find? hcache hfound
        have hcontent : other = content := hdigest content hread other hother hsame
        rw [hcontent] at hof
        dsimp only
        rw [Declarations.ofSource_eq_ok_iff.mpr hof.declarations, ← hof.digest]
        rfl
      · rfl

end Reading

/-! ## Many files -/

namespace Extraction

variable {fs : FileSystem} {cache : Option Cache} {seen : List (List UInt8)} {ignoreCase : Bool}
  {files : List FilePath}

/-- What is collected from readings by their modules and outcomes does not depend on the cache, if
each file is read alike. -/
theorem filterMap_readings_eq {γ : Type} {other : Option Cache} {collect : Reading → Option γ}
    (hcollect : ∀ reading same : Reading, reading.module = same.module →
      reading.outcome = same.outcome → collect reading = collect same)
    (h : ∀ file ∈ files, (Reading.ofFile fs cache ignoreCase file).outcome =
      (Reading.ofFile fs other ignoreCase file).outcome) :
    (ofFiles fs cache ignoreCase files).readings.filterMap collect =
      (ofFiles fs other ignoreCase files).readings.filterMap collect := by
  induction files with
  | nil => rfl
  | cons file files ih =>
      have hfile : collect (Reading.ofFile fs cache ignoreCase file) =
          collect (Reading.ofFile fs other ignoreCase file) := by
        refine hcollect _ _ ?_ (h file List.mem_cons_self)
        rw [Reading.module_ofFile, Reading.module_ofFile]
      have hrest := ih fun next hnext => h next (List.mem_cons_of_mem _ hnext)
      unfold ofFiles at hrest ⊢
      rw [List.map_cons, List.map_cons, List.filterMap_cons, List.filterMap_cons, hfile, hrest]

/-- A module that was read comes from one of the files. -/
theorem exists_file_of_mem_entries {module : ModuleId} {entry : CachedModule}
    (h : (module, entry) ∈ (ofFiles fs cache ignoreCase files).entries) :
    ∃ file ∈ files, (Reading.ofFile fs cache ignoreCase file).outcome = .ok entry := by
  obtain ⟨reading, hreading, hmodule⟩ := List.mem_filterMap.mp h
  obtain ⟨file, hfile, rfl⟩ := List.mem_map.mp hreading
  obtain ⟨found, hfound, hpair⟩ := Option.map_eq_some_iff.mp hmodule
  obtain ⟨-, rfl⟩ := Prod.mk.inj hpair
  exact ⟨file, hfile, eq_ok_of_toOption hfound⟩

section Faithful

variable (hcache : ∀ loaded, cache = some loaded → loaded.IsFaithful seen)

include hcache

theorem outcome_eq_of_tellsApart (hdigest : Digest.TellsApart (fs.contents files ++ seen)) :
    ∀ file ∈ files, (Reading.ofFile fs cache ignoreCase file).outcome =
      (Reading.ofFile fs none ignoreCase file).outcome := by
  intro file hfile
  refine Reading.outcome_eq hcache fun content hread other hother hsame => ?_
  have hcontent := FileSystem.mem_contents hfile hread
  exact hdigest other (List.mem_append_right _ hother) content
    (List.mem_append_left _ hcontent) hsame

theorem entries_eq (hdigest : Digest.TellsApart (fs.contents files ++ seen)) :
    (ofFiles fs cache ignoreCase files).entries = (ofFiles fs none ignoreCase files).entries := by
  refine filterMap_readings_eq ?_ (outcome_eq_of_tellsApart hcache hdigest)
  intro reading same hmodule houtcome
  rw [hmodule, houtcome]

theorem failures_eq (hdigest : Digest.TellsApart (fs.contents files ++ seen)) :
    (ofFiles fs cache ignoreCase files).failures = (ofFiles fs none ignoreCase files).failures := by
  refine filterMap_readings_eq ?_ (outcome_eq_of_tellsApart hcache hdigest)
  intro reading same hmodule houtcome
  rw [hmodule, houtcome]

/-- The cache for the next run is faithful, whether digests tell contents apart or not. -/
theorem isFaithful_cache (time : Nat) :
    ((ofFiles fs cache ignoreCase files).cache time).IsFaithful (fs.contents files ++ seen) := by
  refine ⟨?_, ?_⟩
  · unfold Extraction.cache Stamp.current Stamp.isCompatible
    simp
  · rintro ⟨key, entry⟩ hentry
    have hmem := Table.mem_of_find?_ofList (Table.find?_eq_some_iff.mpr hentry)
    obtain ⟨⟨module, _⟩, hread, heq⟩ := List.mem_map.mp hmem
    obtain ⟨-, rfl⟩ := Prod.mk.inj heq
    obtain ⟨file, hfile, houtcome⟩ := exists_file_of_mem_entries hread
    rcases Reading.isOf_of_outcome hcache houtcome with
        ⟨content, hcontent, hof⟩ | ⟨content, hseen, hof⟩
    · exact ⟨content, List.mem_append_left _ (FileSystem.mem_contents hfile hcontent), hof⟩
    · exact ⟨content, List.mem_append_right _ hseen, hof⟩

end Faithful

end Extraction

end LiveExports

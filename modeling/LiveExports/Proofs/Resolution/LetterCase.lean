import LiveExports.Proofs.Resolution.Closure

/-!
# Resolution without regard to case

Where case is ignored, files, extensions, modules and specifiers may be written with letters of
either case.  Texts with the same letters are compared through `small`, which maps the letters of
ASCII one by one and leaves every other character alone.  The library's own `Text.lower` knows all
letters and looks at what stands around them, but it does not tell such texts apart (`lower_small`).

Cleaning, joining and looking for an extension see only slashes, backslashes and full stops, so they
commute with `small`.  Hence the candidates in lower case do not depend on the case of the specifier
(`map_toLower_candidatesFor`), and the first file among the candidates is found at the same place as
among the candidates in lower case (`toOption_resolve_ofFiles`).
-/

namespace LiveExports

/-! ## Letters -/

namespace Text

/-- The text with the letters of ASCII in lower case. -/
def small (text : List Char) : List Char :=
  text.map Char.toLower

/-- Two texts that differ at most in the case of letters of ASCII. -/
def SameLetters (text other : String) : Prop :=
  small text.toList = small other.toList
deriving Decidable

theorem toList_toLower (text : String) : text.toLower.toList = small text.toList :=
  String.toList_map

theorem SameLetters.toLower_eq {text other : String} (h : SameLetters text other) :
    text.toLower = other.toLower := by
  rw [← String.toList_inj, toList_toLower, toList_toLower, h]

theorem toLower_of_beyond {c : Char} (h : ¬ c.toNat < 128) : c.toLower = c := by
  have hupper : ¬ (c.val ≥ 'A'.val ∧ c.val ≤ 'Z'.val) := by
    rintro ⟨-, hle⟩
    have : c.toNat ≤ 90 := hle
    omega
  exact dif_neg hupper

/-- What does not tell cases apart in ASCII does not do so anywhere. -/
theorem apply_toLower {β : Type} (view : Char → β)
    (h : ∀ n < 128, view (Char.ofNat n).toLower = view (Char.ofNat n)) (c : Char) :
    view c.toLower = view c := by
  by_cases hascii : c.toNat < 128
  · have hview := h c.toNat hascii
    rwa [Char.ofNat_toNat] at hview
  · rw [toLower_of_beyond hascii]

theorem isCased_toLower (c : Char) : isCased c.toLower = isCased c :=
  apply_toLower isCased (by decide +kernel) c

theorem isCaseIgnorable_toLower (c : Char) : isCaseIgnorable c.toLower = isCaseIgnorable c :=
  apply_toLower isCaseIgnorable (by decide +kernel) c

theorem isBlank_toLower (c : Char) : isBlank c.toLower = isBlank c :=
  apply_toLower isBlank (by decide +kernel) c

theorem beq_toLower {mark : Char} (hmark : isMark mark = true) (c : Char) :
    (c.toLower == mark) = (c == mark) := by
  simp only [isMark, Bool.or_eq_true, beq_iff_eq] at hmark
  rcases hmark with (rfl | rfl) | rfl
  · exact apply_toLower (· == '/') (by decide +kernel) c
  · exact apply_toLower (· == '\\') (by decide +kernel) c
  · exact apply_toLower (· == '.') (by decide +kernel) c

theorem toLower_eq_iff {mark : Char} (hmark : isMark mark = true) (c : Char) :
    c.toLower = mark ↔ c = mark := by
  rw [← beq_iff_eq, beq_toLower hmark, beq_iff_eq]

theorem beginsCased_small (text : List Char) : beginsCased (small text) = beginsCased text := by
  have hcommutes : isCaseIgnorable ∘ Char.toLower = isCaseIgnorable :=
    funext isCaseIgnorable_toLower
  unfold beginsCased small
  rw [List.dropWhile_map, hcommutes]
  cases text.dropWhile isCaseIgnorable with
  | nil => rfl
  | cons c rest => exact isCased_toLower c

theorem lowerChar_small (before : List Char) (c : Char) (after : List Char) :
    lowerChar (small before) c.toLower (small after) = lowerChar before c after := by
  by_cases hascii : c.toNat < 128
  · have hlower := toLower_toLower_ascii c.toNat hascii
    rw [Char.ofNat_toNat] at hlower
    rw [lowerChar, lowerChar, if_pos hlower.1, if_pos hascii, hlower.2.1]
  · rw [toLower_of_beyond hascii, lowerChar, lowerChar, beginsCased_small, beginsCased_small]

theorem lowerFrom_small (before text : List Char) :
    lowerFrom (small before) (small text) = lowerFrom before text := by
  induction text generalizing before with
  | nil => rfl
  | cons c text ih =>
      have hrest := ih (c :: before)
      rw [lowerFrom, ← hrest, ← lowerChar_small]
      rfl

theorem lower_small (text : List Char) : lower (small text) = lower text :=
  lowerFrom_small [] text

theorem trim_small (text : List Char) : trim (small text) = small (trim text) := by
  have hcommutes : isBlank ∘ Char.toLower = isBlank := funext isBlank_toLower
  unfold trim trimEnd trimStart small
  rw [List.dropWhile_map, hcommutes, ← List.map_reverse, List.dropWhile_map, hcommutes,
    List.map_reverse]

/-- Marks alone are spelled in one way. -/
theorem small_eq_iff {marks : List Char} (hmarks : marks.all isMark = true) (text : List Char) :
    small text = marks ↔ text = marks := by
  induction text generalizing marks with
  | nil => rfl
  | cons c text ih =>
      cases marks with
      | nil => simp [small]
      | cons mark marks =>
          rw [List.all_cons, Bool.and_eq_true] at hmarks
          have hrest := ih hmarks.2
          unfold small at hrest ⊢
          rw [List.map_cons, List.cons.injEq, List.cons.injEq, toLower_eq_iff hmarks.1, hrest]

theorem small_eq_nil_iff (text : List Char) : small text = [] ↔ text = [] :=
  small_eq_iff (by decide) text

theorem small_eq_here_iff (text : List Char) : small text = ['.'] ↔ text = ['.'] :=
  small_eq_iff (by decide) text

theorem small_eq_back_iff (text : List Char) : small text = ['.', '.'] ↔ text = ['.', '.'] :=
  small_eq_iff (by decide) text

theorem small_append_slash (text rest : List Char) :
    small (text ++ '/' :: rest) = small text ++ '/' :: small rest :=
  List.map_append

theorem split_small (text : List Char) : split '/' (small text) = (split '/' text).map small := by
  unfold split
  induction text with
  | nil => rfl
  | cons c text ih =>
      obtain ⟨first, others, hsplit⟩ :=
        List.exists_cons_of_ne_nil (splitWhen_ne_nil (· == '/') text)
      have hcons : small (c :: text) = c.toLower :: small text := rfl
      rw [hcons, splitWhen, splitWhen, beq_toLower (by decide), ih, hsplit]
      split <;> rfl

theorem join_small (pieces : List (List Char)) :
    join '/' (pieces.map small) = small (join '/' pieces) := by
  induction pieces with
  | nil => rfl
  | cons piece pieces ih =>
      cases pieces with
      | nil => rfl
      | cons second others =>
          calc join '/' ((piece :: second :: others).map small)
              = small piece ++ '/' :: join '/' ((second :: others).map small) := rfl
            _ = small piece ++ '/' :: small (join '/' (second :: others)) := by rw [ih]
            _ = small (join '/' (piece :: second :: others)) := (small_append_slash piece _).symm

end Text

/-! ## Paths -/

namespace Path

open Text

theorem isAbsolute_small (path : List Char) : isAbsolute (small path) = isAbsolute path := by
  cases path with
  | nil => rfl
  | cons c path =>
      rw [Bool.eq_iff_iff]
      simp [isAbsolute, small, toLower_eq_iff (show isMark '/' = true from rfl)]

theorem follow_small (absolute : Bool) (position : List (List Char)) (segment : List Char) :
    follow absolute (position.map small) (small segment) =
      (follow absolute position segment).map small := by
  unfold follow
  simp only [small_eq_nil_iff, small_eq_here_iff, small_eq_back_iff]
  split
  · rfl
  · split
    · cases position with
      | nil => cases absolute <;> rfl
      | cons last above =>
          simp only [List.map_cons, small_eq_back_iff]
          split <;> rfl
    · rfl

theorem reduce_small (absolute : Bool) (segments : List (List Char)) :
    reduce absolute (segments.map small) = (reduce absolute segments).map small := by
  have hfold : ∀ position, (segments.map small).foldl (follow absolute) (position.map small) =
      (segments.foldl (follow absolute) position).map small := by
    induction segments with
    | nil => exact fun position => rfl
    | cons segment segments ih =>
        intro position
        rw [List.map_cons, List.foldl_cons, follow_small, ih, List.foldl_cons]
  have hstart := hfold []
  unfold reduce
  rw [List.map_nil] at hstart
  rw [hstart, List.map_reverse]

theorem clean_small (path : List Char) : clean (small path) = small (clean path) := by
  unfold clean segments
  dsimp only
  rw [isAbsolute_small, split_small, reduce_small, Text.join_small]
  generalize Text.join '/' (reduce (isAbsolute path) (split '/' path)) = body
  simp only [small_eq_nil_iff]
  split
  · rfl
  · split <;> rfl

theorem forward_small (path : List Char) : forward (small path) = small (forward path) := by
  unfold forward replaceChar small
  rw [List.map_map, List.map_map]
  refine List.map_congr_left fun c _ => ?_
  simp only [Function.comp_apply, toLower_eq_iff (show isMark '\\' = true from rfl)]
  split <;> rfl

theorem join_small (folder path : List Char) :
    join (small folder) (small path) = small (join folder path) := by
  have hslash : (small folder).getLast? = some '/' ↔ folder.getLast? = some '/' := by
    unfold small
    rw [List.getLast?_map]
    cases folder.getLast? with
    | none => rfl
    | some c => simp [toLower_eq_iff (show isMark '/' = true from rfl)]
  unfold join
  simp only [isAbsolute_small, small_eq_nil_iff, hslash]
  split
  · rfl
  · split
    · exact List.map_append.symm
    · exact (small_append_slash folder path).symm

theorem components_small (path : List Char) :
    components (small path) = (components path).map small := by
  unfold components segments
  rw [split_small]
  cases split '/' path with
  | nil => rfl
  | cons first others =>
      simp only [List.map_cons, List.map_append, List.filter_map, Function.comp_def, ne_eq,
        small_eq_nil_iff, small_eq_here_iff]
      split <;> rfl

theorem fileName?_small (path : List Char) :
    fileName? (small path) = (fileName? path).map small := by
  unfold fileName?
  simp only [components_small, List.getLast?_map, Option.filter_map, Function.comp_def, ne_eq,
    small_eq_here_iff, small_eq_back_iff]

theorem hasExtension_small (path : List Char) : hasExtension (small path) = hasExtension path := by
  unfold hasExtension
  rw [fileName?_small]
  cases fileName? path with
  | none => rfl
  | some name =>
      have hdot : ∀ text : List Char, (small text).contains '.' = text.contains '.' := by
        intro text
        rw [Bool.eq_iff_iff, List.contains_iff_mem, List.contains_iff_mem]
        simp [small, toLower_eq_iff (show isMark '.' = true from rfl)]
      cases name with
      | nil => rfl
      | cons c rest => exact hdot rest

end Path

/-! ## Identifiers -/

namespace ModuleId

theorem ofPath_toLower (path : String) : ofPath path.toLower true = ofPath path true := by
  unfold ofPath
  rw [spell_eq_folded, spell_eq_folded, Text.toList_toLower, Path.clean_small, Path.forward_small]
  exact congrArg (fun text => ModuleId.mk (String.ofList text)) (Text.lower_small _)

theorem isUpper_of_mem_ofPath {path : String} {c : Char} (h : c ∈ (ofPath path true).text.toList) :
    c.isUpper = false := by
  have hcapital : ∀ n < 128, (Char.ofNat n).isUpper = true →
      (Char.ofNat n).toLower ≠ Char.ofNat n := by
    decide +kernel
  have hsettled : Text.IsSettled c := by
    unfold ofPath at h
    rw [String.toList_ofList, spell_eq_folded] at h
    exact Text.isSettled_of_mem_lowerFrom h
  rw [Bool.eq_false_iff]
  intro hupper
  have hbounds : c.val ≥ 'A'.val ∧ c.val ≤ 'Z'.val := of_decide_eq_true hupper
  have hascii : c.toNat < 128 := by
    have : c.toNat ≤ 90 := hbounds.2
    omega
  have hlower := hsettled [] []
  rw [Text.lowerChar, if_pos hascii] at hlower
  have hne := hcapital c.toNat hascii
  rw [Char.ofNat_toNat] at hne
  exact hne hupper (List.singleton_inj.mp hlower)

end ModuleId

/-! ## Candidates -/

theorem KnownFiles.ofPaths_toLower (files : List String) :
    ofPaths (files.map String.toLower) true = ofPaths files true := by
  unfold ofPaths
  rw [List.map_map]
  have hsame : (fun path => (ModuleId.ofPath path true).text) ∘ String.toLower =
      fun path => (ModuleId.ofPath path true).text :=
    funext fun path => congrArg ModuleId.text (ModuleId.ofPath_toLower path)
  rw [hsame]

theorem KnownFiles.has_toLower (files : List String) (path : String) :
    (ofPaths files true).has path.toLower = (ofPaths files true).has path := by
  have hcase : (ofPaths files true).ignoreCase = true := rfl
  unfold has
  rw [hcase, if_pos rfl, if_pos rfl, Text.toList_toLower, Text.lower_small]

namespace Resolver

open Text

theorem toLower_ofList (text : List Char) :
    (String.ofList text).toLower = String.ofList (small text) := by
  rw [← String.toList_inj, toList_toLower, String.toList_ofList, String.toList_ofList]

theorem toLower_append (text other : String) :
    (text ++ other).toLower = text.toLower ++ other.toLower := by
  rw [← String.toList_inj, String.toList_append, toList_toLower, toList_toLower, toList_toLower,
    String.toList_append]
  exact List.map_append

theorem small_basePath (folder specifier : String) :
    small (basePath folder specifier) = basePath folder.toLower specifier.toLower := by
  have hcommutes : (· == '/') ∘ Char.toLower = (· == '/') := funext (beq_toLower (by decide))
  unfold basePath
  dsimp only
  rw [toList_toLower, toList_toLower, Path.join_small, Path.clean_small, Path.forward_small]
  unfold small
  rw [← List.map_reverse, List.dropWhile_map, hcommutes, List.map_reverse]

/-- The candidates for a base path in lower case. -/
theorem map_toLower_candidates (extensions : List String) (base : List Char) (folderOnly : Bool) :
    (candidates extensions base folderOnly).map String.toLower =
      candidates (extensions.map String.toLower) (small base) folderOnly := by
  have hindex : "/index".toLower = "/index" := by
    rw [← String.toList_inj, toList_toLower]
    decide
  have hextended : ∀ stem : String, (extensions.map (stem ++ ·)).map String.toLower =
      (extensions.map String.toLower).map (stem.toLower ++ ·) := by
    intro stem
    simp [toLower_append]
  unfold candidates
  dsimp only
  rw [List.map_append, hextended, toLower_append, hindex, toLower_ofList, Path.hasExtension_small]
  cases folderOnly with
  | true => rfl
  | false =>
      simp only [Bool.false_eq_true, if_false, List.map_append, hextended, toLower_ofList]
      split
      · rw [List.map_singleton, toLower_ofList]
      · rfl

/-- The candidates in lower case are found from a specifier in lower case. -/
theorem map_toLower_candidatesFor (resolver : Resolver) (source : ModuleId) (specifier : String) :
    (resolver.candidatesFor source specifier).map String.toLower =
      if (trim specifier.toLower.toList).isEmpty then []
      else candidates (resolver.extensions.map String.toLower)
        (basePath source.folder.toLower specifier.toLower)
        (specifier.toLower.toList.getLast? == some '/') := by
  have hblank : (trim specifier.toLower.toList).isEmpty = (trim specifier.toList).isEmpty := by
    rw [toList_toLower, trim_small, small, List.isEmpty_map]
  have hslash : (specifier.toLower.toList.getLast? == some '/') =
      (specifier.toList.getLast? == some '/') := by
    rw [toList_toLower, small, List.getLast?_map]
    cases specifier.toList.getLast? with
    | none => rfl
    | some c => exact beq_toLower (by decide) c
  unfold candidatesFor
  rw [hblank, hslash]
  split
  · rfl
  · rw [map_toLower_candidates, small_basePath]

/-! ## Resolution -/

theorem toOption_resolve (resolver : Resolver) (source : ModuleId) (specifier : String) :
    (resolver.resolve source specifier).toOption =
      ((resolver.candidatesFor source specifier).find? resolver.isFile).map
        (ModuleId.ofPath · resolver.ignoreCase) := by
  unfold resolve
  dsimp only
  cases (resolver.candidatesFor source specifier).find? resolver.isFile <;> rfl

/-- What is found among the candidates is found among the candidates in lower case. -/
theorem toOption_resolve_ofFiles (files extensions : List String) (source : ModuleId)
    (specifier : String) :
    ((ofFiles files extensions true).resolve source specifier).toOption =
      ((((ofFiles files extensions true).candidatesFor source specifier).map String.toLower).find?
        (KnownFiles.ofPaths files true).has).map (ModuleId.ofPath · true) := by
  have hhas : (KnownFiles.ofPaths files true).has ∘ String.toLower =
      (KnownFiles.ofPaths files true).has := funext (KnownFiles.has_toLower files)
  have hid : (ModuleId.ofPath · true) ∘ String.toLower = (ModuleId.ofPath · true) :=
    funext ModuleId.ofPath_toLower
  rw [toOption_resolve, List.find?_map, hhas, Option.map_map, hid]
  rfl

theorem map_toLower_of_forall₂ {texts others : List String}
    (h : List.Forall₂ SameLetters texts others) :
    texts.map String.toLower = others.map String.toLower := by
  induction h with
  | nil => rfl
  | cons hletters _ ih => rw [List.map_cons, List.map_cons, hletters.toLower_eq, ih]

/-- Where case is ignored, the case of letters makes no difference: neither in the known files and
the extensions, nor in the specifier and the path of the module it is written in. -/
theorem resolve_ignores_case {files files' extensions extensions' : List String}
    {path path' specifier specifier' : String} (hfiles : List.Forall₂ SameLetters files files')
    (hextensions : List.Forall₂ SameLetters extensions extensions') (hpath : SameLetters path path')
    (hspecifier : SameLetters specifier specifier') :
    (∃ id,
      (ofFiles files extensions true).resolve (ModuleId.ofPath path true) specifier = .ok id ∧
      (ofFiles files' extensions' true).resolve (ModuleId.ofPath path' true) specifier' = .ok id ∧
      ∀ c ∈ id.text.toList, c.isUpper = false) ∨
    ∃ fault fault',
      (ofFiles files extensions true).resolve (ModuleId.ofPath path true) specifier = .error fault ∧
      (ofFiles files' extensions' true).resolve (ModuleId.ofPath path' true) specifier' =
        .error fault' := by
  have hsource : ModuleId.ofPath path' true = ModuleId.ofPath path true := by
    rw [← ModuleId.ofPath_toLower path', ← hpath.toLower_eq, ModuleId.ofPath_toLower]
  have hknown : KnownFiles.ofPaths files' true = KnownFiles.ofPaths files true := by
    rw [← KnownFiles.ofPaths_toLower files', ← map_toLower_of_forall₂ hfiles,
      KnownFiles.ofPaths_toLower]
  have hcandidates :
      ((ofFiles files' extensions' true).candidatesFor (ModuleId.ofPath path true) specifier').map
        String.toLower =
      ((ofFiles files extensions true).candidatesFor (ModuleId.ofPath path true) specifier).map
        String.toLower := by
    rw [map_toLower_candidatesFor, map_toLower_candidatesFor, ← hspecifier.toLower_eq]
    simp only [ofFiles, map_toLower_of_forall₂ hextensions]
  have hsame := toOption_resolve_ofFiles files' extensions' (ModuleId.ofPath path true) specifier'
  rw [hcandidates, hknown, ← toOption_resolve_ofFiles] at hsame
  rw [hsource]
  cases hfirst : (ofFiles files extensions true).resolve (ModuleId.ofPath path true) specifier with
  | ok id =>
      cases hsecond :
          (ofFiles files' extensions' true).resolve (ModuleId.ofPath path true) specifier' with
      | ok id' =>
          rw [hfirst, hsecond] at hsame
          obtain ⟨found, -, -, rfl⟩ := exists_candidate_of_resolve hfirst
          exact .inl ⟨_, rfl, congrArg Except.ok (Option.some.inj hsame), fun c =>
            ModuleId.isUpper_of_mem_ofPath⟩
      | error fault' =>
          rw [hfirst, hsecond] at hsame
          cases hsame
  | error fault =>
      cases hsecond :
          (ofFiles files' extensions' true).resolve (ModuleId.ofPath path true) specifier' with
      | ok id' =>
          rw [hfirst, hsecond] at hsame
          cases hsame
      | error fault' => exact .inr ⟨fault, fault', rfl, rfl⟩

/-- One file, asked for in two ways. -/
theorem resolve_ignores_case_capitals :
    (ofFiles ["/Project/Util.js"] [".js"] true).resolve (ModuleId.ofPath "/Project/index.js" true)
        "./UTIL" = .ok ⟨"/project/util.js"⟩ ∧
      (ofFiles ["/project/UTIL.JS"] [".Js"] true).resolve (ModuleId.ofPath "/PROJECT/index.js" true)
        "./util" = .ok ⟨"/project/util.js"⟩ := by
  have hfirst : (ofFiles ["/Project/Util.js"] [".js"] true).resolve
      (ModuleId.ofPath "/Project/index.js" true) "./UTIL" = .ok ⟨"/project/util.js"⟩ := by
    decide +kernel
  have hfiles : List.Forall₂ SameLetters ["/Project/Util.js"] ["/project/UTIL.JS"] :=
    .cons (by decide) .nil
  have hextensions : List.Forall₂ SameLetters [".js"] [".Js"] := .cons (by decide) .nil
  have hpath : SameLetters "/Project/index.js" "/PROJECT/index.js" := by decide
  have hspecifier : SameLetters "./UTIL" "./util" := by decide
  refine ⟨hfirst, ?_⟩
  rcases resolve_ignores_case hfiles hextensions hpath hspecifier with
    ⟨id, hid, hother, -⟩ | ⟨fault, -, hfault, -⟩
  · rw [hother, ← hid, hfirst]
  · rw [hfirst] at hfault
    cases hfault

end Resolver

end LiveExports

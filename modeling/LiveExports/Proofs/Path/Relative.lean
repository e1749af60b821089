import LiveExports.Proofs.Path.Cleaning

/-!
# Modules as seen from the root

A module is shown by the path that leads to it from the root, if it lies below the root, and by its
whole identifier otherwise.  An identifier has gone through cleaning and, where case is ignored,
through lower case; the root is only cleaned.  So a module below the root is shown by its path from
the root (`ModuleId.relativeTo_root`) as long as the root is in lower case, or case counts; below a
root with capitals a module whose identifier is in lower case is taken for one outside.
-/

namespace LiveExports

/-! ## Lower case between slashes -/

namespace Text

/-- Nothing is seen beyond a slash. -/
theorem beginsCased_append_slash (text rest : List Char) :
    beginsCased (text ++ '/' :: rest) = beginsCased text := by
  have hslash : isCaseIgnorable '/' = false := by decide
  have hcased : isCased '/' = false := by decide
  unfold beginsCased
  rw [List.dropWhile_append]
  cases hrest : text.dropWhile isCaseIgnorable with
  | nil => simp [hslash, hcased]
  | cons c more => simp

theorem lowerChar_congr {before before' after after' : List Char} (c : Char)
    (hbefore : beginsCased before = beginsCased before')
    (hafter : beginsCased after = beginsCased after') :
    lowerChar before c after = lowerChar before' c after' := by
  unfold lowerChar
  rw [hbefore, hafter]

theorem lowerFrom_congr {before before' : List Char}
    (h : ∀ between, beginsCased (between ++ before) = beginsCased (between ++ before'))
    (text : List Char) : lowerFrom before text = lowerFrom before' text := by
  induction text generalizing before before' with
  | nil => rfl
  | cons c text ih =>
      have hnext : ∀ between, beginsCased (between ++ c :: before) =
          beginsCased (between ++ c :: before') := by
        intro between
        have hlonger := h (between ++ [c])
        rwa [List.append_assoc, List.append_assoc] at hlonger
      have hchar : lowerChar before c text = lowerChar before' c text :=
        lowerChar_congr c (h []) rfl
      rw [lowerFrom, lowerFrom, ih hnext, hchar]

theorem lowerFrom_append_slash (before text rest : List Char) :
    lowerFrom before (text ++ '/' :: rest) = lowerFrom before text ++ '/' :: lower rest := by
  induction text generalizing before with
  | nil =>
      have hslash : lowerChar before '/' rest = ['/'] := lowerChar_of_isMark (by decide) before rest
      have hrest : lowerFrom ('/' :: before) rest = lower rest := by
        refine lowerFrom_congr (fun between => ?_) rest
        rw [beginsCased_append_slash, List.append_nil]
      show lowerChar before '/' rest ++ lowerFrom ('/' :: before) rest = '/' :: lower rest
      rw [hslash, hrest]
      rfl
  | cons c text ih =>
      rw [List.cons_append, lowerFrom, lowerFrom, ih, List.append_assoc,
        lowerChar_congr c rfl (beginsCased_append_slash text rest)]

/-- Texts on either side of a slash are lowered on their own. -/
theorem lower_append_slash (text rest : List Char) :
    lower (text ++ '/' :: rest) = lower text ++ '/' :: lower rest :=
  lowerFrom_append_slash [] text rest

theorem join_append {separator : Char} {pieces others : List (List Char)} (hpieces : pieces ≠ [])
    (hothers : others ≠ []) :
    join separator (pieces ++ others) =
      join separator pieces ++ separator :: join separator others := by
  induction pieces with
  | nil => exact absurd rfl hpieces
  | cons piece pieces ih =>
      cases pieces with
      | nil =>
          obtain ⟨first, more, rfl⟩ := List.exists_cons_of_ne_nil hothers
          rfl
      | cons second more =>
          have hmore := ih (List.cons_ne_nil second more)
          calc join separator (piece :: second :: more ++ others)
              = piece ++ separator :: join separator (second :: more ++ others) := rfl
            _ = piece ++ separator :: join separator (second :: more) ++ separator ::
                  join separator others := by rw [hmore, List.append_assoc, List.cons_append]

end Text

/-! ## Paths below others -/

namespace Path

/-- A path that goes on from another with one or more segments. -/
def LiesBelow (root path : List Char) : Prop :=
  ∃ rest, rest ≠ [] ∧ segments path = segments root ++ rest

theorem segments_append_slash (path rest : List Char) :
    segments (path ++ '/' :: rest) = segments path ++ segments rest :=
  Text.split_append_separator '/' path rest

theorem segments_ne_nil (path : List Char) : segments path ≠ [] :=
  Text.splitWhen_ne_nil _ path

theorem liesBelow_iff {root path : List Char} :
    LiesBelow root path ↔ ∃ rest, path = root ++ '/' :: rest := by
  constructor
  · rintro ⟨rest, hrest, hsegments⟩
    refine ⟨Text.join '/' rest, ?_⟩
    have hpath : Text.join '/' (segments path) = path := Text.join_split '/' path
    have hroot : Text.join '/' (segments root) = root := Text.join_split '/' root
    rw [hsegments, Text.join_append (segments_ne_nil root) hrest, hroot] at hpath
    exact hpath.symm
  · rintro ⟨rest, rfl⟩
    exact ⟨segments rest, segments_ne_nil rest, segments_append_slash root rest⟩

/-- Names after a canonical path make a canonical path. -/
theorem isCanonical_append {root rest : List Char} (hroot : IsCanonical root) (hne : root ≠ ['/'])
    (hrest : ∀ segment ∈ segments rest, IsNamed segment) : IsCanonical (root ++ '/' :: rest) := by
  obtain ⟨names, hnames, hsegments, hnamed⟩ := hroot.resolve_left hne
  refine .inr ⟨names ++ segments rest, by simp [hnames], ?_, fun name hname => ?_⟩
  · rw [segments_append_slash, hsegments]
    rfl
  · exact (List.mem_append.mp hname).elim (hnamed name) (hrest name)

theorem forward_append_cons {c : Char} (hc : c ≠ '\\') (path rest : List Char) :
    forward (path ++ c :: rest) = forward path ++ c :: forward rest := by
  simp [forward, Text.replaceChar, hc]

/-- A root other than `/` that cleaning leaves as it is. -/
structure IsRoot (root : List Char) : Prop where
  absolute : isAbsolute root = true
  clean : clean root = root
  ne_slash : root ≠ ['/']

/-- A relative path of names, without backslashes. -/
structure IsOrdinary (path : List Char) : Prop where
  named : ∀ segment ∈ segments path, IsNamed segment
  forward : '\\' ∉ path

theorem IsRoot.isCanonical {root : List Char} (h : IsRoot root) : IsCanonical root :=
  h.clean ▸ isCanonical_clean h.absolute

theorem IsRoot.getLast?_ne {root : List Char} (h : IsRoot root) : root.getLast? ≠ some '/' := by
  intro hslash
  obtain ⟨text, rfl⟩ := List.getLast?_eq_some_iff.mp hslash
  obtain ⟨names, hnames, hsegments, hnamed⟩ := h.isCanonical.resolve_left h.ne_slash
  -- After the last slash stands an empty segment, which is no name.
  have hempty : (segments (text ++ ['/'])).getLast? = some [] := by
    rw [segments_append_slash]
    exact List.getLast?_concat
  rw [hsegments, List.getLast?_cons, List.getLast?_eq_some_getLast hnames, Option.getD_some,
    Option.some.injEq] at hempty
  exact (hnamed [] (hempty ▸ List.getLast_mem hnames)).1 rfl

theorem IsOrdinary.isAbsolute_eq {path : List Char} (h : IsOrdinary path) :
    isAbsolute path = false := by
  rw [Bool.eq_false_iff]
  intro habsolute
  obtain ⟨rest, rfl⟩ := eq_cons_of_isAbsolute habsolute
  have hempty : [] ∈ segments ('/' :: rest) := segments_append_slash [] rest ▸ List.mem_cons_self
  exact (h.named [] hempty).1 rfl

/-- Cleaning leaves a path below a root as it is. -/
theorem IsRoot.clean_join {root path : List Char} (hroot : IsRoot root) (hpath : IsOrdinary path) :
    Path.clean (join root path) = root ++ '/' :: path := by
  have hne : root ≠ [] := by
    rintro rfl
    cases hroot.absolute
  have hjoin : join root path = root ++ '/' :: path := by
    simp [join, hpath.isAbsolute_eq, hne, hroot.getLast?_ne]
  rw [hjoin]
  exact clean_of_isCanonical
    (isCanonical_append hroot.isCanonical hroot.ne_slash hpath.named)

end Path

/-! ## Identifiers -/

namespace ModuleId

theorem toList_ofPath (path : String) :
    (ofPath path).text.toList = Path.forward (Path.clean path.toList) := by
  simp [ofPath, spell]

theorem toList_ofPath_ignoreCase (path : String) :
    (ofPath path true).text.toList = Text.lower (ofPath path).text.toList := by
  simp [ofPath, spell]

theorem ofPath_ignoreCase_eq_iff {path : String} :
    ofPath path true = ofPath path ↔
      Text.lower (ofPath path).text.toList = (ofPath path).text.toList := by
  rw [← toList_ofPath_ignoreCase, String.toList_inj, ← ModuleId.mk.injEq]

variable {root : String} {id : ModuleId}

/-- A module below the root is shown from `.`. -/
theorem relativeTo_of_append {rest : List Char}
    (h : id.text.toList = (ofPath root).text.toList ++ '/' :: rest) :
    id.relativeTo root = String.ofList ('.' :: '/' :: rest) := by
  rw [toList_ofPath] at h
  unfold relativeTo
  rw [h, Text.after?_append]
  rfl

/-- Any other is shown as it is. -/
theorem relativeTo_of_not_liesBelow
    (h : ¬ Path.LiesBelow (ofPath root).text.toList id.text.toList) :
    id.relativeTo root = id.text := by
  rw [Path.liesBelow_iff, toList_ofPath] at h
  unfold relativeTo
  split
  · next rest hafter => exact absurd ⟨rest, Text.eq_append_of_after? hafter⟩ h
  · rfl

/-- Absolute identifiers are told apart by what is shown of them: a path from the root begins with a
full stop. -/
theorem eq_of_relativeTo_eq {other : ModuleId} (hid : id.isAbsolute = true)
    (hother : other.isAbsolute = true) (h : id.relativeTo root = other.relativeTo root) :
    id = other := by
  have hshown : ∀ module : ModuleId, module.isAbsolute = true →
      ∃ first rest, (module.relativeTo root).toList = first :: rest ∧
        module.text.toList =
          if first = '.' then (ofPath root).text.toList ++ rest else first :: rest := by
    intro module hmodule
    by_cases hbelow : Path.LiesBelow (ofPath root).text.toList module.text.toList
    · obtain ⟨rest, hrest⟩ := Path.liesBelow_iff.mp hbelow
      exact ⟨'.', '/' :: rest, by rw [relativeTo_of_append hrest, String.toList_ofList], hrest⟩
    · obtain ⟨rest, hrest⟩ := Path.eq_cons_of_isAbsolute hmodule
      exact ⟨'/', rest, by rw [relativeTo_of_not_liesBelow hbelow, hrest], hrest⟩
  obtain ⟨first, rest, hfirst, htext⟩ := hshown id hid
  obtain ⟨first', rest', hfirst', htext'⟩ := hshown other hother
  rw [← h, hfirst] at hfirst'
  obtain ⟨rfl, rfl⟩ := List.cons.inj hfirst'
  have hsame : id.text = other.text := String.toList_inj.mp (htext.trans htext'.symm)
  exact congrArg ModuleId.mk hsame

theorem toList_ofPath_below {path : String} (hroot : Path.IsRoot root.toList)
    (hpath : Path.IsOrdinary path.toList) :
    (ofPath (Path.below root path)).text.toList =
      (ofPath root).text.toList ++ '/' :: path.toList := by
  rw [toList_ofPath, toList_ofPath, Path.below, String.toList_ofList, hroot.clean_join hpath,
    Path.forward_append_cons (by decide), hroot.clean, Path.forward_of_not_mem hpath.forward]

/-- In lower case a root has as many segments as before, so that no other beginning of a path below
it could be taken for it. -/
theorem not_liesBelow_of_ne {text rest : List Char} (hne : Text.lower text ≠ text) :
    ¬ Path.LiesBelow text (Text.lower text ++ '/' :: rest) := by
  rintro ⟨more, -, hsegments⟩
  rw [Path.segments_append_slash] at hsegments
  have hlength : (Path.segments (Text.lower text)).length = (Path.segments text).length :=
    (Text.keepsMarks_lower text).split.length_eq.symm
  have hsame := (List.append_inj hsegments hlength).1
  apply hne
  calc Text.lower text
      = Text.join '/' (Path.segments (Text.lower text)) := (Text.join_split '/' _).symm
    _ = Text.join '/' (Path.segments text) := by rw [hsame]
    _ = text := Text.join_split '/' text

theorem toList_ofPath_below_ignoreCase {path : String} (hroot : Path.IsRoot root.toList)
    (hpath : Path.IsOrdinary path.toList) :
    (ofPath (Path.below root path) true).text.toList =
      Text.lower (ofPath root).text.toList ++ '/' :: Text.lower path.toList := by
  rw [toList_ofPath_ignoreCase, toList_ofPath_below hroot hpath, Text.lower_append_slash]

/-- What is shown of the module at a path below the root. -/
theorem relativeTo_below {path : String} (hroot : Path.IsRoot root.toList)
    (hpath : Path.IsOrdinary path.toList) (ignoreCase : Bool) :
    (ofPath (Path.below root path) ignoreCase).relativeTo root =
      if ofPath root ignoreCase = ofPath root then
        String.ofList ('.' :: '/' :: Text.folded ignoreCase path.toList)
      else (ofPath (Path.below root path) ignoreCase).text := by
  cases ignoreCase with
  | false =>
      rw [if_pos rfl]
      exact relativeTo_of_append (toList_ofPath_below hroot hpath)
  | true =>
      have hbelow := toList_ofPath_below_ignoreCase hroot hpath
      by_cases hsame : Text.lower (ofPath root).text.toList = (ofPath root).text.toList
      · rw [if_pos (ofPath_ignoreCase_eq_iff.mpr hsame)]
        rw [hsame] at hbelow
        exact relativeTo_of_append hbelow
      · rw [if_neg (mt ofPath_ignoreCase_eq_iff.mp hsame)]
        apply relativeTo_of_not_liesBelow
        rw [hbelow]
        exact not_liesBelow_of_ne hsame

/-- Up to case a module below the root is shown alike in either mode exactly if lower case leaves
the root as it is. -/
theorem relativeTo_below_ignoreCase_iff {path : String} (hroot : Path.IsRoot root.toList)
    (hpath : Path.IsOrdinary path.toList) :
    ((ofPath (Path.below root path) true).relativeTo root).toList =
        Text.lower ((ofPath (Path.below root path)).relativeTo root).toList ↔
      ofPath root true = ofPath root := by
  have hcased : Text.lower ((ofPath (Path.below root path)).relativeTo root).toList =
      '.' :: '/' :: Text.lower path.toList := by
    rw [relativeTo_below hroot hpath false, if_pos rfl, String.toList_ofList]
    exact Text.lower_append_slash ['.'] path.toList
  rw [hcased, relativeTo_below hroot hpath true]
  constructor
  · intro hshown
    by_contra hne
    -- The identifier begins with the root's slash, not with a dot.
    obtain ⟨more, hmore⟩ := Path.eq_cons_of_isAbsolute hroot.absolute
    have htext : (ofPath root).text.toList = '/' :: Path.forward more := by
      rw [toList_ofPath, hroot.clean, hmore]
      exact Path.forward_append_cons (by decide) [] more
    rw [if_neg hne, toList_ofPath_below_ignoreCase hroot hpath, htext,
      show Text.lower ('/' :: Path.forward more) = '/' :: Text.lower (Path.forward more) from
        Text.lower_append_slash [] (Path.forward more)] at hshown
    cases hshown
  · intro hsame
    rw [if_pos hsame, String.toList_ofList]
    rfl

/-- A text that goes on from the root with anything but a slash does not lie below it. -/
theorem not_liesBelow_sibling {c : Char} (hslash : c ≠ '/') (text rest : List Char) :
    ¬ Path.LiesBelow text (text ++ c :: rest) := by
  rw [Path.liesBelow_iff]
  rintro ⟨more, hmore⟩
  exact hslash (List.cons.inj (List.append_cancel_left hmore)).1

/-- A module below the root is shown by its path from the root, in lower case where case is ignored,
unless lower case changes the root itself: then it is shown like a module outside.  So the module is
shown alike in either mode, up to case, exactly for the roots in lower case.  Where case counts, a
module outside the root is shown by its identifier, also in a folder whose name begins with the
root's. -/
theorem relativeTo_root {root : String} (hroot : Path.IsRoot root.toList) :
    (∀ path : String, Path.IsOrdinary path.toList →
      (∀ ignoreCase, (ofPath (Path.below root path) ignoreCase).relativeTo root =
        if ofPath root ignoreCase = ofPath root then
          String.ofList ('.' :: '/' :: Text.folded ignoreCase path.toList)
        else (ofPath (Path.below root path) ignoreCase).text) ∧
      (((ofPath (Path.below root path) true).relativeTo root).toList =
          Text.lower ((ofPath (Path.below root path)).relativeTo root).toList ↔
        ofPath root true = ofPath root)) ∧
    (∀ path, ¬ Path.LiesBelow (ofPath root).text.toList (ofPath path).text.toList →
      (ofPath path).relativeTo root = (ofPath path).text) ∧
    ∀ c rest, c ≠ '/' → c ≠ '\\' →
      Path.clean (root.toList ++ c :: rest) = root.toList ++ c :: rest →
      let sibling := ofPath (String.ofList (root.toList ++ c :: rest))
      sibling.relativeTo root = sibling.text := by
  refine ⟨fun path hpath =>
    ⟨relativeTo_below hroot hpath, relativeTo_below_ignoreCase_iff hroot hpath⟩,
    fun path => relativeTo_of_not_liesBelow, ?_⟩
  intro c rest hslash hback hclean
  apply relativeTo_of_not_liesBelow
  rw [toList_ofPath, toList_ofPath, hroot.clean, String.toList_ofList, hclean,
    Path.forward_append_cons hback]
  exact not_liesBelow_sibling hslash _ _

/-- Below a root with capitals a module is shown by its whole identifier where case is ignored. -/
theorem relativeTo_root_capitals :
    (ofPath (Path.below "/Proj" "src/A.js")).relativeTo "/Proj" = "./src/A.js" ∧
    (ofPath (Path.below "/Proj" "src/A.js") true).relativeTo "/Proj" = "/proj/src/a.js" ∧
    (ofPath "/Project/b.js").relativeTo "/Proj" = "/Project/b.js" := by
  have hroot : Path.IsRoot "/Proj".toList := ⟨by decide, by decide, by decide⟩
  have hpath : Path.IsOrdinary "src/A.js".toList := ⟨by unfold Path.IsNamed; decide, by decide⟩
  obtain ⟨hbelow, -, hsibling⟩ := relativeTo_root hroot
  obtain ⟨hshown, -⟩ := hbelow "src/A.js" hpath
  refine ⟨(hshown false).trans (by decide), (hshown true).trans (by decide), ?_⟩
  exact hsibling 'e' "ct/b.js".toList (by decide) (by decide) (by decide)

end ModuleId

end LiveExports

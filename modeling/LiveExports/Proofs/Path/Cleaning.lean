import LiveExports.ModuleId
import LiveExports.Proofs.Files.Following
import LiveExports.Proofs.Text.Lower

/-!
# Canonical paths

A canonical path is a slash followed by names with slashes between them.  Cleaning makes an absolute
path canonical and leaves a canonical path as it is, so that cleaning twice is cleaning once.
Whether a path is canonical does not depend on case (`isCanonical_lower_iff`), and an extension is
still one in lower case.
-/

namespace LiveExports

/-! ## Segments -/

namespace Text

/-- The pieces of a text hold its characters but for the separator. -/
theorem mem_of_mem_split {separator : Char} {text piece : List Char}
    (h : piece ∈ split separator text) {c : Char} (hc : c ∈ piece) : c ∈ text ∧ c ≠ separator := by
  unfold split at h
  induction text generalizing piece with
  | nil =>
      rw [List.mem_singleton.mp h] at hc
      cases hc
  | cons d text ih =>
      obtain ⟨first, others, hsplit⟩ :=
        List.exists_cons_of_ne_nil (splitWhen_ne_nil (· == separator) text)
      rw [hsplit] at ih
      have hlater :
          ∀ {piece}, piece ∈ first :: others → c ∈ piece → c ∈ d :: text ∧ c ≠ separator := by
        intro piece hpiece hc
        obtain ⟨hmem, hne⟩ := ih hpiece hc
        exact ⟨List.mem_cons_of_mem d hmem, hne⟩
      by_cases hd : d = separator
      · rw [splitWhen, if_pos (by simpa using hd), hsplit] at h
        rcases List.mem_cons.mp h with rfl | hmem
        · cases hc
        · exact hlater hmem hc
      · rw [splitWhen, if_neg (by simpa using hd), hsplit] at h
        rcases List.mem_cons.mp h with rfl | hmem
        · rcases List.mem_cons.mp hc with rfl | hc
          · exact ⟨List.mem_cons_self, hd⟩
          · exact hlater List.mem_cons_self hc
        · exact hlater (List.mem_cons_of_mem first hmem) hc

theorem split_join {separator : Char} {pieces : List (List Char)} (hpieces : pieces ≠ [])
    (h : ∀ piece ∈ pieces, separator ∉ piece) :
    split separator (join separator pieces) = pieces := by
  induction pieces with
  | nil => exact absurd rfl hpieces
  | cons piece pieces ih =>
      have hpiece := split_of_not_mem (h piece List.mem_cons_self)
      cases pieces with
      | nil => exact hpiece
      | cons second others =>
          have hrest := ih (List.cons_ne_nil second others)
            fun other hother => h other (List.mem_cons_of_mem piece hother)
          rw [join, split_append_separator, hpiece, hrest]
          · rfl
          · exact List.cons_ne_nil second others

theorem mem_join {separator c : Char} {pieces : List (List Char)} (h : c ∈ join separator pieces) :
    c = separator ∨ ∃ piece ∈ pieces, c ∈ piece := by
  induction pieces with
  | nil => cases h
  | cons piece pieces ih =>
      cases pieces with
      | nil => exact .inr ⟨piece, List.mem_cons_self, h⟩
      | cons second others =>
          rw [join] at h
          · rcases List.mem_append.mp h with hpiece | hrest
            · exact .inr ⟨piece, List.mem_cons_self, hpiece⟩
            rcases List.mem_cons.mp hrest with hseparator | hrest
            · exact .inl hseparator
            rcases ih hrest with hseparator | ⟨other, hother, hmem⟩
            · exact .inl hseparator
            · exact .inr ⟨other, List.mem_cons_of_mem piece hother, hmem⟩
          · exact List.cons_ne_nil second others

/-- What follows the last separator is the end of the last piece. -/
theorem exists_split_append {separator : Char} {tail : List Char} (htail : separator ∉ tail)
    (text : List Char) :
    ∃ pieces piece, split separator (text ++ tail) = pieces ++ [piece ++ tail] := by
  induction text with
  | nil => exact ⟨[], [], split_of_not_mem htail⟩
  | cons c text ih =>
      obtain ⟨pieces, piece, hsplit⟩ := ih
      unfold split at hsplit ⊢
      by_cases hc : c = separator
      · refine ⟨[] :: pieces, piece, ?_⟩
        rw [List.cons_append, splitWhen, if_pos (by simpa using hc), hsplit]
        rfl
      · cases pieces with
        | nil =>
            refine ⟨[], c :: piece, ?_⟩
            rw [List.cons_append, splitWhen, if_neg (by simpa using hc), hsplit]
            rfl
        | cons first others =>
            refine ⟨(c :: first) :: others, piece, ?_⟩
            rw [List.cons_append, splitWhen, if_neg (by simpa using hc), hsplit]
            rfl

end Text

namespace Path

/-- A segment that names something. -/
def IsNamed (segment : List Char) : Prop :=
  segment ≠ [] ∧ segment ≠ ['.'] ∧ segment ≠ ['.', '.']

/-- The root, or a slash followed by names with slashes between them. -/
def IsCanonical (path : List Char) : Prop :=
  path = ['/'] ∨ ∃ names, names ≠ [] ∧ segments path = [] :: names ∧ ∀ name ∈ names, IsNamed name

theorem eq_cons_of_isAbsolute {path : List Char} (h : isAbsolute path = true) :
    ∃ rest, path = '/' :: rest :=
  List.head?_eq_some_iff.mp (by simpa [isAbsolute] using h)

theorem eq_of_segments {path : List Char} {names : List (List Char)} (hnames : names ≠ [])
    (h : segments path = [] :: names) : path = '/' :: Text.join '/' names := by
  have hpath := Text.join_split '/' path
  unfold segments at h
  rw [h] at hpath
  rw [← hpath, Text.join]
  · rfl
  · exact hnames

theorem isAbsolute_of_isCanonical {path : List Char} (h : IsCanonical path) :
    isAbsolute path = true := by
  rcases h with rfl | ⟨names, hnames, hsegments, -⟩
  · rfl
  · rw [eq_of_segments hnames hsegments]
    rfl

/-! ## Cleaning -/

theorem foldl_follow_of_isNamed {absolute : Bool} {names : List (List Char)}
    (h : ∀ name ∈ names, IsNamed name) (position : List (List Char)) :
    names.foldl (follow absolute) position = names.reverse ++ position := by
  induction names generalizing position with
  | nil => rfl
  | cons name names ih =>
      obtain ⟨hempty, hhere, hback⟩ := h name List.mem_cons_self
      have hfollow : follow absolute position name = name :: position := by
        simp [follow, hempty, hhere, hback]
      rw [List.foldl_cons, hfollow,
        ih fun other hother => h other (List.mem_cons_of_mem name hother)]
      simp

/-- Following a segment from the root never leaves anything but names. -/
theorem isNamed_of_mem_follow {position : List (List Char)} {segment name : List Char}
    (hposition : ∀ name ∈ position, IsNamed name) (h : name ∈ follow true position segment) :
    IsNamed name ∧ (name ∈ position ∨ name = segment) := by
  unfold follow at h
  split at h
  · exact ⟨hposition name h, .inl h⟩
  · next hstays =>
    split at h
    · cases position with
      | nil => cases h
      | cons last above =>
          obtain ⟨-, -, hlast⟩ := hposition last List.mem_cons_self
          simp only [hlast, if_false] at h
          have hmem := List.mem_cons_of_mem last h
          exact ⟨hposition name hmem, .inl hmem⟩
    · next hback =>
      rcases List.mem_cons.mp h with rfl | hmem
      · exact ⟨⟨fun hempty => hstays (.inl hempty), fun hhere => hstays (.inr hhere), hback⟩,
          .inr rfl⟩
      · exact ⟨hposition name hmem, .inl hmem⟩

theorem isNamed_of_mem_foldl {segments position : List (List Char)} {name : List Char}
    (hposition : ∀ name ∈ position, IsNamed name)
    (h : name ∈ segments.foldl (follow true) position) :
    IsNamed name ∧ (name ∈ position ∨ name ∈ segments) := by
  induction segments generalizing position with
  | nil => exact ⟨hposition name h, .inl h⟩
  | cons segment segments ih =>
      have hnext : ∀ name ∈ follow true position segment, IsNamed name :=
        fun name hmem => (isNamed_of_mem_follow hposition hmem).1
      obtain ⟨hnamed, hfrom⟩ := ih hnext h
      refine ⟨hnamed, ?_⟩
      rcases hfrom with hfollow | hlater
      · rcases (isNamed_of_mem_follow hposition hfollow).2 with hbefore | rfl
        · exact .inl hbefore
        · exact .inr List.mem_cons_self
      · exact .inr (List.mem_cons_of_mem segment hlater)

/-- The names that are left of an absolute path are names of the path. -/
theorem isNamed_of_mem_reduce {segments : List (List Char)} {name : List Char}
    (h : name ∈ reduce true segments) : IsNamed name ∧ name ∈ segments := by
  have hmem : name ∈ segments.foldl (follow true) [] := List.mem_reverse.mp h
  obtain ⟨hnamed, hfrom⟩ := isNamed_of_mem_foldl (by simp) hmem
  exact ⟨hnamed, hfrom.resolve_left List.not_mem_nil⟩

theorem clean_of_isAbsolute {path : List Char} (h : isAbsolute path = true) :
    clean path = '/' :: Text.join '/' (reduce true (segments path)) := by
  simp only [clean, h, if_true]

theorem isCanonical_clean {path : List Char} (h : isAbsolute path = true) :
    IsCanonical (clean path) := by
  rw [clean_of_isAbsolute h]
  have hnames : ∀ name ∈ reduce true (segments path), IsNamed name ∧ '/' ∉ name := by
    intro name hname
    obtain ⟨hnamed, hsegment⟩ := isNamed_of_mem_reduce hname
    exact ⟨hnamed, fun hslash => (Text.mem_of_mem_split hsegment hslash).2 rfl⟩
  generalize reduce true (segments path) = names at hnames
  by_cases hempty : names = []
  · rw [hempty]
    exact .inl rfl
  · refine .inr ⟨names, hempty, ?_, fun name hname => (hnames name hname).1⟩
    have hjoin := Text.split_join hempty fun name hname => (hnames name hname).2
    have hslash := Text.split_append_separator '/' [] (Text.join '/' names)
    rw [hjoin] at hslash
    exact hslash

theorem clean_of_isCanonical {path : List Char} (h : IsCanonical path) : clean path = path := by
  rw [clean_of_isAbsolute (isAbsolute_of_isCanonical h)]
  rcases h with rfl | ⟨names, hnames, hsegments, hnamed⟩
  · rfl
  · have hreduce : reduce true (segments path) = names := by
      have hroot : follow true [] [] = [] := rfl
      rw [reduce, hsegments, List.foldl_cons, hroot, foldl_follow_of_isNamed hnamed]
      simp
    rw [hreduce, ← eq_of_segments hnames hsegments]

/-- Cleaning an absolute path adds no characters. -/
theorem mem_of_mem_clean {path : List Char} {c : Char} (habsolute : isAbsolute path = true)
    (h : c ∈ clean path) : c ∈ path := by
  have hslash : '/' ∈ path := by
    cases path with
    | nil => cases habsolute
    | cons first rest =>
        have hfirst : first = '/' := by simpa [isAbsolute] using habsolute
        rw [hfirst]
        exact List.mem_cons_self
  rw [clean_of_isAbsolute habsolute] at h
  rcases List.mem_cons.mp h with rfl | hbody
  · exact hslash
  rcases Text.mem_join hbody with rfl | ⟨name, hname, hmem⟩
  · exact hslash
  · exact (Text.mem_of_mem_split (isNamed_of_mem_reduce hname).2 hmem).1

theorem forward_of_not_mem {path : List Char} (h : '\\' ∉ path) : forward path = path := by
  have hsame : ∀ c ∈ path, (if c = '\\' then '/' else c) = id c := by
    intro c hc
    rw [if_neg]
    · rfl
    · rintro rfl
      exact h hc
  rw [forward, Text.replaceChar, List.map_congr_left hsame, List.map_id]

/-! ## Case -/

theorem isNamed_iff_of_keepsMarks {segment made : List Char} (h : Text.KeepsMarks segment made) :
    IsNamed made ↔ IsNamed segment := by
  unfold IsNamed
  rw [ne_eq, ne_eq, ne_eq, ne_eq, ne_eq, ne_eq, h.eq_iff (by decide), h.eq_iff (by decide),
    h.eq_iff (by decide)]

theorem forall_isNamed_iff {names made : List (List Char)}
    (h : List.Forall₂ Text.KeepsMarks names made) :
    (∀ name ∈ made, IsNamed name) ↔ ∀ name ∈ names, IsNamed name := by
  induction h with
  | nil => simp
  | cons hname _ ih =>
      simp only [List.forall_mem_cons, ih, isNamed_iff_of_keepsMarks hname]

theorem isCanonical_lower_iff (path : List Char) :
    IsCanonical (Text.lower path) ↔ IsCanonical path := by
  have hkeeps := Text.keepsMarks_lower path
  have hsegments : List.Forall₂ Text.KeepsMarks (segments path) (segments (Text.lower path)) :=
    hkeeps.split
  unfold IsCanonical
  rw [hkeeps.eq_iff (by decide)]
  refine or_congr_right ?_
  generalize segments path = names at hsegments
  generalize segments (Text.lower path) = made at hsegments
  cases hsegments with
  | nil => simp
  | @cons first firstMade names made hfirst hrest =>
      have hempty : firstMade = [] ↔ first = [] := hfirst.eq_iff (by decide)
      have hlength : made ≠ [] ↔ names ≠ [] := by
        rw [← List.length_pos_iff, ← List.length_pos_iff, hrest.length_eq]
      constructor
      · rintro ⟨_, hne, heq, hnamed⟩
        obtain ⟨hfirstMade, rfl⟩ := List.cons.inj heq
        exact ⟨names, hlength.mp hne, by rw [hempty.mp hfirstMade],
          (forall_isNamed_iff hrest).mp hnamed⟩
      · rintro ⟨_, hne, heq, hnamed⟩
        obtain ⟨hfirst', rfl⟩ := List.cons.inj heq
        exact ⟨made, hlength.mpr hne, by rw [hempty.mpr hfirst'],
          (forall_isNamed_iff hrest).mpr hnamed⟩

/-! ## Extensions -/

/-- Of a canonical path, the last segment decides on the extension. -/
theorem hasExtension_iff_of_isCanonical {path : List Char} (h : IsCanonical path) :
    hasExtension path = true ↔ ∃ last, (segments path).getLast? = some last ∧ '.' ∈ last.tail := by
  rcases h with rfl | ⟨names, hnames, hsegments, hnamed⟩
  · decide
  · have hname : names.getLast? = some (names.getLast hnames) :=
      List.getLast?_eq_some_getLast hnames
    generalize names.getLast hnames = name at hname
    have hcomponents : components path = names := by
      have hkept : names.filter (fun s => s ≠ [] ∧ s ≠ ['.']) = names := by
        refine List.filter_eq_self.mpr fun other hother => ?_
        obtain ⟨hempty, hhere, -⟩ := hnamed other hother
        simp [hempty, hhere]
      simp only [components, hsegments, if_true, List.nil_append]
      exact hkept
    have hfile : fileName? path = some name := by
      obtain ⟨-, hhere, hback⟩ := hnamed name (List.mem_of_getLast? hname)
      simp [fileName?, hcomponents, hname, hhere, hback]
    have hlast : (segments path).getLast? = some name := by
      rw [hsegments, List.getLast?_cons, hname]
      rfl
    simp [hasExtension, hfile, hlast]

theorem hasExtension_lower {path : List Char} (hcanonical : IsCanonical path)
    (h : hasExtension path = true) : hasExtension (Text.lower path) = true := by
  obtain ⟨last, hlast, hdot⟩ := (hasExtension_iff_of_isCanonical hcanonical).mp h
  rw [hasExtension_iff_of_isCanonical ((isCanonical_lower_iff path).mpr hcanonical)]
  have hsegments : List.Forall₂ Text.KeepsMarks (segments path) (segments (Text.lower path)) :=
    (Text.keepsMarks_lower path).split
  have hreversed := List.rel_reverse hsegments
  rw [← List.head?_reverse] at hlast
  obtain ⟨others, hothers⟩ := List.head?_eq_some_iff.mp hlast
  rw [hothers] at hreversed
  generalize hmade : (segments (Text.lower path)).reverse = made at hreversed
  cases hreversed with
  | @cons _ lastMade _ others' hkeeps hrest =>
      refine ⟨lastMade, ?_, hkeeps.mem_tail (by decide) hdot⟩
      rw [← List.head?_reverse, hmade]
      rfl

/-- A full stop after something other than a slash marks an extension, if no slash follows. -/
theorem hasExtension_append {path text tail : List Char} {c : Char} (hcanonical : IsCanonical path)
    (hpath : path = text ++ c :: '.' :: tail) (hc : c ≠ '/') (htail : '/' ∉ tail) :
    hasExtension path = true := by
  rw [hasExtension_iff_of_isCanonical hcanonical]
  have hend : '/' ∉ c :: '.' :: tail := by
    simp [Ne.symm hc, htail]
  obtain ⟨pieces, piece, hsplit⟩ := Text.exists_split_append hend text
  refine ⟨piece ++ c :: '.' :: tail, ?_, ?_⟩
  · rw [segments, hpath, hsplit, List.getLast?_concat]
  · cases piece with
    | nil => exact List.mem_cons_self
    | cons first rest => simp

theorem getLast?_of_hasExtension {path : List Char} (hcanonical : IsCanonical path)
    (h : hasExtension path = true) : path.getLast? ≠ some '/' := by
  intro hslash
  obtain ⟨text, rfl⟩ := List.getLast?_eq_some_iff.mp hslash
  obtain ⟨last, hlast, hdot⟩ := (hasExtension_iff_of_isCanonical hcanonical).mp h
  have hsplit := Text.split_append_separator '/' text []
  rw [segments, hsplit, show Text.split '/' [] = [[]] from rfl, List.getLast?_concat] at hlast
  rw [← Option.some.inj hlast] at hdot
  cases hdot

end Path

end LiveExports

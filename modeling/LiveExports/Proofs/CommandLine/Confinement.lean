import LiveExports.CommandLine.OutputPath
import LiveExports.Proofs.Path.Relative

/-!
# Output stays in the working folder

A path that passes the check for output paths has no segment `..` between its slashes, so following
it from a folder only adds names to the folder (`Path.clean_join_of_not_mem`).  A backslash is part
of a name there.  The check is stricter than that: it also reads backslashes as slashes.  What it
refuses has a segment `..` in that reading, begins with a slash, or holds the null character
(`outputPath_staysIn`).
-/

namespace LiveExports

namespace Path

/-- The segments of a path with slashes or backslashes between them. -/
def looseSegments (path : List Char) : List (List Char) :=
  Text.splitWhen (fun c => c == '/' || c == '\\') path

/-- The folder itself, or a path that goes on from the folder with one or more names. -/
def StaysIn (folder path : List Char) : Prop :=
  path = folder ∨ ∃ names, names ≠ [] ∧ (∀ name ∈ names, IsNamed name ∧ '/' ∉ name) ∧
    path = join folder (Text.join '/' names)

/-! ## Two kinds of slashes -/

theorem looseSegments_eq (path : List Char) : looseSegments path = segments (forward path) := by
  unfold looseSegments segments forward Text.split Text.replaceChar
  induction path with
  | nil => rfl
  | cons c path ih =>
      by_cases hback : c = '\\'
      · simp [Text.splitWhen, hback, ih]
      · by_cases hslash : c = '/'
        · simp [Text.splitWhen, hslash, ih]
        · simp only [List.map_cons, if_neg hback, Text.splitWhen, ih]
          simp [hback, hslash]

/-- Reading backslashes as slashes takes each segment apart on its own. -/
theorem segments_forward_join {pieces : List (List Char)} (hpieces : pieces ≠ []) :
    segments (forward (Text.join '/' pieces)) = pieces.flatMap fun piece =>
      segments (forward piece) := by
  induction pieces with
  | nil => exact absurd rfl hpieces
  | cons piece pieces ih =>
      cases pieces with
      | nil => simp [Text.join]
      | cons second others =>
          calc segments (forward (Text.join '/' (piece :: second :: others)))
              = segments (forward piece ++ '/' :: forward (Text.join '/' (second :: others))) := by
                rw [← forward_append_cons (by decide)]
                rfl
            _ = segments (forward piece) ++ segments (forward (Text.join '/' (second :: others))) :=
                segments_append_slash _ _
            _ = (piece :: second :: others).flatMap fun piece => segments (forward piece) := by
                rw [ih (List.cons_ne_nil second others)]
                simp only [List.flatMap_cons]

/-- A way back between slashes is one in either reading. -/
theorem back_mem_segments_forward {path : List Char} (h : ['.', '.'] ∈ segments path) :
    ['.', '.'] ∈ segments (forward path) := by
  have hpath : Text.join '/' (segments path) = path := Text.join_split '/' path
  have hforward := segments_forward_join (segments_ne_nil path)
  rw [hpath] at hforward
  rw [hforward, List.mem_flatMap]
  exact ⟨['.', '.'], h, by decide⟩

theorem back_mem_segments_of_infix {path : List Char} (h : ['/', '.', '.', '/'] <:+: path) :
    ['.', '.'] ∈ segments path := by
  obtain ⟨before, after, rfl⟩ := h
  have hsplit : segments (before ++ ['/', '.', '.', '/'] ++ after) =
      segments before ++ (['.', '.'] :: segments after) := by
    rw [List.append_assoc]
    calc segments (before ++ '/' :: (['.', '.'] ++ '/' :: after))
        = segments before ++ (segments ['.', '.'] ++ segments after) := by
          rw [segments_append_slash, segments_append_slash]
      _ = segments before ++ (['.', '.'] :: segments after) := rfl
  rw [hsplit]
  simp

theorem back_mem_segments_of_prefix {path : List Char} (h : ['.', '.', '/'] <+: path) :
    ['.', '.'] ∈ segments path := by
  obtain ⟨after, rfl⟩ := h
  have hsplit : segments (['.', '.'] ++ '/' :: after) = ['.', '.'] :: segments after :=
    segments_append_slash ['.', '.'] after
  rw [show ['.', '.', '/'] ++ after = ['.', '.'] ++ '/' :: after from rfl, hsplit]
  exact List.mem_cons_self

theorem back_mem_components_iff {path : List Char} :
    ['.', '.'] ∈ components path ↔ ['.', '.'] ∈ segments path := by
  unfold components
  cases segments path with
  | nil => simp
  | cons first others =>
      by_cases hfirst : first = []
      · simp [hfirst]
      · simp [hfirst]

/-! ## Following a path without a way back -/

/-- Without a way back, every name that is passed is added to the position. -/
theorem foldl_follow_of_not_mem {absolute : Bool} {segments : List (List Char)}
    (h : ['.', '.'] ∉ segments) (position : List (List Char)) :
    segments.foldl (follow absolute) position =
      (segments.filter fun s => s ≠ [] ∧ s ≠ ['.']).reverse ++ position := by
  induction segments generalizing position with
  | nil => rfl
  | cons segment segments ih =>
      have hback : segment ≠ ['.', '.'] := by
        intro heq
        exact h (heq ▸ List.mem_cons_self)
      have hrest := ih fun hmem => h (List.mem_cons_of_mem segment hmem)
      rw [List.foldl_cons, hrest]
      by_cases hstays : segment = [] ∨ segment = ['.']
      · have hfollow : follow absolute position segment = position := by
          simp [follow, hstays]
        have hdropped : ¬ (segment ≠ [] ∧ segment ≠ ['.']) := by
          intro hkept
          exact hstays.elim hkept.1 hkept.2
        rw [hfollow, List.filter_cons_of_neg (by simpa using hdropped)]
      · have hfollow : follow absolute position segment = segment :: position := by
          simp [follow, hstays, hback]
        rw [hfollow, List.filter_cons_of_pos (by simpa using hstays)]
        simp

/-- The names between the slashes of a path. -/
def names (path : List Char) : List (List Char) :=
  (segments path).filter fun s => s ≠ [] ∧ s ≠ ['.']

theorem isNamed_of_mem_names {path name : List Char} (hpath : ['.', '.'] ∉ segments path)
    (h : name ∈ names path) : IsNamed name ∧ '/' ∉ name := by
  obtain ⟨hsegment, hnamed⟩ := List.mem_filter.mp h
  have hkept : name ≠ [] ∧ name ≠ ['.'] := by simpa using hnamed
  refine ⟨⟨hkept.1, hkept.2, ?_⟩, ?_⟩
  · intro heq
    exact hpath (heq ▸ hsegment)
  · intro hslash
    exact (Text.mem_of_mem_split hsegment hslash).2 rfl

theorem isAbsolute_join_names {names : List (List Char)} (hnames : names ≠ [])
    (h : ∀ name ∈ names, IsNamed name ∧ '/' ∉ name) : isAbsolute (Text.join '/' names) = false := by
  obtain ⟨name, others, rfl⟩ := List.exists_cons_of_ne_nil hnames
  obtain ⟨⟨hne, -, -⟩, hslash⟩ := h name List.mem_cons_self
  obtain ⟨c, rest, rfl⟩ := List.exists_cons_of_ne_nil hne
  have hc : c ≠ '/' := by
    intro heq
    exact hslash (heq ▸ List.mem_cons_self)
  cases others with
  | nil => simpa [Text.join, isAbsolute] using hc
  | cons second others => simpa [Text.join, isAbsolute] using hc

theorem reduce_slash_of_not_mem {path : List Char} (hpath : ['.', '.'] ∉ segments path) :
    reduce true (segments ('/' :: path)) = names path := by
  have hsegments : segments ('/' :: path) = [] :: segments path := segments_append_slash [] path
  have hempty : follow true [] [] = [] := rfl
  rw [reduce, hsegments, List.foldl_cons, hempty, foldl_follow_of_not_mem hpath]
  simp [names]

theorem IsRoot.join_eq {folder path : List Char} (hfolder : IsRoot folder)
    (hpath : isAbsolute path = false) : join folder path = folder ++ '/' :: path := by
  have hne : folder ≠ [] := by
    intro hnil
    have habsolute := hfolder.absolute
    rw [hnil] at habsolute
    cases habsolute
  simp [join, hpath, hne, hfolder.getLast?_ne]

/-- Below a folder with names of its own, the names of the path come after them. -/
theorem IsRoot.clean_append_of_not_mem {folder path : List Char} (hfolder : IsRoot folder)
    (hpath : ['.', '.'] ∉ segments path) :
    Path.clean (folder ++ '/' :: path) =
      if names path = [] then folder else folder ++ '/' :: Text.join '/' (names path) := by
  obtain ⟨above, habove, hsegments, hnamed⟩ := hfolder.isCanonical.resolve_left hfolder.ne_slash
  have htext : folder = '/' :: Text.join '/' above := eq_of_segments habove hsegments
  have hreduce : reduce true (segments (folder ++ '/' :: path)) = above ++ names path := by
    have hempty : follow true [] [] = [] := rfl
    rw [reduce, segments_append_slash, hsegments, List.foldl_append, List.foldl_cons, hempty,
      foldl_follow_of_isNamed hnamed, foldl_follow_of_not_mem hpath]
    simp [names]
  have habsolute : isAbsolute (folder ++ '/' :: path) = true := by
    rw [htext]
    rfl
  rw [clean_of_isAbsolute habsolute, hreduce]
  split
  · next hnames => rw [hnames, List.append_nil, ← htext]
  · next hnames =>
    calc '/' :: Text.join '/' (above ++ names path)
        = ('/' :: Text.join '/' above) ++ '/' :: Text.join '/' (names path) := by
          rw [Text.join_append habove hnames, List.cons_append]
      _ = folder ++ '/' :: Text.join '/' (names path) := by rw [← htext]

/-- Following a path without a way back from a folder leads to the folder, or to what the names of
the path lead to from there. -/
theorem clean_join_of_not_mem {folder path : List Char} (hfolder : IsCanonical folder)
    (habsolute : isAbsolute path = false) (hpath : ['.', '.'] ∉ segments path) :
    clean (join folder path) =
      if names path = [] then folder else join folder (Text.join '/' (names path)) := by
  have hrelative : names path ≠ [] →
      isAbsolute (Text.join '/' (names path)) = false := fun hnames =>
    isAbsolute_join_names hnames fun name => isNamed_of_mem_names hpath
  by_cases hslash : folder = ['/']
  · have hjoin : join ['/'] path = '/' :: path := by simp [join, habsolute]
    rw [hslash, hjoin, clean_of_isAbsolute rfl, reduce_slash_of_not_mem hpath]
    split
    · next hnames =>
      rw [hnames]
      rfl
    · next hnames => simp [join, hrelative hnames]
  · have hroot : IsRoot folder :=
      ⟨isAbsolute_of_isCanonical hfolder, clean_of_isCanonical hfolder, hslash⟩
    rw [hroot.join_eq habsolute, hroot.clean_append_of_not_mem hpath]
    split
    · rfl
    · next hnames => rw [hroot.join_eq (hrelative hnames)]

end Path

/-! ## The check -/

theorem outputPath_eq_ok_iff {path accepted : String} :
    outputPath path = .ok accepted ↔ accepted = path ∧ outputPathError? path = none := by
  unfold outputPath
  cases outputPathError? path with
  | none => simp [eq_comm]
  | some error => simp

/-- All that the check asks for. -/
theorem outputPathError?_eq_none_iff {path : String} :
    outputPathError? path = none ↔
      Char.ofNat 0 ∉ path.toList ∧ Path.isAbsolute path.toList = false ∧
        ['.', '.'] ∉ Path.segments path.toList ∧
        ¬ ['/', '.', '.', '/'] <:+: Path.forward path.toList ∧
        ¬ ['.', '.', '/'] <+: Path.forward path.toList := by
  have hite :
      ∀ {test : Prop} [Decidable test] (error : OutputPathError) (rest : Option OutputPathError),
      (if test then some error else rest) = none ↔ ¬ test ∧ rest = none := by
    intro test _ error rest
    by_cases htest : test
    · simp [htest]
    · simp [htest]
  rw [← Path.back_mem_components_iff, ← Text.occursIn_iff, ← List.isPrefixOf_iff_prefix]
  unfold outputPathError?
  simp only [hite]
  simp

/-- A path that is accepted is left as it is, and leads from any folder to the folder itself or to
something in it.  A path is accepted if it does not hold the null character, does not begin with a
slash and has no segment `..` between slashes and backslashes. -/
theorem outputPath_staysIn (path : String) :
    (∀ accepted, outputPath path = .ok accepted →
      accepted = path ∧ ∀ folder, Path.isAbsolute folder = true → Path.clean folder = folder →
        Path.StaysIn folder (Path.clean (Path.join folder accepted.toList))) ∧
    (Char.ofNat 0 ∉ path.toList → path.toList.head? ≠ some '/' →
      ['.', '.'] ∉ Path.looseSegments path.toList → outputPath path = .ok path) := by
  constructor
  · intro accepted haccepted
    obtain ⟨rfl, hnone⟩ := outputPath_eq_ok_iff.mp haccepted
    obtain ⟨-, habsolute, hback, -, -⟩ := outputPathError?_eq_none_iff.mp hnone
    refine ⟨rfl, ?_⟩
    intro folder hfolder hclean
    have hcanonical : Path.IsCanonical folder := hclean ▸ Path.isCanonical_clean hfolder
    rw [Path.clean_join_of_not_mem hcanonical habsolute hback]
    split
    · exact .inl rfl
    · next hnames =>
      exact .inr ⟨_, hnames, fun name => Path.isNamed_of_mem_names hback, rfl⟩
  · intro hnull hslash hback
    rw [Path.looseSegments_eq] at hback
    refine outputPath_eq_ok_iff.mpr ⟨rfl, outputPathError?_eq_none_iff.mpr ⟨hnull, ?_, ?_, ?_, ?_⟩⟩
    · simpa [Path.isAbsolute] using hslash
    · exact fun hmem => hback (Path.back_mem_segments_forward hmem)
    · exact fun hinfix => hback (Path.back_mem_segments_of_infix hinfix)
    · exact fun hprefix => hback (Path.back_mem_segments_of_prefix hprefix)

/-- The way back after a backslash is part of a name; one between slashes would be refused. -/
theorem outputPath_staysIn_backslash :
    Path.StaysIn "/work".toList "/work/out/a\\..".toList ∧
      outputPath "..out\\.//graph..dot" = .ok "..out\\.//graph..dot" := by
  have haccepted : outputPath "./out//a\\.." = .ok "./out//a\\.." := by decide +kernel
  obtain ⟨-, hstays⟩ := (outputPath_staysIn "./out//a\\..").1 _ haccepted
  refine ⟨?_, (outputPath_staysIn "..out\\.//graph..dot").2 (by decide) (by decide) (by decide)⟩
  have hclean : Path.clean (Path.join "/work".toList "./out//a\\..".toList) =
      "/work/out/a\\..".toList := by decide
  rw [← hclean]
  exact hstays _ (by decide) (by decide)

end LiveExports

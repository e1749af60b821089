import LiveExports.Files.FileSystem
import LiveExports.Proofs.Files.Kinds

/-!
# Following paths

Where a path leads depends on its segments alone; the file system only decides whether it can be
followed.  A path can be followed in two file systems alike if they show the same at every place
that it leads through, and what can be followed to a folder stays so while folders stay folders.
-/

namespace LiveExports

/-- Two steps succeed if both of them do. -/
theorem exists_of_bind_eq_ok {ε α β : Type} {first : Except ε α} {second : α → Except ε β} {b : β}
    (h : (first >>= second) = .ok b) : ∃ a, first = .ok a ∧ second a = .ok b := by
  cases first with
  | error error => cases h
  | ok a => exact ⟨a, rfl, h⟩

/-- Two steps fail if one of them does. -/
theorem cases_of_bind_eq_error {ε α β : Type} {first : Except ε α} {second : α → Except ε β}
    {error : ε} (h : (first >>= second) = .error error) :
    first = .error error ∨ ∃ a, first = .ok a ∧ second a = .error error := by
  cases first with
  | error other => exact .inl (congrArg Except.error (Except.error.inj h))
  | ok a => exact .inr ⟨a, rfl, h⟩

/-! ## Segments -/

namespace Text

variable {α : Type} [DecidableEq α]

theorem split_append_separator (separator : α) (text other : List α) :
    split separator (text ++ separator :: other) =
      split separator text ++ split separator other := by
  induction text with
  | nil => simp [split, splitWhen]
  | cons c text ih =>
      unfold split at ih ⊢
      by_cases hc : c = separator
      · simp [splitWhen, hc, ih]
      · obtain ⟨first, others, hsplit⟩ :=
          List.exists_cons_of_ne_nil (splitWhen_ne_nil (· == separator) text)
        rw [hsplit] at ih
        simp [splitWhen, hc, ih, hsplit]

theorem split_of_not_mem {separator : α} {text : List α} (h : separator ∉ text) :
    split separator text = [text] := by
  induction text with
  | nil => rfl
  | cons c text ih =>
      have hc : c ≠ separator := by
        rintro rfl
        exact h List.mem_cons_self
      have htext := ih fun hmem => h (List.mem_cons_of_mem _ hmem)
      unfold split at htext ⊢
      simp [splitWhen, hc, htext]

end Text

/-- A name that a path can end in: it has no slash and leads to no folder that is there already. -/
def Path.IsName (name : String) : Prop :=
  '/' ∉ name.toList ∧ FileSystem.leadsToFolder name.toList = false

instance (name : String) : Decidable (Path.IsName name) :=
  inferInstanceAs (Decidable (_ ∧ _))

namespace Path

theorem IsName.ne_nil {name : String} (h : IsName name) : name.toList ≠ [] := by
  intro hnil
  simp [IsName, hnil, FileSystem.leadsToFolder] at h

theorem IsName.isAbsolute {name : String} (h : IsName name) : isAbsolute name.toList = false := by
  obtain ⟨first, others, hcons⟩ := List.exists_cons_of_ne_nil h.ne_nil
  have hslash : '/' ≠ first := by
    rintro rfl
    exact h.1 (hcons ▸ List.mem_cons_self)
  simp [Path.isAbsolute, hcons, hslash.symm]

/-- The path of a name in a folder has one segment more than the path of the folder, which may end
in a slash of its own. -/
theorem segments_below {folder name : String} (hfolder : folder ≠ "") (hname : IsName name) :
    ∃ above, segments (below folder name).toList = above ++ [name.toList] ∧
      (segments folder.toList = above ∨ segments folder.toList = above ++ [[]]) := by
  have hlast := Text.split_of_not_mem hname.1
  have hnonempty : folder.toList ≠ [] := by simpa using hfolder
  unfold segments below join
  rw [String.toList_ofList, hname.isAbsolute]
  by_cases hslash : folder.toList.getLast? = some '/'
  · obtain ⟨text, htext⟩ := List.getLast?_eq_some_iff.mp hslash
    refine ⟨Text.split '/' text, ?_, .inr ?_⟩
    · rw [htext]
      simp [Text.split_append_separator, hlast]
    · rw [htext, Text.split_append_separator]
      rfl
  · refine ⟨Text.split '/' folder.toList, ?_, .inl rfl⟩
    simp [hslash, hnonempty, Text.split_append_separator, hlast]

theorem isAbsolute_below {folder name : String} (hfolder : folder ≠ "") (hname : IsName name) :
    isAbsolute (below folder name).toList = isAbsolute folder.toList := by
  obtain ⟨first, others, hcons⟩ :=
    List.exists_cons_of_ne_nil (by simpa using hfolder : folder.toList ≠ [])
  unfold below join
  rw [String.toList_ofList, hname.isAbsolute, hcons]
  simp only [Bool.false_eq_true, if_false]
  split <;> rfl

theorem below_ne_empty {folder name : String} (hname : IsName name) : below folder name ≠ "" := by
  have hne := hname.ne_nil
  unfold below join
  rw [hname.isAbsolute]
  intro h
  have hnil := congrArg String.toList h
  simp only [Bool.false_eq_true, if_false, String.toList_ofList] at hnil
  split at hnil <;> simp_all

end Path

namespace FileSystem

/-! ## Where a path leads -/

/-- Where a segment leads from a place. -/
def placeAfter (place : List Name) (segment : List Char) : List Name :=
  if segment = [] ∨ segment = ['.'] then place
  else if segment = ['.', '.'] then place.dropLast
  else place ++ [.ofChars segment]

/-- Where segments lead from a place. -/
def destination (place : List Name) (segments : List (List Char)) : List Name :=
  segments.foldl placeAfter place

/-- Where a path leads, if it can be followed. -/
def placeOf (fs : FileSystem) (path : String) : List Name :=
  destination (fs.start path) (Path.segments path.toList)

theorem placeAfter_name {segment : List Char} (h : leadsToFolder segment = false)
    (place : List Name) : placeAfter place segment = place ++ [.ofChars segment] := by
  simp only [leadsToFolder, decide_eq_false_iff_not, not_or] at h
  simp [placeAfter, h]

/-- The places that segments lead through from a place, which is the first of them. -/
def route : List Name → List (List Char) → List (List Name)
  | place, [] => [place]
  | place, segment :: rest => place :: route (placeAfter place segment) rest

/-! ## One segment -/

/-- Following one segment looks at the place and at where the segment leads. -/
theorem walk_singleton (fs : FileSystem) (place : List Name) (segment : List Char) :
    fs.walk place [segment] =
      if fs.tree.kindAt? place = none then .error .notFound
      else if fs.tree.kindAt? place ≠ some .folder then .error .notFolder
      else if leadsToFolder segment = false ∧ isLongName segment = true then .error .nameTooLong
      else if leadsToFolder segment = false ∧
          fs.tree.kindAt? (placeAfter place segment) = none then .error .notFound
      else .ok (placeAfter place segment) := by
  cases hplace : fs.tree.at? place with
  | none => simp [walk, hplace, Tree.kindAt?]
  | some tree =>
      cases tree with
      | file content => simp [walk, hplace, Tree.kindAt?, Tree.kind]
      | folder children =>
          have hchild : fs.tree.kindAt? (place ++ [.ofChars segment]) =
              (children.lookup (.ofChars segment)).map Tree.kind := by
            rw [Tree.kindAt?, Tree.at?_append, hplace]
            simp [Tree.at?]
          have hhere : fs.tree.kindAt? place = some .folder := by
            simp [Tree.kindAt?, hplace, Tree.kind]
          cases hleads : leadsToFolder segment with
          | true =>
              have hsegment : segment = [] ∨ segment = ['.'] ∨ segment = ['.', '.'] := by
                simpa [leadsToFolder] using hleads
              rcases hsegment with rfl | rfl | rfl <;> simp [walk, hplace, hhere, placeAfter]
          | false =>
              have hname := hleads
              simp only [leadsToFolder, decide_eq_false_iff_not, not_or] at hname
              simp only [walk, hplace, hname, or_self, if_false, hhere, placeAfter_name hleads,
                hchild]
              cases hlong : isLongName segment <;>
                cases hfound : children.lookup (.ofChars segment) <;> simp

theorem walk_cons (fs : FileSystem) (place : List Name) (segment : List Char)
    (rest : List (List Char)) :
    fs.walk place (segment :: rest) =
      (fs.walk place [segment]).bind fun next => fs.walk next rest := by
  cases hplace : fs.tree.at? place with
  | none => simp [walk, hplace, Except.bind]
  | some tree =>
      cases tree with
      | file content => simp [walk, hplace, Except.bind]
      | folder children =>
          simp only [walk, hplace]
          split
          · rfl
          split
          · rfl
          split
          · rfl
          split
          · rfl
          · rfl

theorem walk_append (fs : FileSystem) (place : List Name) (segments others : List (List Char)) :
    fs.walk place (segments ++ others) =
      (fs.walk place segments).bind fun middle => fs.walk middle others := by
  induction segments generalizing place with
  | nil => rfl
  | cons segment segments ih =>
      rw [List.cons_append, walk_cons, walk_cons fs place segment segments]
      cases fs.walk place [segment] with
      | error error => rfl
      | ok next => exact ih next

theorem walk_cons_eq_ok {fs : FileSystem} {place last : List Name} {segment : List Char}
    {rest : List (List Char)} (h : fs.walk place (segment :: rest) = .ok last) :
    ∃ next, fs.walk place [segment] = .ok next ∧ fs.walk next rest = .ok last := by
  rw [walk_cons] at h
  exact exists_of_bind_eq_ok h

theorem walk_singleton_eq_ok {fs : FileSystem} {place next : List Name} {segment : List Char}
    (h : fs.walk place [segment] = .ok next) :
    fs.tree.kindAt? place = some .folder ∧ next = placeAfter place segment ∧
      (leadsToFolder segment = false →
        isLongName segment = false ∧ (fs.tree.kindAt? next).isSome = true) := by
  rw [walk_singleton] at h
  split at h
  · cases h
  split at h
  · cases h
  split at h
  · cases h
  split at h
  · cases h
  next hthere hfolder hshort hfound =>
    obtain rfl := Except.ok.inj h
    refine ⟨Decidable.not_not.mp hfolder, rfl, fun hname => ⟨?_, ?_⟩⟩
    · simpa [hname] using hshort
    · simpa [hname, Option.isSome_iff_ne_none] using hfound

/-! ## Whole paths -/

theorem eq_destination_of_walk {fs : FileSystem} {place last : List Name}
    {segments : List (List Char)} (h : fs.walk place segments = .ok last) :
    last = destination place segments := by
  induction segments generalizing place with
  | nil => exact (Except.ok.inj h).symm
  | cons segment segments ih =>
      obtain ⟨next, hnext, hrest⟩ := walk_cons_eq_ok h
      obtain ⟨-, rfl, -⟩ := walk_singleton_eq_ok hnext
      exact ih hrest

theorem kindAt?_isSome_of_dropLast {tree : Tree} {place : List Name}
    (h : (tree.kindAt? place).isSome = true) : (tree.kindAt? place.dropLast).isSome = true := by
  by_cases hplace : place = []
  · subst hplace
    exact h
  · rw [← List.dropLast_concat_getLast hplace] at h
    exact Tree.kindAt?_isSome_of_append h

/-- Where a path leads, there is something. -/
theorem kindAt?_isSome_of_walk {fs : FileSystem} {place last : List Name}
    {segments : List (List Char)} (h : fs.walk place segments = .ok last)
    (hplace : (fs.tree.kindAt? place).isSome = true) :
    (fs.tree.kindAt? last).isSome = true := by
  induction segments generalizing place with
  | nil => exact Except.ok.inj h ▸ hplace
  | cons segment segments ih =>
      obtain ⟨next, hnext, hrest⟩ := walk_cons_eq_ok h
      refine ih hrest ?_
      obtain ⟨-, rfl, hname⟩ := walk_singleton_eq_ok hnext
      cases hleads : leadsToFolder segment with
      | false => exact (hname hleads).2
      | true =>
          have hsegment : segment = [] ∨ segment = ['.'] ∨ segment = ['.', '.'] := by
            simpa [leadsToFolder] using hleads
          rcases hsegment with rfl | rfl | rfl
          · exact hplace
          · exact hplace
          · exact kindAt?_isSome_of_dropLast hplace

/-- A path that can be followed leads to something: even its first segment asks for a folder. -/
theorem kindAt?_isSome_of_locate {fs : FileSystem} {path : String}
    {place : List Name} (h : fs.locate path = .ok place) :
    (fs.tree.kindAt? place).isSome = true := by
  obtain ⟨_, -, hwalk⟩ := exists_of_bind_eq_ok h
  obtain ⟨first, others, hsegments⟩ := List.exists_cons_of_ne_nil
    (Text.splitWhen_ne_nil (· == '/') path.toList)
  have hstart : fs.tree.kindAt? (fs.start path) = some .folder := by
    rw [Path.segments, Text.split, hsegments] at hwalk
    obtain ⟨_, hfirst, -⟩ := walk_cons_eq_ok hwalk
    exact (walk_singleton_eq_ok hfirst).1
  exact kindAt?_isSome_of_walk hwalk (by rw [hstart]; rfl)

/-- A path is followed in the same way in file systems that show the same wherever it leads. -/
theorem walk_eq_of_route {fs other : FileSystem} {place : List Name} {segments : List (List Char)}
    (h : ∀ stop ∈ route place segments, other.tree.kindAt? stop = fs.tree.kindAt? stop) :
    other.walk place segments = fs.walk place segments := by
  induction segments generalizing place with
  | nil => rfl
  | cons segment segments ih =>
      have hplace : other.tree.kindAt? place = fs.tree.kindAt? place := h place (by simp [route])
      have hrest : ∀ stop ∈ route (placeAfter place segment) segments,
          other.tree.kindAt? stop = fs.tree.kindAt? stop :=
        fun stop hstop => h stop (by simp [route, hstop])
      have hafter : other.tree.kindAt? (placeAfter place segment) =
          fs.tree.kindAt? (placeAfter place segment) :=
        hrest _ (by cases segments <;> simp [route])
      have hstep : other.walk place [segment] = fs.walk place [segment] := by
        rw [walk_singleton, walk_singleton, hplace, hafter]
      rw [walk_cons, walk_cons fs, hstep]
      cases hnext : fs.walk place [segment] with
      | error error => rfl
      | ok next =>
          obtain ⟨-, rfl, -⟩ := walk_singleton_eq_ok hnext
          exact ih hrest

/-- A path leads to the same place as long as all folders stay and something is left at its end. -/
theorem walk_eq_ok_of_folders {fs other : FileSystem} {place last : List Name}
    {segments : List (List Char)}
    (hkeep : ∀ place, fs.tree.kindAt? place = some .folder →
      other.tree.kindAt? place = some .folder)
    (h : fs.walk place segments = .ok last) (hlast : other.tree.kindAt? last ≠ none) :
    other.walk place segments = .ok last := by
  induction segments generalizing place with
  | nil => exact h
  | cons segment segments ih =>
      obtain ⟨next, hnext, hrest⟩ := walk_cons_eq_ok h
      obtain ⟨hplace, rfl, hname⟩ := walk_singleton_eq_ok hnext
      have hthere : other.tree.kindAt? (placeAfter place segment) ≠ none := by
        cases segments with
        | nil => exact Except.ok.inj hrest ▸ hlast
        | cons second segments =>
            obtain ⟨_, hsecond, -⟩ := walk_cons_eq_ok hrest
            rw [hkeep _ (walk_singleton_eq_ok hsecond).1]
            simp
      have hstep : other.walk place [segment] = .ok (placeAfter place segment) := by
        rw [walk_singleton, hkeep _ hplace]
        simpa [hthere] using fun hleads => (hname hleads).1
      rw [walk_cons, hstep]
      exact ih hrest

theorem eq_placeOf_of_locate {fs : FileSystem} {path : String} {place : List Name}
    (h : fs.locate path = .ok place) : place = fs.placeOf path := by
  obtain ⟨_, -, hwalk⟩ := exists_of_bind_eq_ok h
  exact eq_destination_of_walk hwalk

theorem contentAt_eq_ok_iff {fs : FileSystem} {place : List Name} {content : List UInt8} :
    fs.contentAt place = .ok content ↔ fs.tree.kindAt? place = some (.file content) := by
  rw [Tree.kindAt?_eq_file_iff, contentAt]
  cases fs.tree.at? place with
  | none => simp
  | some tree => cases tree <;> simp

/-- Where the path of something that was found leads, if it can be followed. -/
def placeOfFile (fs : FileSystem) (file : FilePath) : List Name :=
  fs.placeOf file.folder ++ file.names

/-- What is read stands where the path leads. -/
theorem kindAt?_of_read {fs : FileSystem} {path : String} {content : List UInt8}
    (h : fs.read path = .ok content) :
    fs.tree.kindAt? (fs.placeOf path) = some (.file content) := by
  obtain ⟨place, hlocate, hcontent⟩ := exists_of_bind_eq_ok h
  rw [← eq_placeOf_of_locate hlocate]
  exact contentAt_eq_ok_iff.mp hcontent

theorem kindAt?_of_readFile {fs : FileSystem} {file : FilePath} {content : List UInt8}
    (h : fs.readFile file = .ok content) :
    fs.tree.kindAt? (fs.placeOfFile file) = some (.file content) := by
  obtain ⟨place, hlocate, h⟩ := exists_of_bind_eq_ok h
  rw [placeOfFile, ← eq_placeOf_of_locate hlocate]
  split at h
  · cases h
  · exact contentAt_eq_ok_iff.mp h

/-! ## Paths of names in folders -/

/-- An empty segment before another one makes no difference: both ask for a folder, and the empty
one stays there. -/
theorem walk_empty_cons (fs : FileSystem) (place : List Name) (segment : List Char)
    (rest : List (List Char)) :
    fs.walk place ([] :: segment :: rest) = fs.walk place (segment :: rest) := by
  cases hplace : fs.tree.at? place with
  | none => simp [walk, hplace]
  | some tree => cases tree <;> simp [walk, hplace]

section Below

variable {folder name : String} (hfolder : folder ≠ "") (hname : Path.IsName name)

include hfolder hname

theorem start_below (fs : FileSystem) : fs.start (Path.below folder name) = fs.start folder := by
  rw [start, start, Path.isAbsolute_below hfolder hname]

theorem walk_below (fs : FileSystem) (place : List Name) :
    fs.walk place (Path.segments (Path.below folder name).toList) =
      (fs.walk place (Path.segments folder.toList)).bind fun last =>
        fs.walk last [name.toList] := by
  obtain ⟨above, hbelow, habove | habove⟩ := Path.segments_below hfolder hname
  · rw [hbelow, habove, walk_append]
  · rw [hbelow, habove, ← walk_append, List.append_assoc, walk_append, walk_append]
    simp only [List.singleton_append, walk_empty_cons]

theorem placeOf_below (fs : FileSystem) :
    fs.placeOf (Path.below folder name) = fs.placeOf folder ++ [.ofText name] := by
  obtain ⟨above, hbelow, habove | habove⟩ := Path.segments_below hfolder hname
  · simp [placeOf, start_below hfolder hname, hbelow, habove, destination,
      placeAfter_name hname.2]
  · have hstay : ∀ place, placeAfter place [] = place := fun _ => rfl
    simp [placeOf, start_below hfolder hname, hbelow, habove, destination,
      placeAfter_name hname.2, hstay]

theorem lastStep_below (fs : FileSystem) :
    fs.lastStep (Path.below folder name) =
      (checkPath (Path.below folder name)).bind fun _ =>
        (fs.walk (fs.start folder) (Path.segments folder.toList)).bind fun place =>
          if fs.tree.kindAt? place = some .folder then .ok (place, name.toList)
          else if fs.tree.kindAt? place = none then .error .notFound
          else .error .notFolder := by
  obtain ⟨above, hbelow, habove⟩ := Path.segments_below hfolder hname
  have hnamed : ((Path.segments (Path.below folder name).toList).reverse.dropWhile
      (·.isEmpty)).reverse = above ++ [name.toList] := by
    rw [hbelow]
    simp [hname.ne_nil]
  unfold lastStep
  rw [hnamed, start_below hfolder hname]
  cases checkPath (Path.below folder name) with
  | error error => rfl
  | ok _ =>
      simp only [List.dropLast_concat, List.getLast?_concat, Option.getD_some]
      rcases habove with habove | habove
      · rw [habove]
        cases fs.walk (fs.start folder) above with
        | error error => rfl
        | ok place =>
            cases hplace : fs.tree.at? place with
            | none => simp [hplace, Tree.kindAt?, Except.bind, bind]
            | some tree => cases tree <;> simp [hplace, Tree.kindAt?, Tree.kind, Except.bind, bind]
      · rw [habove, walk_append]
        cases fs.walk (fs.start folder) above with
        | error error => rfl
        | ok place =>
            cases hplace : fs.tree.at? place with
            | none => simp [hplace, walk, Except.bind, bind]
            | some tree =>
                cases tree <;> simp [hplace, walk, Tree.kindAt?, Tree.kind, Except.bind, bind]

end Below

end FileSystem

end LiveExports

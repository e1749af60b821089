import LiveExports.Proofs.Cache.Faithful
import LiveExports.Proofs.Cache.Store

/-!
# What a saved cache gives back

A cache that was saved is loaded again as it was, or not at all.  It is lost in two cases: this
release cannot use it, or one of its modules forwards a name.  The second case is a matter of the
format: the stored form of an export that forwards a name has two members `name`, which no reader
takes.

Numbers are taken to fit into the words that hold them (`Cache.FitsWords`); everything else is
arbitrary.
-/

namespace LiveExports

open FileSystem

/-! ## Words -/

/-- All line numbers fit into a word. -/
structure Declarations.FitsWords (declarations : Declarations) : Prop where
  exports : ∀ decl ∈ declarations.exports, decl.line < wordBound
  imports : ∀ decl ∈ declarations.imports, decl.line < wordBound

/-- Does one of the exports forward a name? -/
def Declarations.forwards (declarations : Declarations) : Bool :=
  declarations.exports.any (·.forward.isSome)

/-- All numbers of a cache fit into their words. -/
structure Cache.FitsWords (cache : Cache) : Prop where
  formatVersion : cache.stamp.formatVersion < Stamp.formatBound
  time : cache.stamp.time < wordBound
  modules : ∀ entry ∈ cache.modules.entries, entry.2.declarations.FitsWords

/-- Does one of the modules forward a name? -/
def Cache.forwards (cache : Cache) : Bool :=
  cache.modules.entries.any (·.2.declarations.forwards)

theorem Declarations.isKept_iff {declarations : Declarations} (h : declarations.FitsWords) :
    declarations.IsKept ↔ declarations.forwards = false := by
  have hforwards : declarations.forwards = false ↔
      ∀ decl ∈ declarations.exports, decl.forward = none := by
    simp [forwards]
  rw [hforwards]
  constructor
  · intro hkept decl hdecl
    exact (hkept.exports decl hdecl).1
  · intro hown
    exact ⟨fun decl hdecl => ⟨hown decl hdecl, h.exports decl hdecl⟩, h.imports⟩

theorem Cache.isKept_iff {cache : Cache} (h : cache.FitsWords) :
    cache.IsKept ↔ cache.forwards = false := by
  have hforwards : cache.forwards = false ↔
      ∀ entry ∈ cache.modules.entries, entry.2.declarations.forwards = false := by
    simp [forwards]
  rw [hforwards]
  constructor
  · intro hkept entry hentry
    exact (Declarations.isKept_iff (h.modules entry hentry)).mp (hkept.modules entry hentry)
  · intro hown
    refine ⟨⟨h.formatVersion, h.time⟩, fun entry hentry => ?_⟩
    exact (Declarations.isKept_iff (h.modules entry hentry)).mpr (hown entry hentry)

/-- The text of declarations is read as the declarations, or not at all. -/
theorem Declarations.parse?_write_eq_some_iff (declarations other : Declarations)
    (layout : Json.Layout) :
    parse? (String.ofList (declarations.encode.write layout 0)) = some other ↔
      other = declarations ∧ declarations.IsKept := by
  rw [parse?, (plain_encode declarations).read?_write, Option.bind_some,
    decode?_encode_eq_some_iff]

/-! ## The file of a saved cache -/

namespace Cache

variable {root : String} {moment : Moment} {content : List UInt8} {fs : FileSystem}

/-- A file that takes the name of the cache can be read there. -/
theorem read_of_rename {renamed : FileSystem}
    (hdraft : fs.tree.kindAt? (fs.placeOf (folderOf root) ++ [.ofText (draftName moment)]) =
      some (.file content))
    (h : fs.rename (Path.below (folderOf root) (draftName moment)) (pathOf root) = .ok renamed) :
    renamed.read (pathOf root) = .ok content := by
  have hfolder := folderOf_ne_empty root
  have hname := isName_draftName moment
  rw [pathOf] at h ⊢
  obtain ⟨bytes, hread, h⟩ := exists_of_bind_eq_ok h
  obtain ⟨written, hwrite, hremove⟩ := exists_of_bind_eq_ok h
  have hbytes : bytes = content := by
    have hfile := read_below_eq_ok hfolder hname hread
    rw [hdraft] at hfile
    simpa using hfile.symm
  have hfirst := changesIn_write hfolder isName_fileName hwrite
  have hsecond := changesIn_removeFile hfolder hname hremove
  have hremoved := kindAt?_removeFile hfolder hname hremove (.ofText fileName)
  rw [hfirst.placeOf] at hsecond hremoved
  -- The draft goes by another name, so that removing it leaves the cache.
  rw [if_neg (mt Name.ofText_inj.mp (fileName_ne_draftName moment)),
    kindAt?_write hfolder isName_fileName hwrite, if_pos rfl, hbytes] at hremoved
  exact read_below_of_write hfolder isName_fileName hwrite (hfirst.trans hsecond) hremoved

theorem read_of_replace {replaced : FileSystem}
    (h : replace root moment content fs = (.ok (), replaced)) :
    replaced.read (pathOf root) = .ok content := by
  unfold replace at h
  dsimp only at h
  rw [draftOf_eq] at h
  cases hwrite : fs.write (Path.below (folderOf root) (draftName moment)) content with
  | error error =>
      rw [hwrite] at h
      cases (Prod.mk.inj h).1
  | ok written =>
      have hplace := (changesIn_write (folderOf_ne_empty root) (isName_draftName moment)
        hwrite).placeOf (folderOf root)
      have hdraft := kindAt?_write (folderOf_ne_empty root) (isName_draftName moment) hwrite
        (.ofText (draftName moment))
      rw [if_pos rfl, ← hplace] at hdraft
      rw [hwrite] at h
      dsimp only at h
      cases hrename : written.rename (Path.below (folderOf root) (draftName moment))
          (pathOf root) with
      | error error =>
          rw [hrename] at h
          cases (Prod.mk.inj h).1
      | ok renamed =>
          rw [hrename] at h
          obtain rfl : renamed = replaced := (Prod.mk.inj h).2
          exact read_of_rename hdraft hrename

/-- After a cache within the limit was saved, its text stands in the file of the cache. -/
theorem read_of_save {cache : Cache} {saved : FileSystem}
    (hsize : (Text.encode cache.text).length ≤ sizeLimit)
    (h : save root moment cache fs = (.ok (), saved)) :
    saved.read (pathOf root) = .ok (Text.encode cache.text) := by
  unfold save at h
  split at h
  · cases (Prod.mk.inj h).1
  · dsimp only at h
    rw [if_neg (Nat.not_lt.mpr hsize)] at h
    exact read_of_replace h

/-- What is loaded where the text of a cache stands. -/
theorem load_of_read {cache : Cache} (h : fs.read (pathOf root) = .ok (Text.encode cache.text)) :
    (load root fs).1 =
      (parse? cache.text).filter (·.stamp.isCompatible) := by
  have htext : fs.readText (pathOf root) = .ok cache.text := by
    rw [readText, h]
    simp only [bind, Except.bind, Text.decode?_encode]
  unfold load
  rw [htext]
  dsimp only
  generalize parse? cache.text = parsed
  cases parsed with
  | none => rw [Option.filter_none]
  | some other =>
      cases hcompatible : other.stamp.isCompatible with
      | true => simp only [hcompatible, if_true, Option.filter_some]
      | false =>
          simp only [hcompatible, Bool.false_eq_true, if_false, Option.filter_some]

theorem parse?_text_of_fitsWords {cache : Cache} (h : cache.FitsWords) :
    parse? cache.text = if cache.forwards then none else some cache := by
  ext other
  rw [parse?_text_eq_some_iff, isKept_iff h]
  cases cache.forwards <;> simp [eq_comm]

/-- A cache within the limit that was saved is loaded as it was if this release can use it and none
of its modules forwards a name, and is not loaded otherwise.  In the same way declarations can be
read back from their text if and only if none of them forwards a name, and are then the same. -/
theorem load_save :
    (∀ (root : String) (moment : Moment) (cache : Cache) (fs saved : FileSystem),
      cache.FitsWords → (Text.encode cache.text).length ≤ sizeLimit →
      save root moment cache fs = (.ok (), saved) →
      (load root saved).1 =
        if cache.stamp.isCompatible && !cache.forwards then some cache else none) ∧
    ∀ (declarations : Declarations) (layout : Json.Layout), declarations.FitsWords →
      Declarations.parse? (String.ofList (declarations.encode.write layout 0)) =
        if declarations.forwards then none else some declarations := by
  constructor
  · intro root moment cache fs saved hfits hsize hsaved
    rw [load_of_read (read_of_save hsize hsaved), parse?_text_of_fitsWords hfits]
    cases cache.forwards <;> cases hcompatible : cache.stamp.isCompatible <;>
      simp [hcompatible]
  · intro declarations layout hfits
    ext other
    rw [Declarations.parse?_write_eq_some_iff, Declarations.isKept_iff hfits]
    cases declarations.forwards <;> simp [eq_comm]

/-! ### Two caches in an empty project -/

/-- A project without files. -/
def emptyProject : FileSystem where
  tree := .folder [("p", .folder [])]

/-- Declarations with texts that have to be escaped, and with the largest line. -/
def quotedDeclarations : Declarations where
  exports := [{ name := "a\"\\\n", line := wordBound - 1 }]
  stars := ["./\t"]
  imports := [{ source := "./b", name := "", localName := "" }]

/-- Declarations that forward a name. -/
def forwardingDeclarations : Declarations where
  exports := [{ name := "a", forward := some ⟨"./b", "a"⟩ }]

/-- A cache of this release with one module. -/
def single (declarations : Declarations) : Cache where
  stamp := Stamp.current 7
  modules := Table.ofList [("/p/a.js", ⟨"d", declarations⟩)]

theorem fitsWords_quoted : quotedDeclarations.FitsWords := by
  constructor <;> decide

theorem fitsWords_forwarding : forwardingDeclarations.FitsWords := by
  constructor <;> decide

theorem fitsWords_single {declarations : Declarations} (h : declarations.FitsWords) :
    (single declarations).FitsWords := by
  have hformat : Stamp.currentFormat < Stamp.formatBound := by decide
  have htime : 7 < wordBound := by decide
  refine ⟨hformat, htime, fun entry hentry => ?_⟩
  have hentries : (single declarations).modules.entries = [("/p/a.js", ⟨"d", declarations⟩)] := rfl
  rw [hentries, List.mem_singleton] at hentry
  rw [hentry]
  exact h

theorem length_text (cache : Cache) : (Text.encode cache.text).length =
    ((cache.encode.write .indented 0).flatMap Text.encodeChar).length := by
  rw [text, Json.Value.pretty, Text.encode, String.toList_ofList]

theorem load_save_single :
    (∃ saved, (Text.encode (single quotedDeclarations).text).length ≤ sizeLimit ∧
      save "/p" {} (single quotedDeclarations) emptyProject = (.ok (), saved) ∧
      (load "/p" saved).1 = some (single quotedDeclarations)) ∧
    (∃ saved, (Text.encode (single forwardingDeclarations).text).length ≤ sizeLimit ∧
      save "/p" {} (single forwardingDeclarations) emptyProject = (.ok (), saved) ∧
      (load "/p" saved).1 = none) ∧
    Declarations.parse? quotedDeclarations.encode.compact = some quotedDeclarations ∧
    Declarations.parse? forwardingDeclarations.encode.compact = none := by
  have hmade : (makeFolder "/p" emptyProject).1.toOption.isSome = true := by decide +kernel
  have hquoted : (Text.encode (single quotedDeclarations).text).length ≤ sizeLimit := by
    rw [length_text]
    decide +kernel
  have hforwarding : (Text.encode (single forwardingDeclarations).text).length ≤ sizeLimit := by
    rw [length_text]
    decide +kernel
  have hsaved : ∀ declarations, (Text.encode (single declarations).text).length ≤ sizeLimit →
      (replace "/p" {} (Text.encode (single declarations).text)
        (makeFolder "/p" emptyProject).2).1.toOption = some () →
      ∃ saved, save "/p" {} (single declarations) emptyProject = (.ok (), saved) := by
    intro declarations hsize hreplaced
    rw [save_of_small hmade (by rw [← length_text]; exact hsize)]
    generalize replace "/p" {} _ _ = result at hreplaced ⊢
    obtain ⟨outcome, saved⟩ := result
    exact ⟨saved, congrArg (·, saved) (eq_ok_of_toOption hreplaced)⟩
  refine ⟨?_, ?_, ?_, ?_⟩
  · obtain ⟨saved, hsave⟩ := hsaved quotedDeclarations hquoted (by decide +kernel)
    refine ⟨saved, hquoted, hsave, ?_⟩
    rw [load_save.1 _ _ _ _ _ (fitsWords_single fitsWords_quoted) hquoted hsave]
    rfl
  · obtain ⟨saved, hsave⟩ := hsaved forwardingDeclarations hforwarding (by decide +kernel)
    refine ⟨saved, hforwarding, hsave, ?_⟩
    rw [load_save.1 _ _ _ _ _ (fitsWords_single fitsWords_forwarding) hforwarding hsave]
    rfl
  · exact load_save.2 quotedDeclarations .compact fitsWords_quoted
  · exact load_save.2 forwardingDeclarations .compact fitsWords_forwarding

end Cache

end LiveExports

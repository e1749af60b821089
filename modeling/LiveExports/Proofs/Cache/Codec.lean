import LiveExports.Cache.Basic
import LiveExports.Proofs.Json.RoundTrip
import LiveExports.Proofs.Ordered.Listing

/-!
# What a stored cache gives back

A document that was written for declarations, for a stamp or for a whole cache gives back either
what it was written for or nothing, and which of the two depends on the content alone: no export may
forward a name, and numbers have to be below their bounds.  So reading a stored cache can lose it,
but never changes it.
-/

namespace LiveExports

open Json (Plain)

/-! ## Numbers and lists -/

namespace Json.Value

theorem naturalOfDigits_toDigits (n : Nat) : naturalOfDigits (Nat.toDigits 10 n) = n :=
  Nat.ofDigitChars_ten_toDigits

theorem natural?_natural_eq_some_iff {bound n m : Nat} :
    (natural n).natural? bound = some m ↔ m = n ∧ n < bound := by
  have hdigits : (Nat.toDigits 10 n).all Char.isDigit = true :=
    List.all_eq_true.mpr fun c hc => isDigit_of_mem_toDigits hc
  simp only [natural, natural?, hdigits, naturalOfDigits_toDigits, true_and]
  split
  · next h => simp [h, eq_comm]
  · next h => simp [h]

end Json.Value

/-- What is read back as itself or not at all can be built into something that is, too. -/
theorem bind_some_eq_some_iff_of_kept {α β : Type} {read : Option α} {a : α} {kept : Prop}
    (h : ∀ b, read = some b ↔ b = a ∧ kept) {build : α → β} {other : β} :
    (read.bind fun b => some (build b)) = some other ↔ other = build a ∧ kept := by
  simp only [Option.bind_eq_some_iff, Option.some.injEq, h]
  constructor
  · rintro ⟨_, ⟨rfl, hkept⟩, rfl⟩
    exact ⟨rfl, hkept⟩
  · rintro ⟨rfl, hkept⟩
    exact ⟨a, ⟨rfl, hkept⟩, rfl⟩

/-- If each element of a list is read back as itself or not at all, then so is the list. -/
theorem mapM_decode_map_encode_eq_some_iff {α γ : Type} {encode : α → γ}
    {decode : γ → Option α} {keeps : α → Prop}
    (h : ∀ a b, decode (encode a) = some b ↔ b = a ∧ keeps a) {list other : List α} :
    (list.map encode).mapM decode = some other ↔ other = list ∧ ∀ a ∈ list, keeps a := by
  induction list generalizing other with
  | nil => simp [eq_comm]
  | cons a list ih =>
      simp only [List.map_cons, List.mapM_cons, Option.bind_eq_bind, Option.bind_eq_some_iff, h, ih,
        Option.pure_def, Option.some.injEq]
      constructor
      · rintro ⟨_, ⟨rfl, ha⟩, _, ⟨rfl, hlist⟩, rfl⟩
        exact ⟨rfl, by simpa using ⟨ha, hlist⟩⟩
      · rintro ⟨rfl, hkeeps⟩
        exact ⟨a, ⟨rfl, hkeeps a (by simp)⟩, list, ⟨rfl, fun b hb => hkeeps b (by simp [hb])⟩, rfl⟩

/-! ## Declarations -/

/-- An export that can be read back: a binding of the module itself, on a line within bounds. -/
def ExportDecl.IsKept (decl : ExportDecl) : Prop :=
  decl.forward = none ∧ decl.line < wordBound

/-- Declarations that can be read back. -/
structure Declarations.IsKept (declarations : Declarations) : Prop where
  exports : ∀ decl ∈ declarations.exports, decl.IsKept
  imports : ∀ decl ∈ declarations.imports, decl.line < wordBound

theorem ExportDecl.plain_encode (decl : ExportDecl) : Plain decl.encode := by
  obtain ⟨name, forward, line⟩ := decl
  cases forward with
  | none =>
      exact (Plain.string name).withMember
        ((Plain.string "value").withMember ((Plain.natural line).withMember .noMembers))
  | some forward =>
      exact (Plain.string name).withMember ((Plain.string "re_export").withMember
        ((Plain.string forward.source).withMember ((Plain.string forward.name).withMember
          ((Plain.natural line).withMember .noMembers))))

theorem ExportDecl.decode?_encode_eq_some_iff (enclosing : Nat) (decl other : ExportDecl) :
    decode? enclosing decl.encode = some other ↔ other = decl ∧ decl.IsKept := by
  obtain ⟨name, forward, line⟩ := decl
  cases forward with
  | some forward =>
      -- The forwarded name is a second `name`.
      simp [encode, decode?, Json.Value.member?, IsKept]
  | none =>
      have hread : decode? enclosing (encode ⟨name, none, line⟩) =
          ((Json.Value.natural line).natural? wordBound).bind fun line =>
            some ⟨name, none, line⟩ := by
        simp [encode, decode?, Json.Value.member?, Json.Value.string?, isOwnKind,
          Json.Value.isWithin]
      rw [hread, bind_some_eq_some_iff_of_kept fun _ => Json.Value.natural?_natural_eq_some_iff]
      simp only [IsKept, true_and]

theorem ImportDecl.plain_encode (decl : ImportDecl) : Plain decl.encode :=
  (Plain.string decl.source).withMember ((Plain.string decl.name).withMember
    ((Plain.string decl.localName).withMember ((Plain.natural decl.line).withMember .noMembers)))

theorem ImportDecl.decode?_encode_eq_some_iff (decl other : ImportDecl) :
    decode? decl.encode = some other ↔ other = decl ∧ decl.line < wordBound := by
  obtain ⟨source, name, localName, line⟩ := decl
  have hread : decode? (encode ⟨source, name, localName, line⟩) =
      ((Json.Value.natural line).natural? wordBound).bind fun line =>
        some ⟨source, name, localName, line⟩ := by
    simp [encode, decode?, Json.Value.fields?, Json.Value.member?, Json.Value.string?]
  rw [hread, bind_some_eq_some_iff_of_kept fun _ => Json.Value.natural?_natural_eq_some_iff]

theorem Json.Value.list?_strings_eq_some_iff {texts other : List String} :
    (strings texts).list? string? = some other ↔ other = texts := by
  have hstring : ∀ text other, string? (.string text) = some other ↔ other = text ∧ True := by
    simp [string?, eq_comm]
  simpa [strings, list?] using mapM_decode_map_encode_eq_some_iff hstring

theorem Declarations.plain_encode (declarations : Declarations) : Plain declarations.encode :=
  (Plain.arrayOf ExportDecl.plain_encode declarations.exports).withMember
    ((Plain.arrayOf Plain.string declarations.stars).withMember
      ((Plain.arrayOf ImportDecl.plain_encode declarations.imports).withMember .noMembers))

theorem Declarations.decode?_encode_eq_some_iff (enclosing : Nat)
    (declarations other : Declarations) :
    decode? enclosing declarations.encode = some other ↔
      other = declarations ∧ declarations.IsKept := by
  obtain ⟨exports, stars, imports⟩ := declarations
  have hread : decode? enclosing (encode ⟨exports, stars, imports⟩) =
      ((exports.map ExportDecl.encode).mapM (ExportDecl.decode? (enclosing + 2))).bind
        fun exports =>
        ((Json.Value.strings stars).list? Json.Value.string?).bind fun stars =>
          ((imports.map ImportDecl.encode).mapM ImportDecl.decode?).bind fun imports =>
            some ⟨exports, stars, imports⟩ := by
    simp [encode, decode?, Json.Value.fields?, Json.Value.member?, Json.Value.list?]
  simp only [hread, Option.bind_eq_some_iff, Option.some.injEq,
    Json.Value.list?_strings_eq_some_iff,
    mapM_decode_map_encode_eq_some_iff
      (ExportDecl.decode?_encode_eq_some_iff (enclosing + 2)),
    mapM_decode_map_encode_eq_some_iff ImportDecl.decode?_encode_eq_some_iff]
  constructor
  · rintro ⟨_, ⟨rfl, hexports⟩, _, rfl, _, ⟨rfl, himports⟩, rfl⟩
    exact ⟨rfl, hexports, himports⟩
  · rintro ⟨rfl, hexports, himports⟩
    exact ⟨exports, ⟨rfl, hexports⟩, stars, rfl, imports, ⟨rfl, himports⟩, rfl⟩

/-! ## Caches -/

/-- A stamp that can be read back. -/
structure Stamp.IsKept (stamp : Stamp) : Prop where
  formatVersion : stamp.formatVersion < formatBound
  time : stamp.time < wordBound

theorem Stamp.plain_encode (stamp : Stamp) : Plain stamp.encode :=
  (Plain.natural stamp.formatVersion).withMember ((Plain.string stamp.release).withMember
    ((Plain.natural stamp.time).withMember .noMembers))

theorem Stamp.decode?_encode_eq_some_iff (stamp other : Stamp) :
    decode? stamp.encode = some other ↔ other = stamp ∧ stamp.IsKept := by
  obtain ⟨formatVersion, release, time⟩ := stamp
  have hread : decode? (encode ⟨formatVersion, release, time⟩) =
      ((Json.Value.natural formatVersion).natural? formatBound).bind fun formatVersion =>
        ((Json.Value.natural time).natural? wordBound).bind fun time =>
          some ⟨formatVersion, release, time⟩ := by
    simp [encode, decode?, Json.Value.fields?, Json.Value.member?, Json.Value.string?]
  simp only [hread, Option.bind_eq_some_iff, Option.some.injEq,
    Json.Value.natural?_natural_eq_some_iff]
  constructor
  · rintro ⟨_, ⟨rfl, hformat⟩, _, ⟨rfl, htime⟩, rfl⟩
    exact ⟨rfl, hformat, htime⟩
  · rintro ⟨rfl, hformat, htime⟩
    exact ⟨formatVersion, ⟨rfl, hformat⟩, time, ⟨rfl, htime⟩, rfl⟩

theorem CachedModule.plain_encode (module : CachedModule) : Plain module.encode :=
  (Plain.string module.digest).withMember (module.declarations.plain_encode.withMember .noMembers)

theorem CachedModule.decode?_encode_eq_some_iff (enclosing : Nat) (module other : CachedModule) :
    decode? enclosing module.encode = some other ↔
      other = module ∧ module.declarations.IsKept := by
  obtain ⟨digest, declarations⟩ := module
  have hread : decode? enclosing (encode ⟨digest, declarations⟩) =
      (Declarations.decode? (enclosing + 1) declarations.encode).bind fun declarations =>
        some ⟨digest, declarations⟩ := by
    simp [encode, decode?, Json.Value.fields?, Json.Value.member?, Json.Value.string?]
  rw [hread, bind_some_eq_some_iff_of_kept (Declarations.decode?_encode_eq_some_iff _ declarations)]

namespace Cache

/-- A cache that can be read back. -/
structure IsKept (cache : Cache) : Prop where
  stamp : cache.stamp.IsKept
  modules : ∀ entry ∈ cache.modules.entries, entry.2.declarations.IsKept

theorem decodeModules?_object_eq_some_iff (modules other : Table String CachedModule) :
    decodeModules? (.object (modules.entries.map fun entry => (entry.1, entry.2.encode))) =
      some other ↔
      other = modules ∧ ∀ entry ∈ modules.entries, entry.2.declarations.IsKept := by
  have hentry : ∀ entry other : String × CachedModule,
      (CachedModule.decode? 2 entry.2.encode).map (entry.1, ·) = some other ↔
        other = entry ∧ entry.2.declarations.IsKept := by
    rintro ⟨id, module⟩ other
    rw [Option.map_eq_bind]
    exact bind_some_eq_some_iff_of_kept (CachedModule.decode?_encode_eq_some_iff 2 module)
  have hentries : ∀ others, ((modules.entries.map fun entry => (entry.1, entry.2.encode)).mapM
      fun member => (CachedModule.decode? 2 member.2).map (member.1, ·)) = some others ↔
        others = modules.entries ∧ ∀ entry ∈ modules.entries, entry.2.declarations.IsKept :=
    fun others => mapM_decode_map_encode_eq_some_iff hentry
  simp only [decodeModules?, Option.bind_eq_bind, Option.bind_eq_some_iff, hentries,
    Option.pure_def, Option.some.injEq]
  constructor
  · rintro ⟨_, ⟨rfl, hkept⟩, rfl⟩
    exact ⟨Table.ofList_entries modules, hkept⟩
  · rintro ⟨rfl, hkept⟩
    exact ⟨other.entries, ⟨rfl, hkept⟩, Table.ofList_entries other⟩

theorem decode?_encode_eq_some_iff (cache other : Cache) :
    decode? cache.encode = some other ↔ other = cache ∧ cache.IsKept := by
  obtain ⟨stamp, modules⟩ := cache
  have hread : decode? (encode ⟨stamp, modules⟩) =
      (Stamp.decode? stamp.encode).bind fun stamp =>
        (decodeModules? (.object (modules.entries.map fun entry =>
          (entry.1, entry.2.encode)))).bind fun modules => some ⟨stamp, modules⟩ := by
    simp [encode, decode?, Json.Value.fields?, Json.Value.member?]
  simp only [hread, Option.bind_eq_some_iff, Option.some.injEq,
    Stamp.decode?_encode_eq_some_iff, decodeModules?_object_eq_some_iff]
  constructor
  · rintro ⟨_, ⟨rfl, hstamp⟩, _, ⟨rfl, hmodules⟩, rfl⟩
    exact ⟨rfl, hstamp, hmodules⟩
  · rintro ⟨rfl, hstamp, hmodules⟩
    exact ⟨stamp, ⟨rfl, hstamp⟩, modules, ⟨rfl, hmodules⟩, rfl⟩

theorem plain_encode (cache : Cache) : Plain cache.encode := by
  refine cache.stamp.plain_encode.withMember (Plain.withMember ?_ .noMembers)
  exact .objectOf (fun entry => entry.2.plain_encode) _

/-- The text of a cache is read as the cache, or not at all. -/
theorem parse?_text_eq_some_iff (cache other : Cache) :
    parse? cache.text = some other ↔ other = cache ∧ cache.IsKept := by
  rw [parse?, text, Json.Value.pretty, (plain_encode cache).read?_write, Option.bind_some,
    decode?_encode_eq_some_iff]

end Cache

end LiveExports

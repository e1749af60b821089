import LiveExports.Cache.Stamp
import LiveExports.Declarations.Codec
import LiveExports.Ordered.Table

/-!
# Caches

A cache keeps the declarations of modules between runs, each with the digest of the source that they
were read from.  It is stored as a document.  A document without a stamp is read as one with the
blank stamp, which no release can use.
-/

namespace LiveExports

/-- The declarations read from a source with the given digest. -/
structure CachedModule where
  digest : String
  declarations : Declarations
deriving DecidableEq, Repr

/-- Declarations by the text of the module's identifier. -/
structure Cache where
  stamp : Stamp
  modules : Table String CachedModule

/-! ## Documents -/

namespace Stamp

/-- The stamp of a document that has none. -/
def blank : Stamp := ⟨0, "", 0⟩

/-- Format versions are below this bound. -/
def formatBound : Nat := Nat.pow 2 32

def encode (stamp : Stamp) : Json.Value :=
  .object
    [("cache_version", .natural stamp.formatVersion),
      ("deadexport_version", .string stamp.release),
      ("created_at", .natural stamp.time)]

def decode? (value : Json.Value) : Option Stamp := do
  match ← value.fields? ["cache_version", "deadexport_version", "created_at"] with
  | [formatVersion, release, time] =>
    return {
      formatVersion := ← formatVersion.bind (Json.Value.natural? formatBound)
      release := ← release.bind Json.Value.string?
      time := ← time.elim (some 0) (Json.Value.natural? wordBound) }
  | _ => none

end Stamp

namespace CachedModule

def encode (module : CachedModule) : Json.Value :=
  .object
    [("hash", .string module.digest), ("declarations", module.declarations.encode)]

/-- Reads a cached module that stands inside `enclosing` arrays and objects. -/
def decode? (enclosing : Nat) (value : Json.Value) : Option CachedModule := do
  match ← value.fields? ["hash", "declarations"] with
  | [digest, declarations] =>
    return {
      digest := ← digest.bind Json.Value.string?
      declarations := ← declarations.bind (Declarations.decode? (enclosing + 1)) }
  | _ => none

end CachedModule

namespace Cache

def encode (cache : Cache) : Json.Value :=
  .object
    [("metadata", cache.stamp.encode),
      ("modules", .object (cache.modules.entries.map fun (id, module) => (id, module.encode)))]

/-- Reads the modules of a cache; of two under one identifier the later one counts. -/
def decodeModules? : Json.Value → Option (Table String CachedModule)
  | .object members => do
    let entries ← members.mapM fun (id, value) => (CachedModule.decode? 2 value).map (id, ·)
    return Table.ofList entries
  | _ => none

def decode? (value : Json.Value) : Option Cache := do
  match ← value.fields? ["metadata", "modules"] with
  | [stamp, modules] =>
    return {
      stamp := ← stamp.elim (some .blank) Stamp.decode?
      modules := ← modules.bind decodeModules? }
  | _ => none

/-- The text of a cache. -/
def text (cache : Cache) : String :=
  cache.encode.pretty

/-- Reads a whole text as a cache. -/
def parse? (text : String) : Option Cache :=
  (Json.read? text).bind decode?

end Cache

end LiveExports

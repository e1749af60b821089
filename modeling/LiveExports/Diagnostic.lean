import LiveExports.Fault
import LiveExports.Json.Writer
import LiveExports.Ordered.SortedSet

/-!
# Diagnostics

Findings that do not stop an analysis, each about one module.  They are listed by module, then kind,
then message, then line; a diagnostic without a line comes before those with one.
-/

namespace LiveExports

/-- What a diagnostic is about, in the order in which they are listed. -/
inductive DiagnosticKind where
  /-- A specifier resolved to no file; its edge is left out. -/
  | unresolvedPath
  /-- A module was submitted twice; the first submission counts. -/
  | duplicateModule
  /-- A name is wanted of a module that does not export it. -/
  | missingExport
  /-- A source could not be read; its module has no declarations. -/
  | extractionFailed
deriving DecidableEq, Repr

namespace DiagnosticKind

/-- The place of the kind in a listing. -/
def rank : DiagnosticKind → Nat
  | unresolvedPath => 0
  | duplicateModule => 1
  | missingExport => 2
  | extractionFailed => 3

/-- The words shown to the user. -/
def words : DiagnosticKind → String
  | unresolvedPath => "unresolved path"
  | duplicateModule => "duplicate module"
  | missingExport => "missing export"
  | extractionFailed => "extraction failed"

/-- The name in machine-readable output. -/
def tag : DiagnosticKind → String
  | unresolvedPath => "unresolved_path"
  | duplicateModule => "duplicate_module"
  | missingExport => "missing_export"
  | extractionFailed => "extraction_failed"

end DiagnosticKind

/-- A finding about a module. -/
structure Diagnostic where
  module : ModuleId
  kind : DiagnosticKind
  message : String
  line : Option Nat := none
deriving DecidableEq, Repr

namespace Diagnostic

/-- Places a diagnostic at a line; line zero stands for no line and leaves it as it is. -/
def atLine (diagnostic : Diagnostic) (line : Nat) : Diagnostic :=
  if line = 0 then diagnostic else { diagnostic with line := some line }

/-- The diagnostic that a fault in `module` becomes. -/
def ofFault (module : ModuleId) (fault : Fault) : Diagnostic :=
  match fault with
  | .unresolvedPath .. => { module, kind := .unresolvedPath, message := fault.message }
  | .duplicateModule .. => { module, kind := .duplicateModule, message := fault.message }
  | .parse _ _ line =>
    atLine { module, kind := .extractionFailed, message := fault.message } (line.getD 0)
  | _ => { module, kind := .extractionFailed, message := fault.message }

/-- One line of text. -/
def render (diagnostic : Diagnostic) : String :=
  match diagnostic.line with
  | some line => s!"{diagnostic.module}:{line} {diagnostic.kind.words}: {diagnostic.message}"
  | none => s!"{diagnostic.module} {diagnostic.kind.words}: {diagnostic.message}"

/-- The diagnostic as a document; the line is left out where there is none. -/
def encode (diagnostic : Diagnostic) : Json.Value :=
  .object (
    [("module", .string diagnostic.module.text),
      ("kind", .string diagnostic.kind.tag),
      ("message", .string diagnostic.message)] ++
    match diagnostic.line with
    | some line => [("line", .natural line)]
    | none => [])

/-! ## Listing -/

/-- What a diagnostic is listed by; no line counts as a line before the first. -/
def listingKey (diagnostic : Diagnostic) : ModuleId × Nat × String × Nat :=
  (diagnostic.module, diagnostic.kind.rank, diagnostic.message,
    match diagnostic.line with
    | none => 0
    | some line => line + 1)

theorem eq_of_listingKey_eq (a b : Diagnostic) (h : a.listingKey = b.listingKey) : a = b := by
  obtain ⟨module, kind, message, line⟩ := a
  obtain ⟨module', kind', message', line'⟩ := b
  simp only [listingKey, Prod.mk.injEq] at h
  obtain ⟨rfl, hkind, rfl, hline⟩ := h
  have hkind' : kind = kind' := by
    cases kind <;> cases kind' <;> first | rfl | simp [DiagnosticKind.rank] at hkind
  have hline' : line = line' := by
    cases line <;> cases line' <;> simp_all
  rw [hkind', hline']

instance : StrictOrder Diagnostic :=
  StrictOrder.ofKey listingKey eq_of_listingKey_eq

/-- The diagnostics in order, each once. -/
def listing (diagnostics : List Diagnostic) : List Diagnostic :=
  (SortedSet.ofList diagnostics).elements

theorem mem_listing {diagnostics : List Diagnostic} {diagnostic : Diagnostic} :
    diagnostic ∈ listing diagnostics ↔ diagnostic ∈ diagnostics :=
  SortedSet.mem_ofList

theorem sorted_listing (diagnostics : List Diagnostic) :
    (listing diagnostics).Pairwise fun diagnostic other =>
      StrictOrder.less diagnostic other = true :=
  SortedSet.sorted _

end Diagnostic

end LiveExports

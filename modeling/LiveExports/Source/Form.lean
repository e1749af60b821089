import LiveExports.Source.Occurrence
import LiveExports.Source.Statement

/-!
# Forms of statements

The forms in which a module imports and exports.  A form says where its statements may begin, how
they are recognised and what they declare.  An exported name that is bound by an import forwards
what was imported.
-/

namespace LiveExports.Source

/-- A form of statement.  A statement declares nothing where one of another form is `taken`
instead. -/
structure Form (δ : Type) where
  Found : Type
  mayBegin : Option Char → Bool := beginsLine
  recognise : List Char → Option (Found × List Char)
  taken : (text : List Char) → List Nat := fun _ => []
  declared : Found → (line : Nat) → List δ

/-- The statements of a form, with what they declare. -/
def Form.statements {δ : Type} (form : Form δ) (text : List Char) : List (Occurrence (List δ)) :=
  let taken := form.taken text
  ((occurrences form.mayBegin form.recognise text).filter fun o => !taken.contains o.offset).map
    fun o => o.with (form.declared o.found o.line)

/-- A call may stand anywhere but inside a word. -/
def beginsWord (previous : Option Char) : Bool :=
  !previous.any Text.isWord

/-- The import that binds a name; of several the last one counts. -/
def bindingOf (imports : List ImportDecl) (name : String) : Option ImportDecl :=
  (imports.filter fun decl => decl.localName != "" && decl.localName == name).getLast?

/-- The export of a name under another: it forwards an imported binding and is a binding of its own
otherwise. -/
def localExport (imports : List ImportDecl) (name exported : String) (line : Nat) : ExportDecl :=
  match bindingOf imports name with
  | some decl =>
    if decl.isSideEffect then { name := exported, line }
    else { name := exported, forward := some ⟨decl.source, decl.name⟩, line }
  | none => { name := exported, line }

/-- Words that can follow `export default` without naming a binding. -/
def defaultKeywords : List String :=
  ["function", "class", "async", "new", "await", "typeof"]

namespace Form

/-! ## Imports -/

/-- Statements `import CLAUSE from 'SOURCE'`. -/
def clauseImport : Form ImportDecl where
  Found := List Char × String
  recognise := importFrom?
  declared := fun (clause, source) line =>
    (readClause clause source).map fun decl => { decl with line := line }

/-- Statements `import 'SOURCE'`. -/
def bareImport : Form ImportDecl where
  Found := String
  recognise := importBare?
  declared := fun source line => [{ source, name := "", localName := "", line }]

/-- Calls that import; they bind nothing. -/
def callImport : Form ImportDecl where
  Found := String
  mayBegin := beginsWord
  recognise := importCall?
  declared := fun source line => [{ source, name := namespaceName, localName := "", line }]

/-! ## Exports -/

/-- Statements `export { LIST } from 'SOURCE'`. -/
def forwardedList : Form ExportDecl where
  Found := List Char × String
  recognise := exportFrom?
  declared := fun (list, source) line => (readList list).map fun (name, exported) =>
    { name := exported, forward := some ⟨source, name⟩, line }

/-- Statements `export * as NAME from 'SOURCE'`. -/
def forwardedModule : Form ExportDecl where
  Found := Option String × String
  recognise := exportStar?
  declared := fun (name?, source) line => name?.toList.map fun name =>
    { name, forward := some ⟨source, namespaceName⟩, line }

/-- Statements `export * from 'SOURCE'`; they declare their specifiers. -/
def star : Form String where
  Found := Option String × String
  recognise := exportStar?
  declared := fun (name?, source) _ => if name?.isNone then [source] else []

/-- Statements `export { LIST }` that no `from` follows. -/
def exportedList (imports : List ImportDecl) : Form ExportDecl where
  Found := List Char
  recognise := exportList?
  taken := fun text => (lineOccurrences exportFrom? text).map (·.offset)
  declared := fun list line =>
    (readList list).map fun (name, exported) => localExport imports name exported line

/-- Declarations that are exported. -/
def declaration : Form ExportDecl where
  Found := String
  recognise := exportDeclaration?
  declared := fun name line => [{ name, line }]

/-- Destructuring declarations that are exported. -/
def pattern : Form ExportDecl where
  Found := List Char
  recognise := exportPattern?
  declared := fun pattern line => (boundNames pattern).map fun name => { name, line }

/-- Default exports. -/
def default (imports : List ImportDecl) : Form ExportDecl where
  Found := Option String
  recognise := exportDefault?
  declared := fun word? line =>
    [match word? with
      | some word =>
        if defaultKeywords.contains word then { name := defaultName, line }
        else localExport imports word defaultName line
      | none => { name := defaultName, line }]

/-- Assignments to a property of `exports`. -/
def assignedName : Form ExportDecl where
  Found := String
  recognise := assignedName?
  declared := fun name line => [{ name, line }]

/-- Assignments to `module.exports`. -/
def assignedDefault : Form ExportDecl where
  Found := Unit
  recognise := assignedDefault?
  declared := fun _ line => [{ name := defaultName, line }]

end Form

/-- The forms of imports. -/
def importForms : List (Form ImportDecl) :=
  [.clauseImport, .bareImport, .callImport]

/-- The forms of exports, for a module with the given imports. -/
def exportForms (imports : List ImportDecl) : List (Form ExportDecl) :=
  [.forwardedList, .forwardedModule, .exportedList imports, .declaration, .pattern,
    .default imports, .assignedName, .assignedDefault]

/-- All import statements, form by form. -/
def importStatements (text : List Char) : List (Occurrence (List ImportDecl)) :=
  importForms.flatMap (·.statements text)

/-- All export statements, form by form. -/
def exportStatements (imports : List ImportDecl) (text : List Char) :
    List (Occurrence (List ExportDecl)) :=
  (exportForms imports).flatMap (·.statements text)

end LiveExports.Source

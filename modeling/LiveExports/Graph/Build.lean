import LiveExports.Diagnostic
import LiveExports.Graph.Basic
import LiveExports.Resolution

/-!
# Building a graph from declarations

Modules are submitted with their declarations.  The first submission of a module counts; a later one
that differs is reported.  What the declarations refer to is resolved: a specifier that names a
package leads nowhere, one that resolves to no file is reported, and every other one becomes an
edge.  A module that an edge leads to without being submitted becomes a node without exports.
-/

namespace LiveExports

/-- A module with its declarations. -/
structure Submission where
  module : ModuleId
  declarations : Declarations
deriving DecidableEq, Repr

/-- A graph together with what was reported while it was built. -/
structure Construction where
  graph : Graph
  diagnostics : List Diagnostic

/-! ## What specifiers lead to -/

/-- Where a specifier in a module leads: nowhere if it names a package, else to a module or to a
report at the given line. -/
def Resolver.follow (resolver : Resolver) (module : ModuleId) (specifier : String) (line : Nat) :
    Option (Except Diagnostic ModuleId) :=
  if isBareSpecifier specifier then none
  else
    match resolver.resolve module specifier with
    | .ok target => some (.ok target)
    | .error fault => some (.error ((Diagnostic.ofFault module fault).atLine line))

/-- The module that a specifier leads to. -/
def Resolver.target? (resolver : Resolver) (module : ModuleId) (specifier : String) :
    Option ModuleId :=
  (resolver.follow module specifier 0).bind Except.toOption

/-- The report that a specifier at a line gives rise to. -/
def Resolver.report? (resolver : Resolver) (module : ModuleId) (specifier : String) (line : Nat) :
    Option Diagnostic :=
  match resolver.follow module specifier line with
  | some (.error diagnostic) => some diagnostic
  | _ => none

/-! ## One module -/

namespace Declarations

variable (resolver : Resolver) (module : ModuleId) (declarations : Declarations)

/-- The export that a declaration stands for: one that leads nowhere is a binding of its own. -/
def exportOf (decl : ExportDecl) : Export where
  owner := module
  name := decl.name
  target := decl.forward.bind fun forward =>
    (resolver.target? module forward.source).map fun target => ⟨target, forward.name⟩
  line := decl.line

/-- The modules forwarded with a star, each once. -/
def starTargets : List ModuleId :=
  (declarations.stars.filterMap (resolver.target? module)).eraseDups

/-- The node of a module; of two exports of one name the later one counts. -/
def node : Node where
  id := module
  exports := Table.ofList (declarations.exports.map fun decl =>
    (decl.name, exportOf resolver module decl))
  stars := starTargets resolver module declarations

/-- The edges along which names are forwarded, by exported name. -/
def forwardEdges : List Edge :=
  (node resolver module declarations).exports.entries.filterMap fun (_, entry) =>
    entry.target.map fun target =>
      { source := module, target := target.module, name := target.name, localName := entry.name,
        kind := .forwards }

/-- The edges along which all names are forwarded. -/
def starEdges : List Edge :=
  (starTargets resolver module declarations).map fun target =>
    { source := module, target, name := namespaceName, localName := namespaceName,
      kind := .forwards }

/-- The edges of the imports. -/
def importEdges : List Edge :=
  declarations.imports.filterMap fun decl =>
    (resolver.target? module decl.source).map fun target =>
      { source := module, target, name := decl.name, localName := decl.localName,
        kind := if decl.isSideEffect then .runs else .imports }

/-- All edges from a module. -/
def edges : List Edge :=
  forwardEdges resolver module declarations ++ starEdges resolver module declarations ++
    importEdges resolver module declarations

/-- What is reported about the specifiers of a module: those of its exports, its stars and its
imports.  A star has no line. -/
def reports : List Diagnostic :=
  (declarations.exports.filterMap fun decl =>
      decl.forward.bind fun forward => resolver.report? module forward.source decl.line) ++
    (declarations.stars.filterMap fun specifier => resolver.report? module specifier 0) ++
    declarations.imports.filterMap fun decl => resolver.report? module decl.source decl.line

end Declarations

/-! ## All modules -/

/-- The report on a second submission that differs from the first. -/
def conflictReport (module : ModuleId) : Diagnostic :=
  Diagnostic.ofFault module
    (.duplicateModule module "submitted twice with conflicting declarations; keeping the first")

/-- Takes submissions one by one: the first of each module counts, and later ones that differ from
it are reported. -/
def acceptInto (accepted : Table ModuleId Declarations) :
    List Submission → Table ModuleId Declarations × List Diagnostic
  | [] => (accepted, [])
  | submission :: rest =>
    match accepted.find? submission.module with
    | none => acceptInto (accepted.insert submission.module submission.declarations) rest
    | some first =>
      let (table, reports) := acceptInto accepted rest
      (table,
        if first = submission.declarations then reports
        else conflictReport submission.module :: reports)

/-- Adds a node without exports for every module that an edge leads to and that is not there. -/
def addMissing (nodes : Table ModuleId Node) (edges : List Edge) : Table ModuleId Node :=
  edges.foldl
    (fun nodes edge =>
      if nodes.contains edge.target then nodes
      else nodes.insert edge.target { id := edge.target, submitted := false })
    nodes

/-- Builds the graph of the submitted modules. -/
def Graph.build (resolver : Resolver) (submissions : List Submission) : Construction :=
  let (accepted, conflicts) := acceptInto ∅ submissions
  let nodes := Table.ofList (accepted.entries.map fun (module, declarations) =>
    (module, declarations.node resolver module))
  let edges := accepted.entries.flatMap fun (module, declarations) =>
    declarations.edges resolver module
  let reports := accepted.entries.flatMap fun (module, declarations) =>
    declarations.reports resolver module
  { graph := { nodes := addMissing nodes edges, edges }
    diagnostics := conflicts ++ reports }

end LiveExports

import LiveExports.Fault
import LiveExports.Graph.Basic

/-!
# Validity of graphs

A graph is valid if every export belongs to the module it is listed under, and if everything that a
node or an edge refers to is a node.  `Graph.flaw?` gives the first flaw, nodes before edges.
-/

namespace LiveExports

/-- What is wrong with a graph. -/
inductive GraphFlaw where
  | foreignExport (name : String) (module owner : ModuleId)
  | missingTarget (name : String) (module target : ModuleId)
  | missingStar (module target : ModuleId)
  | missingEnd (edge : Edge) (missing : ModuleId)
deriving DecidableEq, Repr

def GraphFlaw.message : GraphFlaw → String
  | foreignExport name module owner => s!"export '{name}' of {module} is attributed to {owner}"
  | missingTarget name module target =>
    s!"re-export '{name}' of {module} targets missing module {target}"
  | missingStar module target => s!"star re-export of {module} targets missing module {target}"
  | missingEnd edge missing =>
    s!"edge {edge.source} -> {edge.target} ('{edge.name}') references missing module {missing}"

namespace Graph

/-- A flaw of one export in the table of a module. -/
def exportFlaw? (graph : Graph) (id : ModuleId) (entry : Export) : Option GraphFlaw :=
  if entry.owner ≠ id then some (.foreignExport entry.name id entry.owner)
  else
    match entry.target with
    | some target =>
      if graph.contains target.module then none
      else some (.missingTarget entry.name id target.module)
    | none => none

/-- The first flaw of a node: of its exports, then of its stars. -/
def nodeFlaw? (graph : Graph) (id : ModuleId) (node : Node) : Option GraphFlaw :=
  (node.exports.entries.findSome? fun (_, entry) => graph.exportFlaw? id entry) <|>
    ((node.stars.find? fun target => !graph.contains target).map (.missingStar id))

/-- A flaw of an edge: of its source, then of its target. -/
def edgeFlaw? (graph : Graph) (edge : Edge) : Option GraphFlaw :=
  ([edge.source, edge.target].find? fun id => !graph.contains id).map (.missingEnd edge)

/-- The first flaw of a graph. -/
def flaw? (graph : Graph) : Option GraphFlaw :=
  (graph.nodes.entries.findSome? fun (id, node) => graph.nodeFlaw? id node) <|>
    graph.edges.findSome? graph.edgeFlaw?

/-- Refuses a graph with a flaw. -/
def validate (graph : Graph) : Except Fault Unit :=
  match graph.flaw? with
  | some flaw => .error (.invalidGraph flaw.message)
  | none => .ok ()

end Graph

end LiveExports

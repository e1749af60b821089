import LiveExports.Graph.Basic
import LiveExports.Json.Writer

/-!
# Graphs as documents

The written form of a graph: its nodes by identifier, then its edges.  As in the stored form of
declarations, the key `name` stands twice in an export that forwards a name.
-/

namespace LiveExports

/-- The members that tell what an export is bound to. -/
def encodeTarget : Option Target → List (String × Json.Value)
  | none => [("kind", .string "value")]
  | some target =>
    [("kind", .string "re_export"), ("target", .string target.module.text),
      ("name", .string target.name)]

def Export.encode (entry : Export) : Json.Value :=
  .object (
    [("module", .string entry.owner.text), ("name", .string entry.name)] ++
    encodeTarget entry.target ++ [("line", .natural entry.line)])

def Edge.encode (edge : Edge) : Json.Value :=
  .object
    [("from", .string edge.source.text), ("to", .string edge.target.text),
      ("imported_name", .string edge.name), ("local_alias", .string edge.localName),
      ("kind", .string edge.kind.tag)]

def Node.encode (node : Node) : Json.Value :=
  .object
    [("id", .string node.id.text),
      ("exports", .object (node.exports.entries.map fun (name, entry) => (name, entry.encode))),
      ("star_targets", .strings (node.stars.map ModuleId.text)),
      ("submitted", .bool node.submitted)]

def Graph.encode (graph : Graph) : Json.Value :=
  .object
    [("modules", .object (graph.nodes.entries.map fun (id, node) => (id.text, node.encode))),
      ("edges", .array (graph.edges.map Edge.encode))]

end LiveExports

import LiveExports.Project.Analysis

/-!
# Results as a drawing

The module graph in the DOT language.  A module is drawn as a box with its counts of dead exports
and of exports; its colour says whether it is live and whether it has dead exports.  Edges with the
same ends and of the same kind are drawn as one arrow.
-/

namespace LiveExports

/-- A text between quotes: quotes and backslashes in it are escaped. -/
def escapeQuoted (text : List Char) : List Char :=
  text.flatMap fun c => if c = '\\' ∨ c = '"' then ['\\', c] else [c]

/-- How an arrow is drawn. -/
def EdgeKind.style : EdgeKind → String
  | imports => ""
  | forwards => " [style=dashed]"
  | runs => " [style=dotted]"

/-- An arrow of a drawing. -/
structure Arrow where
  source : ModuleId
  target : ModuleId
  kind : EdgeKind
deriving DecidableEq

def Edge.arrow (edge : Edge) : Arrow :=
  ⟨edge.source, edge.target, edge.kind⟩

/-- The arrows of a graph, each once, in the order in which they come up. -/
def Graph.arrows (graph : Graph) : List Arrow :=
  (graph.edges.map Edge.arrow).eraseDups

/-- How a module is coloured. -/
inductive Colour where
  | unreachable
  | partlyDead
  | allUsed
deriving DecidableEq, Repr

def Colour.name : Colour → String
  | unreachable => "lightcoral"
  | partlyDead => "khaki"
  | allUsed => "lightgreen"

namespace Analysis

variable (analysis : Analysis)

/-- The dead exports of a module that are reported. -/
def deadIn (id : ModuleId) : Nat :=
  analysis.dead.countP (·.module == id)

def colour (id : ModuleId) : Colour :=
  if id ∉ analysis.live then .unreachable
  else if 0 < analysis.deadIn id then .partlyDead
  else .allUsed

/-- The name of a module in the drawing. -/
def quotedName (id : ModuleId) : String :=
  "\"" ++ String.ofList (escapeQuoted (analysis.relative id).toList) ++ "\""

/-- The line of a module. -/
def nodeLine (id : ModuleId) (node : Node) : String :=
  let name := String.ofList (escapeQuoted (analysis.relative id).toList)
  let counts := s!"{analysis.deadIn id}/{node.exports.size} dead"
  let colour := (analysis.colour id).name
  s!"  \"{name}\" [label=\"{name}\\n{counts}\", fillcolor={colour}];\n"

/-- The line of an arrow. -/
def arrowLine (arrow : Arrow) : String :=
  let source := analysis.quotedName arrow.source
  let target := analysis.quotedName arrow.target
  s!"  {source} -> {target}{arrow.kind.style};\n"

def drawingHead : String :=
  "digraph deadexport \x7b\n  rankdir=LR;\n" ++
    "  node [shape=box, style=filled, fontname=\"JetBrains Mono\"];\n\n"

/-- The drawing of the module graph. -/
def drawing : String :=
  String.join (
    [drawingHead] ++
    analysis.graph.nodes.entries.map (fun (id, node) => analysis.nodeLine id node) ++
    ["\n"] ++
    analysis.graph.arrows.map analysis.arrowLine ++
    ["\x7d\n"])

end Analysis

end LiveExports

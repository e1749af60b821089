import LiveExports.Declarations
import LiveExports.ModuleId
import LiveExports.Ordered.Table

/-!
# Module graphs

A node holds the exports of a module and the modules it forwards with a star; an edge is one name
that crosses from one module to another.  Nodes are listed by identifier and exports by name; edges
keep the order in which they came about.
-/

namespace LiveExports

/-- A name of a module. -/
structure Target where
  module : ModuleId
  name : String
deriving DecidableEq, Repr

/-- An export: the module it belongs to, its own name, and the name that it forwards unless it is a
binding of its own.  Nothing but `Graph.KeyedByName` says that it stands in the table of its module
under its own name. -/
structure Export where
  owner : ModuleId
  name : String
  target : Option Target := none
  line : Nat := 0
deriving DecidableEq, Repr

/-- Why one module depends on another. -/
inductive EdgeKind where
  /-- A name, or the whole module, is imported. -/
  | imports
  /-- A name, or every name, is forwarded. -/
  | forwards
  /-- The module is run for its effects. -/
  | runs
deriving DecidableEq, Repr

namespace EdgeKind

/-- The place of the kind in a listing. -/
def rank : EdgeKind → Nat
  | imports => 0
  | forwards => 1
  | runs => 2

/-- The name in machine-readable output. -/
def tag : EdgeKind → String
  | imports => "import"
  | forwards => "re_export"
  | runs => "side_effect"

end EdgeKind

/-- A name that crosses from `source` to `target`: `source` asks for `name` of `target`. -/
structure Edge where
  source : ModuleId
  target : ModuleId
  name : String
  localName : String
  kind : EdgeKind
deriving DecidableEq, Repr

/-- Does the edge lead back to the module it comes from? -/
def Edge.isLoop (edge : Edge) : Bool :=
  edge.source == edge.target

/-- A module of the graph.  A module that was not submitted stands in the graph only because an edge
leads to it. -/
structure Node where
  id : ModuleId
  exports : Table String Export := ∅
  stars : List ModuleId := []
  submitted : Bool := true

namespace Node

/-- The node with one more export under its name, in place of an earlier one of that name. -/
def addExport (node : Node) (entry : Export) : Node :=
  { node with exports := node.exports.insert entry.name entry }

def declares (node : Node) (name : String) : Bool :=
  node.exports.contains name

end Node

structure Graph where
  nodes : Table ModuleId Node := ∅
  edges : List Edge := []

namespace Graph

/-- The graph of the given nodes and edges; of two nodes for one module the later one counts. -/
def ofParts (nodes : List Node) (edges : List Edge) : Graph :=
  { nodes := Table.ofList (nodes.map fun node => (node.id, node)), edges }

def node? (graph : Graph) (id : ModuleId) : Option Node :=
  graph.nodes.find? id

def contains (graph : Graph) (id : ModuleId) : Bool :=
  graph.nodes.contains id

/-- The modules of the graph, in order. -/
def ids (graph : Graph) : List ModuleId :=
  graph.nodes.keys

def export? (graph : Graph) (id : ModuleId) (name : String) : Option Export :=
  (graph.node? id).bind fun node => node.exports.find? name

def declares (graph : Graph) (id : ModuleId) (name : String) : Bool :=
  (graph.export? id name).isSome

def edgesFrom (graph : Graph) (id : ModuleId) : List Edge :=
  graph.edges.filter (·.source == id)

def edgesInto (graph : Graph) (id : ModuleId) : List Edge :=
  graph.edges.filter (·.target == id)

/-- Every export with the module and the name that it stands under, by module and then by name. -/
def exports (graph : Graph) : List (ModuleId × String × Export) :=
  graph.nodes.entries.flatMap fun (id, node) =>
    node.exports.entries.map fun (name, entry) => (id, name, entry)

def exportCount (graph : Graph) : Nat :=
  graph.exports.length

/-- Every export stands under its own name. -/
def KeyedByName (graph : Graph) : Prop :=
  ∀ item ∈ graph.exports, item.2.2.name = item.2.1

instance (graph : Graph) : Decidable graph.KeyedByName :=
  inferInstanceAs (Decidable (∀ item ∈ graph.exports, item.2.2.name = item.2.1))

/-! ## What a graph finds -/

theorem contains_iff {graph : Graph} {id : ModuleId} :
    graph.contains id = true ↔ ∃ node, graph.node? id = some node :=
  Option.isSome_iff_exists

theorem mem_ids_iff {graph : Graph} {id : ModuleId} : id ∈ graph.ids ↔ graph.contains id = true :=
  Table.mem_keys_iff

theorem export?_eq_some_iff {graph : Graph} {id : ModuleId} {name : String} {entry : Export} :
    graph.export? id name = some entry ↔
      ∃ node, graph.node? id = some node ∧ node.exports.find? name = some entry :=
  Option.bind_eq_some_iff

theorem export?_of_node {graph : Graph} {id : ModuleId} {node : Node}
    (hnode : graph.node? id = some node) (name : String) :
    graph.export? id name = node.exports.find? name := by
  rw [export?, hnode, Option.bind_some]

theorem declares_iff {graph : Graph} {id : ModuleId} {name : String} :
    graph.declares id name = true ↔ ∃ entry, graph.export? id name = some entry :=
  Option.isSome_iff_exists

theorem declares_iff_mem_keys {graph : Graph} {id : ModuleId} {node : Node}
    (hnode : graph.node? id = some node) {name : String} :
    graph.declares id name = true ↔ name ∈ node.exports.keys := by
  rw [declares, export?_of_node hnode, Table.mem_keys_iff]

theorem mem_exports_iff {graph : Graph} {id : ModuleId} {name : String} {entry : Export} :
    (id, name, entry) ∈ graph.exports ↔ graph.export? id name = some entry := by
  simp only [exports, List.mem_flatMap, List.mem_map, Prod.exists, Prod.mk.injEq,
    export?_eq_some_iff, node?, Table.find?_eq_some_iff]
  constructor
  · rintro ⟨_, node, hnode, _, _, hentry, rfl, rfl, rfl⟩
    exact ⟨node, hnode, hentry⟩
  · rintro ⟨node, hnode, hentry⟩
    exact ⟨id, node, hnode, name, entry, hentry, rfl, rfl, rfl⟩

theorem keyedByName_iff {graph : Graph} :
    graph.KeyedByName ↔
      ∀ {id name entry}, graph.export? id name = some entry → entry.name = name := by
  simp only [KeyedByName, Prod.forall, mem_exports_iff]

theorem contains_of_declares {graph : Graph} {id : ModuleId} {name : String}
    (h : graph.declares id name = true) : graph.contains id = true := by
  obtain ⟨entry, hentry⟩ := declares_iff.mp h
  obtain ⟨node, hnode, _⟩ := export?_eq_some_iff.mp hentry
  exact contains_iff.mpr ⟨node, hnode⟩

end Graph

end LiveExports

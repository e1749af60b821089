import LiveExports.Proofs.Graph.Validity
import LiveExports.Proofs.Liveness.Rules

/-!
# Graphs with severed forwards

A forward is severed by making the export a binding of its own: the module still declares the name,
but no longer says where it comes from.  Nothing else about the graph changes, so a graph with
severed forwards has the same nodes, names, stars and edges, and is valid if the graph was.
-/

namespace LiveExports

namespace Table

variable {κ β γ : Type} [StrictOrder κ]

/-- The table with every value changed by a function. -/
def map (f : β → γ) (table : Table κ β) : Table κ γ where
  entries := table.entries.map fun entry => (entry.1, f entry.2)
  sorted := List.pairwise_map.mpr table.sorted

theorem lookup_map (f : β → γ) (key : κ) (entries : List (κ × β)) :
    lookup key (entries.map fun entry => (entry.1, f entry.2)) = (lookup key entries).map f := by
  induction entries with
  | nil => rfl
  | cons first rest ih =>
      simp only [List.map_cons, lookup]
      split
      · rfl
      · split
        · exact ih
        · rfl

@[simp] theorem find?_map (f : β → γ) (table : Table κ β) (key : κ) :
    (table.map f).find? key = (table.find? key).map f :=
  lookup_map f key table.entries

end Table

/-- The export without its target, if that is to be dropped. -/
def Export.sever (drop : Target → Bool) (entry : Export) : Export :=
  { entry with target := entry.target.filter (! drop ·) }

def Node.sever (drop : Target → Bool) (node : Node) : Node :=
  { node with exports := node.exports.map (Export.sever drop) }

theorem Export.target_sever_eq_some_iff {drop : Target → Bool} {entry : Export} {target : Target} :
    (entry.sever drop).target = some target ↔ entry.target = some target ∧ drop target = false := by
  simp [sever, Option.filter_eq_some_iff]

namespace Graph

/-- The graph in which every forward to a target that is to be dropped is severed. -/
def sever (graph : Graph) (drop : Target → Bool) : Graph :=
  { graph with nodes := graph.nodes.map (Node.sever drop) }

variable {graph : Graph} {drop : Target → Bool}

theorem node?_sever (id : ModuleId) :
    (graph.sever drop).node? id = (graph.node? id).map (Node.sever drop) :=
  Table.find?_map _ graph.nodes id

@[simp] theorem contains_sever (id : ModuleId) :
    (graph.sever drop).contains id = graph.contains id := by
  simp [contains, Table.contains, sever]

theorem export?_sever (id : ModuleId) (name : String) :
    (graph.sever drop).export? id name = (graph.export? id name).map (Export.sever drop) := by
  rw [export?, export?, node?_sever]
  cases graph.node? id with
  | none => rfl
  | some node => exact Table.find?_map _ node.exports name

@[simp] theorem declares_sever (id : ModuleId) (name : String) :
    (graph.sever drop).declares id name = graph.declares id name := by
  rw [declares, declares, export?_sever, Option.isSome_map]

theorem starsTo_sever_iff {module star : ModuleId} :
    (graph.sever drop).StarsTo module star ↔ graph.StarsTo module star := by
  unfold StarsTo
  rw [node?_sever]
  cases graph.node? module with
  | none => simp
  | some node => simp [Node.sever]

/-- A forward that is left was there before, and its target is one to keep. -/
theorem forward_sever_iff {id : ModuleId} {name : String} {target : Target} :
    (∃ entry, (graph.sever drop).export? id name = some entry ∧ entry.target = some target) ↔
      (∃ entry, graph.export? id name = some entry ∧ entry.target = some target) ∧
        drop target = false := by
  rw [export?_sever]
  cases graph.export? id name with
  | none => simp
  | some entry => simp [Export.target_sever_eq_some_iff]

/-- The exports keep their own names. -/
theorem lists_sever_iff {module : ModuleId} {name : String} :
    (graph.sever drop).Lists module name ↔ graph.Lists module name := by
  simp only [Lists, export?_sever, Option.map_eq_some_iff]
  constructor
  · rintro ⟨id, key, _, ⟨entry, hentry, rfl⟩, howner, hname⟩
    exact ⟨id, key, entry, hentry, howner, hname⟩
  · rintro ⟨id, key, entry, hentry, howner, hname⟩
    exact ⟨id, key, _, ⟨entry, hentry, rfl⟩, howner, hname⟩

theorem Valid.sever (hvalid : graph.Valid) (drop : Target → Bool) : (graph.sever drop).Valid where
  owner := by
    intro id name entry hentry
    rw [export?_sever, Option.map_eq_some_iff] at hentry
    obtain ⟨entry, hentry, rfl⟩ := hentry
    show entry.owner = id
    exact hvalid.owner hentry
  target := by
    intro id name entry target hentry htarget
    obtain ⟨⟨entry, hentry, htarget⟩, _⟩ := forward_sever_iff.mp ⟨entry, hentry, htarget⟩
    rw [contains_sever]
    exact hvalid.target hentry htarget
  star := by
    intro id node star hnode hstar
    rw [node?_sever, Option.map_eq_some_iff] at hnode
    obtain ⟨node, hnode, rfl⟩ := hnode
    rw [contains_sever]
    exact hvalid.star hnode hstar
  edgeSource := by
    intro edge hedge
    rw [contains_sever]
    exact hvalid.edgeSource edge hedge
  edgeTarget := by
    intro edge hedge
    rw [contains_sever]
    exact hvalid.edgeTarget edge hedge

end Graph

end LiveExports

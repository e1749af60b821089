import LiveExports.Graph.Validity

/-!
# Valid graphs

The validity that `Graph.validate` tests, said about what a graph finds: exports belong to the
module they are found under, and whatever an export, a star or an edge refers to is a node.

That an export is found under its own name is not tested.  Where it is not, the name that it is
found under and the name that it is listed by differ (`Graph.Lists`).
-/

namespace LiveExports.Graph

/-- Everything that is referred to is there, and every export belongs to its module. -/
structure Valid (graph : Graph) : Prop where
  owner : ∀ {id name entry}, graph.export? id name = some entry → entry.owner = id
  target : ∀ {id name entry target}, graph.export? id name = some entry →
    entry.target = some target → graph.contains target.module = true
  star : ∀ {id node star}, graph.node? id = some node → star ∈ node.stars →
    graph.contains star = true
  edgeSource : ∀ edge ∈ graph.edges, graph.contains edge.source = true
  edgeTarget : ∀ edge ∈ graph.edges, graph.contains edge.target = true

variable {graph : Graph}

theorem exportFlaw?_eq_none_iff {id : ModuleId} {entry : Export} :
    graph.exportFlaw? id entry = none ↔
      entry.owner = id ∧
        ∀ target, entry.target = some target → graph.contains target.module = true := by
  unfold exportFlaw?
  by_cases howner : entry.owner = id
  · cases htarget : entry.target with
    | none => simp [howner]
    | some target => simp [howner]
  · simp [howner]

theorem nodeFlaw?_eq_none_iff {id : ModuleId} {node : Node} :
    graph.nodeFlaw? id node = none ↔
      (∀ name entry, node.exports.find? name = some entry →
        graph.exportFlaw? id entry = none) ∧
      ∀ star ∈ node.stars, graph.contains star = true := by
  unfold nodeFlaw?
  rw [Option.orElse_eq_orElse, Option.orElse_eq_or, Option.or_eq_none_iff,
    List.findSome?_eq_none_iff, Option.map_eq_none_iff, List.find?_eq_none]
  simp only [Prod.forall, Table.find?_eq_some_iff, Bool.not_eq_true', Bool.not_eq_false]

theorem edgeFlaw?_eq_none_iff {edge : Edge} :
    graph.edgeFlaw? edge = none ↔
      graph.contains edge.source = true ∧ graph.contains edge.target = true := by
  simp [edgeFlaw?]

theorem flaw?_eq_none_iff : graph.flaw? = none ↔ graph.Valid := by
  unfold flaw?
  rw [Option.orElse_eq_orElse, Option.orElse_eq_or, Option.or_eq_none_iff,
    List.findSome?_eq_none_iff, List.findSome?_eq_none_iff]
  simp only [Prod.forall, nodeFlaw?_eq_none_iff, exportFlaw?_eq_none_iff, edgeFlaw?_eq_none_iff,
    ← Table.find?_eq_some_iff]
  constructor
  · rintro ⟨hnodes, hedges⟩
    have hexport : ∀ {id name entry}, graph.export? id name = some entry → entry.owner = id ∧
        ∀ target, entry.target = some target → graph.contains target.module = true := by
      intro id name entry hentry
      obtain ⟨node, hnode, hentry⟩ := export?_eq_some_iff.mp hentry
      exact (hnodes id node hnode).1 name entry hentry
    exact
      { owner := fun hentry => (hexport hentry).1
        target := fun hentry htarget => (hexport hentry).2 _ htarget
        star := fun hnode hstar => (hnodes _ _ hnode).2 _ hstar
        edgeSource := fun edge hedge => (hedges edge hedge).1
        edgeTarget := fun edge hedge => (hedges edge hedge).2 }
  · intro hvalid
    refine ⟨fun id node hnode => ⟨fun name entry hentry => ?_, fun star hstar => ?_⟩,
      fun edge hedge => ⟨hvalid.edgeSource edge hedge, hvalid.edgeTarget edge hedge⟩⟩
    · have hexport : graph.export? id name = some entry :=
        export?_eq_some_iff.mpr ⟨node, hnode, hentry⟩
      exact ⟨hvalid.owner hexport, fun target htarget => hvalid.target hexport htarget⟩
    · exact hvalid.star hnode hstar

/-- Just the valid graphs are let through. -/
theorem validate_eq_ok_iff : graph.validate = .ok () ↔ graph.Valid := by
  rw [← flaw?_eq_none_iff]
  unfold validate
  cases graph.flaw? with
  | none => simp
  | some flaw => simp

/-! ## Exports under other names -/

/-- Some export belongs to a module and has a name, whatever name it stands under. -/
def Lists (graph : Graph) (module : ModuleId) (name : String) : Prop :=
  ∃ id key entry, graph.export? id key = some entry ∧ entry.owner = module ∧ entry.name = name

/-- An export of a valid graph that is keyed by name stands where it is listed. -/
theorem Valid.export?_self (hvalid : graph.Valid) (hkeyed : graph.KeyedByName) {id : ModuleId}
    {key : String} {entry : Export} (hentry : graph.export? id key = some entry) :
    graph.export? entry.owner entry.name = some entry := by
  rw [hvalid.owner hentry, keyedByName_iff.mp hkeyed hentry]
  exact hentry

theorem Valid.lists_iff (hvalid : graph.Valid) (hkeyed : graph.KeyedByName) {module : ModuleId}
    {name : String} : graph.Lists module name ↔ graph.declares module name = true := by
  rw [declares_iff]
  constructor
  · rintro ⟨id, key, entry, hentry, rfl, rfl⟩
    exact ⟨entry, hvalid.export?_self hkeyed hentry⟩
  · rintro ⟨entry, hentry⟩
    exact ⟨module, name, entry, hentry, hvalid.owner hentry, keyedByName_iff.mp hkeyed hentry⟩

/-- A module imports a name of another one, whose only export has the name `w` and stands under the
name `x`. -/
def misfiled (imported : String) : Graph :=
  ofParts
    [{ id := ⟨"/main.js"⟩ },
      { id := ⟨"/lib.js"⟩
        exports := Table.ofList [("x", { owner := ⟨"/lib.js"⟩, name := "w" })] }]
    [{ source := ⟨"/main.js"⟩, target := ⟨"/lib.js"⟩, name := imported, localName := imported,
        kind := .imports }]

end LiveExports.Graph

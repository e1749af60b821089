import LiveExports.Graph.Basic

/-!
# Breadth-first search

A search from several roots at once.  It holds the nodes that are *pending*, in the order in which
they were found, and the nodes that are still *unseen*; visiting a pending node moves its unseen
successors to the end of the pending ones.  Each visit removes one node from the two lists taken
together, so the search ends.

A graph is searched in two views: along all edges, or along those by which one module runs another.
Forwarding a name runs nothing.
-/

namespace LiveExports

variable {α : Type} [DecidableEq α]

/-- The nodes among `nodes` that are in `list`. -/
def among (list nodes : List α) : List α :=
  nodes.filter (list.contains ·)

/-- The nodes of `nodes` that are not in `list`. -/
def apart (list nodes : List α) : List α :=
  nodes.filter (! list.contains ·)

theorem length_among_add_length_apart (list nodes : List α) :
    (among list nodes).length + (apart list nodes).length = nodes.length := by
  induction nodes with
  | nil => rfl
  | cons a nodes ih =>
    unfold among apart at ih ⊢
    cases h : list.contains a <;> simp only [List.filter, h, Bool.not_true, Bool.not_false,
      List.length_cons] <;> omega

/-- The nodes visited from `pending`, given the nodes not seen so far. -/
def explore (next : α → List α) : List α → List α → List α
  | [], _ => []
  | node :: pending, unseen =>
    node :: explore next (pending ++ among (next node) unseen) (apart (next node) unseen)
termination_by pending unseen => pending.length + unseen.length
decreasing_by
  have := length_among_add_length_apart (next node) unseen
  simp only [List.length_append, List.length_cons]
  omega

/-- The nodes that can be reached from those of the roots that are nodes. -/
def reachable (nodes : List α) (next : α → List α) (roots : List α) : List α :=
  explore next (among roots nodes) (apart roots nodes)

namespace Graph

/-- The edges along which a graph is searched. -/
inductive View where
  | everything
  /-- The edges by which one module runs another. -/
  | execution
deriving DecidableEq, Repr

def View.keeps : View → Edge → Bool
  | everything, _ => true
  | execution, edge => edge.kind != .forwards

/-- The modules that the edges of a view lead to from a module. -/
def next (graph : Graph) (view : View) (id : ModuleId) : List ModuleId :=
  ((graph.edgesFrom id).filter view.keeps).map (·.target)

/-- The modules reached from the roots in a view, in no particular order. -/
def reachableFrom (graph : Graph) (view : View) (roots : List ModuleId) : List ModuleId :=
  reachable graph.ids (graph.next view) roots

end Graph

end LiveExports

import LiveExports.Proofs.Graph.Reachability
import LiveExports.Proofs.Ordered.Size

/-!
# Searches, in whatever order

`reachable` takes the roots, and the successors of a node, in the order in which the nodes are
listed.  A search may as well take them in another order.  Here a search is made up of the nodes
found so far and a queue of those among them that are still to be visited; a turn visits the first
node of the queue, and finds those of its successors that were not found before (`Search.Turn`).
Whatever the order, there are no more turns than `reachable` has nodes, as long as the queue is not
empty there is another turn, and then the nodes found are those of `reachable` (`Search.Ends`).

For the modules of a graph this says that a search in a view ends, and that it finds exactly the
modules on paths along the arcs of the view (`Graph.reachableFrom_exact`).

## Strategy

The nodes found so far, together with those that `explore` would visit from here, are the same
before and after a turn: `explore` depends on what is pending and on what is unseen, but not on the
order, and a turn does what one call of `explore` does (`Search.Underway.turn`).  At the start these
are the nodes of `reachable`, and at the end nothing is left to visit.  A turn takes one node from
the queue and queues as many as it finds, so the turns and the queue together make up the nodes
found (`Search.Turns.count`).
-/

namespace LiveExports

open Relation

variable {α : Type} [DecidableEq α]

/-- A search on its way: the nodes found so far, and those among them still to be visited. -/
structure Search (α : Type) where
  found : List α
  queue : List α

namespace Search

/-- The start of a search: those of the roots that are nodes are found and queued, each of them once
and in any order. -/
structure Begins (nodes roots : List α) (search : Search α) : Prop where
  queued : search.queue = search.found
  distinct : search.found.Nodup
  mem_iff : ∀ a, a ∈ search.found ↔ a ∈ roots ∧ a ∈ nodes

/-- One turn: the first node of the queue is visited.  The nodes that an arc leads to from there and
that were not found before are found and queued, each of them once and in any order. -/
inductive Turn (arc : α → α → Prop) : Search α → Search α → Prop
  | visit {node : α} {found queue fresh : List α} (hdistinct : fresh.Nodup)
      (hfresh : ∀ a, a ∈ fresh ↔ arc node a ∧ a ∉ found) :
      Turn arc ⟨found, node :: queue⟩ ⟨found ++ fresh, queue ++ fresh⟩

/-- So many turns, one after the other. -/
inductive Turns (arc : α → α → Prop) : Nat → Search α → Search α → Prop
  | none {search : Search α} : Turns arc 0 search search
  | turn {turns : Nat} {search later last : Search α} (hturn : Turn arc search later)
      (hrest : Turns arc turns later last) : Turns arc (turns + 1) search last

/-- In whatever order it goes, a search from the roots ends with the given nodes.  One search finds
them just as they are listed, with one turn for each of them.  No search takes more turns, none
stops while a node is queued, and one with an empty queue has found the given nodes. -/
structure Ends (arc : α → α → Prop) (nodes roots result : List α) : Prop where
  run : ∃ start, Begins nodes roots start ∧ Turns arc result.length start ⟨result, []⟩
  bounded : ∀ {start turns last}, Begins nodes roots start → Turns arc turns start last →
    turns ≤ result.length
  continues : ∀ {start turns last}, Begins nodes roots start → Turns arc turns start last →
    last.queue ≠ [] → ∃ later, Turn arc last later
  complete : ∀ {start turns last}, Begins nodes roots start → Turns arc turns start last →
    last.queue = [] → last.found.Perm result

variable {arc : α → α → Prop} {next : α → List α} {nodes roots : List α}
variable {search later last : Search α}

/-! ## How many turns are taken -/

omit [DecidableEq α] in
/-- Each turn visits one node, and queues what it finds. -/
theorem Turns.count {turns : Nat} (h : Turns arc turns search last) :
    turns + last.queue.length + search.found.length =
      last.found.length + search.queue.length := by
  induction h with
  | none => omega
  | turn hturn _ ih =>
      cases hturn with
      | visit =>
          simp only [List.length_append, List.length_cons] at ih ⊢
          omega

/-! ## What a turn keeps -/

/-- Visiting a node leaves the same to be visited, whatever the order of its new successors. -/
theorem mem_explore_visit {node : α} {found queue fresh : List α}
    (hfresh : ∀ a, a ∈ fresh ↔ a ∈ nodes ∧ a ∉ found ∧ a ∈ next node) {a : α} :
    a ∈ explore next (node :: queue) (apart found nodes) ↔
      a = node ∨ a ∈ explore next (queue ++ fresh) (apart (found ++ fresh) nodes) := by
  rw [explore, List.mem_cons]
  refine or_congr_right (mem_explore_congr (fun b => ?_) (fun b => ?_))
  · rw [List.mem_append, List.mem_append, mem_among, mem_apart, hfresh, and_assoc]
  · rw [mem_apart, mem_apart, mem_apart, List.mem_append, hfresh]
    tauto

/-- What holds of a search for some nodes all the way: no node is found twice, the queue holds found
nodes, and the nodes searched for are those found and those that are still to be visited. -/
structure Underway (next : α → List α) (nodes goal : List α) (search : Search α) : Prop where
  distinct : search.found.Nodup
  queue_subset : search.queue ⊆ search.found
  found_subset : search.found ⊆ nodes
  mem_goal_iff : ∀ a, a ∈ goal ↔
    a ∈ search.found ∨ a ∈ explore next search.queue (apart search.found nodes)

theorem Begins.underway (h : Begins nodes roots search) :
    Underway next nodes (reachable nodes next roots) search where
  distinct := h.distinct
  queue_subset := h.queued ▸ List.Subset.refl _
  found_subset := fun a ha => ((h.mem_iff a).mp ha).2
  mem_goal_iff := by
    intro a
    have hsame : a ∈ reachable nodes next roots ↔
        a ∈ explore next search.queue (apart search.found nodes) := by
      refine mem_explore_congr (fun b => ?_) (fun b => ?_)
      · rw [mem_among, h.queued, h.mem_iff, and_comm]
      · rw [mem_apart, mem_apart, h.mem_iff]
        tauto
    rw [hsame]
    refine ⟨Or.inr, fun hmem => hmem.elim (fun hfound => ?_) id⟩
    exact mem_explore_of_mem (h.queued ▸ hfound)

section

variable (harc : ∀ a b, arc a b ↔ a ∈ nodes ∧ StepsTo next nodes a b)

include harc

/-- A turn keeps what is searched for: it does what one call of `explore` does. -/
theorem Underway.turn {goal : List α} (h : Underway next nodes goal search)
    (hturn : Turn arc search later) : Underway next nodes goal later := by
  cases hturn with
  | @visit node found queue fresh hdistinct hfresh =>
      have hfound : node ∈ found := h.queue_subset List.mem_cons_self
      have hmem : ∀ a, a ∈ fresh ↔ a ∈ nodes ∧ a ∉ found ∧ a ∈ next node := by
        intro a
        rw [hfresh, harc, StepsTo]
        have hnode : node ∈ nodes := h.found_subset hfound
        tauto
      refine ⟨?_, ?_, ?_, fun a => ?_⟩
      · refine List.nodup_append.mpr ⟨h.distinct, hdistinct, ?_⟩
        rintro a ha b hb rfl
        exact ((hmem a).mp hb).2.1 ha
      · exact List.append_subset.mpr ⟨fun a ha => List.mem_append_left _
          (h.queue_subset (List.mem_cons_of_mem _ ha)), List.subset_append_right _ _⟩
      · exact List.append_subset.mpr ⟨h.found_subset, fun a ha => ((hmem a).mp ha).1⟩
      · rw [h.mem_goal_iff, mem_explore_visit hmem, List.mem_append]
        constructor
        · rintro (hold | rfl | hrest)
          · exact Or.inl (Or.inl hold)
          · exact Or.inl (Or.inl hfound)
          · exact Or.inr hrest
        · -- What is found now is queued, so it is among what is still to be visited.
          rintro ((hold | hnew) | hrest)
          · exact Or.inl hold
          · exact Or.inr (Or.inr (mem_explore_of_mem (List.mem_append_right _ hnew)))
          · exact Or.inr (Or.inr hrest)

theorem Underway.turns {goal : List α} {turns : Nat} (h : Underway next nodes goal search)
    (hturns : Turns arc turns search last) : Underway next nodes goal last := by
  induction hturns with
  | none => exact h
  | turn hturn _ ih => exact ih (h.turn harc hturn)

/-! ## The end of a search -/

/-- A node can be visited if the unseen nodes are at hand: they list its new successors. -/
theorem turn_among {node : α} {found queue unseen : List α} (hnode : node ∈ nodes)
    (hdistinct : unseen.Nodup) (hunseen : ∀ a, a ∈ unseen ↔ a ∈ nodes ∧ a ∉ found) :
    Turn arc ⟨found, node :: queue⟩
      ⟨found ++ among (next node) unseen, queue ++ among (next node) unseen⟩ := by
  refine .visit (hdistinct.filter _) fun a => ?_
  rw [mem_among, hunseen, harc, StepsTo]
  tauto

/-- As long as a node is queued, there is another turn. -/
theorem Underway.exists_turn {goal : List α} (h : Underway next nodes goal search)
    (hnodes : nodes.Nodup) (hqueue : search.queue ≠ []) : ∃ later, Turn arc search later := by
  obtain ⟨found, queue⟩ := search
  obtain ⟨node, queue, rfl⟩ := List.exists_cons_of_ne_nil hqueue
  have hnode : node ∈ nodes := h.found_subset (h.queue_subset List.mem_cons_self)
  exact ⟨_, turn_among harc hnode (hnodes.filter _) fun a => mem_apart⟩

/-- The calls of `explore` are the turns of a search. -/
theorem turns_explore (visited : List α) {pending unseen : List α} (hpending : pending ⊆ nodes)
    (hdistinct : unseen.Nodup) (hunseen : ∀ a, a ∈ unseen ↔ a ∈ nodes ∧ a ∉ visited ++ pending) :
    Turns arc (explore next pending unseen).length ⟨visited ++ pending, pending⟩
      ⟨visited ++ explore next pending unseen, []⟩ := by
  fun_induction explore next pending unseen generalizing visited with
  | case1 => exact .none
  | case2 node pending unseen ih =>
      have hnode : node ∈ nodes := hpending List.mem_cons_self
      refine .turn (turn_among harc hnode hdistinct hunseen) ?_
      have hrest := ih (visited ++ [node]) ?_ (hdistinct.filter _) fun a => ?_
      · simpa only [List.append_assoc, List.cons_append, List.nil_append] using hrest
      · refine List.append_subset.mpr ⟨fun a ha => hpending (List.mem_cons_of_mem _ ha), ?_⟩
        exact fun a ha => ((hunseen a).mp (mem_among.mp ha).1).1
      · simp only [mem_apart, mem_among, hunseen, List.mem_append, List.mem_cons, List.not_mem_nil]
        tauto

/-- One of the searches finds the nodes of `reachable`, in the order in which it lists them. -/
theorem exists_turns_reachable (hnodes : nodes.Nodup) (roots : List α) :
    ∃ start, Begins nodes roots start ∧
      Turns arc (reachable nodes next roots).length start ⟨reachable nodes next roots, []⟩ := by
  refine ⟨⟨among roots nodes, among roots nodes⟩, ⟨rfl, hnodes.filter _, fun a => ?_⟩, ?_⟩
  · rw [mem_among, and_comm]
  · refine turns_explore harc [] (fun a ha => (mem_among.mp ha).1) (hnodes.filter _) fun a => ?_
    rw [mem_apart, List.nil_append, mem_among]
    tauto

theorem nodup_reachable (hnodes : nodes.Nodup) (roots : List α) :
    (reachable nodes next roots).Nodup := by
  obtain ⟨start, hstart, hturns⟩ := exists_turns_reachable harc hnodes roots
  exact (hstart.underway.turns harc hturns).distinct

theorem ends_reachable (hnodes : nodes.Nodup) (roots : List α) :
    Ends arc nodes roots (reachable nodes next roots) where
  run := exists_turns_reachable harc hnodes roots
  bounded := by
    intro start turns last hstart hturns
    have hlast := hstart.underway.turns harc hturns
    have hsubset : last.found ⊆ reachable nodes next roots :=
      fun a ha => (hlast.mem_goal_iff a).mpr (Or.inl ha)
    have hlength := (List.subperm_of_subset hlast.distinct hsubset).length_le
    have hcount := hturns.count
    rw [hstart.queued] at hcount
    omega
  continues := by
    intro start turns last hstart hturns hqueue
    exact (hstart.underway.turns harc hturns).exists_turn harc hnodes hqueue
  complete := by
    intro start turns last hstart hturns hqueue
    have hlast := hstart.underway.turns harc hturns
    refine (List.perm_ext_iff_of_nodup hlast.distinct (nodup_reachable harc hnodes roots)).mpr ?_
    intro a
    rw [hlast.mem_goal_iff, hqueue, explore]
    simp only [List.not_mem_nil, or_false]

omit [DecidableEq α] in
/-- Arcs between nodes make the same paths as steps do. -/
theorem path_arc_iff {root a : α} (hroot : root ∈ nodes) :
    ReflTransGen arc root a ↔ ReflTransGen (StepsTo next nodes) root a := by
  constructor
  · exact ReflTransGen.mono (fun b c hstep => ((harc b c).mp hstep).2) _ _
  · intro hpath
    have hboth : ReflTransGen arc root a ∧ a ∈ nodes := by
      induction hpath with
      | refl => exact ⟨ReflTransGen.refl, hroot⟩
      | tail _ hstep ih => exact ⟨ih.1.tail ((harc _ _).mpr ⟨ih.2, hstep⟩), hstep.2⟩
    exact hboth.1

end

end Search

/-! ## The views of a graph -/

namespace Graph

variable {graph : Graph} {view : View}

/-- A view has an arc from a module to another if both are in the graph and the view keeps an edge
from the one to the other. -/
def Arc (graph : Graph) (view : View) (id other : ModuleId) : Prop :=
  graph.contains id = true ∧ graph.contains other = true ∧
    ∃ edge ∈ graph.edges, edge.source = id ∧ edge.target = other ∧ view.keeps edge = true

theorem arc_iff (id other : ModuleId) :
    graph.Arc view id other ↔ id ∈ graph.ids ∧ StepsTo (graph.next view) graph.ids id other := by
  rw [Arc, StepsTo, mem_next_iff, mem_ids_iff, mem_ids_iff]
  tauto

theorem mem_reachableFrom_iff {roots : List ModuleId} {id : ModuleId} :
    id ∈ graph.reachableFrom view roots ↔
      ∃ root ∈ roots, graph.contains root = true ∧ ReflTransGen (graph.Arc view) root id := by
  rw [reachableFrom, mem_reachable_iff]
  refine exists_congr fun root => and_congr_right fun _ => ?_
  rw [mem_ids_iff]
  exact and_congr_right fun hroot => (Search.path_arc_iff arc_iff (mem_ids_iff.mpr hroot)).symm

/-- A search in a view, from any list of texts as roots, finds exactly the modules at the end of a
path of any length that starts at one of those roots that are modules of the graph and follows the
arcs of the view.  The search comes to an end, and it finds the same modules in whatever order it
goes.  The view for execution keeps just the imports and the runs, the other keeps every edge. -/
theorem reachableFrom_exact (graph : Graph) (view : View) (roots : List String) :
    (∀ id, id ∈ graph.reachableFrom view (roots.map ModuleId.mk) ↔
      ∃ root ∈ roots, graph.contains ⟨root⟩ = true ∧
        ReflTransGen (graph.Arc view) ⟨root⟩ id) ∧
    Search.Ends (graph.Arc view) graph.ids (roots.map ModuleId.mk)
      (graph.reachableFrom view (roots.map ModuleId.mk)) ∧
    (∀ edge, View.everything.keeps edge = true) ∧
    ∀ edge, View.execution.keeps edge = true ↔ edge.kind = .imports ∨ edge.kind = .runs := by
  refine ⟨fun id => ?_, Search.ends_reachable arc_iff graph.nodes.nodup_keys _, fun _ => rfl,
    fun _ => View.keeps_execution_iff⟩
  simp only [mem_reachableFrom_iff, List.mem_map, exists_exists_and_eq_and]

/-- Two modules that run each other, one of them over two edges.  The other one forwards a name of a
module that imports one that is missing. -/
def roundabout : Graph :=
  ofParts [{ id := ⟨"/a.js"⟩ }, { id := ⟨"/b.js"⟩ }, { id := ⟨"/c.js"⟩ }, { id := ⟨"/d.js"⟩ }]
    [{ source := ⟨"/a.js"⟩, target := ⟨"/b.js"⟩, name := "x", localName := "x", kind := .imports },
      { source := ⟨"/a.js"⟩, target := ⟨"/b.js"⟩, name := "y", localName := "y", kind := .imports },
      { source := ⟨"/b.js"⟩, target := ⟨"/a.js"⟩, name := "", localName := "", kind := .runs },
      { source := ⟨"/b.js"⟩, target := ⟨"/c.js"⟩, name := "z", localName := "z",
        kind := .forwards },
      { source := ⟨"/c.js"⟩, target := ⟨"/gone.js"⟩, name := "w", localName := "w",
        kind := .imports },
      { source := ⟨"/d.js"⟩, target := ⟨"/a.js"⟩, name := "v", localName := "v", kind := .imports }]

example :
    roundabout.reachableFrom .execution [⟨"/b.js"⟩, ⟨"/gone.js"⟩, ⟨"/b.js"⟩] =
        [⟨"/b.js"⟩, ⟨"/a.js"⟩] ∧
      roundabout.reachableFrom .everything [⟨"/b.js"⟩, ⟨"/gone.js"⟩, ⟨"/b.js"⟩] =
        [⟨"/b.js"⟩, ⟨"/a.js"⟩, ⟨"/c.js"⟩] := by
  decide +kernel

end Graph

end LiveExports

import Mathlib.Logic.Relation
import LiveExports.Graph.Search

/-!
# The search finds what paths reach

A search visits exactly the nodes at the end of a path from a pending node, where every step of the
path leads to an unseen node (`mem_explore_iff`).  For a whole search this reads: the nodes on paths
from the roots that are nodes (`mem_reachable_iff`).

## Strategy

A visit takes the successors of the visited node out of the unseen ones, so the paths that a later
search may use are fewer.  No path is lost: cut at the last node that was taken out, its rest is a
path that the later search may use, and it starts at a node that is pending now
(`exists_last_entry`).  The same cut, at the last root, serves for the start of a whole search.
-/

namespace LiveExports

open Relation

variable {α : Type} [DecidableEq α]

/-- One step along `next`, to one of the given nodes. -/
def StepsTo (next : α → List α) (nodes : List α) (a b : α) : Prop :=
  b ∈ next a ∧ b ∈ nodes

theorem mem_among {list nodes : List α} {a : α} : a ∈ among list nodes ↔ a ∈ nodes ∧ a ∈ list := by
  simp [among]

theorem mem_apart {list nodes : List α} {a : α} : a ∈ apart list nodes ↔ a ∈ nodes ∧ a ∉ list := by
  simp [apart]

theorem StepsTo.of_apart {next : α → List α} {list nodes : List α} {a b : α}
    (h : StepsTo next (apart list nodes) a b) : StepsTo next nodes a b :=
  ⟨h.1, (mem_apart.mp h.2).1⟩

theorem path_of_path_apart {next : α → List α} {list nodes : List α} {a b : α}
    (h : ReflTransGen (StepsTo next (apart list nodes)) a b) :
    ReflTransGen (StepsTo next nodes) a b :=
  ReflTransGen.mono (fun _ _ hstep => hstep.of_apart) _ _ h

/-- A path either avoids a list of nodes from its second node on, or has a last node in the list;
from there on it avoids the list. -/
theorem exists_last_entry {next : α → List α} {nodes : List α} (list : List α) {a b : α}
    (hpath : ReflTransGen (StepsTo next nodes) a b) :
    ReflTransGen (StepsTo next (apart list nodes)) a b ∨
      ∃ entry ∈ among list nodes, ReflTransGen (StepsTo next (apart list nodes)) entry b := by
  induction hpath with
  | refl => exact Or.inl ReflTransGen.refl
  | @tail middle last _ hstep ih =>
      by_cases hlast : last ∈ list
      · exact Or.inr ⟨last, mem_among.mpr ⟨hstep.2, hlast⟩, ReflTransGen.refl⟩
      · have hstep' : StepsTo next (apart list nodes) middle last :=
          ⟨hstep.1, mem_apart.mpr ⟨hstep.2, hlast⟩⟩
        rcases ih with hfree | ⟨entry, hentry, hrest⟩
        · exact Or.inl (hfree.tail hstep')
        · exact Or.inr ⟨entry, hentry, hrest.tail hstep'⟩

/-! ## One search -/

theorem exists_path_of_mem_explore {next : α → List α} {pending unseen : List α} {a : α}
    (ha : a ∈ explore next pending unseen) :
    ∃ start ∈ pending, ReflTransGen (StepsTo next unseen) start a := by
  fun_induction explore next pending unseen with
  | case1 => simp at ha
  | case2 node pending unseen ih =>
      rcases List.mem_cons.mp ha with rfl | ha
      · exact ⟨a, List.mem_cons_self, ReflTransGen.refl⟩
      · obtain ⟨start, hstart, hpath⟩ := ih ha
        have hpath' := path_of_path_apart hpath
        rcases List.mem_append.mp hstart with hpending | hfound
        · exact ⟨start, List.mem_cons_of_mem _ hpending, hpath'⟩
        · obtain ⟨hunseen, hnext⟩ := mem_among.mp hfound
          exact ⟨node, List.mem_cons_self, hpath'.head ⟨hnext, hunseen⟩⟩

theorem mem_explore_of_path {next : α → List α} {pending unseen : List α} {start a : α}
    (hstart : start ∈ pending) (hpath : ReflTransGen (StepsTo next unseen) start a) :
    a ∈ explore next pending unseen := by
  fun_induction explore next pending unseen generalizing start with
  | case1 => simp at hstart
  | case2 node pending unseen ih =>
      rcases exists_last_entry (next node) hpath with hfree | ⟨entry, hentry, hrest⟩
      · rcases List.mem_cons.mp hstart with rfl | hstart
        · -- A path from the visited node takes its first step to a node that was taken out.
          rcases hfree.cases_head with rfl | ⟨second, hstep, _⟩
          · exact List.mem_cons_self
          · exact absurd hstep.1 (mem_apart.mp hstep.2).2
        · exact List.mem_cons_of_mem _ (ih (List.mem_append_left _ hstart) hfree)
      · exact List.mem_cons_of_mem _ (ih (List.mem_append_right _ hentry) hrest)

/-- A search visits just the nodes on paths from the pending nodes through unseen ones. -/
theorem mem_explore_iff {next : α → List α} {pending unseen : List α} {a : α} :
    a ∈ explore next pending unseen ↔
      ∃ start ∈ pending, ReflTransGen (StepsTo next unseen) start a :=
  ⟨exists_path_of_mem_explore, fun ⟨_, hstart, hpath⟩ => mem_explore_of_path hstart hpath⟩

theorem mem_explore_of_mem {next : α → List α} {pending unseen : List α} {a : α}
    (ha : a ∈ pending) : a ∈ explore next pending unseen :=
  mem_explore_of_path ha ReflTransGen.refl

/-- What a search visits depends on what is pending and on what is unseen, but not on the order. -/
theorem mem_explore_congr {next : α → List α} {pending pending' unseen unseen' : List α}
    (hpending : ∀ a, a ∈ pending ↔ a ∈ pending') (hunseen : ∀ a, a ∈ unseen ↔ a ∈ unseen') {a : α} :
    a ∈ explore next pending unseen ↔ a ∈ explore next pending' unseen' := by
  have hsteps : StepsTo next unseen = StepsTo next unseen' := by
    funext a b
    rw [StepsTo, StepsTo, hunseen]
  simp only [mem_explore_iff, hpending, hsteps]

/-! ## A whole search -/

/-- A whole search visits just the nodes on paths from those roots that are nodes. -/
theorem mem_reachable_iff {nodes : List α} {next : α → List α} {roots : List α} {a : α} :
    a ∈ reachable nodes next roots ↔
      ∃ root ∈ roots, root ∈ nodes ∧ ReflTransGen (StepsTo next nodes) root a := by
  unfold reachable
  rw [mem_explore_iff]
  constructor
  · rintro ⟨root, hroot, hpath⟩
    obtain ⟨hnode, hmem⟩ := mem_among.mp hroot
    exact ⟨root, hmem, hnode, path_of_path_apart hpath⟩
  · rintro ⟨root, hmem, hnode, hpath⟩
    rcases exists_last_entry roots hpath with hfree | hentry
    · exact ⟨root, mem_among.mpr ⟨hnode, hmem⟩, hfree⟩
    · exact hentry

/-- What a search finds is closed under steps. -/
theorem mem_reachable_of_step {nodes : List α} {next : α → List α} {roots : List α} {a b : α}
    (ha : a ∈ reachable nodes next roots) (hstep : StepsTo next nodes a b) :
    b ∈ reachable nodes next roots := by
  obtain ⟨root, hroot, hnode, hpath⟩ := mem_reachable_iff.mp ha
  exact mem_reachable_iff.mpr ⟨root, hroot, hnode, hpath.tail hstep⟩

theorem mem_reachable_of_root {nodes : List α} {next : α → List α} {roots : List α} {root : α}
    (hroot : root ∈ roots) (hnode : root ∈ nodes) : root ∈ reachable nodes next roots :=
  mem_reachable_iff.mpr ⟨root, hroot, hnode, ReflTransGen.refl⟩

/-! ## The modules that a module runs -/

namespace Graph

variable {graph : Graph}

/-- The edges by which one module runs another are the imports and the runs. -/
theorem View.keeps_execution_iff {edge : Edge} :
    View.execution.keeps edge = true ↔ edge.kind = .imports ∨ edge.kind = .runs := by
  rw [View.keeps, bne_iff_ne]
  cases edge.kind <;> decide

theorem mem_next_iff {view : View} {id other : ModuleId} :
    other ∈ graph.next view id ↔
      ∃ edge ∈ graph.edges, edge.source = id ∧ edge.target = other ∧ view.keeps edge = true := by
  simp only [next, edgesFrom, List.mem_map, List.mem_filter, beq_iff_eq]
  constructor
  · rintro ⟨edge, ⟨⟨hedge, hsource⟩, hkeeps⟩, htarget⟩
    exact ⟨edge, hedge, hsource, htarget, hkeeps⟩
  · rintro ⟨edge, hedge, hsource, htarget, hkeeps⟩
    exact ⟨edge, ⟨⟨hedge, hsource⟩, hkeeps⟩, htarget⟩

theorem mem_next_execution_iff {id other : ModuleId} :
    other ∈ graph.next .execution id ↔
      ∃ edge ∈ graph.edges, edge.source = id ∧ edge.target = other ∧
        (edge.kind = .imports ∨ edge.kind = .runs) := by
  simp only [mem_next_iff, View.keeps_execution_iff]

/-- A set that holds the roots, and with each module what it runs, holds all that the roots run. -/
theorem mem_of_reachableFrom {holds : ModuleId → Prop} {roots : List ModuleId} {id : ModuleId}
    (hroots : ∀ root ∈ roots, graph.contains root = true → holds root)
    (hrun : ∀ edge ∈ graph.edges, edge.kind = .imports ∨ edge.kind = .runs →
      holds edge.source → holds edge.target)
    (hid : id ∈ graph.reachableFrom .execution roots) : holds id := by
  obtain ⟨root, hroot, hnode, hpath⟩ := mem_reachable_iff.mp hid
  induction hpath with
  | refl => exact hroots root hroot (mem_ids_iff.mp hnode)
  | tail hprefix hstep ih =>
      obtain ⟨edge, hedge, rfl, rfl, hkind⟩ := mem_next_execution_iff.mp hstep.1
      exact hrun edge hedge hkind (ih (mem_reachable_iff.mpr ⟨root, hroot, hnode, hprefix⟩))

end Graph

end LiveExports

import Mathlib.Data.List.ProdSigma
import LiveExports.Proofs.Liveness.Soundness
import LiveExports.Proofs.Graph.Validity

/-!
# The queue runs empty

A turn shortens the queue by one, and what it adds to the queue it pays for with new sites.  So the
turns taken and the length of the queue together never exceed the number of sites of all demands,
the weight of the stage (`Stage.length_turn`).  In a valid graph the weight is bounded: every demand
is on a node and wants a name that stands somewhere in the graph, and every site is an import or an
export.  The bound is `Graph.turnBound`, so after as many turns nothing is queued.

The bounds on demands and sites come from the rules, with everything taken to be live.
-/

namespace LiveExports

open Relation

variable {graph : Graph} {entries : List ModuleId} {entryExportsUsed : Bool}
  {live : ModuleId → Prop} {demanded : Demand → Prop}

/-- Everything may be live and demanded. -/
theorem Closed.everything :
    Closed graph entries entryExportsUsed (fun _ => True) (fun _ => True) :=
  ⟨fun _ _ _ => trivial, fun _ _ _ _ => trivial, fun _ => trivial, fun _ _ => trivial,
    fun _ _ => trivial⟩

/-! ## The demands and sites of a graph -/

namespace Graph

/-- All that can be wanted of a module. -/
def wantedSpace (graph : Graph) : List Wanted :=
  [.all, .allButDefault] ++ graph.edges.map (fun edge => .named edge.name) ++
    graph.exports.map (fun (_, name, _) => .named name) ++
    graph.exports.map fun (_, _, entry) => .named ((entry.target.map Target.name).getD "")

def demandSpace (graph : Graph) : List Demand :=
  (graph.ids ×ˢ graph.wantedSpace).map fun (module, wanted) => ⟨module, wanted⟩

def siteSpace (graph : Graph) : List UsageSite :=
  graph.edges.map (fun edge => ⟨edge.source, edge.name⟩) ++
    graph.exports.map fun (module, name, _) => ⟨module, name⟩

theorem length_demandSpace (graph : Graph) :
    graph.demandSpace.length =
      graph.nodes.size * (2 + graph.edges.length + 2 * graph.exportCount) := by
  have hids : graph.ids.length = graph.nodes.size := List.length_map _
  have hwanted : graph.wantedSpace.length =
      2 + graph.edges.length + 2 * graph.exportCount := by
    simp only [wantedSpace, exportCount, List.length_append, List.length_cons, List.length_nil,
      List.length_map]
    omega
  rw [demandSpace, List.length_map, List.length_product, hids, hwanted]

theorem length_siteSpace (graph : Graph) :
    graph.siteSpace.length = graph.edges.length + graph.exportCount := by
  simp only [siteSpace, exportCount, List.length_append, List.length_map]

theorem mem_demandSpace_iff {demand : Demand} :
    demand ∈ graph.demandSpace ↔
      graph.contains demand.module = true ∧ demand.wanted ∈ graph.wantedSpace := by
  obtain ⟨module, wanted⟩ := demand
  simp only [demandSpace, List.mem_map, Prod.exists, List.mem_product, mem_ids_iff,
    Demand.mk.injEq]
  constructor
  · rintro ⟨_, _, h, rfl, rfl⟩
    exact h
  · intro h
    exact ⟨module, wanted, h, rfl, rfl⟩

theorem named_mem_wantedSpace_of_edge {edge : Edge} (hedge : edge ∈ graph.edges) :
    .named edge.name ∈ graph.wantedSpace := by
  simp only [wantedSpace, List.mem_append, List.mem_map]
  exact Or.inl (Or.inl (Or.inr ⟨edge, hedge, rfl⟩))

theorem named_mem_wantedSpace_of_declares {module : ModuleId} {name : String}
    (hdeclares : graph.declares module name = true) : .named name ∈ graph.wantedSpace := by
  obtain ⟨entry, hentry⟩ := declares_iff.mp hdeclares
  simp only [wantedSpace, List.mem_append, List.mem_map]
  exact Or.inl (Or.inr ⟨(module, name, entry), mem_exports_iff.mpr hentry, rfl⟩)

theorem named_mem_wantedSpace_of_target {module : ModuleId} {name : String} {entry : Export}
    {target : Target} (hentry : graph.export? module name = some entry)
    (htarget : entry.target = some target) : .named target.name ∈ graph.wantedSpace := by
  simp only [wantedSpace, List.mem_append, List.mem_map]
  refine Or.inr ⟨(module, name, entry), mem_exports_iff.mpr hentry, ?_⟩
  rw [htarget]
  rfl

theorem mem_siteSpace_of_origin {site : UsageSite} {demand : Demand}
    (h : Origin graph entries entryExportsUsed live site demand) : site ∈ graph.siteSpace := by
  have himport : ∀ edge ∈ graph.edges, ⟨edge.source, edge.name⟩ ∈ graph.siteSpace :=
    fun edge hedge => List.mem_append_left _ (List.mem_map.mpr ⟨edge, hedge, rfl⟩)
  cases h with
  | importedName hedge => exact himport _ hedge
  | importedNamespace hedge => exact himport _ hedge
  | @entryExport id name _ _ hdeclares =>
      obtain ⟨entry, hentry⟩ := declares_iff.mp hdeclares
      refine List.mem_append_right _ (List.mem_map.mpr ⟨(id, name, entry), ?_, rfl⟩)
      exact mem_exports_iff.mpr hentry

theorem mem_demandSpace_of_origin (hvalid : graph.Valid) {site : UsageSite} {demand : Demand}
    (h : Origin graph entries entryExportsUsed live site demand) : demand ∈ graph.demandSpace := by
  rw [mem_demandSpace_iff]
  cases h with
  | importedName hedge =>
      exact ⟨hvalid.edgeTarget _ hedge, named_mem_wantedSpace_of_edge hedge⟩
  | importedNamespace hedge =>
      exact ⟨hvalid.edgeTarget _ hedge, by simp [wantedSpace]⟩
  | entryExport _ _ hdeclares =>
      exact ⟨contains_of_declares hdeclares, named_mem_wantedSpace_of_declares hdeclares⟩

theorem mem_demandSpace_of_follows (hvalid : graph.Valid) {demand other : Demand}
    (h : graph.Follows demand other) (hdemand : demand ∈ graph.demandSpace) :
    other ∈ graph.demandSpace := by
  have hstars : ∀ {module star : ModuleId}, graph.StarsTo module star →
      graph.contains star = true := fun ⟨_, hnode, hstar⟩ => hvalid.star hnode hstar
  rw [mem_demandSpace_iff] at hdemand ⊢
  -- Only a forward to a name can bring in a name that was not wanted before.
  cases h with
  | forward hentry htarget =>
      exact ⟨hvalid.target hentry htarget, named_mem_wantedSpace_of_target hentry htarget⟩
  | star hstar => exact ⟨hstars hstar, hdemand.2⟩
  | member hdeclares => exact ⟨hdemand.1, named_mem_wantedSpace_of_declares hdeclares⟩
  | memberStar hstar => exact ⟨hstars hstar, by simp [wantedSpace]⟩
  | memberButDefault hdeclares => exact ⟨hdemand.1, named_mem_wantedSpace_of_declares hdeclares⟩
  | memberButDefaultStar hstar => exact ⟨hstars hstar, hdemand.2⟩

theorem mem_spaces_of_arises (hvalid : graph.Valid) {site : UsageSite} {demand : Demand}
    (h : Arises graph entries entryExportsUsed live site demand) :
    site ∈ graph.siteSpace ∧ demand ∈ graph.demandSpace := by
  obtain ⟨first, horigin, hchain⟩ := h
  refine ⟨mem_siteSpace_of_origin horigin, ?_⟩
  induction hchain with
  | refl => exact mem_demandSpace_of_origin hvalid horigin
  | tail _ hfollows ih => exact mem_demandSpace_of_follows hvalid hfollows ih

end Graph

namespace Stage

variable {stage : Stage}

theorem weight_le_turnBound (hvalid : graph.Valid)
    (hstage : Sound graph entries entryExportsUsed live demanded stage) :
    stage.weight ≤ graph.turnBound := by
  have hkeys : stage.standings.size ≤ graph.demandSpace.length := by
    apply Table.size_le_of_keys
    intro demand hdemand
    obtain ⟨site, hsite⟩ := hstage.known demand hdemand
    exact (Graph.mem_spaces_of_arises hvalid (hstage.sites demand site hsite)).2
  have hsites : stage.weight ≤ stage.standings.size * graph.siteSpace.length := by
    apply Table.total_le
    intro demand standing hstanding
    apply SortedSet.size_le_length
    intro site hsite
    have hknown : site ∈ stage.sites demand := by
      rw [Stage.sites, Stage.standing, hstanding]
      exact hsite
    exact (Graph.mem_spaces_of_arises hvalid (hstage.sites demand site hknown)).1
  calc stage.weight ≤ stage.standings.size * graph.siteSpace.length := hsites
    _ ≤ graph.demandSpace.length * graph.siteSpace.length := Nat.mul_le_mul_right _ hkeys
    _ = graph.turnBound := by
      rw [Graph.length_demandSpace, Graph.length_siteSpace, Graph.turnBound]

/-! ## Turns -/

/-- A turn takes one demand from the queue, and pays for what it puts there. -/
theorem length_turn (graph : Graph) {demand : Demand} {queue : List Demand}
    (hqueue : stage.queue = demand :: queue) :
    (stage.turn graph).queue.length + 1 + stage.weight ≤
      stage.queue.length + (stage.turn graph).weight := by
  have hpays : Pays { stage with queue } (stage.turn graph) := by
    rw [turn_of_queue hqueue]
    exact ((pays_awaken graph _ demand).trans (pays_credit graph _ demand _)).trans
      (pays_passOn graph _ demand _)
  have hlength : stage.queue.length = queue.length + 1 := by
    rw [hqueue, List.length_cons]
  have hweight : ({ stage with queue } : Stage).weight = stage.weight := rfl
  unfold Pays at hpays
  simp only at hpays
  omega

theorem queue_takeTurns (hvalid : graph.Valid) (bound taken : Nat)
    (hstage : Sound graph entries entryExportsUsed (fun _ => True) (fun _ => True) stage)
    (hpaid : taken + stage.queue.length ≤ stage.weight)
    (hbound : graph.turnBound ≤ taken + bound) :
    (stage.takeTurns graph bound).queue = [] := by
  -- The invariant is `hpaid`: each turn taken, and each demand still queued, has a site to itself.
  induction bound generalizing stage taken with
  | zero =>
      have hweight := weight_le_turnBound hvalid hstage
      unfold takeTurns
      exact List.eq_nil_of_length_eq_zero (by omega)
  | succ bound ih =>
      unfold takeTurns
      cases hqueue : stage.queue with
      | nil => simpa using hqueue
      | cons demand queue =>
          have hturn := length_turn graph hqueue
          refine ih (taken + 1) (hstage.turn Closed.everything) ?_ (by omega)
          omega

end Stage

/-- What is queued before the first turn is paid for. -/
theorem Stage.pays_initial (graph : Graph) (entries : List ModuleId) (entryExportsUsed : Bool) :
    Stage.Pays {} (Stage.initial graph entries entryExportsUsed) := by
  unfold Stage.initial
  split
  · exact (Stage.pays_activate graph {} entries).trans
      (Stage.pays_raiseEntryExports graph _ entries)
  · exact Stage.pays_activate graph {} entries

/-- In a valid graph the queue is empty in the end. -/
theorem Graph.queue_finalStage (hvalid : graph.Valid) (entries : List ModuleId)
    (entryExportsUsed : Bool) : (graph.finalStage entries entryExportsUsed).queue = [] := by
  have hpays := Stage.pays_initial graph entries entryExportsUsed
  have hempty : ({} : Stage).weight = 0 := rfl
  have hsound : Stage.Sound graph entries entryExportsUsed (fun _ => True) (fun _ => True)
      (Stage.initial graph entries entryExportsUsed) := Stage.Sound.initial Closed.everything
  refine Stage.queue_takeTurns hvalid graph.turnBound 0 hsound ?_ (by omega)
  unfold Stage.Pays at hpays
  simp only [List.length_nil] at hpays
  omega

end LiveExports

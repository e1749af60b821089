import LiveExports.Proofs.Graph.Severed
import LiveExports.Proofs.Liveness.Comparison
import LiveExports.Proofs.Liveness.Provision
import LiveExports.Proofs.Ordered.Listing

/-!
# The order of nodes, edges and stars

A graph is put together from a list of nodes and a list of edges, and a node lists its stars.  The
order of these lists decides in which order modules come to life, demands are queued and sites are
noted, but nothing of it is left in the end: the whole result is the same
(`Graph.liveness_ofParts_perm`).

## Strategy

What the lists hold is compared, not how they are ordered (`Graph.SameParts`).  The rules refer to a
graph only through what it finds, so each rule of one graph is a rule of the other, and so are the
least sets that are closed under them.  The reasons why exports are dead are read off the edges, but
only ask whether there is one of a kind.
-/

namespace LiveExports

open Relation

/-- Two nodes that list the same stars, perhaps in another order, and agree in all else. -/
structure Node.SameParts (node other : Node) : Prop where
  id : node.id = other.id
  exports : node.exports = other.exports
  stars : node.stars.Perm other.stars
  submitted : node.submitted = other.submitted

theorem Node.SameParts.symm {node other : Node} (h : node.SameParts other) :
    other.SameParts node :=
  ⟨h.id.symm, h.exports.symm, h.stars.symm, h.submitted.symm⟩

namespace Graph

/-- Two graphs with the same parts: what is a node or an edge of one is a node or an edge of the
other, up to the order of stars. -/
structure SameParts (graph other : Graph) : Prop where
  nodes : ∀ {id node}, graph.node? id = some node →
    ∃ found, other.node? id = some found ∧ node.SameParts found
  nodes_back : ∀ {id node}, other.node? id = some node →
    ∃ found, graph.node? id = some found ∧ node.SameParts found
  edges : ∀ edge, edge ∈ graph.edges ↔ edge ∈ other.edges

namespace SameParts

variable {graph other : Graph}

theorem symm (h : graph.SameParts other) : other.SameParts graph where
  nodes := h.nodes_back
  nodes_back := h.nodes
  edges edge := (h.edges edge).symm

variable (h : graph.SameParts other)

include h

/-! ## What both graphs find -/

theorem exports_node? (id : ModuleId) :
    (graph.node? id).map Node.exports = (other.node? id).map Node.exports := by
  cases hnode : graph.node? id with
  | some node =>
      obtain ⟨found, hfound, hsame⟩ := h.nodes hnode
      rw [hfound, Option.map_some, Option.map_some, hsame.exports]
  | none =>
      cases hother : other.node? id with
      | none => rfl
      | some node =>
          obtain ⟨found, hfound, _⟩ := h.nodes_back hother
          rw [hnode] at hfound
          contradiction

theorem export?_eq (id : ModuleId) (name : String) :
    graph.export? id name = other.export? id name := by
  have hlook : ∀ g : Graph, g.export? id name =
      ((g.node? id).map Node.exports).bind fun exports => exports.find? name := by
    intro g
    rw [export?, Option.bind_map]
    rfl
  rw [hlook, hlook, h.exports_node?]

theorem contains_eq (id : ModuleId) : graph.contains id = other.contains id := by
  have hlook : ∀ g : Graph, g.contains id = ((g.node? id).map Node.exports).isSome := by
    intro g
    rw [Option.isSome_map]
    rfl
  rw [hlook, hlook, h.exports_node?]

theorem declares_eq (id : ModuleId) (name : String) :
    graph.declares id name = other.declares id name := by
  rw [declares, declares, h.export?_eq]

theorem lists_iff (module : ModuleId) (name : String) :
    graph.Lists module name ↔ other.Lists module name := by
  simp only [Lists, h.export?_eq]

theorem starsTo {module star : ModuleId} (hstar : graph.StarsTo module star) :
    other.StarsTo module star := by
  obtain ⟨node, hnode, hmem⟩ := hstar
  obtain ⟨found, hfound, hsame⟩ := h.nodes hnode
  exact ⟨found, hfound, hsame.stars.mem_iff.mp hmem⟩

theorem provides_eq (module : ModuleId) (name : String) :
    graph.provides module name = other.provides module name := by
  have hoffers : ∀ {g g' : Graph}, g.SameParts g' → ∀ {provider},
      g.Offers module name provider → g'.Offers module name provider := by
    rintro g g' hsame provider ⟨hdeclares, hreached⟩
    refine ⟨hsame.declares_eq provider name ▸ hdeclares, hreached.imp id ?_⟩
    rintro ⟨hname, hpath⟩
    exact ⟨hname, ReflTransGen.mono (fun _ _ => hsame.starsTo) _ _ hpath⟩
  rw [Bool.eq_iff_iff, provides_iff, provides_iff]
  exact exists_congr fun provider => ⟨hoffers h, hoffers h.symm⟩

/-- Exports are listed by module and name in both graphs. -/
theorem exports_eq : graph.exports = other.exports := by
  have htables : graph.nodes.map Node.exports = other.nodes.map Node.exports := by
    apply Table.ext_find?
    intro id
    rw [Table.find?_map, Table.find?_map]
    exact h.exports_node? id
  have hlisted : ∀ g : Graph, g.exports =
      (g.nodes.map Node.exports).entries.flatMap fun item =>
        item.2.entries.map fun entry => (item.1, entry.1, entry.2) := by
    intro g
    rw [Table.map, List.flatMap_map]
    rfl
  rw [hlisted, hlisted, htables]

theorem deadReason_eq (module : ModuleId) (name : String) :
    DeadReason.of graph module name = DeadReason.of other module name := by
  have hany : ∀ kind : EdgeKind,
      ((graph.edgesInto module).filter (DeadReason.concerns name)).any (·.kind == kind) =
        ((other.edgesInto module).filter (DeadReason.concerns name)).any (·.kind == kind) := by
    intro kind
    rw [Bool.eq_iff_iff]
    simp only [List.any_eq_true, List.mem_filter, edgesInto, h.edges]
  simp only [DeadReason.of, hany]

theorem valid (hvalid : graph.Valid) : other.Valid where
  owner hentry := hvalid.owner (h.export?_eq _ _ ▸ hentry)
  target hentry htarget :=
    h.contains_eq _ ▸ hvalid.target (h.export?_eq _ _ ▸ hentry) htarget
  star hnode hstar := by
    obtain ⟨found, hfound, hsame⟩ := h.nodes_back hnode
    rw [← h.contains_eq]
    exact hvalid.star hfound (hsame.stars.mem_iff.mp hstar)
  edgeSource edge hedge := h.contains_eq _ ▸ hvalid.edgeSource edge ((h.edges edge).mpr hedge)
  edgeTarget edge hedge := h.contains_eq _ ▸ hvalid.edgeTarget edge ((h.edges edge).mpr hedge)

/-! ## The rules of both graphs -/

section Rules

variable {entries : List ModuleId} {entryExportsUsed : Bool} {live : ModuleId → Prop}
  {demanded : Demand → Prop}

theorem follows {demand next : Demand} (hfollows : graph.Follows demand next) :
    other.Follows demand next := by
  cases hfollows with
  | forward hentry htarget => exact .forward (h.export?_eq _ _ ▸ hentry) htarget
  | star hstar hundeclared hname =>
      exact .star (h.starsTo hstar) (h.declares_eq _ _ ▸ hundeclared) hname
  | member hdeclares => exact .member (h.declares_eq _ _ ▸ hdeclares)
  | memberStar hstar => exact .memberStar (h.starsTo hstar)
  | memberButDefault hdeclares hname =>
      exact .memberButDefault (h.declares_eq _ _ ▸ hdeclares) hname
  | memberButDefaultStar hstar => exact .memberButDefaultStar (h.starsTo hstar)

theorem origin {site : UsageSite} {demand : Demand}
    (horigin : Origin graph entries entryExportsUsed live site demand) :
    Origin other entries entryExportsUsed live site demand := by
  cases horigin with
  | importedName hedge hkind hends hname hlive =>
      exact .importedName ((h.edges _).mp hedge) hkind hends hname hlive
  | importedNamespace hedge hkind hends hname hlive =>
      exact .importedNamespace ((h.edges _).mp hedge) hkind hends hname hlive
  | entryExport hused hentry hdeclares =>
      exact .entryExport hused hentry (h.declares_eq _ _ ▸ hdeclares)

theorem arises {site : UsageSite} {demand : Demand}
    (harises : Arises graph entries entryExportsUsed live site demand) :
    Arises other entries entryExportsUsed live site demand := by
  obtain ⟨first, horigin, hchain⟩ := harises
  exact ⟨first, h.origin horigin, ReflTransGen.mono (fun _ _ => h.follows) _ _ hchain⟩

theorem requests {requester : ModuleId} {demand : Demand}
    (hrequests : graph.Requests live demanded requester demand) :
    other.Requests live demanded requester demand := by
  cases hrequests with
  | imported hedge hkind hends hlive => exact .imported ((h.edges _).mp hedge) hkind hends hlive
  | forwarded hdemanded hentry htarget =>
      exact .forwarded hdemanded (h.export?_eq _ _ ▸ hentry) htarget

theorem closed (hclosed : Closed graph entries entryExportsUsed live demanded) :
    Closed other entries entryExportsUsed live demanded where
  entry id hentry hcontains := hclosed.entry id hentry (h.contains_eq id ▸ hcontains)
  run edge hedge := hclosed.run edge ((h.edges edge).mpr hedge)
  origin horigin := hclosed.origin (h.symm.origin horigin)
  declared hdemanded hdeclares := hclosed.declared hdemanded (h.declares_eq _ _ ▸ hdeclares)
  follows hfollows := hclosed.follows (h.symm.follows hfollows)

end Rules

/-! ## The analyses of both graphs -/

section Analyses

variable (hvalid : graph.Valid) (entries : List ModuleId) (entryExportsUsed : Bool)

include hvalid

theorem live_finalStage_eq :
    (graph.finalStage entries entryExportsUsed).live =
      (other.finalStage entries entryExportsUsed).live := by
  have hleast := finalStage_leastClosed hvalid entries entryExportsUsed
  have hleast' := finalStage_leastClosed (h.valid hvalid) entries entryExportsUsed
  apply SortedSet.ext_mem
  intro id
  exact ⟨fun hid => hleast.live_least (h.symm.closed hleast'.toClosed) hid,
    fun hid => hleast'.live_least (h.closed hleast.toClosed) hid⟩

theorem arises_finalStage_iff {site : UsageSite} {demand : Demand} :
    Arises graph entries entryExportsUsed
        (· ∈ (graph.finalStage entries entryExportsUsed).live) site demand ↔
      Arises other entries entryExportsUsed
        (· ∈ (other.finalStage entries entryExportsUsed).live) site demand := by
  rw [h.live_finalStage_eq hvalid]
  exact ⟨h.arises, h.symm.arises⟩

theorem demands_finalStage_eq :
    (graph.finalStage entries entryExportsUsed).Demands =
      (other.finalStage entries entryExportsUsed).Demands := by
  funext demand
  unfold Stage.Demands
  simp only [mem_sites_finalStage_iff hvalid, mem_sites_finalStage_iff (h.valid hvalid),
    h.arises_finalStage_iff hvalid]

theorem verdict_finalStage_eq (module : ModuleId) (name : String) :
    (graph.finalStage entries entryExportsUsed).verdict module name =
      (other.finalStage entries entryExportsUsed).verdict module name :=
  Graph.verdict_finalStage_eq hvalid (h.valid hvalid) (h.declares_eq module name)
    fun _ _ => h.arises_finalStage_iff hvalid entries entryExportsUsed

theorem diagnostics_finalStage_eq :
    ((graph.finalStage entries entryExportsUsed).result graph).diagnostics =
      ((other.finalStage entries entryExportsUsed).result other).diagnostics := by
  apply SortedSet.eq_of_mem_iff Stage.sorted_diagnostics_result Stage.sorted_diagnostics_result
  intro diagnostic
  rw [mem_diagnostics_finalStage_iff hvalid, mem_diagnostics_finalStage_iff (h.valid hvalid),
    h.live_finalStage_eq hvalid, h.demands_finalStage_eq hvalid]
  simp only [h.provides_eq]
  constructor
  · rintro ⟨requester, module, name, hrequests, hreport⟩
    exact ⟨requester, module, name, h.requests hrequests, hreport⟩
  · rintro ⟨requester, module, name, hrequests, hreport⟩
    exact ⟨requester, module, name, h.symm.requests hrequests, hreport⟩

theorem records_finalStage_eq :
    ((graph.finalStage entries entryExportsUsed).result graph).records =
      ((other.finalStage entries entryExportsUsed).result other).records := by
  simp only [Stage.result, ← h.exports_eq]
  apply List.map_congr_left
  rintro ⟨_, _, entry⟩ _
  simp only [Stage.record, h.verdict_finalStage_eq hvalid entries entryExportsUsed,
    h.deadReason_eq]

theorem liveness_eq :
    graph.liveness entries entryExportsUsed = other.liveness entries entryExportsUsed := by
  have hverdicts : ((graph.finalStage entries entryExportsUsed).result graph).verdicts =
      ((other.finalStage entries entryExportsUsed).result other).verdicts :=
    Stage.verdicts_result_eq h.lists_iff (h.verdict_finalStage_eq hvalid entries entryExportsUsed)
  have hrecords := h.records_finalStage_eq hvalid entries entryExportsUsed
  have hlive := h.live_finalStage_eq hvalid entries entryExportsUsed
  have hdiagnostics := h.diagnostics_finalStage_eq hvalid entries entryExportsUsed
  rw [liveness_of_valid hvalid, liveness_of_valid (h.valid hvalid)]
  refine congrArg Except.ok ?_
  calc (graph.finalStage entries entryExportsUsed).result graph
      = ⟨((graph.finalStage entries entryExportsUsed).result graph).verdicts,
          ((graph.finalStage entries entryExportsUsed).result graph).records,
          (graph.finalStage entries entryExportsUsed).live,
          ((graph.finalStage entries entryExportsUsed).result graph).diagnostics⟩ := rfl
    _ = (other.finalStage entries entryExportsUsed).result other := by
        rw [hverdicts, hrecords, hlive, hdiagnostics]
        rfl

end Analyses

end SameParts

/-! ## Graphs of listed parts -/

theorem node?_ofParts_eq_some_iff {nodes : List Node} {edges : List Edge}
    (hdistinct : (nodes.map Node.id).Nodup) {id : ModuleId} {node : Node} :
    (ofParts nodes edges).node? id = some node ↔ node ∈ nodes ∧ node.id = id := by
  have hkeys : ((nodes.map fun node => (node.id, node)).map (·.1)).Nodup := by
    rw [List.map_map]
    exact hdistinct
  refine (Table.find?_ofList_eq_some_iff hkeys).trans ?_
  simp only [List.mem_map, Prod.mk.injEq]
  constructor
  · rintro ⟨_, hmem, hid, rfl⟩
    exact ⟨hmem, hid⟩
  · rintro ⟨hmem, hid⟩
    exact ⟨node, hmem, hid, rfl⟩

theorem exists_sameParts_of_mem {nodes others : List Node}
    (hsame : List.Forall₂ Node.SameParts nodes others) {node : Node} (hnode : node ∈ nodes) :
    ∃ other ∈ others, node.SameParts other := by
  induction hsame with
  | nil => exact absurd hnode List.not_mem_nil
  | @cons first other _ others hfirst _ ih =>
      rcases List.mem_cons.mp hnode with rfl | hnode
      · exact ⟨other, List.mem_cons_self, hfirst⟩
      · obtain ⟨found, hfound, hsame⟩ := ih hnode
        exact ⟨found, List.mem_cons_of_mem _ hfound, hsame⟩

/-- Listing the nodes, the stars of each node and the edges in another order gives a graph with the
same parts. -/
theorem sameParts_ofParts {nodes permuted others : List Node} {edges otherEdges : List Edge}
    (hdistinct : (nodes.map Node.id).Nodup) (hnodes : nodes.Perm permuted)
    (hstars : List.Forall₂ Node.SameParts permuted others) (hedges : edges.Perm otherEdges) :
    (ofParts nodes edges).SameParts (ofParts others otherEdges) := by
  have hids : permuted.map Node.id = others.map Node.id := by
    rw [← List.forall₂_eq_eq_eq, List.forall₂_map_left_iff, List.forall₂_map_right_iff]
    exact hstars.imp fun _ _ hsame => hsame.id
  have hdistinct' : (others.map Node.id).Nodup :=
    hids ▸ (hnodes.map Node.id).nodup_iff.mp hdistinct
  have hback : List.Forall₂ Node.SameParts others permuted :=
    List.Forall₂.flip (hstars.imp fun _ _ hsame => hsame.symm)
  refine ⟨?_, ?_, fun edge => hedges.mem_iff⟩
  · intro id node hnode
    obtain ⟨hmem, rfl⟩ := (node?_ofParts_eq_some_iff hdistinct).mp hnode
    obtain ⟨found, hfound, hsame⟩ := exists_sameParts_of_mem hstars (hnodes.mem_iff.mp hmem)
    exact ⟨found, (node?_ofParts_eq_some_iff hdistinct').mpr ⟨hfound, hsame.id.symm⟩, hsame⟩
  · intro id node hnode
    obtain ⟨hmem, rfl⟩ := (node?_ofParts_eq_some_iff hdistinct').mp hnode
    obtain ⟨found, hfound, hsame⟩ := exists_sameParts_of_mem hback hmem
    refine ⟨found, (node?_ofParts_eq_some_iff hdistinct).mpr ⟨?_, hsame.id.symm⟩, hsame⟩
    exact hnodes.mem_iff.mpr hfound

/-- Of a valid graph, the nodes, the stars of each node and the edges may be listed in any order:
the analysis succeeds with the same result, records with their reasons and triggers, verdicts, live
modules and diagnostics. -/
theorem liveness_ofParts_perm {nodes permuted others : List Node} {edges otherEdges : List Edge}
    (hdistinct : (nodes.map Node.id).Nodup) (hnodes : nodes.Perm permuted)
    (hstars : List.Forall₂ Node.SameParts permuted others) (hedges : edges.Perm otherEdges)
    (hvalid : (ofParts nodes edges).validate = .ok ()) (entries : List ModuleId)
    (entryExportsUsed : Bool) :
    ∃ result, (ofParts nodes edges).liveness entries entryExportsUsed = .ok result ∧
      (ofParts others otherEdges).liveness entries entryExportsUsed = .ok result := by
  rw [validate_eq_ok_iff] at hvalid
  have hsame := sameParts_ofParts hdistinct hnodes hstars hedges
  refine ⟨_, liveness_of_valid hvalid entries entryExportsUsed, ?_⟩
  rw [← hsame.liveness_eq hvalid entries entryExportsUsed]
  exact liveness_of_valid hvalid entries entryExportsUsed

/-- A module with two stars, whose names are imported by two modules. -/
def forkNodes (stars : List ModuleId) : List Node :=
  [{ id := ⟨"/main.js"⟩ },
    { id := ⟨"/fork.js"⟩, stars },
    { id := ⟨"/left.js"⟩
      exports := Table.ofList
        [("x", { owner := ⟨"/left.js"⟩, name := "x" }),
          ("y", { owner := ⟨"/left.js"⟩, name := "y" })] },
    { id := ⟨"/right.js"⟩
      exports := Table.ofList
        [("x", { owner := ⟨"/right.js"⟩, name := "x" }),
          ("z", { owner := ⟨"/right.js"⟩, name := "z", target := some ⟨⟨"/left.js"⟩, "y"⟩ })] }]

def forkEdges : List Edge :=
  [{ source := ⟨"/main.js"⟩, target := ⟨"/fork.js"⟩, name := "x", localName := "x",
      kind := .imports },
    { source := ⟨"/main.js"⟩, target := ⟨"/right.js"⟩, name := "*", localName := "all",
      kind := .imports },
    { source := ⟨"/right.js"⟩, target := ⟨"/fork.js"⟩, name := "y", localName := "y",
      kind := .imports }]

theorem liveness_ofParts_perm_fork :
    ∃ result,
      (ofParts (forkNodes [⟨"/left.js"⟩, ⟨"/right.js"⟩]) forkEdges).liveness [⟨"/main.js"⟩] false =
        .ok result ∧
      (ofParts (forkNodes [⟨"/right.js"⟩, ⟨"/left.js"⟩]).reverse forkEdges.reverse).liveness
        [⟨"/main.js"⟩] false = .ok result := by
  have hdistinct : ((forkNodes [⟨"/left.js"⟩, ⟨"/right.js"⟩]).map Node.id).Nodup := by
    decide
  have hkept : ∀ node : Node, node.SameParts node :=
    fun _ => ⟨rfl, rfl, List.Perm.refl _, rfl⟩
  have hstars : List.Forall₂ Node.SameParts (forkNodes [⟨"/left.js"⟩, ⟨"/right.js"⟩]).reverse
      (forkNodes [⟨"/right.js"⟩, ⟨"/left.js"⟩]).reverse :=
    .cons (hkept _) (.cons (hkept _) (.cons ⟨rfl, rfl, List.Perm.swap _ _ _, rfl⟩
      (.cons (hkept _) .nil)))
  exact liveness_ofParts_perm hdistinct (List.reverse_perm _).symm hstars
    (List.reverse_perm _).symm rfl [⟨"/main.js"⟩] false

end Graph

end LiveExports

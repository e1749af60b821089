import LiveExports.Proofs.Liveness.Comparison
import LiveExports.Proofs.Liveness.Provision

/-!
# Edges that nobody works with

An edge matters to an analysis only while its source is live, and an edge that forwards a name never
does: what is forwarded stands in the exports and stars of the nodes.  All other edges are idle.
They may be added and taken away, and the same modules are live, the same exports are used for the
same reasons, and the same names are reported (`Graph.liveness_withEdges`).  Only the reason why an
export is dead may be another, as it is read off all edges.

## Strategy

Let two graphs have the same nodes, and the same working edges wherever the source is live in the
first.  What is live and demanded in the first graph is then closed under the rules of the second,
so the second has no more live modules.  Therefore the working edges agree wherever the source is
live in the second, and the same argument goes back.
-/

namespace LiveExports

open Relation

/-- The graph with other edges. -/
def Graph.withEdges (graph : Graph) (edges : List Edge) : Graph :=
  { graph with edges }

/-- The live modules have the same imports and runs in two lists of edges. -/
def SameWork (live : ModuleId → Prop) (edges others : List Edge) : Prop :=
  ∀ edge : Edge, edge.kind ≠ .forwards → live edge.source → (edge ∈ edges ↔ edge ∈ others)

namespace SameWork

variable {live : ModuleId → Prop} {edges others : List Edge}

theorem symm (h : SameWork live edges others) : SameWork live others edges :=
  fun edge hkind hlive => (h edge hkind hlive).symm

theorem mono {fewer : ModuleId → Prop} (hfewer : ∀ id, fewer id → live id)
    (h : SameWork live edges others) : SameWork fewer edges others :=
  fun edge hkind hlive => h edge hkind (hfewer _ hlive)

theorem mem_of_imports (h : SameWork live edges others) {edge : Edge} (hedge : edge ∈ edges)
    (hkind : edge.kind = .imports) (hlive : live edge.source) : edge ∈ others := by
  refine (h edge ?_ hlive).mp hedge
  rw [hkind]
  decide

end SameWork

section Rules

variable {graph : Graph} {edges : List Edge} {entries : List ModuleId} {entryExportsUsed : Bool}
  {live : ModuleId → Prop} {demanded : Demand → Prop}

/-! ## The rules with other edges

The lemmas lead from a graph to the graph with other edges.  As the edges may be changed back, they
lead in the other direction as well. -/

theorem Graph.Follows.withEdges {demand other : Demand} (h : graph.Follows demand other) :
    (graph.withEdges edges).Follows demand other := by
  cases h with
  | forward hentry htarget => exact .forward hentry htarget
  | star hstar hundeclared hname => exact .star hstar hundeclared hname
  | member hdeclares => exact .member hdeclares
  | memberStar hstar => exact .memberStar hstar
  | memberButDefault hdeclares hname => exact .memberButDefault hdeclares hname
  | memberButDefaultStar hstar => exact .memberButDefaultStar hstar

variable (hsame : SameWork live graph.edges edges)

include hsame

theorem Origin.withEdges {site : UsageSite} {demand : Demand}
    (h : Origin graph entries entryExportsUsed live site demand) :
    Origin (graph.withEdges edges) entries entryExportsUsed live site demand := by
  cases h with
  | importedName hedge hkind hends hname hlive =>
      exact .importedName (hsame.mem_of_imports hedge hkind hlive) hkind hends hname hlive
  | importedNamespace hedge hkind hends hname hlive =>
      exact .importedNamespace (hsame.mem_of_imports hedge hkind hlive) hkind hends hname hlive
  | entryExport hused hentry hdeclares => exact .entryExport hused hentry hdeclares

theorem Arises.withEdges {site : UsageSite} {demand : Demand}
    (h : Arises graph entries entryExportsUsed live site demand) :
    Arises (graph.withEdges edges) entries entryExportsUsed live site demand := by
  obtain ⟨first, horigin, hchain⟩ := h
  exact ⟨first, horigin.withEdges hsame,
    ReflTransGen.mono (fun _ _ hfollows => hfollows.withEdges) _ _ hchain⟩

theorem Graph.Requests.withEdges {requester : ModuleId} {demand : Demand}
    (h : graph.Requests live demanded requester demand) :
    (graph.withEdges edges).Requests live demanded requester demand := by
  cases h with
  | imported hedge hkind hends hlive =>
      exact .imported (hsame.mem_of_imports hedge hkind hlive) hkind hends hlive
  | forwarded hdemanded hentry htarget => exact .forwarded hdemanded hentry htarget

theorem Closed.withEdges (hclosed : Closed graph entries entryExportsUsed live demanded) :
    Closed (graph.withEdges edges) entries entryExportsUsed live demanded where
  entry := hclosed.entry
  run := by
    intro edge hedge hkind hsource
    have hworks : edge.kind ≠ .forwards := by
      rcases hkind with hkind | hkind
      · rw [hkind]
        decide
      · rw [hkind]
        decide
    exact hclosed.run edge ((hsame edge hworks hsource).mpr hedge) hkind hsource
  origin := fun horigin => hclosed.origin (horigin.withEdges hsame.symm)
  declared := hclosed.declared
  follows := fun hfollows => hclosed.follows hfollows.withEdges

end Rules

namespace Graph

variable {graph : Graph}

theorem Valid.withEdges (hvalid : graph.Valid) {edges : List Edge}
    (hedges : ∀ edge ∈ edges,
      graph.contains edge.source = true ∧ graph.contains edge.target = true) :
    (graph.withEdges edges).Valid where
  owner := hvalid.owner
  target := hvalid.target
  star := hvalid.star
  edgeSource edge hedge := (hedges edge hedge).1
  edgeTarget edge hedge := (hedges edge hedge).2

/-! ## The analysis with other edges -/

section

variable {edges : List Edge} {entries : List ModuleId} {entryExportsUsed : Bool}
  (hvalid : graph.Valid) (hchanged : (graph.withEdges edges).Valid)
  (hsame : SameWork (· ∈ (graph.finalStage entries entryExportsUsed).live) graph.edges edges)

include hvalid hchanged hsame

theorem live_finalStage_withEdges :
    ((graph.withEdges edges).finalStage entries entryExportsUsed).live =
      (graph.finalStage entries entryExportsUsed).live := by
  have hleast := finalStage_leastClosed hvalid entries entryExportsUsed
  have hleast' := finalStage_leastClosed hchanged entries entryExportsUsed
  have hfewer : ∀ id, id ∈ ((graph.withEdges edges).finalStage entries entryExportsUsed).live →
      id ∈ (graph.finalStage entries entryExportsUsed).live :=
    fun _ hid => hleast'.live_least (hleast.toClosed.withEdges hsame) hid
  -- Now the working edges are known to agree for the modules that are live with the other edges.
  have hsame' : SameWork (· ∈ ((graph.withEdges edges).finalStage entries entryExportsUsed).live)
      (graph.withEdges edges).edges graph.edges :=
    (hsame.mono hfewer).symm
  have hback := hleast'.toClosed.withEdges hsame'
  exact SortedSet.ext_mem fun id => ⟨hfewer id, fun hid => hleast.live_least hback hid⟩

theorem arises_withEdges_iff {site : UsageSite} {demand : Demand} :
    Arises (graph.withEdges edges) entries entryExportsUsed
        (· ∈ ((graph.withEdges edges).finalStage entries entryExportsUsed).live) site demand ↔
      Arises graph entries entryExportsUsed
        (· ∈ (graph.finalStage entries entryExportsUsed).live) site demand := by
  rw [live_finalStage_withEdges hvalid hchanged hsame]
  exact ⟨fun h => h.withEdges hsame.symm, fun h => h.withEdges hsame⟩

theorem demands_withEdges_iff {demand : Demand} :
    ((graph.withEdges edges).finalStage entries entryExportsUsed).Demands demand ↔
      (graph.finalStage entries entryExportsUsed).Demands demand := by
  unfold Stage.Demands
  simp only [mem_sites_finalStage_iff hvalid, mem_sites_finalStage_iff hchanged,
    arises_withEdges_iff hvalid hchanged hsame]

theorem verdict_finalStage_withEdges (module : ModuleId) (name : String) :
    ((graph.withEdges edges).finalStage entries entryExportsUsed).verdict module name =
      (graph.finalStage entries entryExportsUsed).verdict module name :=
  verdict_finalStage_eq hchanged hvalid rfl
    fun _ _ => arises_withEdges_iff hvalid hchanged hsame

theorem diagnostics_finalStage_withEdges :
    (((graph.withEdges edges).finalStage entries entryExportsUsed).result
        (graph.withEdges edges)).diagnostics =
      ((graph.finalStage entries entryExportsUsed).result graph).diagnostics := by
  have hdemands : ((graph.withEdges edges).finalStage entries entryExportsUsed).Demands =
      (graph.finalStage entries entryExportsUsed).Demands :=
    funext fun _ => propext (demands_withEdges_iff hvalid hchanged hsame)
  apply SortedSet.eq_of_mem_iff Stage.sorted_diagnostics_result Stage.sorted_diagnostics_result
  intro diagnostic
  rw [mem_diagnostics_finalStage_iff hchanged, mem_diagnostics_finalStage_iff hvalid, hdemands,
    live_finalStage_withEdges hvalid hchanged hsame]
  -- Whether a name is provided does not depend on the edges.
  constructor
  · rintro ⟨requester, module, name, hrequests, hreport⟩
    exact ⟨requester, module, name, hrequests.withEdges hsame.symm, hreport⟩
  · rintro ⟨requester, module, name, hrequests, hreport⟩
    exact ⟨requester, module, name, hrequests.withEdges hsame, hreport⟩

theorem records_finalStage_withEdges :
    (((graph.withEdges edges).finalStage entries entryExportsUsed).result
        (graph.withEdges edges)).records.map ExportRecord.withoutDeadReason =
      ((graph.finalStage entries entryExportsUsed).result graph).records.map
        ExportRecord.withoutDeadReason := by
  simp only [Stage.result, List.map_map]
  apply List.map_congr_left
  rintro ⟨_, _, entry⟩ _
  exact Stage.withoutDeadReason_record_eq
    (verdict_finalStage_withEdges hvalid hchanged hsame entry.owner entry.name)

end

/-- Edges that forward a name, and edges of modules that are not live, may be added to a graph and
taken away, as long as they lead from nodes to nodes.  The analysis succeeds as before, with the
same live modules, verdicts and diagnostics, and with the same records but for the reasons why
exports are dead. -/
theorem liveness_withEdges {graph : Graph} (hvalid : graph.validate = .ok ())
    (entries : List ModuleId) (entryExportsUsed : Bool) :
    ∃ result, graph.liveness entries entryExportsUsed = .ok result ∧
      ∀ edges : List Edge,
        (∀ edge ∈ edges, graph.contains edge.source = true ∧ graph.contains edge.target = true) →
        (∀ edge : Edge, edge.kind ≠ .forwards → edge.source ∈ result.live →
          (edge ∈ graph.edges ↔ edge ∈ edges)) →
        ∃ changed, (graph.withEdges edges).liveness entries entryExportsUsed = .ok changed ∧
          changed.live = result.live ∧ changed.verdicts = result.verdicts ∧
          changed.diagnostics = result.diagnostics ∧
          changed.records.map ExportRecord.withoutDeadReason =
            result.records.map ExportRecord.withoutDeadReason := by
  rw [validate_eq_ok_iff] at hvalid
  refine ⟨_, liveness_of_valid hvalid entries entryExportsUsed, ?_⟩
  intro edges hedges hsame
  have hchanged := hvalid.withEdges hedges
  refine ⟨_, liveness_of_valid hchanged entries entryExportsUsed,
    live_finalStage_withEdges hvalid hchanged hsame, ?_,
    diagnostics_finalStage_withEdges hvalid hchanged hsame,
    records_finalStage_withEdges hvalid hchanged hsame⟩
  exact Stage.verdicts_result_eq (fun _ _ => Iff.rfl)
    (verdict_finalStage_withEdges hvalid hchanged hsame)

/-- One of two imports of a module comes from a module that nobody runs. -/
def strayImport : Graph :=
  ofParts
    [{ id := ⟨"/main.js"⟩ },
      { id := ⟨"/stray.js"⟩ },
      { id := ⟨"/lib.js"⟩
        exports := Table.ofList
          [("x", { owner := ⟨"/lib.js"⟩, name := "x" }),
            ("y", { owner := ⟨"/lib.js"⟩, name := "y" })] }]
    [{ source := ⟨"/main.js"⟩, target := ⟨"/lib.js"⟩, name := "x", localName := "x",
        kind := .imports },
      { source := ⟨"/stray.js"⟩, target := ⟨"/lib.js"⟩, name := "y", localName := "y",
        kind := .imports }]

/-- The same without the stray import, but with a forward and a stray run. -/
def strayRun : List Edge :=
  [{ source := ⟨"/stray.js"⟩, target := ⟨"/main.js"⟩, name := "", localName := "",
      kind := .runs },
    { source := ⟨"/main.js"⟩, target := ⟨"/lib.js"⟩, name := "y", localName := "y",
      kind := .forwards },
    { source := ⟨"/main.js"⟩, target := ⟨"/lib.js"⟩, name := "x", localName := "x",
      kind := .imports }]

theorem liveness_withEdges_strayRun :
    strayImport.validate = .ok () ∧
      ∃ result changed, strayImport.liveness [⟨"/main.js"⟩] true = .ok result ∧
        (strayImport.withEdges strayRun).liveness [⟨"/main.js"⟩] true = .ok changed ∧
        changed.live = result.live ∧ changed.verdicts = result.verdicts ∧
        changed.diagnostics = result.diagnostics ∧
        changed.records.map ExportRecord.withoutDeadReason =
          result.records.map ExportRecord.withoutDeadReason := by
  have hvalid : strayImport.validate = .ok () := rfl
  obtain ⟨result, hresult, hidle⟩ := liveness_withEdges hvalid [⟨"/main.js"⟩] true
  obtain rfl : (strayImport.finalStage [⟨"/main.js"⟩] true).result strayImport = result :=
    Except.ok.inj hresult
  have hends : ∀ edge ∈ strayRun, strayImport.contains edge.source = true ∧
      strayImport.contains edge.target = true := by
    decide +kernel
  have hkept : ∀ edge ∈ strayImport.edges,
      edge.source ∈ (strayImport.finalStage [⟨"/main.js"⟩] true).live → edge ∈ strayRun := by
    decide +kernel
  have hadded : ∀ edge ∈ strayRun, edge.kind ≠ .forwards →
      edge.source ∈ (strayImport.finalStage [⟨"/main.js"⟩] true).live →
      edge ∈ strayImport.edges := by
    decide +kernel
  obtain ⟨changed, hchanged⟩ := hidle strayRun hends fun edge hkind hlive =>
    ⟨fun hedge => hkept edge hedge hlive, fun hedge => hadded edge hedge hkind hlive⟩
  exact ⟨hvalid, _, changed, hresult, hchanged⟩

-- The export that is dead in both graphs is dead for different reasons.
example :
    DeadReason.of strayImport ⟨"/lib.js"⟩ "y" = .importedByUnreachable ∧
      DeadReason.of (strayImport.withEdges strayRun) ⟨"/lib.js"⟩ "y" = .forwardedButUnused := by
  decide +kernel

end Graph

end LiveExports

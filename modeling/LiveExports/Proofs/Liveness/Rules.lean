import Mathlib.Logic.Relation
import LiveExports.Liveness.Demand

/-!
# The rules of liveness

What is live and what is demanded, said without a work list.  There are rules of three kinds:

* a demand begins with an import of a live module, or with an export of an entry module where these
  count as used (`Origin`);
* a demand leads to others, by what the graph declares and forwards (`Graph.Follows`);
* entries are live, what a live module runs is live, and so is a module that declares a name that is
  demanded of it (the remaining fields of `Closed`).

A pair of sets is `Closed` if no rule leads out of it.  The rules for single demands carry the usage
site along, so that a demand is known together with the places it comes from (`Arises`).
-/

namespace LiveExports

open Relation

/-- A module forwards every name of another with a star. -/
def Graph.StarsTo (graph : Graph) (module star : ModuleId) : Prop :=
  ∃ node, graph.node? module = some node ∧ star ∈ node.stars

/-- One demand leads to another. -/
inductive Graph.Follows (graph : Graph) : Demand → Demand → Prop
  /-- A name that is declared and forwarded is demanded of the module it comes from. -/
  | forward {module : ModuleId} {name : String} {entry : Export} {target : Target}
      (hentry : graph.export? module name = some entry) (htarget : entry.target = some target) :
      graph.Follows ⟨module, .named name⟩ ⟨target.module, .named target.name⟩
  /-- A name that is not declared is demanded of every star, unless it is `default`. -/
  | star {module star : ModuleId} {name : String} (hstar : graph.StarsTo module star)
      (hundeclared : graph.declares module name = false) (hname : name ≠ defaultName) :
      graph.Follows ⟨module, .named name⟩ ⟨star, .named name⟩
  | member {module : ModuleId} {name : String} (hdeclares : graph.declares module name = true) :
      graph.Follows ⟨module, .all⟩ ⟨module, .named name⟩
  | memberStar {module star : ModuleId} (hstar : graph.StarsTo module star) :
      graph.Follows ⟨module, .all⟩ ⟨star, .allButDefault⟩
  | memberButDefault {module : ModuleId} {name : String}
      (hdeclares : graph.declares module name = true) (hname : name ≠ defaultName) :
      graph.Follows ⟨module, .allButDefault⟩ ⟨module, .named name⟩
  | memberButDefaultStar {module star : ModuleId} (hstar : graph.StarsTo module star) :
      graph.Follows ⟨module, .allButDefault⟩ ⟨star, .allButDefault⟩

/-- A demand that begins at a usage site, given what is live. -/
inductive Origin (graph : Graph) (entries : List ModuleId) (entryExportsUsed : Bool)
    (live : ModuleId → Prop) : UsageSite → Demand → Prop
  | importedName {edge : Edge} (hedge : edge ∈ graph.edges) (hkind : edge.kind = .imports)
      (hends : edge.source ≠ edge.target) (hname : edge.name ≠ namespaceName)
      (hlive : live edge.source) :
      Origin graph entries entryExportsUsed live ⟨edge.source, edge.name⟩
        ⟨edge.target, .named edge.name⟩
  | importedNamespace {edge : Edge} (hedge : edge ∈ graph.edges) (hkind : edge.kind = .imports)
      (hends : edge.source ≠ edge.target) (hname : edge.name = namespaceName)
      (hlive : live edge.source) :
      Origin graph entries entryExportsUsed live ⟨edge.source, edge.name⟩ ⟨edge.target, .all⟩
  | entryExport {id : ModuleId} {name : String} (hused : entryExportsUsed = true)
      (hentry : id ∈ entries) (hdeclares : graph.declares id name = true) :
      Origin graph entries entryExportsUsed live ⟨id, name⟩ ⟨id, .named name⟩

/-- A demand that comes from a usage site, over any number of steps. -/
def Arises (graph : Graph) (entries : List ModuleId) (entryExportsUsed : Bool)
    (live : ModuleId → Prop) (site : UsageSite) (demand : Demand) : Prop :=
  ∃ first, Origin graph entries entryExportsUsed live site first ∧
    ReflTransGen graph.Follows first demand

/-- No rule leads out of a set of live modules and a set of demands. -/
structure Closed (graph : Graph) (entries : List ModuleId) (entryExportsUsed : Bool)
    (live : ModuleId → Prop) (demanded : Demand → Prop) : Prop where
  entry : ∀ id ∈ entries, graph.contains id = true → live id
  run : ∀ edge ∈ graph.edges, edge.kind = .imports ∨ edge.kind = .runs →
    live edge.source → live edge.target
  origin : ∀ {site demand}, Origin graph entries entryExportsUsed live site demand →
    demanded demand
  declared : ∀ {id name}, demanded ⟨id, .named name⟩ → graph.declares id name = true → live id
  follows : ∀ {demand other}, graph.Follows demand other → demanded demand → demanded other

/-- A module asks for a demand by name: it imports the name, or forwards it under a name that is
demanded of it. -/
inductive Graph.Requests (graph : Graph) (live : ModuleId → Prop) (demanded : Demand → Prop) :
    ModuleId → Demand → Prop
  | imported {edge : Edge} (hedge : edge ∈ graph.edges) (hkind : edge.kind = .imports)
      (hends : edge.source ≠ edge.target) (hlive : live edge.source) :
      graph.Requests live demanded edge.source ⟨edge.target, Wanted.ofImport edge.name⟩
  | forwarded {module : ModuleId} {name : String} {entry : Export} {target : Target}
      (hdemanded : demanded ⟨module, .named name⟩)
      (hentry : graph.export? module name = some entry) (htarget : entry.target = some target) :
      graph.Requests live demanded module ⟨target.module, .named target.name⟩

variable {graph : Graph} {entries : List ModuleId} {entryExportsUsed : Bool}
  {live : ModuleId → Prop} {demanded : Demand → Prop}

theorem Origin.mono {wider : ModuleId → Prop} (hwider : ∀ id, live id → wider id)
    {site : UsageSite} {demand : Demand}
    (h : Origin graph entries entryExportsUsed live site demand) :
    Origin graph entries entryExportsUsed wider site demand := by
  cases h with
  | importedName hedge hkind hends hname hlive =>
      exact .importedName hedge hkind hends hname (hwider _ hlive)
  | importedNamespace hedge hkind hends hname hlive =>
      exact .importedNamespace hedge hkind hends hname (hwider _ hlive)
  | entryExport hused hentry hdeclares => exact .entryExport hused hentry hdeclares

theorem Arises.of_follows {site : UsageSite} {demand other : Demand}
    (h : Arises graph entries entryExportsUsed live site demand)
    (hfollows : graph.Follows demand other) :
    Arises graph entries entryExportsUsed live site other := by
  obtain ⟨first, horigin, hchain⟩ := h
  exact ⟨first, horigin, hchain.tail hfollows⟩

theorem Arises.of_chain {site : UsageSite} {demand other : Demand}
    (h : Arises graph entries entryExportsUsed live site demand)
    (hchain : ReflTransGen graph.Follows demand other) :
    Arises graph entries entryExportsUsed live site other := by
  obtain ⟨first, horigin, hbefore⟩ := h
  exact ⟨first, horigin, hbefore.trans hchain⟩

/-- Whatever arises under a closed set of live modules is demanded. -/
theorem Closed.of_arises (hclosed : Closed graph entries entryExportsUsed live demanded)
    {site : UsageSite} {demand : Demand}
    (h : Arises graph entries entryExportsUsed live site demand) : demanded demand := by
  obtain ⟨first, horigin, hchain⟩ := h
  induction hchain with
  | refl => exact hclosed.origin horigin
  | tail _ hfollows ih => exact hclosed.follows hfollows ih

theorem Origin.arises {site : UsageSite} {demand : Demand}
    (h : Origin graph entries entryExportsUsed live site demand) :
    Arises graph entries entryExportsUsed live site demand :=
  ⟨demand, h, ReflTransGen.refl⟩

/-! ## What the imports of a module ask for -/

theorem Graph.mem_requests_iff {id : ModuleId} {edge : Edge} :
    edge ∈ graph.requests id ↔
      edge ∈ graph.edges ∧ edge.source = id ∧ edge.kind = .imports ∧
        edge.source ≠ edge.target := by
  simp only [requests, edgesFrom, Edge.isLoop, List.mem_filter, Bool.and_eq_true, beq_iff_eq,
    Bool.not_eq_true', beq_eq_false_iff_ne, and_assoc]

theorem origin_of_mem_requests (entries : List ModuleId) (entryExportsUsed : Bool)
    {id : ModuleId} {edge : Edge} (hedge : edge ∈ graph.requests id) (hlive : live id) :
    Origin graph entries entryExportsUsed live ⟨edge.source, edge.name⟩
      ⟨edge.target, Wanted.ofImport edge.name⟩ := by
  obtain ⟨hmem, rfl, hkind, hends⟩ := Graph.mem_requests_iff.mp hedge
  by_cases hname : edge.name = namespaceName
  · rw [Wanted.ofImport, if_pos hname]
    exact .importedNamespace hmem hkind hends hname hlive
  · rw [Wanted.ofImport, if_neg hname]
    exact .importedName hmem hkind hends hname hlive

/-- A demand begins with an import of a live module or with an export of an entry. -/
theorem Origin.cases_requests {site : UsageSite} {demand : Demand}
    (h : Origin graph entries entryExportsUsed live site demand) :
    (∃ edge ∈ graph.requests site.module, live site.module ∧ site = ⟨edge.source, edge.name⟩ ∧
      demand = ⟨edge.target, Wanted.ofImport edge.name⟩) ∨
    (entryExportsUsed = true ∧ site.module ∈ entries ∧
      graph.declares site.module site.name = true ∧
      demand = ⟨site.module, .named site.name⟩) := by
  cases h with
  | @importedName edge hedge hkind hends hname hlive =>
      refine Or.inl ⟨edge, Graph.mem_requests_iff.mpr ⟨hedge, rfl, hkind, hends⟩, hlive, rfl, ?_⟩
      rw [Wanted.ofImport, if_neg hname]
  | @importedNamespace edge hedge hkind hends hname hlive =>
      refine Or.inl ⟨edge, Graph.mem_requests_iff.mpr ⟨hedge, rfl, hkind, hends⟩, hlive, rfl, ?_⟩
      rw [Wanted.ofImport, if_pos hname]
  | entryExport hused hentry hdeclares => exact Or.inr ⟨hused, hentry, hdeclares, rfl⟩

/-! ## What the consequences of a demand are -/

namespace Graph

theorem consequences_of_node {demand : Demand} {node : Node}
    (hnode : graph.node? demand.module = some node) :
    graph.consequences demand = consequencesAt node demand := by
  rw [consequences, hnode]

/-- What is passed on follows from the demand; only a name that is forwarded by name has a
requester, the module that forwards it. -/
theorem follows_of_mem_consequences {demand : Demand} {consequence : Consequence}
    (h : consequence ∈ graph.consequences demand) :
    graph.Follows demand consequence.demand ∧
      ∀ requester, consequence.requester = some requester →
        ∃ name entry target, demand = ⟨requester, .named name⟩ ∧
          graph.export? requester name = some entry ∧ entry.target = some target ∧
          consequence.demand = ⟨target.module, .named target.name⟩ := by
  obtain ⟨module, wanted⟩ := demand
  cases hnode : graph.node? module with
  | none => simp [consequences, hnode] at h
  | some node =>
      rw [consequences_of_node hnode] at h
      cases wanted with
      | named name =>
          -- A declared name never goes to the stars, even if it is not forwarded.
          cases hentry : node.exports.find? name with
          | none =>
              simp only [consequencesAt, hentry] at h
              by_cases hname : name = defaultName
              · simp [hname] at h
              · rw [if_neg hname, List.mem_map] at h
                obtain ⟨star, hstar, rfl⟩ := h
                refine ⟨.star ⟨node, hnode, hstar⟩ ?_ hname, by simp⟩
                rw [declares, export?_of_node hnode, hentry]
                rfl
          | some entry =>
              simp only [consequencesAt, hentry] at h
              have hexport : graph.export? module name = some entry :=
                export?_eq_some_iff.mpr ⟨node, hnode, hentry⟩
              cases htarget : entry.target with
              | none => simp [htarget] at h
              | some target =>
                  simp only [htarget, List.mem_singleton] at h
                  subst h
                  refine ⟨.forward hexport htarget, ?_⟩
                  rintro _ ⟨rfl⟩
                  exact ⟨name, entry, target, rfl, hexport, htarget, rfl⟩
      | all =>
          simp only [consequencesAt, List.mem_append, List.mem_map, List.mem_filter] at h
          rcases h with ⟨name, ⟨hname, _⟩, rfl⟩ | ⟨star, hstar, rfl⟩
          · exact ⟨.member ((declares_iff_mem_keys hnode).mpr hname), by simp⟩
          · exact ⟨.memberStar ⟨node, hnode, hstar⟩, by simp⟩
      | allButDefault =>
          simp only [consequencesAt, List.mem_append, List.mem_map, List.mem_filter,
            Wanted.includes, bne_iff_ne] at h
          rcases h with ⟨name, ⟨hname, hdefault⟩, rfl⟩ | ⟨star, hstar, rfl⟩
          · exact ⟨.memberButDefault ((declares_iff_mem_keys hnode).mpr hname) hdefault, by simp⟩
          · exact ⟨.memberButDefaultStar ⟨node, hnode, hstar⟩, by simp⟩

/-- The one consequence of a demand for a name that is forwarded by name. -/
theorem consequences_of_forward {module : ModuleId} {name : String} {entry : Export}
    {target : Target} (hentry : graph.export? module name = some entry)
    (htarget : entry.target = some target) :
    graph.consequences ⟨module, .named name⟩ =
      [⟨⟨target.module, .named target.name⟩, some module⟩] := by
  obtain ⟨node, hnode, hentry⟩ := export?_eq_some_iff.mp hentry
  rw [consequences_of_node hnode]
  simp [consequencesAt, hentry, htarget]

theorem exists_consequence_of_follows {demand other : Demand} (h : graph.Follows demand other) :
    ∃ consequence ∈ graph.consequences demand, consequence.demand = other := by
  cases h with
  | forward hentry htarget =>
      rw [consequences_of_forward hentry htarget]
      exact ⟨_, List.mem_singleton_self _, rfl⟩
  | @star module star name hstar hundeclared hname =>
      obtain ⟨node, hnode, hstar⟩ := hstar
      have hentry : node.exports.find? name = none := by
        rw [declares, export?_of_node hnode] at hundeclared
        exact Option.isNone_iff_eq_none.mp (by simpa using hundeclared)
      rw [consequences_of_node hnode]
      refine ⟨{ demand := ⟨star, .named name⟩ }, ?_, rfl⟩
      simp only [consequencesAt, hentry, hname, if_false, List.mem_map]
      exact ⟨star, hstar, rfl⟩
  | @member module name hdeclares =>
      obtain ⟨node, hnode⟩ := contains_iff.mp (contains_of_declares hdeclares)
      rw [consequences_of_node hnode]
      refine ⟨{ demand := ⟨module, .named name⟩ }, List.mem_append_left _ ?_, rfl⟩
      refine List.mem_map.mpr ⟨name, List.mem_filter.mpr ⟨?_, rfl⟩, rfl⟩
      exact (declares_iff_mem_keys hnode).mp hdeclares
  | @memberStar module star hstar =>
      obtain ⟨node, hnode, hstar⟩ := hstar
      rw [consequences_of_node hnode]
      refine ⟨{ demand := ⟨star, .allButDefault⟩ }, List.mem_append_right _ ?_, rfl⟩
      exact List.mem_map.mpr ⟨star, hstar, rfl⟩
  | @memberButDefault module name hdeclares hname =>
      obtain ⟨node, hnode⟩ := contains_iff.mp (contains_of_declares hdeclares)
      rw [consequences_of_node hnode]
      refine ⟨{ demand := ⟨module, .named name⟩ }, List.mem_append_left _ ?_, rfl⟩
      refine List.mem_map.mpr ⟨name, List.mem_filter.mpr ⟨?_, bne_iff_ne.mpr hname⟩, rfl⟩
      exact (declares_iff_mem_keys hnode).mp hdeclares
  | @memberButDefaultStar module star hstar =>
      obtain ⟨node, hnode, hstar⟩ := hstar
      rw [consequences_of_node hnode]
      refine ⟨{ demand := ⟨star, .allButDefault⟩ }, List.mem_append_right _ ?_, rfl⟩
      exact List.mem_map.mpr ⟨star, hstar, rfl⟩

theorem requests_of_requester {demand : Demand} {consequence : Consequence} {requester : ModuleId}
    (h : consequence ∈ graph.consequences demand)
    (hrequester : consequence.requester = some requester) (hdemanded : demanded demand) :
    graph.Requests live demanded requester consequence.demand := by
  obtain ⟨name, entry, target, rfl, hentry, htarget, hdemand⟩ :=
    (follows_of_mem_consequences h).2 requester hrequester
  rw [hdemand]
  exact .forwarded hdemanded hentry htarget

end Graph

end LiveExports

import LiveExports.Proofs.Liveness.Provision

/-!
# Names that nobody provides

An analysis reports every name that a module asks for in vain.  To ask for a name is to import it
while alive, or to forward it under a name that is used (`Liveness.AsksFor`); it is asked for in
vain if neither the module that is asked nor, unless the name is `default`, any module that it
reaches over stars declares it (`Graph.Missing`).

The reports come from a search over stars that is made when all turns are taken, and the uses come
from the turns.  The two agree where exports are keyed by name: an import is reported, or else its
site is a trigger of the name in some module that provides it (`Graph.diagnostics_exact`).  An
export that stands under another name is found by the search, but has no triggers under that name
(`Graph.unreported_misfiled`).
-/

namespace LiveExports

open Relation

/-! ## Asking by name -/

/-- A module asks another for a name: it is live and imports the name, or it forwards the name under
a name that is used. -/
inductive Liveness.AsksFor (liveness : Liveness) (graph : Graph) :
    ModuleId → ModuleId → String → Prop
  | imported {edge : Edge} (hedge : edge ∈ graph.edges) (hkind : edge.kind = .imports)
      (hends : edge.source ≠ edge.target) (hname : edge.name ≠ namespaceName)
      (hlive : edge.source ∈ liveness.live) :
      liveness.AsksFor graph edge.source edge.target edge.name
  | forwarded {module : ModuleId} {own : String} {entry : Export} {target : Target}
      (hused : liveness.Uses module own) (hentry : graph.export? module own = some entry)
      (htarget : entry.target = some target) :
      liveness.AsksFor graph module target.module target.name

theorem Wanted.ofImport_eq_named_iff {imported name : String} :
    Wanted.ofImport imported = .named name ↔ imported = name ∧ imported ≠ namespaceName := by
  unfold ofImport
  split
  · simp_all
  · simp_all

namespace Graph

variable {graph : Graph}

/-- No module that the name could come from declares it. -/
def Missing (graph : Graph) (module : ModuleId) (name : String) : Prop :=
  graph.declares module name = false ∧
    (name ≠ defaultName →
      ∀ star, ReflTransGen graph.StarsTo module star → graph.declares star name = false)

theorem missing_iff {module : ModuleId} {name : String} :
    graph.Missing module name ↔ graph.provides module name = false := by
  rw [← Bool.not_eq_true, provides_iff]
  constructor
  · rintro ⟨hown, hstars⟩ ⟨provider, hdeclares, rfl | ⟨hname, hpath⟩⟩
    · rw [hown] at hdeclares
      contradiction
    · rw [hstars hname provider hpath] at hdeclares
      contradiction
  · intro hnone
    refine ⟨?_, fun hname star hpath => ?_⟩
    · rw [← Bool.not_eq_true]
      exact fun hdeclares => hnone ⟨module, Offers.self hdeclares⟩
    · rw [← Bool.not_eq_true]
      exact fun hdeclares => hnone ⟨star, hdeclares, Or.inr ⟨hname, hpath⟩⟩

variable (hvalid : graph.Valid) (hkeyed : graph.KeyedByName) (entries : List ModuleId)
  (entryExportsUsed : Bool)

include hvalid hkeyed

/-- The requests noted in the final stage are the ones that its result tells of. -/
theorem requests_named_iff_asksFor {requester module : ModuleId} {name : String} :
    graph.Requests (· ∈ (graph.finalStage entries entryExportsUsed).live)
        (graph.finalStage entries entryExportsUsed).Demands requester ⟨module, .named name⟩ ↔
      ((graph.finalStage entries entryExportsUsed).result graph).AsksFor graph requester module
        name := by
  constructor
  · intro h
    generalize hdemand : (⟨module, .named name⟩ : Demand) = demand at h
    cases h with
    | @imported edge hedge hkind hends hlive =>
        obtain ⟨rfl, hwanted⟩ := Demand.mk.inj hdemand
        obtain ⟨rfl, hname⟩ := Wanted.ofImport_eq_named_iff.mp hwanted.symm
        exact .imported hedge hkind hends hname hlive
    | @forwarded _ own entry target hdemanded hentry htarget =>
        obtain ⟨rfl, hwanted⟩ := Demand.mk.inj hdemand
        obtain rfl := Wanted.named.inj hwanted
        have hused := (uses_keyed_iff hvalid entries entryExportsUsed hkeyed).mpr
          ⟨declares_iff.mpr ⟨entry, hentry⟩, hdemanded⟩
        exact .forwarded hused hentry htarget
  · intro h
    cases h with
    | @imported edge hedge hkind hends hname hlive =>
        rw [← Wanted.ofImport_eq_named_iff.mpr ⟨rfl, hname⟩]
        exact .imported hedge hkind hends hlive
    | forwarded hused hentry htarget =>
        obtain ⟨_, hdemanded⟩ := (uses_keyed_iff hvalid entries entryExportsUsed hkeyed).mp hused
        exact .forwarded hdemanded hentry htarget

/-- The site of a live import is a trigger of the name in some module that provides it. -/
theorem exists_trigger_of_import {edge : Edge} (hedge : edge ∈ graph.edges)
    (hkind : edge.kind = .imports) (hends : edge.source ≠ edge.target)
    (hname : edge.name ≠ namespaceName)
    (hlive : edge.source ∈ (graph.finalStage entries entryExportsUsed).live)
    (hprovides : graph.provides edge.target edge.name = true) :
    ∃ provider, graph.Offers edge.target edge.name provider ∧
      ⟨edge.source, edge.name⟩ ∈
        ((graph.finalStage entries entryExportsUsed).result graph).triggers provider edge.name := by
  obtain ⟨provider, hoffers, hchain⟩ := exists_offers_follows hprovides
  refine ⟨provider, hoffers, ?_⟩
  rw [mem_triggers_keyed_iff hvalid entries entryExportsUsed hkeyed]
  exact ⟨hoffers.1, _, .importedName hedge hkind hends hname hlive, hchain⟩

omit hvalid hkeyed

/-- The diagnostics of an analysis are, in strictly ascending order, the reports on the names that
are asked for in vain.  A name that a live module imports and does not ask for in vain is used, on
behalf of this import, in some module that provides it. -/
theorem diagnostics_exact {graph : Graph} (hvalid : graph.validate = .ok ())
    (hkeyed : graph.KeyedByName) (entries : List ModuleId) (entryExportsUsed : Bool) :
    ∃ result, graph.liveness entries entryExportsUsed = .ok result ∧
      result.diagnostics.Pairwise
        (fun diagnostic other => StrictOrder.less diagnostic other = true) ∧
      (∀ diagnostic, diagnostic ∈ result.diagnostics ↔
        ∃ requester module name, result.AsksFor graph requester module name ∧
          graph.Missing module name ∧
          diagnostic =
            { module := requester
              kind := .missingExport
              message := s!"'{name}' is not exported by {module}"
              line := none }) ∧
      ∀ edge ∈ graph.edges, edge.kind = .imports → edge.source ≠ edge.target →
        edge.name ≠ namespaceName → edge.source ∈ result.live →
        ¬graph.Missing edge.target edge.name →
        ∃ provider, graph.Offers edge.target edge.name provider ∧
          result.Uses provider edge.name ∧
          ⟨edge.source, edge.name⟩ ∈ result.triggers provider edge.name := by
  rw [validate_eq_ok_iff] at hvalid
  refine ⟨_, liveness_of_valid hvalid entries entryExportsUsed, Stage.sorted_diagnostics_result,
    ?_, ?_⟩
  · intro diagnostic
    rw [mem_diagnostics_finalStage_iff hvalid entries entryExportsUsed]
    simp only [requests_named_iff_asksFor hvalid hkeyed entries entryExportsUsed, missing_iff]
    rfl
  · intro edge hedge hkind hends hname hlive hfound
    rw [missing_iff, Bool.not_eq_false] at hfound
    obtain ⟨provider, hoffers, htrigger⟩ :=
      exists_trigger_of_import hvalid hkeyed entries entryExportsUsed hedge hkind hends hname hlive
        hfound
    refine ⟨provider, hoffers, ?_, htrigger⟩
    exact (uses_iff_exists_trigger hvalid entries entryExportsUsed).mpr ⟨_, htrigger⟩

/-- Three names are imported of a module that has only stars, on a ring of stars: one that is found
on the ring, one that is nowhere, and `default`, which does not pass over stars. -/
def looseEnds : Graph :=
  ofParts
    [{ id := ⟨"/main.js"⟩ },
      { id := ⟨"/left.js"⟩, stars := [⟨"/right.js"⟩] },
      { id := ⟨"/right.js"⟩
        exports := Table.ofList [("x", { owner := ⟨"/right.js"⟩, name := "x" }),
          ("default", { owner := ⟨"/right.js"⟩, name := "default" })]
        stars := [⟨"/left.js"⟩] }]
    (["x", "ghost", "default"].map fun name =>
      { source := ⟨"/main.js"⟩, target := ⟨"/left.js"⟩, name, localName := name, kind := .imports })

theorem diagnostics_exact_looseEnds :
    looseEnds.validate = .ok () ∧ looseEnds.KeyedByName ∧ ¬looseEnds.Missing ⟨"/left.js"⟩ "x" ∧
      looseEnds.Missing ⟨"/left.js"⟩ "default" ∧
      ∃ result, looseEnds.liveness [⟨"/main.js"⟩] false = .ok result ∧
        { module := ⟨"/main.js"⟩
          kind := .missingExport
          message := "'default' is not exported by /left.js"
          line := none } ∈ result.diagnostics ∧
        ∃ provider, looseEnds.Offers ⟨"/left.js"⟩ "x" provider ∧ result.Uses provider "x" ∧
          ⟨⟨"/main.js"⟩, "x"⟩ ∈ result.triggers provider "x" := by
  have hvalid : looseEnds.validate = .ok () := rfl
  have hkeyed : looseEnds.KeyedByName := by decide
  have hfound : ¬looseEnds.Missing ⟨"/left.js"⟩ "x" := by
    rw [missing_iff]
    decide +kernel
  have hmissing : looseEnds.Missing ⟨"/left.js"⟩ "default" := by
    rw [missing_iff]
    decide +kernel
  obtain ⟨result, hresult, _, hreports, himports⟩ :=
    diagnostics_exact hvalid hkeyed [⟨"/main.js"⟩] false
  obtain rfl : (looseEnds.finalStage [⟨"/main.js"⟩] false).result looseEnds = result :=
    Except.ok.inj hresult
  have hlive : (⟨"/main.js"⟩ : ModuleId) ∈
      ((looseEnds.finalStage [⟨"/main.js"⟩] false).result looseEnds).live := by
    decide +kernel
  have hedge : ∀ name ∈ ["x", "ghost", "default"],
      ({ source := ⟨"/main.js"⟩, target := ⟨"/left.js"⟩, name, localName := name
         kind := .imports } : Edge) ∈ looseEnds.edges :=
    fun _ hname => List.mem_map_of_mem hname
  refine ⟨hvalid, hkeyed, hfound, hmissing, _, hresult, ?_, ?_⟩
  · rw [hreports]
    exact ⟨_, _, _,
      .imported (hedge "default" (by decide)) rfl (by decide) (by decide) hlive, hmissing, rfl⟩
  · exact himports _ (hedge "x" (by decide)) rfl (by decide) (by decide) hlive hfound

/-- A live module imports the name `x` of the library, which is provided, so that nothing is
reported.  But the export that stands there is called `w`, and no use of the name `x` is told. -/
theorem unreported_misfiled :
    (misfiled "x").validate = .ok () ∧ ¬(misfiled "x").Missing ⟨"/lib.js"⟩ "x" ∧
      ∃ result, (misfiled "x").liveness [⟨"/main.js"⟩] false = .ok result ∧
        (∃ edge ∈ (misfiled "x").edges, edge.kind = .imports ∧ edge.source ≠ edge.target ∧
          edge.source ∈ result.live ∧ edge.target = ⟨"/lib.js"⟩ ∧ edge.name = "x") ∧
        result.diagnostics = [] ∧ ∀ provider, ¬result.Uses provider "x" := by
  have hvalid : (misfiled "x").Valid := validate_eq_ok_iff.mp rfl
  refine ⟨rfl, ?_, _, liveness_of_valid hvalid _ _, ?_, ?_, ?_⟩
  · rw [missing_iff]
    decide +kernel
  · decide +kernel
  · decide +kernel
  · intro provider huses
    obtain ⟨⟨id, key, entry, hentry, -, hname⟩, -⟩ := (uses_finalStage_iff hvalid _ _).mp huses
    have hnames : ∀ item ∈ (misfiled "x").exports, item.2.2.name ≠ "x" := by decide
    exact hnames _ (mem_exports_iff.mpr hentry) hname

end Graph

end LiveExports

import LiveExports.Liveness.Result
import LiveExports.Proofs.Liveness.Saturation
import LiveExports.Proofs.Liveness.Termination

/-!
# The final stage

In a valid graph the final stage knows exactly what the rules give: its live modules and demands are
the least sets closed under the rules (`Graph.finalStage_leastClosed`), and each demand has just the
sites from which it arises, and just the requesters that ask for it.  The uses noted for an export
are the sites of the demand for it.

The second part reads the result off the final stage.
-/

namespace LiveExports

open Relation

/-- The least sets of live modules and demands that no rule leads out of. -/
structure LeastClosed (graph : Graph) (entries : List ModuleId) (entryExportsUsed : Bool)
    (live : ModuleId → Prop) (demanded : Demand → Prop) : Prop
    extends Closed graph entries entryExportsUsed live demanded where
  live_least : ∀ {wider widerDemanded}, Closed graph entries entryExportsUsed wider widerDemanded →
    ∀ {id}, live id → wider id
  demanded_least : ∀ {wider widerDemanded},
    Closed graph entries entryExportsUsed wider widerDemanded →
    ∀ {demand}, demanded demand → widerDemanded demand

namespace Graph

variable {graph : Graph} (hvalid : graph.Valid) (entries : List ModuleId) (entryExportsUsed : Bool)

include hvalid

theorem finalStage_saturated :
    Stage.Saturated graph entries entryExportsUsed (graph.finalStage entries entryExportsUsed) :=
  (Stage.Saturated.initial hvalid entries entryExportsUsed).takeTurns hvalid graph.turnBound

theorem finalStage_closed :
    Closed graph entries entryExportsUsed (· ∈ (graph.finalStage entries entryExportsUsed).live)
      (graph.finalStage entries entryExportsUsed).Demands :=
  (finalStage_saturated hvalid entries entryExportsUsed).closed
    (queue_finalStage hvalid entries entryExportsUsed)

theorem finalStage_leastClosed :
    LeastClosed graph entries entryExportsUsed
      (· ∈ (graph.finalStage entries entryExportsUsed).live)
      (graph.finalStage entries entryExportsUsed).Demands where
  toClosed := finalStage_closed hvalid entries entryExportsUsed
  live_least hclosed _ hlive := (finalStage_sound hclosed).alive _ hlive
  demanded_least hclosed demand := by
    rintro ⟨site, hsite⟩
    exact hclosed.of_arises ((finalStage_sound hclosed).sites demand site hsite)

/-- A demand has just the sites from which it arises. -/
theorem mem_sites_finalStage_iff {site : UsageSite} {demand : Demand} :
    site ∈ (graph.finalStage entries entryExportsUsed).sites demand ↔
      Arises graph entries entryExportsUsed
        (· ∈ (graph.finalStage entries entryExportsUsed).live) site demand := by
  constructor
  · exact (finalStage_sound (finalStage_closed hvalid entries entryExportsUsed)).sites demand site
  · exact (finalStage_saturated hvalid entries entryExportsUsed).mem_sites_of_arises
      (queue_finalStage hvalid entries entryExportsUsed)

/-- A demand has just the requesters that ask for it by name. -/
theorem mem_requesters_finalStage_iff {id : ModuleId} {demand : Demand} :
    id ∈ (graph.finalStage entries entryExportsUsed).requesters demand ↔
      graph.Requests (· ∈ (graph.finalStage entries entryExportsUsed).live)
        (graph.finalStage entries entryExportsUsed).Demands id demand := by
  have hsaturated := finalStage_saturated hvalid entries entryExportsUsed
  have hqueue := queue_finalStage hvalid entries entryExportsUsed
  constructor
  · exact (finalStage_sound (finalStage_closed hvalid entries entryExportsUsed)).requesters
      demand id
  · intro h
    cases h with
    | @imported edge hedge hkind hends hlive =>
        exact (hsaturated.heeded edge.source hlive edge
          (mem_requests_iff.mpr ⟨hedge, rfl, hkind, hends⟩)).2
    | @forwarded _ name entry target hdemanded hentry htarget =>
        obtain ⟨site, hsite⟩ := hdemanded
        have hserves := hsaturated.serves hqueue hsite
        refine hserves.requested ⟨⟨target.module, .named target.name⟩, some id⟩ ?_ id rfl
        rw [consequences_of_forward hentry htarget]
        exact List.mem_singleton_self _

/-- The uses of a name that a module declares are the sites of the demand for it, and other names
have none. -/
theorem mem_uses_finalStage_iff {module : ModuleId} {name : String} {site : UsageSite} :
    site ∈ (graph.finalStage entries entryExportsUsed).uses module name ↔
      graph.declares module name = true ∧
        site ∈ (graph.finalStage entries entryExportsUsed).sites ⟨module, .named name⟩ := by
  constructor
  · exact (finalStage_sound (finalStage_closed hvalid entries entryExportsUsed)).of_mem_uses
  · rintro ⟨hdeclares, hsite⟩
    exact ((finalStage_saturated hvalid entries entryExportsUsed).serves
      (queue_finalStage hvalid entries entryExportsUsed) hsite).credited rfl hdeclares

/-- An export is noted as used just if a use of it is noted. -/
theorem contains_used_finalStage_iff {module : ModuleId} {name : String} :
    (graph.finalStage entries entryExportsUsed).used.contains (module, name) = true ↔
      ∃ site, site ∈ (graph.finalStage entries entryExportsUsed).uses module name := by
  have hsound := finalStage_sound (finalStage_closed hvalid entries entryExportsUsed)
  unfold Table.contains Stage.uses
  cases hset : (graph.finalStage entries entryExportsUsed).used.find? (module, name) with
  | none =>
      refine ⟨fun h => absurd h Bool.false_ne_true, ?_⟩
      rintro ⟨site, hsite⟩
      exact absurd hsite (SortedSet.not_mem_empty site)
  | some set => exact ⟨fun _ => (hsound.used hset).2.1, fun _ => rfl⟩

end Graph

/-! ## The result -/

/-- The export of a module under a name is found used. -/
def Liveness.Uses (liveness : Liveness) (module : ModuleId) (name : String) : Prop :=
  ∃ verdict, liveness.verdicts.find? (module, name) = some verdict ∧ verdict.used = true

/-- The triggers listed for the export of a module under a name, if there is such an export. -/
def Liveness.triggers (liveness : Liveness) (module : ModuleId) (name : String) :
    List UsageSite :=
  ((liveness.verdicts.find? (module, name)).map Verdict.triggers).getD []

namespace Graph

variable {graph : Graph}

theorem liveness_of_valid (hvalid : graph.Valid) (entries : List ModuleId)
    (entryExportsUsed : Bool) :
    graph.liveness entries entryExportsUsed =
      .ok ((graph.finalStage entries entryExportsUsed).result graph) := by
  rw [liveness, validate_eq_ok_iff.mpr hvalid]
  rfl

end Graph

namespace Stage

variable {graph : Graph} {stage : Stage}

/-- There is a verdict on the own name of each export, and on nothing else. -/
theorem find?_verdicts_result_eq_some_iff {module : ModuleId} {name : String} {verdict : Verdict} :
    (stage.result graph).verdicts.find? (module, name) = some verdict ↔
      graph.Lists module name ∧ verdict = stage.verdict module name := by
  have hverdicts : (stage.result graph).verdicts =
      Table.ofList ((graph.exports.map fun item => (item.2.2.owner, item.2.2.name)).map
        fun key => (key, stage.verdict key.1 key.2)) := by
    rw [List.map_map]
    rfl
  have hkeys : (module, name) ∈ (graph.exports.map fun item => (item.2.2.owner, item.2.2.name)) ↔
      graph.Lists module name := by
    simp only [Graph.Lists, List.mem_map, Prod.exists, Graph.mem_exports_iff, Prod.mk.injEq]
  rw [hverdicts, Table.find?_ofList_map, Option.ite_none_right_eq_some, hkeys, Option.some.injEq,
    eq_comm (a := verdict)]

theorem mem_triggers_result {module : ModuleId} {name : String} {site : UsageSite} :
    site ∈ (stage.result graph).triggers module name ↔
      graph.Lists module name ∧ site ∈ (stage.verdict module name).triggers := by
  unfold Liveness.triggers
  cases hfind : (stage.result graph).verdicts.find? (module, name) with
  | none =>
      have hunlisted : ¬graph.Lists module name := by
        intro hlists
        rw [find?_verdicts_result_eq_some_iff.mpr ⟨hlists, rfl⟩] at hfind
        contradiction
      simp [hunlisted]
  | some verdict =>
      obtain ⟨hlists, rfl⟩ := find?_verdicts_result_eq_some_iff.mp hfind
      simp [hlists]

theorem sorted_triggers_result (module : ModuleId) (name : String) :
    ((stage.result graph).triggers module name).Pairwise
      fun site other => StrictOrder.less site other = true := by
  unfold Liveness.triggers
  cases hfind : (stage.result graph).verdicts.find? (module, name) with
  | none => exact List.Pairwise.nil
  | some verdict =>
      obtain ⟨_, rfl⟩ := find?_verdicts_result_eq_some_iff.mp hfind
      exact SortedSet.sorted _

theorem sorted_diagnostics_result :
    (stage.result graph).diagnostics.Pairwise
      fun diagnostic other => StrictOrder.less diagnostic other = true :=
  Diagnostic.sorted_listing _

/-- There is a record of each export, and of nothing else. -/
theorem mem_records_result_iff {record : ExportRecord} :
    record ∈ (stage.result graph).records ↔
      ∃ id key entry, graph.export? id key = some entry ∧ record = stage.record graph entry := by
  simp only [result, List.mem_map, Prod.exists, Graph.mem_exports_iff, eq_comm]

theorem lists_iff_exists_record (stage : Stage) {module : ModuleId} {name : String} :
    graph.Lists module name ↔
      ∃ record ∈ (stage.result graph).records, record.module = module ∧ record.name = name := by
  constructor
  · rintro ⟨id, key, entry, hentry, howner, hname⟩
    exact ⟨_, mem_records_result_iff.mpr ⟨id, key, entry, hentry, rfl⟩, howner, hname⟩
  · rintro ⟨record, hrecord, hmodule, hname⟩
    obtain ⟨id, key, entry, hentry, rfl⟩ := mem_records_result_iff.mp hrecord
    exact ⟨id, key, entry, hentry, hmodule, hname⟩

/-- The record of an export of a graph that is keyed by name tells where the export stands. -/
theorem exists_export_of_mem_records (hvalid : graph.Valid) (hkeyed : graph.KeyedByName)
    {record : ExportRecord} (hrecord : record ∈ (stage.result graph).records) :
    ∃ entry, graph.export? entry.owner entry.name = some entry ∧
      record = stage.record graph entry := by
  obtain ⟨id, key, entry, hentry, rfl⟩ := mem_records_result_iff.mp hrecord
  exact ⟨entry, hvalid.export?_self hkeyed hentry, rfl⟩

end Stage

/-! ## Verdicts in the final stage -/

namespace Graph

variable {graph : Graph} (hvalid : graph.Valid) (entries : List ModuleId) (entryExportsUsed : Bool)
  {module : ModuleId} {name : String}

include hvalid

theorem mem_triggers_finalStage_iff {site : UsageSite} :
    site ∈ ((graph.finalStage entries entryExportsUsed).verdict module name).triggers ↔
      graph.declares module name = true ∧
        Arises graph entries entryExportsUsed
          (· ∈ (graph.finalStage entries entryExportsUsed).live) site ⟨module, .named name⟩ := by
  rw [← mem_sites_finalStage_iff hvalid entries entryExportsUsed]
  exact mem_uses_finalStage_iff hvalid entries entryExportsUsed

theorem used_verdict_finalStage_iff_triggers :
    ((graph.finalStage entries entryExportsUsed).verdict module name).used = true ↔
      ((graph.finalStage entries entryExportsUsed).verdict module name).triggers ≠ [] := by
  refine (contains_used_finalStage_iff hvalid entries entryExportsUsed).trans ⟨?_, ?_⟩
  · rintro ⟨site, hsite⟩
    exact List.ne_nil_of_mem hsite
  · exact List.exists_mem_of_ne_nil _

/-- A name is found used if it is declared and demanded. -/
theorem used_verdict_finalStage_iff :
    ((graph.finalStage entries entryExportsUsed).verdict module name).used = true ↔
      graph.declares module name = true ∧
        (graph.finalStage entries entryExportsUsed).Demands ⟨module, .named name⟩ := by
  refine (contains_used_finalStage_iff hvalid entries entryExportsUsed).trans ?_
  simp only [mem_uses_finalStage_iff hvalid entries entryExportsUsed, exists_and_left]
  rfl

theorem uses_finalStage_iff :
    ((graph.finalStage entries entryExportsUsed).result graph).Uses module name ↔
      graph.Lists module name ∧ graph.declares module name = true ∧
        (graph.finalStage entries entryExportsUsed).Demands ⟨module, .named name⟩ := by
  rw [← used_verdict_finalStage_iff hvalid entries entryExportsUsed]
  unfold Liveness.Uses
  simp only [Stage.find?_verdicts_result_eq_some_iff, and_assoc, exists_and_left, exists_eq_left]

theorem mem_triggers_result_iff {site : UsageSite} :
    site ∈ ((graph.finalStage entries entryExportsUsed).result graph).triggers module name ↔
      graph.Lists module name ∧ graph.declares module name = true ∧
        Arises graph entries entryExportsUsed
          (· ∈ (graph.finalStage entries entryExportsUsed).live) site ⟨module, .named name⟩ := by
  rw [Stage.mem_triggers_result, mem_triggers_finalStage_iff hvalid entries entryExportsUsed]

theorem uses_iff_exists_trigger :
    ((graph.finalStage entries entryExportsUsed).result graph).Uses module name ↔
      ∃ site, site ∈
        ((graph.finalStage entries entryExportsUsed).result graph).triggers module name := by
  rw [uses_finalStage_iff hvalid entries entryExportsUsed]
  simp only [mem_triggers_result_iff hvalid entries entryExportsUsed, exists_and_left,
    ← mem_sites_finalStage_iff hvalid entries entryExportsUsed]
  rfl

/-! ### Graphs that are keyed by name -/

variable (hkeyed : graph.KeyedByName)

include hkeyed

/-- What is used is declared and demanded. -/
theorem uses_keyed_iff :
    ((graph.finalStage entries entryExportsUsed).result graph).Uses module name ↔
      graph.declares module name = true ∧
        (graph.finalStage entries entryExportsUsed).Demands ⟨module, .named name⟩ := by
  rw [uses_finalStage_iff hvalid entries entryExportsUsed, hvalid.lists_iff hkeyed,
    and_self_left]

/-- The triggers of an export are the sites from which the demand for it arises. -/
theorem mem_triggers_keyed_iff {site : UsageSite} :
    site ∈ ((graph.finalStage entries entryExportsUsed).result graph).triggers module name ↔
      graph.declares module name = true ∧
        Arises graph entries entryExportsUsed
          (· ∈ (graph.finalStage entries entryExportsUsed).live) site ⟨module, .named name⟩ := by
  rw [mem_triggers_result_iff hvalid entries entryExportsUsed, hvalid.lists_iff hkeyed,
    and_self_left]

end Graph

end LiveExports

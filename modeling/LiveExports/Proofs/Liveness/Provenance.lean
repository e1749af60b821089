import LiveExports.Proofs.Liveness.FinalStage

/-!
# What is live, what is used, and by what

The two main statements about a liveness analysis of a valid graph that is keyed by name.  It finds
the least sets of live modules and used exports that the rules allow (`Graph.liveness_leastClosed`),
and it lists for every export exactly the places that its use comes from (`Graph.triggers_exact`).
Where an export stands under another name, the places are noted under that name, and are not found
under its own (`Graph.triggers_lost_misfiled`).
-/

namespace LiveExports

open Relation

namespace Graph

/-- The analysis of a valid graph that is keyed by name succeeds, and what it finds live and used
are the least sets closed under the rules. -/
theorem liveness_leastClosed {graph : Graph} (hvalid : graph.validate = .ok ())
    (hkeyed : graph.KeyedByName) (entries : List ModuleId) (entryExportsUsed : Bool) :
    ∃ result demanded, graph.liveness entries entryExportsUsed = .ok result ∧
      LeastClosed graph entries entryExportsUsed (· ∈ result.live) demanded ∧
      (∀ module name, result.Uses module name ↔
        graph.declares module name = true ∧ demanded ⟨module, .named name⟩) ∧
      ∀ record ∈ result.records,
        record.used = true ↔ demanded ⟨record.module, .named record.name⟩ := by
  rw [validate_eq_ok_iff] at hvalid
  refine ⟨_, _, liveness_of_valid hvalid entries entryExportsUsed,
    finalStage_leastClosed hvalid entries entryExportsUsed, ?_, ?_⟩
  · intro module name
    exact uses_keyed_iff hvalid entries entryExportsUsed hkeyed
  · intro record hrecord
    obtain ⟨entry, hentry, rfl⟩ := Stage.exists_export_of_mem_records hvalid hkeyed hrecord
    refine (used_verdict_finalStage_iff hvalid entries entryExportsUsed).trans ?_
    exact and_iff_right (declares_iff.mpr ⟨entry, hentry⟩)

/-- Two modules that forward each other's names with stars.  The right one wakes up only when the
name that is imported of the left one has come round to it, and then asks for all names of the
left. -/
def ring : Graph :=
  ofParts
    [{ id := ⟨"/main.js"⟩ },
      { id := ⟨"/left.js"⟩, stars := [⟨"/right.js"⟩] },
      { id := ⟨"/right.js"⟩
        exports := Table.ofList [("x", { owner := ⟨"/right.js"⟩, name := "x" }),
          ("y", { owner := ⟨"/right.js"⟩, name := "y", target := some ⟨⟨"/left.js"⟩, "x"⟩ })]
        stars := [⟨"/left.js"⟩] }]
    [{ source := ⟨"/main.js"⟩, target := ⟨"/left.js"⟩, name := "x", localName := "x",
        kind := .imports },
      { source := ⟨"/right.js"⟩, target := ⟨"/left.js"⟩, name := "*", localName := "all",
        kind := .imports }]

theorem liveness_leastClosed_ring :
    ring.validate = .ok () ∧ ring.KeyedByName ∧
      ∃ result demanded, ring.liveness [⟨"/main.js"⟩] false = .ok result ∧
        LeastClosed ring [⟨"/main.js"⟩] false (· ∈ result.live) demanded ∧
        (∀ module name, result.Uses module name ↔
          ring.declares module name = true ∧ demanded ⟨module, .named name⟩) ∧
        ∀ record ∈ result.records,
          record.used = true ↔ demanded ⟨record.module, .named record.name⟩ :=
  have hkeyed : ring.KeyedByName := by decide
  ⟨rfl, hkeyed, liveness_leastClosed rfl hkeyed [⟨"/main.js"⟩] false⟩

/-- Every export has one record.  Its triggers are just the sites of live imports and of entry
exports from which the demand for it arises, in strictly ascending order, and it is used just if it
has a trigger. -/
theorem triggers_exact {graph : Graph} (hvalid : graph.validate = .ok ())
    (hkeyed : graph.KeyedByName) (entries : List ModuleId) (entryExportsUsed : Bool) :
    ∃ result, graph.liveness entries entryExportsUsed = .ok result ∧
      (∀ module name, graph.declares module name = true ↔
        ∃ record ∈ result.records, record.module = module ∧ record.name = name) ∧
      ∀ record ∈ result.records,
        result.verdicts.find? (record.module, record.name) =
          some { used := record.used, triggers := record.triggers } ∧
        (∀ site, site ∈ record.triggers ↔
          ∃ first, Origin graph entries entryExportsUsed (· ∈ result.live) site first ∧
            ReflTransGen graph.Follows first ⟨record.module, .named record.name⟩) ∧
        record.triggers.Pairwise (fun site other => StrictOrder.less site other = true) ∧
        (record.used = true ↔ record.triggers ≠ []) := by
  rw [validate_eq_ok_iff] at hvalid
  refine ⟨_, liveness_of_valid hvalid entries entryExportsUsed, ?_, ?_⟩
  · intro module name
    rw [← hvalid.lists_iff hkeyed]
    exact Stage.lists_iff_exists_record _
  · intro record hrecord
    obtain ⟨entry, hentry, rfl⟩ := Stage.exists_export_of_mem_records hvalid hkeyed hrecord
    have hdeclares : graph.declares entry.owner entry.name = true :=
      declares_iff.mpr ⟨entry, hentry⟩
    refine ⟨?_, fun site => ?_, SortedSet.sorted _, ?_⟩
    · exact Stage.find?_verdicts_result_eq_some_iff.mpr
        ⟨(hvalid.lists_iff hkeyed).mpr hdeclares, rfl⟩
    · refine (mem_triggers_finalStage_iff hvalid entries entryExportsUsed).trans ?_
      exact and_iff_right hdeclares
    · exact used_verdict_finalStage_iff_triggers hvalid entries entryExportsUsed

theorem triggers_exact_ring :
    ring.validate = .ok () ∧ ring.KeyedByName ∧
      ∃ result, ring.liveness [⟨"/main.js"⟩] false = .ok result ∧
        (∀ module name, ring.declares module name = true ↔
          ∃ record ∈ result.records, record.module = module ∧ record.name = name) ∧
        ∀ record ∈ result.records,
          result.verdicts.find? (record.module, record.name) =
            some { used := record.used, triggers := record.triggers } ∧
          (∀ site, site ∈ record.triggers ↔
            ∃ first, Origin ring [⟨"/main.js"⟩] false (· ∈ result.live) site first ∧
              ReflTransGen ring.Follows first ⟨record.module, .named record.name⟩) ∧
          record.triggers.Pairwise (fun site other => StrictOrder.less site other = true) ∧
          (record.used = true ↔ record.triggers ≠ []) :=
  have hkeyed : ring.KeyedByName := by decide
  ⟨rfl, hkeyed, triggers_exact rfl hkeyed [⟨"/main.js"⟩] false⟩

-- The demand of the right module has come back to its own export.
example :
    ((ring.finalStage [⟨"/main.js"⟩] false).verdict ⟨"/right.js"⟩ "x").triggers =
      [⟨⟨"/main.js"⟩, "x"⟩, ⟨⟨"/right.js"⟩, "*"⟩] := by
  decide +kernel

/-- The name `x` of the library is declared, and a live module imports it.  But the export that
stands there is called `w`: nothing is recorded of the name `x`, and no site for the name `w`. -/
theorem triggers_lost_misfiled :
    (misfiled "x").validate = .ok () ∧ (misfiled "x").declares ⟨"/lib.js"⟩ "x" = true ∧
      ∃ result, (misfiled "x").liveness [⟨"/main.js"⟩] false = .ok result ∧
        (∃ first, Origin (misfiled "x") [⟨"/main.js"⟩] false (· ∈ result.live)
            ⟨⟨"/main.js"⟩, "x"⟩ first ∧
          ReflTransGen (misfiled "x").Follows first ⟨⟨"/lib.js"⟩, .named "x"⟩) ∧
        (¬∃ record ∈ result.records, record.module = ⟨"/lib.js"⟩ ∧ record.name = "x") ∧
        ∀ record ∈ result.records, record.used = false ∧ record.triggers = [] := by
  have hedge : ({ source := ⟨"/main.js"⟩, target := ⟨"/lib.js"⟩, name := "x", localName := "x"
                  kind := .imports } : Edge) ∈ (misfiled "x").edges :=
    List.mem_singleton_self _
  have hlive : (⟨"/main.js"⟩ : ModuleId) ∈
      ((misfiled "x").finalStage [⟨"/main.js"⟩] false).live := by
    decide +kernel
  refine ⟨rfl, by decide +kernel, _, liveness_of_valid (validate_eq_ok_iff.mp rfl) _ _, ?_, ?_, ?_⟩
  · exact ⟨_, .importedName hedge rfl (by decide) (by decide) hlive, ReflTransGen.refl⟩
  · decide +kernel
  · decide +kernel

end Graph

end LiveExports

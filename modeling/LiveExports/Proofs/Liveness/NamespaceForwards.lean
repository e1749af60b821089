import LiveExports.Proofs.Graph.Severed
import LiveExports.Proofs.Liveness.Comparison
import LiveExports.Proofs.Liveness.Provision

/-!
# Forwarding a whole module under a name

An export can stand for all of another module; its target is then the name `*` of that module.  To
*import* `*` is to demand every name, but a demand for such an export is passed on as a demand for
an export that is itself called `*`.  Where nobody offers an export of that name, the demand
dangles.

## Strategy

Forwards to names that are not provided may be severed without any effect.  The rules for the
severed graph are among the rules for the graph; those that are lost lead to dangling demands, and a
dangling demand leads to dangling demands only and is met nowhere.  So each of the two least closed
pairs is inside the other, but for dangling demands (`Closed.sever`, `Closed.of_sever`), and a chain
of demands that ends in a declared name uses no forward that was severed (`arises_sever_iff`).
-/

namespace LiveExports

open Relation

section Severed

variable {graph : Graph} {drop : Target → Bool} {entries : List ModuleId} {entryExportsUsed : Bool}
  {live : ModuleId → Prop} {demanded : Demand → Prop}

/-! ## The rules of a severed graph -/

theorem Graph.Follows.of_sever {demand other : Demand}
    (h : (graph.sever drop).Follows demand other) :
    graph.Follows demand other := by
  cases h with
  | @forward module name entry target hentry htarget =>
      obtain ⟨⟨entry, hentry, htarget⟩, _⟩ := Graph.forward_sever_iff.mp ⟨entry, hentry, htarget⟩
      exact .forward hentry htarget
  | star hstar hundeclared hname =>
      rw [Graph.declares_sever] at hundeclared
      exact .star (Graph.starsTo_sever_iff.mp hstar) hundeclared hname
  | member hdeclares =>
      rw [Graph.declares_sever] at hdeclares
      exact .member hdeclares
  | memberStar hstar => exact .memberStar (Graph.starsTo_sever_iff.mp hstar)
  | memberButDefault hdeclares hname =>
      rw [Graph.declares_sever] at hdeclares
      exact .memberButDefault hdeclares hname
  | memberButDefaultStar hstar => exact .memberButDefaultStar (Graph.starsTo_sever_iff.mp hstar)

theorem origin_sever_iff {site : UsageSite} {demand : Demand} :
    Origin (graph.sever drop) entries entryExportsUsed live site demand ↔
      Origin graph entries entryExportsUsed live site demand := by
  constructor
  · intro h
    cases h with
    | importedName hedge hkind hends hname hlive =>
        exact .importedName hedge hkind hends hname hlive
    | importedNamespace hedge hkind hends hname hlive =>
        exact .importedNamespace hedge hkind hends hname hlive
    | entryExport hused hentry hdeclares =>
        rw [Graph.declares_sever] at hdeclares
        exact .entryExport hused hentry hdeclares
  · intro h
    cases h with
    | importedName hedge hkind hends hname hlive =>
        exact .importedName hedge hkind hends hname hlive
    | importedNamespace hedge hkind hends hname hlive =>
        exact .importedNamespace hedge hkind hends hname hlive
    | entryExport hused hentry hdeclares =>
        exact .entryExport hused hentry ((Graph.declares_sever _ _).trans hdeclares)

theorem Closed.sever (hclosed : Closed graph entries entryExportsUsed live demanded) :
    Closed (graph.sever drop) entries entryExportsUsed live demanded where
  entry := by
    intro id hid hcontains
    rw [Graph.contains_sever] at hcontains
    exact hclosed.entry id hid hcontains
  run := hclosed.run
  origin := fun horigin => hclosed.origin (origin_sever_iff.mp horigin)
  declared := by
    intro id name hdemanded hdeclares
    rw [Graph.declares_sever] at hdeclares
    exact hclosed.declared hdemanded hdeclares
  follows := fun hfollows => hclosed.follows hfollows.of_sever

variable (hdrop : ∀ target, drop target = true →
  graph.provides target.module target.name = false)

include hdrop

/-- Only steps to dangling demands are lost. -/
theorem Graph.Follows.sever_or_dangling {demand other : Demand} (h : graph.Follows demand other) :
    (graph.sever drop).Follows demand other ∨ graph.Dangling other := by
  cases h with
  | @forward module name entry target hentry htarget =>
      cases hkeep : drop target with
      | true => exact Or.inr (Graph.dangling_named_iff.mpr (hdrop target hkeep))
      | false =>
          obtain ⟨severed, hsevered, htarget⟩ :=
            Graph.forward_sever_iff.mpr ⟨⟨entry, hentry, htarget⟩, hkeep⟩
          exact Or.inl (.forward hsevered htarget)
  | star hstar hundeclared hname =>
      rw [← Graph.declares_sever] at hundeclared
      exact Or.inl (.star (Graph.starsTo_sever_iff.mpr hstar) hundeclared hname)
  | member hdeclares =>
      rw [← Graph.declares_sever] at hdeclares
      exact Or.inl (.member hdeclares)
  | memberStar hstar => exact Or.inl (.memberStar (Graph.starsTo_sever_iff.mpr hstar))
  | memberButDefault hdeclares hname =>
      rw [← Graph.declares_sever] at hdeclares
      exact Or.inl (.memberButDefault hdeclares hname)
  | memberButDefaultStar hstar =>
      exact Or.inl (.memberButDefaultStar (Graph.starsTo_sever_iff.mpr hstar))

theorem Closed.of_sever
    (hclosed : Closed (graph.sever drop) entries entryExportsUsed live demanded) :
    Closed graph entries entryExportsUsed live
      (fun demand => demanded demand ∨ graph.Dangling demand) where
  entry := by
    intro id hid hcontains
    rw [← Graph.contains_sever] at hcontains
    exact hclosed.entry id hid hcontains
  run := hclosed.run
  origin := fun horigin => Or.inl (hclosed.origin (origin_sever_iff.mpr horigin))
  declared := by
    rintro id name (hdemanded | hdangling) hdeclares
    · rw [← Graph.declares_sever] at hdeclares
      exact hclosed.declared hdemanded hdeclares
    · -- A dangling demand brings no module to life.
      exact absurd hdangling (Graph.not_dangling_of_declares hdeclares)
  follows := by
    rintro demand other hfollows (hdemanded | hdangling)
    · exact (hfollows.sever_or_dangling hdrop).imp (hclosed.follows · hdemanded) id
    · exact Or.inr (hdangling.of_follows hfollows)

theorem arises_sever_iff {site : UsageSite} {demand : Demand} (hdemand : ¬graph.Dangling demand) :
    Arises (graph.sever drop) entries entryExportsUsed live site demand ↔
      Arises graph entries entryExportsUsed live site demand := by
  constructor
  · rintro ⟨first, horigin, hchain⟩
    exact ⟨first, origin_sever_iff.mp horigin,
      ReflTransGen.mono (fun _ _ h => h.of_sever) _ _ hchain⟩
  · rintro ⟨first, horigin, hchain⟩
    refine ⟨first, origin_sever_iff.mpr horigin, ?_⟩
    -- No demand of the chain dangles, or else the last one would.
    induction hchain with
    | refl => exact ReflTransGen.refl
    | tail _ hfollows ih =>
        have hbefore := ih fun hdangling => hdemand (hdangling.of_follows hfollows)
        rcases hfollows.sever_or_dangling hdrop with hkept | hdangling
        · exact hbefore.tail hkept
        · exact absurd hdangling hdemand

end Severed

/-! ## The analysis of a severed graph -/

namespace Graph

section Severed

variable {graph : Graph} (hvalid : graph.Valid) {drop : Target → Bool}
  (hdrop : ∀ target, drop target = true → graph.provides target.module target.name = false)
  (entries : List ModuleId) (entryExportsUsed : Bool)

include hvalid hdrop

theorem live_finalStage_sever :
    ((graph.sever drop).finalStage entries entryExportsUsed).live =
      (graph.finalStage entries entryExportsUsed).live := by
  have hleast := finalStage_leastClosed hvalid entries entryExportsUsed
  have hsevered := finalStage_leastClosed (hvalid.sever drop) entries entryExportsUsed
  apply SortedSet.ext_mem
  intro id
  constructor
  · exact hsevered.live_least hleast.toClosed.sever
  · exact hleast.live_least (hsevered.toClosed.of_sever hdrop)

theorem verdict_finalStage_sever (module : ModuleId) (name : String) :
    ((graph.sever drop).finalStage entries entryExportsUsed).verdict module name =
      (graph.finalStage entries entryExportsUsed).verdict module name := by
  apply verdict_finalStage_eq (hvalid.sever drop) hvalid (declares_sever module name)
  intro hdeclares site
  rw [declares_sever] at hdeclares
  rw [live_finalStage_sever hvalid hdrop entries entryExportsUsed]
  exact arises_sever_iff hdrop (not_dangling_of_declares hdeclares)

theorem verdicts_finalStage_sever :
    (((graph.sever drop).finalStage entries entryExportsUsed).result (graph.sever drop)).verdicts =
      ((graph.finalStage entries entryExportsUsed).result graph).verdicts :=
  Stage.verdicts_result_eq (fun _ _ => lists_sever_iff)
    (verdict_finalStage_sever hvalid hdrop entries entryExportsUsed)

end Severed

/-! ## Forwards of whole modules -/

/-- A used forward to a name that is not provided is reported. -/
theorem mem_diagnostics_of_forward {graph : Graph} (hvalid : graph.Valid)
    (hkeyed : graph.KeyedByName) (entries : List ModuleId) (entryExportsUsed : Bool)
    {record : ExportRecord} {target : ModuleId} {name : String}
    (hrecord : record ∈ ((graph.finalStage entries entryExportsUsed).result graph).records)
    (htarget : record.target = some ⟨target, name⟩) (hused : record.used = true)
    (hprovides : graph.provides target name = false) :
    missingExportReport record.module target name ∈
      ((graph.finalStage entries entryExportsUsed).result graph).diagnostics := by
  obtain ⟨entry, hentry, rfl⟩ := Stage.exists_export_of_mem_records hvalid hkeyed hrecord
  obtain ⟨_, hdemands⟩ := (used_verdict_finalStage_iff hvalid entries entryExportsUsed).mp hused
  rw [mem_diagnostics_finalStage_iff hvalid entries entryExportsUsed]
  exact ⟨entry.owner, target, name, .forwarded hdemands hentry htarget, hprovides, rfl⟩

theorem provides_eq_false_of_undeclared {graph : Graph} {name : String}
    (hundeclared : ∀ id, graph.declares id name = false) (module : ModuleId) :
    graph.provides module name = false := by
  rw [← Bool.not_eq_true, provides_iff]
  rintro ⟨provider, hdeclares, _⟩
  rw [hundeclared provider] at hdeclares
  contradiction

/-- Is this all of a module that exports nothing called `*`? -/
def isHollowNamespace (graph : Graph) (target : Target) : Bool :=
  target.name == namespaceName && !graph.provides target.module target.name

/-- A demand for an export that forwards all of a module asks this module for an export called `*`.
If it provides none, the forward might as well be severed, except that it is reported if it is used.
So if no module declares such a name, forwarding all of a module works like importing it only as
long as no such forward is used.  What is said about records is said of graphs that are keyed by
name. -/
theorem namespaceForward_asks_for_star {graph : Graph} (hvalid : graph.validate = .ok ())
    (entries : List ModuleId) (entryExportsUsed : Bool) :
    ∃ result severed, graph.liveness entries entryExportsUsed = .ok result ∧
      (graph.sever graph.isHollowNamespace).liveness entries entryExportsUsed = .ok severed ∧
      severed.live = result.live ∧ severed.verdicts = result.verdicts ∧
      (graph.KeyedByName →
        ∀ record ∈ result.records, ∀ target, record.target = some ⟨target, namespaceName⟩ →
          record.used = true → graph.provides target namespaceName = false →
          missingExportReport record.module target namespaceName ∈ result.diagnostics) ∧
      (graph.KeyedByName → (∀ id, graph.declares id namespaceName = false) →
        ((∀ record ∈ result.records, ∀ target, record.target = some ⟨target, namespaceName⟩ →
            record.used = true →
            (∀ name, graph.declares target name = true → result.Uses target name) ∧
            ∀ requester module,
              missingExportReport requester module namespaceName ∉ result.diagnostics) ↔
          ∀ record ∈ result.records, ∀ target, record.target = some ⟨target, namespaceName⟩ →
            record.used = false)) := by
  rw [validate_eq_ok_iff] at hvalid
  have hhollow : ∀ target, graph.isHollowNamespace target = true →
      graph.provides target.module target.name = false := by
    intro target h
    simp only [isHollowNamespace, Bool.and_eq_true, Bool.not_eq_true'] at h
    exact h.2
  refine ⟨_, _, liveness_of_valid hvalid entries entryExportsUsed,
    liveness_of_valid (hvalid.sever _) entries entryExportsUsed,
    live_finalStage_sever hvalid hhollow entries entryExportsUsed,
    verdicts_finalStage_sever hvalid hhollow entries entryExportsUsed, ?_, ?_⟩
  · intro hkeyed record hrecord target htarget hused hprovides
    exact mem_diagnostics_of_forward hvalid hkeyed entries entryExportsUsed hrecord htarget hused
      hprovides
  · intro hkeyed hundeclared
    constructor
    · -- A used forward would be reported, as nobody provides the name it asks for.
      intro hlikeImport record hrecord target htarget
      rw [← Bool.not_eq_true]
      intro hused
      obtain ⟨_, hunreported⟩ := hlikeImport record hrecord target htarget hused
      exact hunreported record.module target (mem_diagnostics_of_forward hvalid hkeyed entries
        entryExportsUsed hrecord htarget hused (provides_eq_false_of_undeclared hundeclared target))
    · intro hunused record hrecord target htarget hused
      rw [hunused record hrecord target htarget] at hused
      contradiction

/-- All of a module is imported through a forward of it. -/
def namespaceBarrel : Graph :=
  ofParts
    [{ id := ⟨"/main.js"⟩ },
      { id := ⟨"/bar.js"⟩
        exports := Table.ofList
          [("ns", { owner := ⟨"/bar.js"⟩, name := "ns", target := some ⟨⟨"/lib.js"⟩, "*"⟩ })] },
      { id := ⟨"/lib.js"⟩
        exports := Table.ofList [("x", { owner := ⟨"/lib.js"⟩, name := "x" })] }]
    [{ source := ⟨"/main.js"⟩, target := ⟨"/bar.js"⟩, name := "ns", localName := "ns",
        kind := .imports },
      { source := ⟨"/bar.js"⟩, target := ⟨"/lib.js"⟩, name := "*", localName := "ns",
        kind := .forwards }]

theorem namespaceForward_asks_for_star_barrel :
    namespaceBarrel.validate = .ok () ∧ namespaceBarrel.KeyedByName ∧
      (∀ id, namespaceBarrel.declares id namespaceName = false) ∧
      ∃ result, namespaceBarrel.liveness [⟨"/main.js"⟩] false = .ok result ∧
        ¬∀ record ∈ result.records, ∀ target, record.target = some ⟨target, namespaceName⟩ →
          record.used = true →
          (∀ name, namespaceBarrel.declares target name = true → result.Uses target name) ∧
          ∀ requester module,
            missingExportReport requester module namespaceName ∉ result.diagnostics := by
  have hvalid : namespaceBarrel.validate = .ok () := rfl
  have hkeyed : namespaceBarrel.KeyedByName := by decide
  have hundeclared : ∀ id, namespaceBarrel.declares id namespaceName = false := by
    intro id
    have hids : ∀ id ∈ namespaceBarrel.ids, namespaceBarrel.declares id namespaceName = false := by
      decide +kernel
    rw [← Bool.not_eq_true]
    intro hdeclares
    have hid := mem_ids_iff.mpr (contains_of_declares hdeclares)
    rw [hids id hid] at hdeclares
    contradiction
  obtain ⟨result, _, hresult, _, _, _, _, hexact⟩ :=
    namespaceForward_asks_for_star hvalid [⟨"/main.js"⟩] false
  refine ⟨hvalid, hkeyed, hundeclared, result, hresult, ?_⟩
  rw [hexact hkeyed hundeclared]
  obtain rfl : (namespaceBarrel.finalStage [⟨"/main.js"⟩] false).result namespaceBarrel = result :=
    Except.ok.inj hresult
  have hused : ∃ record ∈ ((namespaceBarrel.finalStage [⟨"/main.js"⟩] false).result
      namespaceBarrel).records,
      record.target = some ⟨⟨"/lib.js"⟩, namespaceName⟩ ∧ record.used = true := by
    decide +kernel
  intro hunused
  obtain ⟨record, hrecord, htarget, hused⟩ := hused
  rw [hunused record hrecord _ htarget] at hused
  contradiction

end Graph

end LiveExports

import LiveExports.Proofs.Liveness.Provision

/-!
# Modules that names are forwarded through

A name that is forwarded comes from the target of the forward, but the target may have it from
elsewhere, over stars.  A demand for the name then passes through the target and goes on to a module
that declares the name.  It brings this last module to life, and not the one that it passes through.

What is live is told by what is used: the live modules are those started by an entry, or by a module
of which an export is used (`Graph.mem_live_finalStage_iff`).  So the target of a used forward is
live just if it declares the name itself, or is started by such a module
(`Graph.forwardTarget_live_iff`).
-/

namespace LiveExports

open Relation

/-- A module is run, over any number of steps, by an entry or by a module of which an export is
used. -/
def Liveness.Started (liveness : Liveness) (graph : Graph) (entries : List ModuleId)
    (id : ModuleId) : Prop :=
  ∃ root, (root ∈ entries ∨ ∃ name, liveness.Uses root name) ∧
    id ∈ graph.reachableFrom .execution [root]

namespace Graph

variable {graph : Graph} (hvalid : graph.Valid) (hkeyed : graph.KeyedByName)
  (entries : List ModuleId) (entryExportsUsed : Bool)

include hvalid hkeyed

/-! ## What is live -/

theorem mem_live_of_started {id : ModuleId}
    (h : ((graph.finalStage entries entryExportsUsed).result graph).Started graph entries id) :
    id ∈ (graph.finalStage entries entryExportsUsed).live := by
  have hclosed := finalStage_closed hvalid entries entryExportsUsed
  obtain ⟨root, hroot, hid⟩ := h
  refine mem_of_reachableFrom ?_ hclosed.run hid
  intro start hstart hcontains
  rw [List.mem_singleton.mp hstart] at hcontains ⊢
  rcases hroot with hentry | ⟨name, hused⟩
  · exact hclosed.entry root hentry hcontains
  · obtain ⟨hdeclares, hdemands⟩ := (uses_keyed_iff hvalid entries entryExportsUsed hkeyed).mp hused
    exact hclosed.declared hdemands hdeclares

/-- What is started is closed under the rules, with the demands of the final stage. -/
theorem closed_started :
    Closed graph entries entryExportsUsed
      (((graph.finalStage entries entryExportsUsed).result graph).Started graph entries)
      (graph.finalStage entries entryExportsUsed).Demands := by
  have hclosed := finalStage_closed hvalid entries entryExportsUsed
  have hself : ∀ {root}, graph.contains root = true →
      root ∈ graph.reachableFrom .execution [root] := fun hroot =>
    mem_reachable_of_root (List.mem_singleton_self _) (mem_ids_iff.mpr hroot)
  exact
    { entry := fun id hentry hcontains => ⟨id, Or.inl hentry, hself hcontains⟩
      run := by
        rintro edge hedge hkind ⟨root, hroot, hsource⟩
        refine ⟨root, hroot, mem_reachable_of_step hsource ⟨?_, ?_⟩⟩
        · exact mem_next_execution_iff.mpr ⟨edge, hedge, rfl, rfl, hkind⟩
        · exact mem_ids_iff.mpr (hvalid.edgeTarget edge hedge)
      origin := fun horigin => hclosed.origin
        (horigin.mono fun _ => mem_live_of_started hvalid hkeyed entries entryExportsUsed)
      declared := by
        intro id name hdemands hdeclares
        have hused := (uses_keyed_iff hvalid entries entryExportsUsed hkeyed).mpr
          ⟨hdeclares, hdemands⟩
        exact ⟨id, Or.inr ⟨name, hused⟩, hself (contains_of_declares hdeclares)⟩
      follows := hclosed.follows }

/-- The live modules are those started by an entry or by a module of which an export is used. -/
theorem mem_live_finalStage_iff {id : ModuleId} :
    id ∈ (graph.finalStage entries entryExportsUsed).live ↔
      ((graph.finalStage entries entryExportsUsed).result graph).Started graph entries id :=
  ⟨fun hlive => (finalStage_leastClosed hvalid entries entryExportsUsed).live_least
      (closed_started hvalid hkeyed entries entryExportsUsed) hlive,
    mem_live_of_started hvalid hkeyed entries entryExportsUsed⟩

/-- Every import of a live module is a trigger of the exports that it names. -/
theorem mem_triggers_of_request {id : ModuleId}
    (hlive : id ∈ (graph.finalStage entries entryExportsUsed).live) {edge : Edge}
    (hedge : edge ∈ graph.requests id) {name : String}
    (hname : (Wanted.ofImport edge.name).includes name = true)
    (hdeclares : graph.declares edge.target name = true) :
    ⟨id, edge.name⟩ ∈
      ((graph.finalStage entries entryExportsUsed).result graph).triggers edge.target name := by
  rw [mem_triggers_keyed_iff hvalid entries entryExportsUsed hkeyed]
  have horigin := origin_of_mem_requests entries entryExportsUsed hedge hlive
  obtain ⟨_, rfl, _⟩ := mem_requests_iff.mp hedge
  refine ⟨hdeclares, _, horigin, ?_⟩
  by_cases hall : edge.name = namespaceName
  · rw [Wanted.ofImport, if_pos hall]
    exact ReflTransGen.single (.member hdeclares)
  · rw [Wanted.ofImport, if_neg hall] at hname ⊢
    rw [beq_iff_eq.mp hname]

/-! ## Where a forwarded name ends -/

/-- The target of a used forward is live if it declares the name. -/
theorem mem_live_of_forward {record : ExportRecord} {target : Target}
    (hrecord : record ∈ ((graph.finalStage entries entryExportsUsed).result graph).records)
    (htarget : record.target = some target) (hused : record.used = true)
    (hdeclares : graph.declares target.module target.name = true) :
    target.module ∈ (graph.finalStage entries entryExportsUsed).live := by
  obtain ⟨entry, hentry, rfl⟩ := Stage.exists_export_of_mem_records hvalid hkeyed hrecord
  have hclosed := finalStage_closed hvalid entries entryExportsUsed
  obtain ⟨_, hdemands⟩ := (used_verdict_finalStage_iff hvalid entries entryExportsUsed).mp hused
  exact hclosed.declared (hclosed.follows (.forward hentry htarget) hdemands) hdeclares

/-- A used forward to a name that is provided ends at a live module that declares the name, and all
its triggers are triggers there. -/
theorem exists_provider_of_forward {record : ExportRecord} {target : Target}
    (hrecord : record ∈ ((graph.finalStage entries entryExportsUsed).result graph).records)
    (htarget : record.target = some target) (hused : record.used = true)
    (hprovides : graph.provides target.module target.name = true) :
    ∃ provider ∈ (graph.finalStage entries entryExportsUsed).live,
      graph.Offers target.module target.name provider ∧
      ((graph.finalStage entries entryExportsUsed).result graph).Uses provider target.name ∧
      ∀ site ∈ record.triggers, site ∈
        ((graph.finalStage entries entryExportsUsed).result graph).triggers provider
          target.name := by
  obtain ⟨entry, hentry, rfl⟩ := Stage.exists_export_of_mem_records hvalid hkeyed hrecord
  obtain ⟨provider, hoffers, hchain⟩ := exists_offers_follows hprovides
  have htriggers : ∀ site ∈
      ((graph.finalStage entries entryExportsUsed).verdict entry.owner entry.name).triggers,
      site ∈ ((graph.finalStage entries entryExportsUsed).result graph).triggers provider
        target.name := by
    intro site hsite
    obtain ⟨_, harises⟩ := (mem_triggers_finalStage_iff hvalid entries entryExportsUsed).mp hsite
    rw [mem_triggers_keyed_iff hvalid entries entryExportsUsed hkeyed]
    exact ⟨hoffers.1, (harises.of_follows (.forward hentry htarget)).of_chain hchain⟩
  have hprovider : ((graph.finalStage entries entryExportsUsed).result graph).Uses provider
      target.name := by
    obtain ⟨site, hsite⟩ := List.exists_mem_of_ne_nil _
      ((used_verdict_finalStage_iff_triggers hvalid entries entryExportsUsed).mp hused)
    exact (uses_iff_exists_trigger hvalid entries entryExportsUsed).mpr ⟨site, htriggers site hsite⟩
  refine ⟨provider, ?_, hoffers, hprovider, htriggers⟩
  obtain ⟨_, hdemands⟩ := (uses_keyed_iff hvalid entries entryExportsUsed hkeyed).mp hprovider
  exact (finalStage_closed hvalid entries entryExportsUsed).declared hdemands hoffers.1

omit hvalid hkeyed

/-- The target of a used forward to a name that is provided is live just if it declares the name, or
is started by an entry or by a module of which an export is used.  In any case the forward ends at a
live module that declares the name.  If the target is live, its own imports count. -/
theorem forwardTarget_live_iff {graph : Graph} (hvalid : graph.validate = .ok ())
    (hkeyed : graph.KeyedByName) (entries : List ModuleId) (entryExportsUsed : Bool) :
    ∃ result, graph.liveness entries entryExportsUsed = .ok result ∧
      ∀ record ∈ result.records, ∀ target, record.target = some target → record.used = true →
        graph.provides target.module target.name = true →
        (target.module ∈ result.live ↔
          graph.declares target.module target.name = true ∨
            result.Started graph entries target.module) ∧
        (∃ provider ∈ result.live, graph.Offers target.module target.name provider ∧
          result.Uses provider target.name ∧
          ∀ site ∈ record.triggers, site ∈ result.triggers provider target.name) ∧
        (target.module ∈ result.live →
          ∀ edge ∈ graph.requests target.module, ∀ name,
            (Wanted.ofImport edge.name).includes name = true →
            graph.declares edge.target name = true →
            ⟨target.module, edge.name⟩ ∈ result.triggers edge.target name) := by
  rw [validate_eq_ok_iff] at hvalid
  refine ⟨_, liveness_of_valid hvalid entries entryExportsUsed, ?_⟩
  intro record hrecord target htarget hused hprovides
  refine ⟨⟨fun hlive => ?_, ?_⟩, ?_, fun hlive edge hedge name hname hdeclares => ?_⟩
  · exact Or.inr ((mem_live_finalStage_iff hvalid hkeyed entries entryExportsUsed).mp hlive)
  · rintro (hdeclares | hstarted)
    · exact mem_live_of_forward hvalid hkeyed entries entryExportsUsed hrecord htarget hused
        hdeclares
    · exact mem_live_of_started hvalid hkeyed entries entryExportsUsed hstarted
  · exact exists_provider_of_forward hvalid hkeyed entries entryExportsUsed hrecord htarget hused
      hprovides
  · exact mem_triggers_of_request hvalid hkeyed entries entryExportsUsed hlive hedge hname hdeclares

/-- A name is forwarded to a module that has it over a star, and that has an import of its own. -/
def starPassage : Graph :=
  ofParts
    [{ id := ⟨"/main.js"⟩ },
      { id := ⟨"/bar.js"⟩
        exports := Table.ofList
          [("x", { owner := ⟨"/bar.js"⟩, name := "x", target := some ⟨⟨"/mid.js"⟩, "x"⟩ })] },
      { id := ⟨"/mid.js"⟩, stars := [⟨"/lib.js"⟩] },
      { id := ⟨"/lib.js"⟩
        exports := Table.ofList [("x", { owner := ⟨"/lib.js"⟩, name := "x" })] },
      { id := ⟨"/util.js"⟩
        exports := Table.ofList [("y", { owner := ⟨"/util.js"⟩, name := "y" })] }]
    [{ source := ⟨"/bar.js"⟩, target := ⟨"/mid.js"⟩, name := "x", localName := "x",
        kind := .forwards },
      { source := ⟨"/main.js"⟩, target := ⟨"/bar.js"⟩, name := "x", localName := "x",
        kind := .imports },
      { source := ⟨"/mid.js"⟩, target := ⟨"/lib.js"⟩, name := "*", localName := "*",
        kind := .forwards },
      { source := ⟨"/mid.js"⟩, target := ⟨"/util.js"⟩, name := "y", localName := "y",
        kind := .imports }]

theorem forwardTarget_live_iff_starPassage :
    starPassage.validate = .ok () ∧ starPassage.KeyedByName ∧
      starPassage.provides ⟨"/mid.js"⟩ "x" = true ∧
      ∃ result, starPassage.liveness [⟨"/main.js"⟩] false = .ok result ∧
        (∃ record ∈ result.records, record.target = some ⟨⟨"/mid.js"⟩, "x"⟩ ∧
          record.used = true) ∧
        ⟨"/mid.js"⟩ ∉ result.live := by
  have hvalid : starPassage.validate = .ok () := rfl
  have hkeyed : starPassage.KeyedByName := by decide
  have hprovides : starPassage.provides ⟨"/mid.js"⟩ "x" = true := by decide +kernel
  have hnothing : ∀ name, starPassage.declares ⟨"/mid.js"⟩ name = false := fun _ => rfl
  obtain ⟨result, hresult, hforward⟩ := forwardTarget_live_iff hvalid hkeyed [⟨"/main.js"⟩] false
  obtain rfl : (starPassage.finalStage [⟨"/main.js"⟩] false).result starPassage = result :=
    Except.ok.inj hresult
  have hused : ∃ record ∈ ((starPassage.finalStage [⟨"/main.js"⟩] false).result
      starPassage).records, record.target = some ⟨⟨"/mid.js"⟩, "x"⟩ ∧ record.used = true := by
    decide +kernel
  refine ⟨hvalid, hkeyed, hprovides, _, hresult, hused, ?_⟩
  obtain ⟨record, hrecord, htarget, hused⟩ := hused
  rw [(hforward record hrecord _ htarget hused hprovides).1]
  have hunreached : ∀ root ∈ starPassage.ids, root ≠ ⟨"/mid.js"⟩ →
      (⟨"/mid.js"⟩ : ModuleId) ∉ starPassage.reachableFrom .execution [root] := by
    decide +kernel
  rintro (hdeclares | ⟨root, hroot, hreached⟩)
  · rw [hnothing] at hdeclares
    contradiction
  · -- No other module runs the one in the middle, and it has no export that could be used.
    obtain ⟨start, hstart, hnode, _⟩ := mem_reachable_iff.mp hreached
    obtain rfl := List.mem_singleton.mp hstart
    by_cases hmiddle : start = ⟨"/mid.js"⟩
    · subst hmiddle
      rcases hroot with hentry | ⟨name, huses⟩
      · exact absurd hentry (by decide)
      · obtain ⟨hdeclares, _⟩ := (uses_keyed_iff (validate_eq_ok_iff.mp hvalid) _ _ hkeyed).mp huses
        rw [hnothing] at hdeclares
        contradiction
    · exact hunreached start hnode hmiddle hreached

end Graph

end LiveExports

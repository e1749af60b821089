import LiveExports.Proofs.Graph.Reachability
import LiveExports.Proofs.Liveness.FinalStage

/-!
# Names that are provided, and names that are missing

Whether a module provides a name is found by a search over stars.  The search is replaced here by
what it finds: a module that *offers* the name, because it declares it and is reached over stars
(`Graph.provides_iff`).

A demand for a name that is not provided is *dangling*.  It is met by no module, and whatever
follows from it dangles as well (`Graph.Dangling.of_follows`), so that it has no effect but one: it
is reported to those who ask for it by name (`Graph.mem_diagnostics_finalStage_iff`).
-/

namespace LiveExports

open Relation

namespace Graph

variable {graph : Graph}

/-! ## What is provided -/

/-- A module offers a name as another one declares it: itself, or over stars unless the name is
`default`. -/
def Offers (graph : Graph) (module : ModuleId) (name : String) (provider : ModuleId) : Prop :=
  graph.declares provider name = true ∧
    (provider = module ∨ name ≠ defaultName ∧ ReflTransGen graph.StarsTo module provider)

theorem Offers.self {module : ModuleId} {name : String}
    (hdeclares : graph.declares module name = true) : graph.Offers module name module :=
  ⟨hdeclares, Or.inl rfl⟩

theorem Offers.of_star {module star provider : ModuleId} {name : String}
    (hstar : graph.StarsTo module star) (hname : name ≠ defaultName)
    (h : graph.Offers star name provider) : graph.Offers module name provider := by
  obtain ⟨hdeclares, rfl | ⟨_, hpath⟩⟩ := h
  · exact ⟨hdeclares, Or.inr ⟨hname, ReflTransGen.single hstar⟩⟩
  · exact ⟨hdeclares, Or.inr ⟨hname, hpath.head hstar⟩⟩

/-- The step of the search for a name. -/
private def starsFor (graph : Graph) (name : String) (id : ModuleId) : List ModuleId :=
  if name = defaultName then [] else ((graph.node? id).map Node.stars).getD []

private theorem mem_starsFor_iff {name : String} {id star : ModuleId} :
    star ∈ graph.starsFor name id ↔ name ≠ defaultName ∧ graph.StarsTo id star := by
  unfold starsFor StarsTo
  by_cases hname : name = defaultName
  · simp [hname]
  · cases hnode : graph.node? id with
    | none => simp [hname]
    | some node => simp [hname]

private theorem path_of_stars {name : String} {module provider : ModuleId}
    (hname : name ≠ defaultName) (hprovider : provider ∈ graph.ids)
    (hpath : ReflTransGen graph.StarsTo module provider) :
    module ∈ graph.ids ∧
      ReflTransGen (StepsTo (graph.starsFor name) graph.ids) module provider := by
  -- Every module on the way has a star, so it is a node; the last one is a node by assumption.
  induction hpath using ReflTransGen.head_induction_on with
  | refl => exact ⟨hprovider, ReflTransGen.refl⟩
  | head hstar _ ih =>
      obtain ⟨hnext, hrest⟩ := ih
      obtain ⟨node, hnode, hmem⟩ := hstar
      refine ⟨mem_ids_iff.mpr (contains_iff.mpr ⟨node, hnode⟩), hrest.head ⟨?_, hnext⟩⟩
      exact mem_starsFor_iff.mpr ⟨hname, node, hnode, hmem⟩

/-- The search finds a name just if some module offers it. -/
theorem provides_iff {module : ModuleId} {name : String} :
    graph.provides module name = true ↔ ∃ provider, graph.Offers module name provider := by
  have hmem : ∀ id, id ∈ graph.providers module name ↔
      module ∈ graph.ids ∧ ReflTransGen (StepsTo (graph.starsFor name) graph.ids) module id := by
    intro id
    refine mem_reachable_iff.trans ?_
    simp only [List.mem_singleton, exists_eq_left]
    rfl
  simp only [provides, List.any_eq_true, hmem]
  constructor
  · rintro ⟨provider, ⟨_, hpath⟩, hdeclares⟩
    refine ⟨provider, hdeclares, ?_⟩
    -- A search for `default` takes no step, so one step already tells that the name is another.
    induction hpath with
    | refl => exact Or.inl rfl
    | tail hpath hstep _ =>
        obtain ⟨hname, _⟩ := mem_starsFor_iff.mp hstep.1
        refine Or.inr ⟨hname, ?_⟩
        exact ReflTransGen.mono (fun _ _ h => (mem_starsFor_iff.mp h.1).2) _ _ (hpath.tail hstep)
  · rintro ⟨provider, hdeclares, hreached⟩
    have hprovider : provider ∈ graph.ids := mem_ids_iff.mpr (contains_of_declares hdeclares)
    refine ⟨provider, ?_, hdeclares⟩
    rcases hreached with rfl | ⟨hname, hpath⟩
    · exact ⟨hprovider, ReflTransGen.refl⟩
    · exact path_of_stars hname hprovider hpath

theorem provides_of_declares {module : ModuleId} {name : String}
    (hdeclares : graph.declares module name = true) : graph.provides module name = true :=
  provides_iff.mpr ⟨module, Offers.self hdeclares⟩

theorem provides_of_star {module star : ModuleId} {name : String}
    (hstar : graph.StarsTo module star) (hname : name ≠ defaultName)
    (h : graph.provides star name = true) : graph.provides module name = true := by
  obtain ⟨provider, hoffers⟩ := provides_iff.mp h
  exact provides_iff.mpr ⟨provider, hoffers.of_star hstar hname⟩

/-- A demand for a name that is provided comes to a module that declares the name. -/
theorem exists_offers_follows {module : ModuleId} {name : String}
    (h : graph.provides module name = true) :
    ∃ provider, graph.Offers module name provider ∧
      ReflTransGen graph.Follows ⟨module, .named name⟩ ⟨provider, .named name⟩ := by
  obtain ⟨provider, hdeclares, rfl | ⟨hname, hpath⟩⟩ := provides_iff.mp h
  · exact ⟨provider, Offers.self hdeclares, ReflTransGen.refl⟩
  · -- The demand may stop before the provider: the first module on the path that declares the name
    -- keeps the demand from its own stars.
    clear h
    induction hpath using ReflTransGen.head_induction_on with
    | refl => exact ⟨provider, Offers.self hdeclares, ReflTransGen.refl⟩
    | @head module star hstar _ ih =>
        by_cases hown : graph.declares module name = true
        · exact ⟨module, Offers.self hown, ReflTransGen.refl⟩
        · obtain ⟨found, hoffers, hchain⟩ := ih
          have hstep : graph.Follows ⟨module, .named name⟩ ⟨star, .named name⟩ :=
            .star hstar (Bool.not_eq_true _ ▸ hown) hname
          exact ⟨found, hoffers.of_star hstar hname, hchain.head hstep⟩

/-! ## Dangling demands -/

/-- A demand for a name that is not provided. -/
def Dangling (graph : Graph) (demand : Demand) : Prop :=
  ∃ name, demand.wanted = .named name ∧ graph.provides demand.module name = false

theorem dangling_named_iff {module : ModuleId} {name : String} :
    graph.Dangling ⟨module, .named name⟩ ↔ graph.provides module name = false := by
  simp [Dangling]

theorem not_dangling_of_declares {module : ModuleId} {name : String}
    (hdeclares : graph.declares module name = true) : ¬graph.Dangling ⟨module, .named name⟩ := by
  simp [dangling_named_iff, provides_of_declares hdeclares]

/-- What follows from a dangling demand dangles. -/
theorem Dangling.of_follows {demand other : Demand} (hdangling : graph.Dangling demand)
    (hfollows : graph.Follows demand other) : graph.Dangling other := by
  cases hfollows with
  | @forward module name entry target hentry htarget =>
      exact absurd hdangling (not_dangling_of_declares (declares_iff.mpr ⟨entry, hentry⟩))
  | @star module star name hstar hundeclared hname =>
      rw [dangling_named_iff] at hdangling ⊢
      rw [← Bool.not_eq_true] at hdangling ⊢
      exact fun h => hdangling (provides_of_star hstar hname h)
  | member | memberStar | memberButDefault | memberButDefaultStar =>
      obtain ⟨name, hname, _⟩ := hdangling
      cases hname

end Graph

/-! ## Reports -/

/-- A stage reports a name that is not provided to everyone who asks for it by name. -/
theorem Stage.mem_missingReports_iff {graph : Graph} {stage : Stage} {diagnostic : Diagnostic} :
    diagnostic ∈ stage.missingReports graph ↔
      ∃ requester module name, requester ∈ stage.requesters ⟨module, .named name⟩ ∧
        graph.provides module name = false ∧
        diagnostic = missingExportReport requester module name := by
  have hlisting : diagnostic ∈ stage.missingReports graph ↔
      ∃ demand standing, stage.standings.find? demand = some standing ∧
        diagnostic ∈ graph.missingReports demand standing := by
    rw [missingReports, Diagnostic.mem_listing]
    simp only [List.mem_flatMap, Prod.exists, Table.find?_eq_some_iff]
  rw [hlisting]
  constructor
  · rintro ⟨⟨module, wanted⟩, standing, hstanding, hmem⟩
    cases wanted with
    | named name =>
        simp only [Graph.missingReports] at hmem
        split at hmem
        · exact absurd hmem List.not_mem_nil
        · rename_i hprovides
          obtain ⟨requester, hrequester, rfl⟩ := List.mem_map.mp hmem
          refine ⟨requester, module, name, ?_, Bool.not_eq_true _ ▸ hprovides, rfl⟩
          rw [requesters, Stage.standing, hstanding]
          exact hrequester
    | all => exact absurd hmem List.not_mem_nil
    | allButDefault => exact absurd hmem List.not_mem_nil
  · rintro ⟨requester, module, name, hrequester, hprovides, rfl⟩
    rw [requesters, standing] at hrequester
    cases hstanding : stage.standings.find? ⟨module, .named name⟩ with
    | none =>
        rw [hstanding] at hrequester
        exact absurd hrequester (SortedSet.not_mem_empty requester)
    | some standing =>
        rw [hstanding] at hrequester
        refine ⟨_, standing, hstanding, ?_⟩
        simp only [Graph.missingReports, hprovides, Bool.false_eq_true, if_false]
        exact List.mem_map_of_mem hrequester

/-- The reports of an analysis: to each module that asks by name, about each name that is not
provided. -/
theorem Graph.mem_diagnostics_finalStage_iff {graph : Graph} (hvalid : graph.Valid)
    (entries : List ModuleId) (entryExportsUsed : Bool) {diagnostic : Diagnostic} :
    diagnostic ∈ ((graph.finalStage entries entryExportsUsed).result graph).diagnostics ↔
      ∃ requester module name,
        graph.Requests (· ∈ (graph.finalStage entries entryExportsUsed).live)
          (graph.finalStage entries entryExportsUsed).Demands requester ⟨module, .named name⟩ ∧
        graph.provides module name = false ∧
        diagnostic = missingExportReport requester module name := by
  refine Stage.mem_missingReports_iff.trans ?_
  simp only [mem_requesters_finalStage_iff hvalid entries entryExportsUsed]

end LiveExports

import LiveExports.Proofs.Graph.Validity
import LiveExports.Proofs.Liveness.Growth
import LiveExports.Proofs.Liveness.Rules

/-!
# The run leaves nothing out

Between turns, whatever is live has its imports demanded, and a demand that is not queued has passed
on all the sites that it has (`Stage.Saturated`).  So when the queue is empty no rule leads out of
what the stage knows (`Stage.Saturated.closed`).

The invariant survives a turn because stages only grow.  A demand that is not queued afterwards
gained no site in the turn: if it is the one whose turn it was, the turn has served all of its
sites; if not, it was not queued before either, and its sites had been served already.
-/

namespace LiveExports

open Relation

namespace Stage

variable {graph : Graph} {entries : List ModuleId} {entryExportsUsed : Bool} {stage later : Stage}

/-- The imports of a module are demanded on its behalf. -/
def Heeds (graph : Graph) (stage : Stage) (id : ModuleId) : Prop :=
  ∀ edge ∈ graph.requests id,
    ⟨edge.source, edge.name⟩ ∈ stage.sites ⟨edge.target, Wanted.ofImport edge.name⟩ ∧
      edge.source ∈ stage.requesters ⟨edge.target, Wanted.ofImport edge.name⟩

/-- What the live modules run is live, and what they import is demanded. -/
structure Provided (graph : Graph) (stage : Stage) : Prop where
  run : ∀ edge ∈ graph.edges, edge.kind = .imports ∨ edge.kind = .runs →
    edge.source ∈ stage.live → edge.target ∈ stage.live
  heeded : ∀ id ∈ stage.live, stage.Heeds graph id

/-- All is done that a site of a demand calls for. -/
structure Serves (graph : Graph) (stage : Stage) (demand : Demand) (site : UsageSite) : Prop where
  passed : ∀ consequence ∈ graph.consequences demand, site ∈ stage.sites consequence.demand
  requested : ∀ consequence ∈ graph.consequences demand, ∀ id, consequence.requester = some id →
    id ∈ stage.requesters consequence.demand
  credited : ∀ {name}, demand = ⟨demand.module, .named name⟩ →
    graph.declares demand.module name = true → site ∈ stage.uses demand.module name
  awake : graph.isMet demand = true → demand.module ∈ stage.live

/-- Nothing is left out but what the queue still holds. -/
structure Saturated (graph : Graph) (entries : List ModuleId) (entryExportsUsed : Bool)
    (stage : Stage) : Prop extends Provided graph stage where
  entry : ∀ id ∈ entries, graph.contains id = true → id ∈ stage.live
  entryExport : entryExportsUsed = true → ∀ id ∈ entries, ∀ name, graph.declares id name = true →
    ⟨id, name⟩ ∈ stage.sites ⟨id, .named name⟩
  served : ∀ demand, demand ∉ stage.queue → ∀ site ∈ stage.sites demand,
    stage.Serves graph demand site

theorem Heeds.mono (hlater : Extends stage later) {id : ModuleId} (h : stage.Heeds graph id) :
    later.Heeds graph id := by
  intro edge hedge
  obtain ⟨hsite, hrequester⟩ := h edge hedge
  exact ⟨hlater.sites hsite, hlater.requesters hrequester⟩

theorem Serves.mono (hlater : Extends stage later) {demand : Demand} {site : UsageSite}
    (h : stage.Serves graph demand site) : later.Serves graph demand site where
  passed consequence hmem := hlater.sites (h.passed consequence hmem)
  requested consequence hmem id hid := hlater.requesters (h.requested consequence hmem id hid)
  credited hname hdeclares := hlater.uses (h.credited hname hdeclares)
  awake hmet := hlater.live (h.awake hmet)

/-! ## Making modules live -/

theorem heeds_enliven (graph : Graph) (stage : Stage) (id : ModuleId) :
    (stage.enliven graph id).Heeds graph id := by
  intro edge hedge
  have hraised : ⟨edge.source, edge.name⟩ ∈ ((graph.requests id).foldl raiseImport stage).sites
        ⟨edge.target, Wanted.ofImport edge.name⟩ ∧
      edge.source ∈ ((graph.requests id).foldl raiseImport stage).requesters
        ⟨edge.target, Wanted.ofImport edge.name⟩ := by
    refine Grows.foldl_of_mem (fun stage _ => grows_raise stage _ _ _)
      (P := fun stage => _ ∈ stage.sites _ ∧ _ ∈ stage.requesters _) ?_ ?_ hedge stage
    · exact fun hgrows h => ⟨hgrows.sites h.1, hgrows.requesters h.2⟩
    · intro stage
      refine ⟨mem_sites_raise.mpr (Or.inr ⟨rfl, ?_⟩), mem_requesters_raise.mpr (Or.inr ⟨rfl, rfl⟩)⟩
      exact SortedSet.mem_ofList.mpr (List.mem_singleton_self _)
  exact hraised

theorem heeds_activate {roots : List ModuleId} (h : ∀ id ∈ stage.live, stage.Heeds graph id) :
    ∀ id ∈ (stage.activate graph roots).live, (stage.activate graph roots).Heeds graph id := by
  refine List.foldlRecOn (motive := fun stage : Stage => ∀ id ∈ stage.live, stage.Heeds graph id)
    _ _ h ?_
  intro stage h id _ other hother
  rcases mem_live_enliven.mp hother with rfl | hold
  · exact heeds_enliven graph stage other
  · exact (h other hold).mono (grows_enliven graph stage id).toExtends

theorem Provided.activate (hvalid : graph.Valid) (h : stage.Provided graph)
    (roots : List ModuleId) : (stage.activate graph roots).Provided graph where
  run := by
    intro edge hedge hkind hsource
    rw [mem_live_activate] at hsource ⊢
    rcases hsource with hold | hreached
    · exact Or.inl (h.run edge hedge hkind hold)
    · have htarget : edge.target ∈ graph.ids := Graph.mem_ids_iff.mpr (hvalid.edgeTarget edge hedge)
      exact Or.inr (mem_reachable_of_step hreached
        ⟨Graph.mem_next_execution_iff.mpr ⟨edge, hedge, rfl, rfl, hkind⟩, htarget⟩)
  heeded := heeds_activate h.heeded

theorem Provided.awaken (hvalid : graph.Valid) (h : stage.Provided graph) (demand : Demand) :
    (stage.awaken graph demand).Provided graph := by
  unfold Stage.awaken
  split
  · exact h.activate hvalid _
  · exact h

/-- Raising demands leaves the live modules provided for. -/
theorem Provided.of_extends (h : stage.Provided graph) (hlater : Extends stage later)
    (hlive : later.live = stage.live) : later.Provided graph where
  run := by
    rw [hlive]
    exact h.run
  heeded := by
    intro id hid
    rw [hlive] at hid
    exact (h.heeded id hid).mono hlater

theorem mem_live_awaken_of_isMet {demand : Demand} (hmet : graph.isMet demand = true) :
    demand.module ∈ (stage.awaken graph demand).live := by
  unfold awaken
  split
  · obtain ⟨name, _, hdeclares⟩ := Graph.isMet_iff.mp hmet
    have hnode : demand.module ∈ graph.ids :=
      Graph.mem_ids_iff.mpr (Graph.contains_of_declares hdeclares)
    exact mem_live_activate.mpr (Or.inr (mem_reachable_of_root (List.mem_singleton_self _) hnode))
  · rename_i hawake
    by_contra hsleeps
    exact hawake ⟨hmet, hsleeps⟩

/-! ## A turn serves its demand -/

theorem serves_turn {demand : Demand} {queue : List Demand}
    (hqueue : stage.queue = demand :: queue) {site : UsageSite}
    (hsite : site ∈ stage.sites demand) : (stage.turn graph).Serves graph demand site := by
  rw [turn_of_queue hqueue]
  set awake := ({ stage with queue } : Stage).awaken graph demand with hawake
  set sites := stage.sites demand
  have hgrows : ∀ stage (consequence : Consequence),
      Grows stage (stage.raise consequence.demand sites consequence.requester) :=
    fun stage _ => grows_raise stage _ _ _
  have hpassed := grows_passOn graph (awake.credit graph demand sites) demand sites
  -- What is raised for one consequence is kept while the others are raised.
  refine ⟨fun consequence hmem => ?_, fun consequence hmem id hid => ?_, fun hname hdeclares => ?_,
    fun hmet => ?_⟩
  · refine Grows.foldl_of_mem hgrows (P := fun stage => site ∈ stage.sites consequence.demand)
      (fun hgrows h => hgrows.sites h) (fun stage => ?_) hmem _
    exact mem_sites_raise.mpr (Or.inr ⟨rfl, hsite⟩)
  · refine Grows.foldl_of_mem hgrows (P := fun stage => id ∈ stage.requesters consequence.demand)
      (fun hgrows h => hgrows.requesters h) (fun stage => ?_) hmem _
    exact mem_requesters_raise.mpr (Or.inr ⟨rfl, hid⟩)
  · exact hpassed.uses (mem_uses_credit.mpr (Or.inr ⟨hname, hdeclares, hsite⟩))
  · rw [live_passOn, live_credit, hawake]
    exact mem_live_awaken_of_isMet hmet

/-! ## The run -/

theorem Provided.turn (hvalid : graph.Valid) (h : stage.Provided graph) :
    (stage.turn graph).Provided graph := by
  cases hqueue : stage.queue with
  | nil =>
      rw [turn_of_queue_nil hqueue]
      exact h
  | cons demand queue =>
      have htaken : ({ stage with queue } : Stage).Provided graph := ⟨h.run, h.heeded⟩
      have hawake := htaken.awaken hvalid demand
      rw [turn_of_queue hqueue]
      refine hawake.of_extends ?_ (by rw [live_passOn, live_credit])
      exact ((grows_credit graph _ demand _).trans (grows_passOn graph _ demand _)).toExtends

theorem Saturated.turn (hvalid : graph.Valid)
    (h : Saturated graph entries entryExportsUsed stage) :
    Saturated graph entries entryExportsUsed (stage.turn graph) where
  toProvided := h.toProvided.turn hvalid
  entry id hentry hnode := (extends_turn graph stage).live (h.entry id hentry hnode)
  entryExport hflag id hentry name hdeclares :=
    (extends_turn graph stage).sites (h.entryExport hflag id hentry name hdeclares)
  served := by
    intro other hother site hsite
    cases hqueue : stage.queue with
    | nil =>
        rw [turn_of_queue_nil hqueue] at hother hsite ⊢
        exact h.served other hother site hsite
    | cons demand queue =>
        have hgrows := grows_turn graph hqueue
        -- A demand that is not queued at the end gained no site in this turn.
        have hold : site ∈ stage.sites other := (hgrows.gained hsite).resolve_right hother
        by_cases hsame : other = demand
        · subst hsame
          exact serves_turn hqueue hold
        · -- It was not queued before either, so the site had been served by then.
          have hbefore : other ∉ stage.queue := by
            rw [hqueue, List.mem_cons]
            exact fun h => h.elim hsame fun hrest => hother (hgrows.queue hrest)
          exact (h.served other hbefore site hold).mono (extends_turn graph stage)

theorem Saturated.takeTurns (hvalid : graph.Valid) (bound : Nat)
    (h : Saturated graph entries entryExportsUsed stage) :
    Saturated graph entries entryExportsUsed (stage.takeTurns graph bound) :=
  takeTurns_keeps (fun _ h => h.turn hvalid) bound h

theorem mem_sites_raiseEntryExports {id : ModuleId} {name : String} (hentry : id ∈ entries)
    (hdeclares : graph.declares id name = true) :
    ⟨id, name⟩ ∈ (stage.raiseEntryExports graph entries).sites ⟨id, .named name⟩ := by
  have hitem : (id, name) ∈ entryExports graph entries :=
    mem_entryExports_iff.mpr ⟨hentry, hdeclares⟩
  rw [raiseEntryExports_eq]
  refine Grows.foldl_of_mem (P := fun stage => ⟨id, name⟩ ∈ stage.sites ⟨id, .named name⟩)
    (fun stage _ => grows_raise stage _ _ _) (fun hgrows h => hgrows.sites h) ?_ hitem stage
  intro stage
  refine mem_sites_raise.mpr (Or.inr ⟨rfl, ?_⟩)
  exact SortedSet.mem_ofList.mpr (List.mem_singleton_self _)

theorem grows_initial (graph : Graph) (entries : List ModuleId) (entryExportsUsed : Bool) :
    Grows (({} : Stage).activate graph entries) (initial graph entries entryExportsUsed) := by
  unfold initial
  split
  · exact grows_raiseEntryExports graph _ entries
  · exact Grows.refl _

/-- Before the first turn every demand is queued. -/
theorem Saturated.initial (hvalid : graph.Valid) (entries : List ModuleId)
    (entryExportsUsed : Bool) :
    Saturated graph entries entryExportsUsed (Stage.initial graph entries entryExportsUsed) where
  toProvided := by
    have hempty : ({} : Stage).Provided graph :=
      ⟨fun _ _ _ h => absurd h (SortedSet.not_mem_empty _),
        fun _ h => absurd h (SortedSet.not_mem_empty _)⟩
    refine (hempty.activate hvalid entries).of_extends
      (grows_initial graph entries entryExportsUsed).toExtends ?_
    unfold Stage.initial
    split
    · rw [live_raiseEntryExports]
    · rfl
  entry id hentry hnode := by
    apply (grows_initial graph entries entryExportsUsed).live
    exact mem_live_activate.mpr
      (Or.inr (mem_reachable_of_root hentry (Graph.mem_ids_iff.mpr hnode)))
  entryExport hflag id hentry name hdeclares := by
    rw [Stage.initial, if_pos hflag]
    exact mem_sites_raiseEntryExports hentry hdeclares
  served := by
    intro demand hdemand site hsite
    have hgrows : Grows {} (Stage.initial graph entries entryExportsUsed) :=
      (grows_activate graph {} entries).trans (grows_initial graph entries entryExportsUsed)
    rcases hgrows.gained hsite with hnone | hqueued
    · exact absurd hnone (SortedSet.not_mem_empty site)
    · exact absurd hqueued hdemand

/-! ## When the queue is empty -/

/-- A demand of a stage is one that has a site. -/
def Demands (stage : Stage) (demand : Demand) : Prop :=
  ∃ site, site ∈ stage.sites demand

theorem Saturated.mem_sites_of_origin (hstage : Saturated graph entries entryExportsUsed stage)
    {site : UsageSite} {demand : Demand}
    (h : Origin graph entries entryExportsUsed (· ∈ stage.live) site demand) :
    site ∈ stage.sites demand := by
  rcases h.cases_requests with ⟨edge, hedge, hlive, rfl, rfl⟩ | ⟨hflag, hentry, hdeclares, rfl⟩
  · exact (hstage.heeded _ hlive edge hedge).1
  · exact hstage.entryExport hflag _ hentry _ hdeclares

theorem Saturated.serves (hstage : Saturated graph entries entryExportsUsed stage)
    (hqueue : stage.queue = []) {demand : Demand} {site : UsageSite}
    (hsite : site ∈ stage.sites demand) : stage.Serves graph demand site := by
  apply hstage.served demand _ site hsite
  rw [hqueue]
  exact List.not_mem_nil

theorem Saturated.mem_sites_of_follows (hstage : Saturated graph entries entryExportsUsed stage)
    (hqueue : stage.queue = []) {demand other : Demand} (hfollows : graph.Follows demand other)
    {site : UsageSite} (hsite : site ∈ stage.sites demand) : site ∈ stage.sites other := by
  obtain ⟨consequence, hmem, rfl⟩ := Graph.exists_consequence_of_follows hfollows
  exact (hstage.serves hqueue hsite).passed consequence hmem

/-- When nothing is left to do, a demand has every site from which it arises. -/
theorem Saturated.mem_sites_of_arises (hstage : Saturated graph entries entryExportsUsed stage)
    (hqueue : stage.queue = []) {site : UsageSite} {demand : Demand}
    (h : Arises graph entries entryExportsUsed (· ∈ stage.live) site demand) :
    site ∈ stage.sites demand := by
  obtain ⟨first, horigin, hchain⟩ := h
  induction hchain with
  | refl => exact hstage.mem_sites_of_origin horigin
  | tail _ hfollows ih => exact hstage.mem_sites_of_follows hqueue hfollows ih

/-- When nothing is left to do, no rule leads out of what is known. -/
theorem Saturated.closed (hstage : Saturated graph entries entryExportsUsed stage)
    (hqueue : stage.queue = []) :
    Closed graph entries entryExportsUsed (· ∈ stage.live) stage.Demands where
  entry := hstage.entry
  run := hstage.run
  origin horigin := ⟨_, hstage.mem_sites_of_origin horigin⟩
  declared := by
    rintro id name ⟨site, hsite⟩ hdeclares
    exact (hstage.serves hqueue hsite).awake (Graph.isMet_iff.mpr ⟨name, rfl, hdeclares⟩)
  follows := by
    rintro demand other hfollows ⟨site, hsite⟩
    exact ⟨site, hstage.mem_sites_of_follows hqueue hfollows hsite⟩

end Stage

end LiveExports

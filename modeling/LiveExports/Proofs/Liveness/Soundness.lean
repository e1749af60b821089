import LiveExports.Proofs.Liveness.Growth
import LiveExports.Proofs.Liveness.Rules

/-!
# Every stage keeps to the rules

Let `live` and `demanded` be any sets that are closed under the rules.  Then no stage goes beyond
them: its modules are live, the sites of a demand are sites from which the demand arises, and a
module that is noted as the requester of a demand asks for it.  As the sets are arbitrary, the
stages lie within the least ones.

The invariant (`Stage.Sound`) says besides that a demand is known only together with a site, and
that the uses noted for an export are sites of the demand for it.
-/

namespace LiveExports

open Relation

variable {graph : Graph} {entries : List ModuleId} {entryExportsUsed : Bool}
  {live : ModuleId → Prop} {demanded : Demand → Prop} {stage : Stage}

/-- What a stage knows is so by the rules. -/
structure Stage.Sound (graph : Graph) (entries : List ModuleId) (entryExportsUsed : Bool)
    (live : ModuleId → Prop) (demanded : Demand → Prop) (stage : Stage) : Prop where
  alive : ∀ id ∈ stage.live, live id
  sites : ∀ demand, ∀ site ∈ stage.sites demand,
    Arises graph entries entryExportsUsed live site demand
  requesters : ∀ demand, ∀ id ∈ stage.requesters demand, graph.Requests live demanded id demand
  known : ∀ demand ∈ stage.standings.keys, ∃ site, site ∈ stage.sites demand
  queued : ∀ demand ∈ stage.queue, ∃ site, site ∈ stage.sites demand
  used : ∀ {module name set}, stage.used.find? (module, name) = some set →
    graph.declares module name = true ∧ (∃ site, site ∈ set) ∧
      ∀ site ∈ set, site ∈ stage.sites ⟨module, .named name⟩

namespace Stage.Sound

theorem empty : Sound graph entries entryExportsUsed live demanded {} where
  alive _ h := absurd h (SortedSet.not_mem_empty _)
  sites _ _ h := absurd h (SortedSet.not_mem_empty _)
  requesters _ _ h := absurd h (SortedSet.not_mem_empty _)
  known _ h := absurd h List.not_mem_nil
  queued _ h := absurd h List.not_mem_nil
  used h := nomatch h

theorem of_mem_uses (hstage : Sound graph entries entryExportsUsed live demanded stage)
    {module : ModuleId} {name : String} {site : UsageSite} (hsite : site ∈ stage.uses module name) :
    graph.declares module name = true ∧ site ∈ stage.sites ⟨module, .named name⟩ := by
  unfold uses at hsite
  cases hset : stage.used.find? (module, name) with
  | none =>
      rw [hset] at hsite
      exact absurd hsite (SortedSet.not_mem_empty site)
  | some set =>
      rw [hset] at hsite
      obtain ⟨hdeclares, _, hsites⟩ := hstage.used hset
      exact ⟨hdeclares, hsites site hsite⟩

/-! ## One operation -/

theorem raise (hstage : Sound graph entries entryExportsUsed live demanded stage)
    {demand : Demand} {sites : SortedSet UsageSite} {requester : Option ModuleId}
    (harises : ∀ site ∈ sites, Arises graph entries entryExportsUsed live site demand)
    (hsome : ∃ site, site ∈ sites)
    (hrequester : ∀ id, requester = some id → graph.Requests live demanded id demand) :
    Sound graph entries entryExportsUsed live demanded (stage.raise demand sites requester) where
  alive := hstage.alive
  sites other site hsite := by
    rcases mem_sites_raise.mp hsite with hold | ⟨rfl, hnew⟩
    · exact hstage.sites other site hold
    · exact harises site hnew
  requesters other id hid := by
    rcases mem_requesters_raise.mp hid with hold | ⟨rfl, hnew⟩
    · exact hstage.requesters other id hold
    · exact hrequester id hnew
  known other hother := by
    rcases mem_keys_raise.mp hother with hold | rfl
    · obtain ⟨site, hsite⟩ := hstage.known other hold
      exact ⟨site, mem_sites_raise.mpr (Or.inl hsite)⟩
    · obtain ⟨site, hsite⟩ := hsome
      exact ⟨site, mem_sites_raise.mpr (Or.inr ⟨rfl, hsite⟩)⟩
  queued other hother := by
    rcases mem_queue_raise.mp hother with hold | ⟨rfl, site, hsite, _⟩
    · obtain ⟨site, hsite⟩ := hstage.queued other hold
      exact ⟨site, mem_sites_raise.mpr (Or.inl hsite)⟩
    · exact ⟨site, mem_sites_raise.mpr (Or.inr ⟨rfl, hsite⟩)⟩
  used hset := by
    obtain ⟨hdeclares, hsome, hsites⟩ := hstage.used hset
    exact ⟨hdeclares, hsome, fun site hsite => mem_sites_raise.mpr (Or.inl (hsites site hsite))⟩

/-- A demand may be raised at the site where it begins. -/
theorem raiseOrigin (hstage : Sound graph entries entryExportsUsed live demanded stage)
    {demand : Demand} {site : UsageSite} {requester : Option ModuleId}
    (horigin : Origin graph entries entryExportsUsed live site demand)
    (hrequester : ∀ id, requester = some id → graph.Requests live demanded id demand) :
    Sound graph entries entryExportsUsed live demanded
      (stage.raise demand (SortedSet.ofList [site]) requester) := by
  refine hstage.raise ?_ ?_ hrequester
  · intro other hother
    rw [SortedSet.mem_ofList, List.mem_singleton] at hother
    rw [hother]
    exact horigin.arises
  · exact ⟨site, SortedSet.mem_ofList.mpr (List.mem_singleton_self site)⟩

theorem raiseImport (hstage : Sound graph entries entryExportsUsed live demanded stage)
    {id : ModuleId} (hlive : live id) {edge : Edge} (hedge : edge ∈ graph.requests id) :
    Sound graph entries entryExportsUsed live demanded (stage.raiseImport edge) := by
  apply hstage.raiseOrigin (origin_of_mem_requests entries entryExportsUsed hedge hlive)
  rintro _ ⟨rfl⟩
  obtain ⟨hmem, rfl, hkind, hends⟩ := Graph.mem_requests_iff.mp hedge
  exact .imported hmem hkind hends hlive

theorem enliven (hstage : Sound graph entries entryExportsUsed live demanded stage)
    {id : ModuleId} (hlive : live id) :
    Sound graph entries entryExportsUsed live demanded (stage.enliven graph id) := by
  have hrequested : Sound graph entries entryExportsUsed live demanded
      ((graph.requests id).foldl Stage.raiseImport stage) :=
    List.foldlRecOn _ _ hstage fun _ hstage _ hedge => hstage.raiseImport hlive hedge
  exact
    { hrequested with
      alive := by
        intro other hother
        rcases SortedSet.mem_insert.mp hother with rfl | hold
        · exact hlive
        · exact hrequested.alive other hold }

theorem activate (hclosed : Closed graph entries entryExportsUsed live demanded)
    (hstage : Sound graph entries entryExportsUsed live demanded stage) {roots : List ModuleId}
    (hroots : ∀ root ∈ roots, graph.contains root = true → live root) :
    Sound graph entries entryExportsUsed live demanded (stage.activate graph roots) := by
  refine List.foldlRecOn _ _ hstage fun _ hstage id hid => hstage.enliven ?_
  have hreached : id ∈ graph.reachableFrom .execution roots := by
    rw [fresh, ← SortedSet.mem_def, SortedSet.mem_ofList] at hid
    exact (List.mem_filter.mp hid).1
  exact Graph.mem_of_reachableFrom hroots hclosed.run hreached

theorem awaken (hclosed : Closed graph entries entryExportsUsed live demanded)
    (hstage : Sound graph entries entryExportsUsed live demanded stage) {demand : Demand}
    (hdemanded : demanded demand) :
    Sound graph entries entryExportsUsed live demanded (stage.awaken graph demand) := by
  unfold Stage.awaken
  split
  · rename_i hsleeps
    apply hstage.activate hclosed
    intro root hroot _
    obtain rfl := List.mem_singleton.mp hroot
    obtain ⟨name, hname, hdeclares⟩ := Graph.isMet_iff.mp hsleeps.1
    exact hclosed.declared (hname ▸ hdemanded) hdeclares
  · exact hstage

theorem credit (hstage : Sound graph entries entryExportsUsed live demanded stage)
    {demand : Demand} {sites : SortedSet UsageSite} (hsome : ∃ site, site ∈ sites)
    (hsites : ∀ site ∈ sites, site ∈ stage.sites demand) :
    Sound graph entries entryExportsUsed live demanded (stage.credit graph demand sites) := by
  have hused : ∀ {module name set},
      (stage.credit graph demand sites).used.find? (module, name) = some set →
      graph.declares module name = true ∧ (∃ site, site ∈ set) ∧
        ∀ site ∈ set, site ∈ stage.sites ⟨module, .named name⟩ := by
    intro module name set hset
    rw [find?_used_credit] at hset
    split at hset
    · rename_i hmet
      obtain ⟨rfl, hdeclares⟩ := hmet
      obtain rfl := Option.some.inj hset
      obtain ⟨first, hfirst⟩ := hsome
      refine ⟨hdeclares, ⟨first, SortedSet.mem_union.mpr (Or.inr hfirst)⟩, ?_⟩
      intro site hsite
      -- Uses noted earlier are sites by the invariant, those noted now by assumption.
      rcases SortedSet.mem_union.mp hsite with hold | hnew
      · exact (hstage.of_mem_uses hold).2
      · exact hsites site hnew
    · exact hstage.used hset
  rw [credit_eq]
  exact { hstage with used := hused }

theorem passOn (hstage : Sound graph entries entryExportsUsed live demanded stage)
    {demand : Demand} (hdemanded : demanded demand) {sites : SortedSet UsageSite}
    (hsome : ∃ site, site ∈ sites)
    (harises : ∀ site ∈ sites, Arises graph entries entryExportsUsed live site demand) :
    Sound graph entries entryExportsUsed live demanded (stage.passOn graph demand sites) := by
  refine List.foldlRecOn _ _ hstage fun _ hstage consequence hmem => hstage.raise ?_ hsome ?_
  · intro site hsite
    exact (harises site hsite).of_follows (Graph.follows_of_mem_consequences hmem).1
  · intro id hid
    exact Graph.requests_of_requester hmem hid hdemanded

/-! ## The run -/

theorem turn (hclosed : Closed graph entries entryExportsUsed live demanded)
    (hstage : Sound graph entries entryExportsUsed live demanded stage) :
    Sound graph entries entryExportsUsed live demanded (stage.turn graph) := by
  unfold Stage.turn
  split
  · exact hstage
  · rename_i demand queue hqueue
    have harises := hstage.sites demand
    -- A queued demand has a site, so the rules give it.
    obtain ⟨first, hfirst⟩ := hstage.queued demand (hqueue ▸ List.mem_cons_self)
    have hdemanded : demanded demand := hclosed.of_arises (harises first hfirst)
    have htaken : Sound graph entries entryExportsUsed live demanded { stage with queue } :=
      { hstage with
        queued := fun other hother => hstage.queued other (hqueue ▸ List.mem_cons_of_mem _ hother) }
    have hawake := htaken.awaken hclosed hdemanded
    have hkept : ∀ site ∈ stage.sites demand,
        site ∈ (({ stage with queue } : Stage).awaken graph demand).sites demand :=
      fun site hsite => (grows_awaken graph { stage with queue } demand).sites hsite
    exact (hawake.credit ⟨first, hfirst⟩ hkept).passOn hdemanded ⟨first, hfirst⟩ harises

theorem takeTurns (hclosed : Closed graph entries entryExportsUsed live demanded) (bound : Nat)
    (hstage : Sound graph entries entryExportsUsed live demanded stage) :
    Sound graph entries entryExportsUsed live demanded (stage.takeTurns graph bound) :=
  takeTurns_keeps (fun _ h => h.turn hclosed) bound hstage

theorem initial (hclosed : Closed graph entries entryExportsUsed live demanded) :
    Sound graph entries entryExportsUsed live demanded
      (Stage.initial graph entries entryExportsUsed) := by
  have hactive : Sound graph entries entryExportsUsed live demanded
      (({} : Stage).activate graph entries) := empty.activate hclosed hclosed.entry
  unfold Stage.initial
  by_cases hflag : entryExportsUsed = true
  · rw [if_pos hflag, raiseEntryExports_eq]
    refine List.foldlRecOn _ _ hactive ?_
    rintro stage hstage ⟨entry, name⟩ hitem
    obtain ⟨hentry, hdeclares⟩ := mem_entryExports_iff.mp hitem
    apply hstage.raiseOrigin (.entryExport hflag hentry hdeclares)
    rintro _ ⟨⟩
  · rw [if_neg hflag]
    exact hactive

end Stage.Sound

/-- No run goes beyond sets that are closed under the rules. -/
theorem Graph.finalStage_sound (hclosed : Closed graph entries entryExportsUsed live demanded) :
    Stage.Sound graph entries entryExportsUsed live demanded
      (graph.finalStage entries entryExportsUsed) :=
  Stage.Sound.takeTurns hclosed graph.turnBound (Stage.Sound.initial hclosed)

end LiveExports

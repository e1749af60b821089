import LiveExports.Liveness.WorkList
import LiveExports.Proofs.Graph.Reachability
import LiveExports.Proofs.Ordered.Size

/-!
# Stages only grow

Every operation on a stage is made of two: raising a demand, and making a module live.  What raising
does is said once, in terms of what a stage knows (its sites, requesters and queue); from there on
the stage's representation is not looked at again.

* `Stage.Grows`: a later stage knows all that an earlier one knew (`Stage.Extends`), and a demand
  that gained a site in between is queued.  This is a preorder, and all operations but taking a
  demand from the queue respect it.
* `Stage.Pays`: the queue gets longer only at the expense of new sites.  The sites of all demands,
  counted together, are the `Stage.weight`.
-/

namespace LiveExports.Stage

open Relation

variable {graph : Graph} {stage later last : Stage}

/-! ## The exports of the entries, and the run -/

/-- The exports that the given modules declare, in the order in which they are raised. -/
def entryExports (graph : Graph) (entries : List ModuleId) : List (ModuleId × String) :=
  entries.flatMap fun entry =>
    ((graph.node? entry).map fun node => node.exports.keys.map (entry, ·)).getD []

theorem mem_entryExports_iff {entries : List ModuleId} {id : ModuleId} {name : String} :
    (id, name) ∈ entryExports graph entries ↔ id ∈ entries ∧ graph.declares id name = true := by
  have hone : ∀ entry, (id, name) ∈
      ((graph.node? entry).map fun node => node.exports.keys.map (entry, ·)).getD [] ↔
        id = entry ∧ graph.declares entry name = true := by
    intro entry
    cases hnode : graph.node? entry with
    | none => simp [Graph.declares, Graph.export?, hnode]
    | some node =>
        rw [Graph.declares_iff_mem_keys hnode]
        simp [and_comm, eq_comm]
  simp only [entryExports, List.mem_flatMap, hone]
  constructor
  · rintro ⟨entry, hentry, rfl, hdeclares⟩
    exact ⟨hentry, hdeclares⟩
  · rintro ⟨hentry, hdeclares⟩
    exact ⟨id, hentry, rfl, hdeclares⟩

/-- The exports of the entries are raised one after the other. -/
theorem raiseEntryExports_eq (graph : Graph) (stage : Stage) (entries : List ModuleId) :
    stage.raiseEntryExports graph entries =
      (entryExports graph entries).foldl (fun stage item => stage.raiseEntryExport item.1 item.2)
        stage := by
  unfold raiseEntryExports entryExports
  induction entries generalizing stage with
  | nil => rfl
  | cons entry entries ih =>
      rw [List.foldl_cons, ih, List.flatMap_cons, List.foldl_append]
      congr 1
      cases graph.node? entry with
      | none => rfl
      | some node => rw [Option.map_some, Option.getD_some, List.foldl_map]

/-- What every turn keeps is kept by a run. -/
theorem takeTurns_keeps {P : Stage → Prop} (hturn : ∀ stage, P stage → P (stage.turn graph))
    (bound : Nat) (hstage : P stage) : P (stage.takeTurns graph bound) := by
  induction bound generalizing stage with
  | zero => exact hstage
  | succ bound ih =>
      unfold takeTurns
      split
      · exact hstage
      · exact ih (hturn stage hstage)

/-! ## Raising a demand -/

theorem standing_raise (demand other : Demand) (sites : SortedSet UsageSite)
    (requester : Option ModuleId) :
    (stage.raise demand sites requester).standing other =
      if other = demand then
        { sites := (stage.sites demand).union sites
          requesters := requester.elim (stage.requesters demand) (stage.requesters demand).insert }
      else stage.standing other := by
  unfold standing raise
  rw [Table.find?_insert]
  split
  · rfl
  · rfl

theorem mem_sites_raise {demand other : Demand} {sites : SortedSet UsageSite}
    {requester : Option ModuleId} {site : UsageSite} :
    site ∈ (stage.raise demand sites requester).sites other ↔
      site ∈ stage.sites other ∨ (other = demand ∧ site ∈ sites) := by
  unfold Stage.sites
  rw [standing_raise]
  by_cases h : other = demand
  · subst h
    simp [Stage.sites]
  · simp [h]

theorem mem_requesters_raise {demand other : Demand} {sites : SortedSet UsageSite}
    {requester : Option ModuleId} {id : ModuleId} :
    id ∈ (stage.raise demand sites requester).requesters other ↔
      id ∈ stage.requesters other ∨ (other = demand ∧ requester = some id) := by
  unfold requesters
  rw [standing_raise]
  by_cases h : other = demand
  · subst h
    cases requester with
    | none => simp [requesters]
    | some requester =>
        simp only [if_true, Option.elim_some, SortedSet.mem_insert, true_and, Option.some.injEq]
        rw [or_comm, eq_comm]
        rfl
  · simp [h]

theorem queue_raise (demand : Demand) (sites : SortedSet UsageSite) (requester : Option ModuleId) :
    (stage.raise demand sites requester).queue =
      if (stage.sites demand).size < ((stage.sites demand).union sites).size ∧
        demand ∉ stage.queue then stage.queue ++ [demand] else stage.queue := rfl

theorem mem_queue_raise {demand other : Demand} {sites : SortedSet UsageSite}
    {requester : Option ModuleId} :
    other ∈ (stage.raise demand sites requester).queue ↔
      other ∈ stage.queue ∨ (other = demand ∧ ∃ site ∈ sites, site ∉ stage.sites demand) := by
  simp only [queue_raise, SortedSet.size_lt_size_union_iff]
  by_cases hnew : ∃ site ∈ sites, site ∉ stage.sites demand
  · by_cases hqueued : demand ∈ stage.queue
    · rw [if_neg (fun h => h.2 hqueued)]
      refine ⟨Or.inl, fun h => h.elim id ?_⟩
      rintro ⟨rfl, _⟩
      exact hqueued
    · rw [if_pos ⟨hnew, hqueued⟩, List.mem_append, List.mem_singleton]
      simp [hnew]
  · rw [if_neg (fun h => hnew h.1)]
    simp [hnew]

theorem live_raiseImport (stage : Stage) (edge : Edge) :
    (stage.raiseImport edge).live = stage.live := rfl

theorem mem_keys_raise {demand other : Demand} {sites : SortedSet UsageSite}
    {requester : Option ModuleId} :
    other ∈ (stage.raise demand sites requester).standings.keys ↔
      other ∈ stage.standings.keys ∨ other = demand := by
  simp only [raise, Table.mem_keys_iff, Table.find?_insert]
  by_cases h : other = demand
  · simp [h]
  · simp [h]

/-! ## Growth -/

/-- What is known stays known. -/
structure Extends (stage later : Stage) : Prop where
  live : ∀ {id}, id ∈ stage.live → id ∈ later.live
  sites : ∀ {demand site}, site ∈ stage.sites demand → site ∈ later.sites demand
  requesters : ∀ {demand id}, id ∈ stage.requesters demand → id ∈ later.requesters demand
  uses : ∀ {module name site}, site ∈ stage.uses module name → site ∈ later.uses module name

/-- What is known stays known, and a demand that gains a site is queued. -/
structure Grows (stage later : Stage) : Prop extends Extends stage later where
  queue : ∀ {demand}, demand ∈ stage.queue → demand ∈ later.queue
  gained : ∀ {demand site}, site ∈ later.sites demand →
    site ∈ stage.sites demand ∨ demand ∈ later.queue

theorem Grows.refl (stage : Stage) : Grows stage stage where
  live h := h
  sites h := h
  requesters h := h
  uses h := h
  queue h := h
  gained h := Or.inl h

theorem Grows.trans (hfirst : Grows stage later) (hsecond : Grows later last) :
    Grows stage last where
  live h := hsecond.live (hfirst.live h)
  sites h := hsecond.sites (hfirst.sites h)
  requesters h := hsecond.requesters (hfirst.requesters h)
  uses h := hsecond.uses (hfirst.uses h)
  queue h := hsecond.queue (hfirst.queue h)
  gained h := by
    rcases hsecond.gained h with hlater | hqueued
    · exact (hfirst.gained hlater).imp id hsecond.queue
    · exact Or.inr hqueued

/-- A stage grows along a list of operations if it grows with each. -/
theorem Grows.foldl {α : Type} {step : Stage → α → Stage}
    (h : ∀ stage a, Grows stage (step stage a))
    (list : List α) (stage : Stage) : Grows stage (list.foldl step stage) := by
  induction list generalizing stage with
  | nil => exact Grows.refl stage
  | cons a list ih => exact (h stage a).trans (ih (step stage a))

/-- What one operation of a list achieves, and growth does not undo, holds after the whole list. -/
theorem Grows.foldl_of_mem {α : Type} {step : Stage → α → Stage}
    (hgrows : ∀ stage a, Grows stage (step stage a)) {P : Stage → Prop}
    (hkept : ∀ {stage later}, Grows stage later → P stage → P later) {a : α}
    (hachieved : ∀ stage, P (step stage a)) {list : List α} (ha : a ∈ list) (stage : Stage) :
    P (list.foldl step stage) := by
  induction list generalizing stage with
  | nil => exact absurd ha List.not_mem_nil
  | cons first list ih =>
      rcases List.mem_cons.mp ha with rfl | ha
      · exact hkept (Grows.foldl hgrows list _) (hachieved stage)
      · exact ih ha (step stage first)

theorem grows_raise (stage : Stage) (demand : Demand) (sites : SortedSet UsageSite)
    (requester : Option ModuleId) : Grows stage (stage.raise demand sites requester) where
  live h := h
  sites h := mem_sites_raise.mpr (Or.inl h)
  requesters h := mem_requesters_raise.mpr (Or.inl h)
  uses h := h
  queue h := mem_queue_raise.mpr (Or.inl h)
  gained := by
    intro other site hsite
    -- A site that is new belongs to the raised demand, and has put it into the queue.
    by_cases hold : site ∈ stage.sites other
    · exact Or.inl hold
    · rcases mem_sites_raise.mp hsite with hsame | ⟨rfl, hnew⟩
      · exact absurd hsame hold
      · exact Or.inr (mem_queue_raise.mpr (Or.inr ⟨rfl, site, hnew, hold⟩))

theorem grows_insert_live (stage : Stage) (id : ModuleId) :
    Grows stage { stage with live := stage.live.insert id } where
  live h := SortedSet.mem_insert.mpr (Or.inr h)
  sites h := h
  requesters h := h
  uses h := h
  queue h := h
  gained h := Or.inl h

theorem grows_enliven (graph : Graph) (stage : Stage) (id : ModuleId) :
    Grows stage (stage.enliven graph id) :=
  (Grows.foldl (fun stage _ => grows_raise stage _ _ _) _ stage).trans (grows_insert_live _ id)

theorem grows_activate (graph : Graph) (stage : Stage) (roots : List ModuleId) :
    Grows stage (stage.activate graph roots) :=
  Grows.foldl (grows_enliven graph) _ stage

theorem grows_awaken (graph : Graph) (stage : Stage) (demand : Demand) :
    Grows stage (stage.awaken graph demand) := by
  unfold awaken
  split
  · exact grows_activate graph stage _
  · exact Grows.refl stage

theorem grows_passOn (graph : Graph) (stage : Stage) (demand : Demand)
    (sites : SortedSet UsageSite) : Grows stage (stage.passOn graph demand sites) :=
  Grows.foldl (fun stage _ => grows_raise stage _ _ _) _ stage

theorem grows_raiseEntryExports (graph : Graph) (stage : Stage) (entries : List ModuleId) :
    Grows stage (stage.raiseEntryExports graph entries) := by
  rw [raiseEntryExports_eq]
  exact Grows.foldl (fun stage _ => grows_raise stage _ _ _) _ stage

/-! ## Uses -/

theorem find?_used_credit (demand : Demand) (sites : SortedSet UsageSite) (module : ModuleId)
    (name : String) :
    (stage.credit graph demand sites).used.find? (module, name) =
      if demand = ⟨module, .named name⟩ ∧ graph.declares module name = true then
        some ((stage.uses module name).union sites)
      else stage.used.find? (module, name) := by
  obtain ⟨owner, wanted⟩ := demand
  cases wanted with
  | named wanted =>
      simp only [credit, Demand.mk.injEq, Wanted.named.injEq]
      by_cases hdeclares : graph.declares owner wanted = true
      · rw [if_pos hdeclares, Table.find?_insert]
        by_cases hsame : (module, name) = (owner, wanted)
        · obtain ⟨rfl, rfl⟩ := Prod.mk.inj hsame
          rw [if_pos rfl, if_pos ⟨⟨rfl, rfl⟩, hdeclares⟩]
        · rw [if_neg hsame, if_neg]
          rintro ⟨⟨rfl, rfl⟩, _⟩
          exact hsame rfl
      · rw [if_neg hdeclares, if_neg]
        rintro ⟨⟨rfl, rfl⟩, h⟩
        exact hdeclares h
  | all => simp [credit]
  | allButDefault => simp [credit]

theorem mem_uses_credit {demand : Demand} {sites : SortedSet UsageSite} {module : ModuleId}
    {name : String} {site : UsageSite} :
    site ∈ (stage.credit graph demand sites).uses module name ↔
      site ∈ stage.uses module name ∨
        (demand = ⟨module, .named name⟩ ∧ graph.declares module name = true ∧ site ∈ sites) := by
  rw [uses, find?_used_credit]
  by_cases h : demand = ⟨module, .named name⟩ ∧ graph.declares module name = true
  · rw [if_pos h, Option.getD_some, SortedSet.mem_union]
    simp [h]
  · rw [if_neg h]
    refine ⟨Or.inl, fun hor => hor.elim id ?_⟩
    rintro ⟨hdemand, hdeclares, _⟩
    exact absurd ⟨hdemand, hdeclares⟩ h

/-- Noting uses touches nothing else. -/
theorem credit_eq (graph : Graph) (stage : Stage) (demand : Demand) (sites : SortedSet UsageSite) :
    stage.credit graph demand sites =
      { stage with used := (stage.credit graph demand sites).used } := by
  unfold credit
  split
  · split <;> rfl
  · rfl

theorem grows_credit (graph : Graph) (stage : Stage) (demand : Demand)
    (sites : SortedSet UsageSite) : Grows stage (stage.credit graph demand sites) := by
  have huses : ∀ {module name site}, site ∈ stage.uses module name →
      site ∈ (stage.credit graph demand sites).uses module name :=
    fun h => mem_uses_credit.mpr (Or.inl h)
  rw [credit_eq] at huses ⊢
  exact
    { live := id
      sites := id
      requesters := id
      uses := huses
      queue := id
      gained := Or.inl }

/-! ## What becomes live -/

theorem live_foldl {α : Type} {step : Stage → α → Stage}
    (h : ∀ stage a, (step stage a).live = stage.live) (list : List α) (stage : Stage) :
    (list.foldl step stage).live = stage.live := by
  induction list generalizing stage with
  | nil => rfl
  | cons a list ih => rw [List.foldl_cons, ih, h]

theorem mem_live_enliven {id other : ModuleId} :
    other ∈ (stage.enliven graph id).live ↔ other = id ∨ other ∈ stage.live := by
  have hsame : ((graph.requests id).foldl raiseImport stage).live = stage.live :=
    live_foldl live_raiseImport _ stage
  simp only [enliven, hsame, SortedSet.mem_insert]

theorem mem_live_foldl_enliven {ids : List ModuleId} {id : ModuleId} :
    id ∈ (ids.foldl (enliven graph) stage).live ↔ id ∈ stage.live ∨ id ∈ ids := by
  induction ids generalizing stage with
  | nil => simp
  | cons first ids ih =>
      rw [List.foldl_cons, ih, mem_live_enliven, List.mem_cons]
      tauto

theorem mem_live_activate {roots : List ModuleId} {id : ModuleId} :
    id ∈ (stage.activate graph roots).live ↔
      id ∈ stage.live ∨ id ∈ graph.reachableFrom .execution roots := by
  unfold activate fresh
  rw [mem_live_foldl_enliven, ← SortedSet.mem_def, SortedSet.mem_ofList, List.mem_filter,
    decide_eq_true_eq]
  tauto

theorem live_credit (graph : Graph) (stage : Stage) (demand : Demand)
    (sites : SortedSet UsageSite) : (stage.credit graph demand sites).live = stage.live := by
  rw [credit_eq]

theorem live_passOn (graph : Graph) (stage : Stage) (demand : Demand)
    (sites : SortedSet UsageSite) : (stage.passOn graph demand sites).live = stage.live := by
  apply live_foldl
  intro stage consequence
  rfl

theorem live_raiseEntryExports (graph : Graph) (stage : Stage) (entries : List ModuleId) :
    (stage.raiseEntryExports graph entries).live = stage.live := by
  rw [raiseEntryExports_eq]
  apply live_foldl
  intro stage item
  rfl

/-! ## A turn -/

theorem turn_of_queue {demand : Demand} {queue : List Demand}
    (hqueue : stage.queue = demand :: queue) :
    stage.turn graph =
      ((({ stage with queue } : Stage).awaken graph demand).credit graph demand
        (stage.sites demand)).passOn graph demand (stage.sites demand) := by
  rw [turn, hqueue]

theorem turn_of_queue_nil (hqueue : stage.queue = []) : stage.turn graph = stage := by
  rw [turn, hqueue]

/-- Without the demand that is taken from the queue, a turn is growth. -/
theorem grows_turn (graph : Graph) {demand : Demand} {queue : List Demand}
    (hqueue : stage.queue = demand :: queue) :
    Grows { stage with queue } (stage.turn graph) := by
  rw [turn_of_queue hqueue]
  exact ((grows_awaken graph _ demand).trans (grows_credit graph _ demand _)).trans
    (grows_passOn graph _ demand _)

theorem extends_turn (graph : Graph) (stage : Stage) : Extends stage (stage.turn graph) := by
  cases hqueue : stage.queue with
  | nil =>
      rw [turn_of_queue_nil hqueue]
      exact (Grows.refl stage).toExtends
  | cons demand queue =>
      have hgrows := grows_turn graph hqueue
      exact ⟨hgrows.live, hgrows.sites, hgrows.requesters, hgrows.uses⟩

/-! ## What the queue costs -/

/-- The sites of all demands, counted together. -/
def weight (stage : Stage) : Nat :=
  stage.standings.total fun standing => standing.sites.size

/-- The queue grows by no more than the weight does. -/
def Pays (stage later : Stage) : Prop :=
  later.queue.length + stage.weight ≤ stage.queue.length + later.weight

theorem Pays.refl (stage : Stage) : Pays stage stage := Nat.le_refl _

theorem Pays.trans (hfirst : Pays stage later) (hsecond : Pays later last) : Pays stage last := by
  unfold Pays at *
  omega

theorem Pays.foldl {α : Type} {step : Stage → α → Stage} (h : ∀ stage a, Pays stage (step stage a))
    (list : List α) (stage : Stage) : Pays stage (list.foldl step stage) := by
  induction list generalizing stage with
  | nil => exact Pays.refl stage
  | cons a list ih => exact (h stage a).trans (ih (step stage a))

theorem weight_raise (stage : Stage) (demand : Demand) (sites : SortedSet UsageSite)
    (requester : Option ModuleId) :
    (stage.raise demand sites requester).weight + (stage.sites demand).size =
      stage.weight + ((stage.sites demand).union sites).size := by
  have hbefore : (stage.sites demand).size =
      ((stage.standings.find? demand).map fun standing => standing.sites.size).getD 0 := by
    unfold Stage.sites standing
    cases stage.standings.find? demand with
    | none => rfl
    | some standing => rfl
  conv_lhs => rw [hbefore]
  exact Table.total_insert _ stage.standings demand _

theorem pays_raise (stage : Stage) (demand : Demand) (sites : SortedSet UsageSite)
    (requester : Option ModuleId) : Pays stage (stage.raise demand sites requester) := by
  have hweight := weight_raise stage demand sites requester
  have hgrows := SortedSet.size_le_size_union (stage.sites demand) sites
  unfold Pays
  rw [queue_raise]
  split
  · -- The demand is queued because its sites became more.
    rw [List.length_append, List.length_singleton]
    omega
  · omega

theorem pays_activate (graph : Graph) (stage : Stage) (roots : List ModuleId) :
    Pays stage (stage.activate graph roots) := by
  apply Pays.foldl
  intro stage id
  exact Pays.foldl (fun stage _ => pays_raise stage _ _ _) _ stage

theorem pays_awaken (graph : Graph) (stage : Stage) (demand : Demand) :
    Pays stage (stage.awaken graph demand) := by
  unfold awaken
  split
  · exact pays_activate graph stage _
  · exact Pays.refl stage

theorem pays_credit (graph : Graph) (stage : Stage) (demand : Demand)
    (sites : SortedSet UsageSite) : Pays stage (stage.credit graph demand sites) := by
  rw [credit_eq]
  exact Pays.refl stage

theorem pays_passOn (graph : Graph) (stage : Stage) (demand : Demand)
    (sites : SortedSet UsageSite) : Pays stage (stage.passOn graph demand sites) :=
  Pays.foldl (fun stage _ => pays_raise stage _ _ _) _ stage

theorem pays_raiseEntryExports (graph : Graph) (stage : Stage) (entries : List ModuleId) :
    Pays stage (stage.raiseEntryExports graph entries) := by
  rw [raiseEntryExports_eq]
  exact Pays.foldl (fun stage _ => pays_raise stage _ _ _) _ stage

end LiveExports.Stage

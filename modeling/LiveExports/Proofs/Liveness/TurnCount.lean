import LiveExports.Proofs.Liveness.Provenance

/-!
# How many turns are taken

`Stage.takeTurns` is given a bound.  The run itself has none: it takes turns as long as a demand is
queued (`Stage.Run`).  In a valid graph it comes to an end, in the final stage, after no more turns
than there are sites of demands by then.  A demand has no more sites than there are imports in the
graph and exports of the entries, so the turns are bounded by the demands times these
(`Graph.turns_le_sites`).

Neither the queue nor the demands that are not queued get fewer with every turn.  What pays for the
turns is the weight of the stage: a demand comes back to the queue only with a site that it did not
have (`Stage.length_turn`).
-/

namespace LiveExports

namespace Stage

/-- The run from a stage: turn by turn until the queue is empty.  It is counted how many turns are
taken, and the stage is kept in which the run ends. -/
inductive Run (graph : Graph) : Nat → Stage → Stage → Prop
  | done {stage : Stage} (hqueue : stage.queue = []) : Run graph 0 stage stage
  | turn {turns : Nat} {stage last : Stage} (hqueue : stage.queue ≠ [])
      (hrest : Run graph turns (stage.turn graph) last) : Run graph (turns + 1) stage last

variable {graph : Graph} {stage last : Stage}

/-- A run has one number of turns and one end. -/
theorem Run.unique {turns others : Nat} {other : Stage} (h : Run graph turns stage last)
    (hother : Run graph others stage other) : others = turns ∧ other = last := by
  induction h generalizing others with
  | done hqueue =>
      cases hother with
      | done => exact ⟨rfl, rfl⟩
      | turn hne => exact absurd hqueue hne
  | turn hne _ ih =>
      cases hother with
      | done hqueue => exact absurd hqueue hne
      | turn _ hrest =>
          obtain ⟨rfl, rfl⟩ := ih hrest
          exact ⟨rfl, rfl⟩

/-- A bound that lets the queue run empty does not cut the run short. -/
theorem exists_run_takeTurns {bound : Nat} (h : (stage.takeTurns graph bound).queue = []) :
    ∃ turns, Run graph turns stage (stage.takeTurns graph bound) := by
  induction bound generalizing stage with
  | zero => exact ⟨0, .done h⟩
  | succ bound ih =>
      unfold takeTurns at h ⊢
      by_cases hqueue : stage.queue = []
      · rw [if_pos (List.isEmpty_iff.mpr hqueue)]
        exact ⟨0, .done hqueue⟩
      · rw [if_neg (fun hempty => hqueue (List.isEmpty_iff.mp hempty))] at h ⊢
        obtain ⟨turns, hrest⟩ := ih h
        exact ⟨turns + 1, .turn hqueue hrest⟩

/-- The turns of a run are paid for by what was queued at its start and by the sites it adds. -/
theorem Run.turns_add_weight_le {turns : Nat} (h : Run graph turns stage last) :
    turns + stage.weight ≤ stage.queue.length + last.weight := by
  induction h with
  | done => omega
  | @turn turns stage last hqueue _ ih =>
      obtain ⟨demand, queue, hcons⟩ := List.exists_cons_of_ne_nil hqueue
      have hturn := length_turn graph hcons
      omega

/-- Before the first turn, each queued demand has a site of its own. -/
theorem length_queue_initial_le (graph : Graph) (entries : List ModuleId)
    (entryExportsUsed : Bool) :
    (initial graph entries entryExportsUsed).queue.length ≤
      (initial graph entries entryExportsUsed).weight := by
  have hpays := pays_initial graph entries entryExportsUsed
  have hempty : ({} : Stage).weight = 0 := rfl
  unfold Pays at hpays
  simp only [List.length_nil] at hpays
  omega

end Stage

namespace Graph

/-- The imports of a graph, loops included. -/
def importCount (graph : Graph) : Nat :=
  graph.edges.countP (·.kind == .imports)

/-- The exports of those modules of the graph that are entries. -/
def entryExportCount (graph : Graph) (entries : List ModuleId) : Nat :=
  graph.exports.countP (entries.contains ·.1)

/-- The sites at which a demand can begin: the imports, and the exports of the entries. -/
def originSites (graph : Graph) (entries : List ModuleId) : List UsageSite :=
  (graph.edges.filter (·.kind == .imports)).map (fun edge => ⟨edge.source, edge.name⟩) ++
    (graph.exports.filter (entries.contains ·.1)).map fun item => ⟨item.1, item.2.1⟩

variable {graph : Graph} {entries : List ModuleId} {entryExportsUsed : Bool}

theorem length_originSites (graph : Graph) (entries : List ModuleId) :
    (graph.originSites entries).length = graph.importCount + graph.entryExportCount entries := by
  simp only [originSites, importCount, entryExportCount, List.length_append, List.length_map,
    List.countP_eq_length_filter]

theorem mem_originSites_of_origin {live : ModuleId → Prop} {site : UsageSite} {demand : Demand}
    (h : Origin graph entries entryExportsUsed live site demand) :
    site ∈ graph.originSites entries := by
  have himport : ∀ edge ∈ graph.edges, edge.kind = .imports →
      ⟨edge.source, edge.name⟩ ∈ graph.originSites entries := by
    intro edge hedge hkind
    refine List.mem_append_left _ (List.mem_map.mpr ⟨edge, List.mem_filter.mpr ⟨hedge, ?_⟩, rfl⟩)
    exact beq_iff_eq.mpr hkind
  cases h with
  | importedName hedge hkind => exact himport _ hedge hkind
  | importedNamespace hedge hkind => exact himport _ hedge hkind
  | @entryExport id name _ hentry hdeclares =>
      obtain ⟨entry, hexport⟩ := declares_iff.mp hdeclares
      refine List.mem_append_right _ (List.mem_map.mpr ⟨(id, name, entry), ?_, rfl⟩)
      exact List.mem_filter.mpr ⟨mem_exports_iff.mpr hexport, List.contains_iff_mem.mpr hentry⟩

/-- In the end a demand has no more sites than there are places for a demand to begin. -/
theorem weight_finalStage_le (hvalid : graph.Valid) (entries : List ModuleId)
    (entryExportsUsed : Bool) :
    (graph.finalStage entries entryExportsUsed).weight ≤
      (graph.finalStage entries entryExportsUsed).standings.size *
        (graph.importCount + graph.entryExportCount entries) := by
  rw [← length_originSites]
  apply Table.total_le
  intro demand standing hstanding
  apply SortedSet.size_le_length
  intro site hsite
  have hknown : site ∈ (graph.finalStage entries entryExportsUsed).sites demand := by
    rw [Stage.sites, Stage.standing, hstanding]
    exact hsite
  obtain ⟨first, horigin, _⟩ :=
    (mem_sites_finalStage_iff hvalid entries entryExportsUsed).mp hknown
  exact mem_originSites_of_origin horigin

/-- In a valid graph the run comes to an end, in the final stage.  It takes no more turns than the
demands have sites by then, all counted together, and so no more than there are demands times
imports and entry exports. -/
theorem turns_le_sites {graph : Graph} (hvalid : graph.validate = .ok ())
    (entries : List ModuleId) (entryExportsUsed : Bool) :
    ∃ turns,
      (∀ taken last, Stage.Run graph taken (Stage.initial graph entries entryExportsUsed) last ↔
        taken = turns ∧ last = graph.finalStage entries entryExportsUsed) ∧
      turns ≤ (graph.finalStage entries entryExportsUsed).weight ∧
      (graph.finalStage entries entryExportsUsed).weight ≤
        (graph.finalStage entries entryExportsUsed).standings.size *
          (graph.importCount + graph.entryExportCount entries) := by
  rw [validate_eq_ok_iff] at hvalid
  obtain ⟨turns, hrun⟩ :=
    Stage.exists_run_takeTurns (queue_finalStage hvalid entries entryExportsUsed)
  refine ⟨turns, fun taken last => ⟨hrun.unique, ?_⟩, ?_,
    weight_finalStage_le hvalid entries entryExportsUsed⟩
  · rintro ⟨rfl, rfl⟩
    exact hrun
  · have hpaid := hrun.turns_add_weight_le
    have hstart := Stage.length_queue_initial_le graph entries entryExportsUsed
    unfold finalStage
    omega

/-- Stars, forwards and imports all run in circles here. -/
theorem turns_le_sites_ring :
    ring.validate = .ok () ∧
      ∃ turns,
        (∀ taken last, Stage.Run ring taken (Stage.initial ring [⟨"/right.js"⟩] true) last ↔
          taken = turns ∧ last = ring.finalStage [⟨"/right.js"⟩] true) ∧
        turns ≤ (ring.finalStage [⟨"/right.js"⟩] true).weight ∧
        (ring.finalStage [⟨"/right.js"⟩] true).weight ≤
          (ring.finalStage [⟨"/right.js"⟩] true).standings.size *
            (ring.importCount + ring.entryExportCount [⟨"/right.js"⟩]) :=
  ⟨rfl, turns_le_sites rfl [⟨"/right.js"⟩] true⟩

end Graph

end LiveExports

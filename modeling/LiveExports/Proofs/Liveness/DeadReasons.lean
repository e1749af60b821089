import LiveExports.Proofs.Liveness.ForwardTargets

/-!
# The reasons given for dead exports are true

The reason why an export is dead is told from the edges into its module alone, without a look at
what is live or used.  It is true all the same (`Graph.deadReasons_truthful`): an export that a live
module imports is never dead, and neither is one that a used export forwards.  So whoever is blamed
for a dead export is itself not live or not used.  All this is about exports under their own names:
the reason for another one may blame a live module (`Graph.blames_live_misfiled`).
-/

namespace LiveExports

namespace Graph

/-- An edge of a kind by which another module asks for a name of a module, or for all its names. -/
structure Carries (graph : Graph) (kind : EdgeKind) (module : ModuleId) (name : String)
    (edge : Edge) : Prop where
  mem : edge ∈ graph.edges
  kind : edge.kind = kind
  target : edge.target = module
  ends : edge.source ≠ edge.target
  name : edge.name = name ∨ edge.name = namespaceName

variable {graph : Graph} {module : ModuleId} {name : String}

/-! ## What the edges tell -/

theorem any_concerns_iff {kind : EdgeKind} :
    (((graph.edgesInto module).filter (DeadReason.concerns name)).any (·.kind == kind)) = true ↔
      ∃ edge, graph.Carries kind module name edge := by
  simp only [List.any_eq_true, List.mem_filter, edgesInto, DeadReason.concerns, Edge.isLoop,
    Bool.and_eq_true, Bool.or_eq_true, Bool.not_eq_true', beq_eq_false_iff_ne, beq_iff_eq]
  constructor
  · rintro ⟨edge, ⟨⟨hmem, htarget⟩, hends, hname⟩, hkind⟩
    exact ⟨edge, hmem, hkind, htarget, hends, hname⟩
  · rintro ⟨edge, hmem, hkind, htarget, hends, hname⟩
    exact ⟨edge, ⟨⟨hmem, htarget⟩, hends, hname⟩, hkind⟩

/-- Imports are looked for first, then forwards. -/
theorem deadReason_iff :
    (DeadReason.of graph module name = .importedByUnreachable ↔
      ∃ edge, graph.Carries .imports module name edge) ∧
    (DeadReason.of graph module name = .forwardedButUnused ↔
      (¬∃ edge, graph.Carries .imports module name edge) ∧
        ∃ edge, graph.Carries .forwards module name edge) ∧
    (DeadReason.of graph module name = .neverImported ↔
      (¬∃ edge, graph.Carries .imports module name edge) ∧
        ¬∃ edge, graph.Carries .forwards module name edge) := by
  simp only [← any_concerns_iff]
  unfold DeadReason.of
  dsimp only
  generalize (graph.edgesInto module).filter (DeadReason.concerns name) = edges
  cases edges.any (·.kind == .imports) <;> cases edges.any (·.kind == .forwards) <;> decide

theorem deadReason_message_inj {reason other : DeadReason} :
    reason.message = other.message → reason = other := by
  cases reason <;> cases other <;> decide

/-- The reason that a record gives for a dead export. -/
theorem reason_record_iff {stage : Stage} {entry : Export} {reason : DeadReason}
    (hunused : ¬(stage.verdict entry.owner entry.name).used = true) :
    (stage.record graph entry).reason = reason.message ↔
      DeadReason.of graph entry.owner entry.name = reason := by
  have hreason : (stage.record graph entry).reason =
      (DeadReason.of graph entry.owner entry.name).message := if_neg hunused
  rw [hreason]
  exact ⟨deadReason_message_inj, congrArg DeadReason.message⟩

/-! ## What is not dead -/

section FinalStage

variable (hvalid : graph.Valid) (hkeyed : graph.KeyedByName) (entries : List ModuleId)
  (entryExportsUsed : Bool)

include hvalid hkeyed

/-- An export that a live module imports is used. -/
theorem used_of_carries {edge : Edge} (hedge : graph.Carries .imports module name edge)
    (hlive : edge.source ∈ (graph.finalStage entries entryExportsUsed).live)
    (hdeclares : graph.declares module name = true) :
    ((graph.finalStage entries entryExportsUsed).verdict module name).used = true := by
  obtain ⟨hmem, hkind, rfl, hends, hname⟩ := hedge
  have hrequest : edge ∈ graph.requests edge.source :=
    mem_requests_iff.mpr ⟨hmem, rfl, hkind, hends⟩
  have hincludes : (Wanted.ofImport edge.name).includes name = true := by
    by_cases hall : edge.name = namespaceName
    · rw [Wanted.ofImport, if_pos hall]
      rfl
    · rw [Wanted.ofImport, if_neg hall]
      exact beq_iff_eq.mpr (hname.resolve_right hall)
  have htrigger := mem_triggers_of_request hvalid hkeyed entries entryExportsUsed hlive hrequest
    hincludes hdeclares
  obtain ⟨_, htrigger⟩ := Stage.mem_triggers_result.mp htrigger
  exact (used_verdict_finalStage_iff_triggers hvalid entries entryExportsUsed).mpr
    (List.ne_nil_of_mem htrigger)

/-- An export that a used export forwards is used. -/
theorem used_of_forward {record : ExportRecord}
    (hrecord : record ∈ ((graph.finalStage entries entryExportsUsed).result graph).records)
    (htarget : record.target = some ⟨module, name⟩) (hused : record.used = true)
    (hdeclares : graph.declares module name = true) :
    ((graph.finalStage entries entryExportsUsed).verdict module name).used = true := by
  obtain ⟨entry, hentry, rfl⟩ := Stage.exists_export_of_mem_records hvalid hkeyed hrecord
  obtain ⟨_, hdemands⟩ := (used_verdict_finalStage_iff hvalid entries entryExportsUsed).mp hused
  have hclosed := finalStage_closed hvalid entries entryExportsUsed
  rw [used_verdict_finalStage_iff hvalid entries entryExportsUsed]
  exact ⟨hdeclares, hclosed.follows (.forward hentry htarget) hdemands⟩

end FinalStage

/-- The reason given for a dead export is the one that holds.  It is said to be imported by
unreachable modules just if others import it and none of these is live; to be forwarded just if
nobody imports it, others forward it, and no export that forwards it by name is used; and never to
be imported just if nobody imports or forwards it. -/
theorem deadReasons_truthful {graph : Graph} (hvalid : graph.validate = .ok ())
    (hkeyed : graph.KeyedByName) (entries : List ModuleId) (entryExportsUsed : Bool) :
    ∃ result, graph.liveness entries entryExportsUsed = .ok result ∧
      ∀ record ∈ result.records, record.used = false →
        (record.reason = "imported only by unreachable modules" ↔
          (∃ edge, graph.Carries .imports record.module record.name edge) ∧
          ∀ edge, graph.Carries .imports record.module record.name edge →
            edge.source ∉ result.live) ∧
        (record.reason = "re-exported but never used" ↔
          (¬∃ edge, graph.Carries .imports record.module record.name edge) ∧
          (∃ edge, graph.Carries .forwards record.module record.name edge) ∧
          ∀ other ∈ result.records, other.target = some ⟨record.module, record.name⟩ →
            other.used = false) ∧
        (record.reason = "never imported" ↔
          (¬∃ edge, graph.Carries .imports record.module record.name edge) ∧
          ¬∃ edge, graph.Carries .forwards record.module record.name edge) := by
  rw [validate_eq_ok_iff] at hvalid
  refine ⟨_, liveness_of_valid hvalid entries entryExportsUsed, ?_⟩
  intro record hrecord hdead
  obtain ⟨entry, hentry, rfl⟩ := Stage.exists_export_of_mem_records hvalid hkeyed hrecord
  have hdeclares : graph.declares entry.owner entry.name = true := declares_iff.mpr ⟨entry, hentry⟩
  have hunused :
      ¬((graph.finalStage entries entryExportsUsed).verdict entry.owner entry.name).used = true :=
    Bool.not_eq_true _ ▸ hdead
  have hblamed : ∀ edge, graph.Carries .imports entry.owner entry.name edge →
      edge.source ∉ (graph.finalStage entries entryExportsUsed).live := fun edge hedge hlive =>
    hunused (used_of_carries hvalid hkeyed entries entryExportsUsed hedge hlive hdeclares)
  have hforwarders : ∀ other ∈ ((graph.finalStage entries entryExportsUsed).result graph).records,
      other.target = some ⟨entry.owner, entry.name⟩ → other.used = false :=
    fun other hother htarget => Bool.not_eq_true _ ▸ fun hused =>
      hunused
        (used_of_forward hvalid hkeyed entries entryExportsUsed hother htarget hused hdeclares)
  obtain ⟨himported, hforwarded, hnever⟩ := @deadReason_iff graph entry.owner entry.name
  refine ⟨?_, ?_, ?_⟩
  · refine (reason_record_iff hunused).trans (himported.trans ⟨?_, And.left⟩)
    exact fun hedge => ⟨hedge, hblamed⟩
  · refine (reason_record_iff hunused).trans (hforwarded.trans ⟨?_, ?_⟩)
    · exact fun ⟨hnone, hedge⟩ => ⟨hnone, hedge, hforwarders⟩
    · exact fun ⟨hnone, hedge, _⟩ => ⟨hnone, hedge⟩
  · exact (reason_record_iff hunused).trans hnever

/-- A library of which one export is imported by a module that nobody runs, one is forwarded by an
export that nobody uses, one is named by nobody, and one is used. -/
def idleLibrary : Graph :=
  ofParts
    [{ id := ⟨"/main.js"⟩ },
      { id := ⟨"/stray.js"⟩ },
      { id := ⟨"/bar.js"⟩
        exports := Table.ofList
          [("y", { owner := ⟨"/bar.js"⟩, name := "y", target := some ⟨⟨"/lib.js"⟩, "y"⟩ })] },
      { id := ⟨"/lib.js"⟩
        exports := Table.ofList
          [("x", { owner := ⟨"/lib.js"⟩, name := "x" }),
            ("y", { owner := ⟨"/lib.js"⟩, name := "y" }),
            ("z", { owner := ⟨"/lib.js"⟩, name := "z" }),
            ("used", { owner := ⟨"/lib.js"⟩, name := "used" })] }]
    [{ source := ⟨"/bar.js"⟩, target := ⟨"/lib.js"⟩, name := "y", localName := "y",
        kind := .forwards },
      { source := ⟨"/main.js"⟩, target := ⟨"/lib.js"⟩, name := "used", localName := "used",
        kind := .imports },
      { source := ⟨"/stray.js"⟩, target := ⟨"/lib.js"⟩, name := "x", localName := "x",
        kind := .imports }]

theorem deadReasons_truthful_idleLibrary :
    idleLibrary.validate = .ok () ∧ idleLibrary.KeyedByName ∧
      ∃ result, idleLibrary.liveness [⟨"/main.js"⟩] false = .ok result ∧
        (∃ record ∈ result.records, record.used = false ∧
          record.reason = "imported only by unreachable modules" ∧
          ∀ edge, idleLibrary.Carries .imports record.module record.name edge →
            edge.source ∉ result.live) ∧
        (∃ record ∈ result.records, record.used = false ∧
          record.reason = "re-exported but never used" ∧
          ∀ other ∈ result.records, other.target = some ⟨record.module, record.name⟩ →
            other.used = false) ∧
        ∃ record ∈ result.records, record.used = false ∧ record.reason = "never imported" ∧
          ¬∃ edge, idleLibrary.Carries .imports record.module record.name edge := by
  have hvalid : idleLibrary.validate = .ok () := rfl
  have hkeyed : idleLibrary.KeyedByName := by decide
  obtain ⟨result, hresult, htruthful⟩ := deadReasons_truthful hvalid hkeyed [⟨"/main.js"⟩] false
  obtain rfl : (idleLibrary.finalStage [⟨"/main.js"⟩] false).result idleLibrary = result :=
    Except.ok.inj hresult
  have hgiven : ∀ reason ∈ ["imported only by unreachable modules", "re-exported but never used",
      "never imported"], ∃ record ∈
        ((idleLibrary.finalStage [⟨"/main.js"⟩] false).result idleLibrary).records,
      record.used = false ∧ record.reason = reason := by
    decide +kernel
  refine ⟨hvalid, hkeyed, _, hresult, ?_, ?_, ?_⟩
  · obtain ⟨record, hrecord, hdead, hreason⟩ :=
      hgiven "imported only by unreachable modules" (by decide)
    exact ⟨record, hrecord, hdead, hreason, ((htruthful record hrecord hdead).1.mp hreason).2⟩
  · obtain ⟨record, hrecord, hdead, hreason⟩ :=
      hgiven "re-exported but never used" (by decide)
    exact ⟨record, hrecord, hdead, hreason, ((htruthful record hrecord hdead).2.1.mp hreason).2.2⟩
  · obtain ⟨record, hrecord, hdead, hreason⟩ :=
      hgiven "never imported" (by decide)
    exact ⟨record, hrecord, hdead, hreason, ((htruthful record hrecord hdead).2.2.mp hreason).1⟩

/-- A live module asks the library for the name `w`.  It is not declared, as the export of that name
stands under the name `x`; the export is dead, and the reason given blames the live module. -/
theorem blames_live_misfiled :
    (misfiled "w").validate = .ok () ∧
      ∃ result, (misfiled "w").liveness [⟨"/main.js"⟩] false = .ok result ∧
        ∃ record ∈ result.records, record.used = false ∧
          record.reason = "imported only by unreachable modules" ∧
          ∃ edge, (misfiled "w").Carries .imports record.module record.name edge ∧
            edge.source ∈ result.live := by
  have hcarries : (misfiled "w").Carries .imports ⟨"/lib.js"⟩ "w"
      { source := ⟨"/main.js"⟩, target := ⟨"/lib.js"⟩, name := "w", localName := "w"
        kind := .imports } :=
    ⟨List.mem_singleton_self _, rfl, rfl, by decide, Or.inl rfl⟩
  have hrecord : ∃ record ∈
      (((misfiled "w").finalStage [⟨"/main.js"⟩] false).result (misfiled "w")).records,
      (record.module = ⟨"/lib.js"⟩ ∧ record.name = "w") ∧ record.used = false ∧
        record.reason = "imported only by unreachable modules" := by
    decide +kernel
  obtain ⟨record, hmem, ⟨hmodule, hname⟩, hdead, hreason⟩ := hrecord
  refine ⟨rfl, _, liveness_of_valid (validate_eq_ok_iff.mp rfl) _ _, record, hmem, hdead,
    hreason, ?_⟩
  rw [hmodule, hname]
  exact ⟨_, hcarries, by decide +kernel⟩

end Graph

end LiveExports

import LiveExports.Proofs.Liveness.FinalStage

/-!
# Comparing two analyses

Two runs that are to be compared share no stage: other entries or other edges change the order of
all turns.  What they are compared by are the rules.  A verdict is determined by the sites from
which the demand for the export arises (`Graph.verdict_finalStage_eq`), and verdicts determine all
that is said about exports, except that the reason why one is dead is read off the edges of the
graph (`ExportRecord.withoutDeadReason`).
-/

namespace LiveExports

/-- Verdicts agree if both graphs declare the name or neither does, and if the demand for it arises
from the same sites. -/
theorem Graph.verdict_finalStage_eq {graph other : Graph} (hvalid : graph.Valid)
    (hother : other.Valid) {entries others : List ModuleId} {entryExportsUsed : Bool}
    {module : ModuleId} {name : String}
    (hdeclares : graph.declares module name = other.declares module name)
    (harises : graph.declares module name = true → ∀ site,
      Arises graph entries entryExportsUsed
          (· ∈ (graph.finalStage entries entryExportsUsed).live) site ⟨module, .named name⟩ ↔
        Arises other others entryExportsUsed
          (· ∈ (other.finalStage others entryExportsUsed).live) site ⟨module, .named name⟩) :
    (graph.finalStage entries entryExportsUsed).verdict module name =
      (other.finalStage others entryExportsUsed).verdict module name := by
  have htriggers : ((graph.finalStage entries entryExportsUsed).verdict module name).triggers =
      ((other.finalStage others entryExportsUsed).verdict module name).triggers := by
    apply SortedSet.eq_of_mem_iff (SortedSet.sorted _) (SortedSet.sorted _)
    intro site
    refine (mem_triggers_finalStage_iff hvalid entries entryExportsUsed).trans
      (Iff.trans ?_ (mem_triggers_finalStage_iff hother others entryExportsUsed).symm)
    rw [← hdeclares]
    exact and_congr_right fun hdeclared => harises hdeclared site
  have hused : ((graph.finalStage entries entryExportsUsed).verdict module name).used =
      ((other.finalStage others entryExportsUsed).verdict module name).used := by
    rw [Bool.eq_iff_iff, used_verdict_finalStage_iff_triggers hvalid entries entryExportsUsed,
      used_verdict_finalStage_iff_triggers hother others entryExportsUsed, htriggers]
  -- Being used is told by the triggers, so equal triggers make equal verdicts.
  calc (graph.finalStage entries entryExportsUsed).verdict module name
      = ⟨((graph.finalStage entries entryExportsUsed).verdict module name).used,
          ((graph.finalStage entries entryExportsUsed).verdict module name).triggers⟩ := rfl
    _ = (other.finalStage others entryExportsUsed).verdict module name := by
        rw [hused, htriggers]

/-- The record without the reason, if the export is dead. -/
def ExportRecord.withoutDeadReason (record : ExportRecord) : ExportRecord :=
  if record.used then record else { record with reason := "" }

namespace Stage

variable {graph other : Graph} {stage otherStage : Stage}

theorem verdicts_result_eq
    (hlists : ∀ module name, graph.Lists module name ↔ other.Lists module name)
    (hverdict : ∀ module name, stage.verdict module name = otherStage.verdict module name) :
    (stage.result graph).verdicts = (otherStage.result other).verdicts := by
  apply Table.ext_find?
  rintro ⟨module, name⟩
  ext verdict
  rw [find?_verdicts_result_eq_some_iff, find?_verdicts_result_eq_some_iff, hlists, hverdict]

/-- Results on one graph agree if the live modules, the verdicts and the reports agree. -/
theorem result_eq (hlive : stage.live = otherStage.live)
    (hverdict : ∀ module name, stage.verdict module name = otherStage.verdict module name)
    (hreports : stage.missingReports graph = otherStage.missingReports graph) :
    stage.result graph = otherStage.result graph := by
  have hverdicts : (stage.result graph).verdicts = (otherStage.result graph).verdicts :=
    verdicts_result_eq (fun _ _ => Iff.rfl) hverdict
  have hrecords : (stage.result graph).records = (otherStage.result graph).records := by
    apply List.map_congr_left
    rintro ⟨_, _, entry⟩ _
    simp only [record, hverdict]
  calc stage.result graph
      = ⟨(stage.result graph).verdicts, (stage.result graph).records, stage.live,
          stage.missingReports graph⟩ := rfl
    _ = otherStage.result graph := by
        rw [hverdicts, hrecords, hlive, hreports]
        rfl

/-- The graph enters a record only through the reason why an export is dead. -/
theorem withoutDeadReason_record_eq {entry : Export}
    (hverdict :
      stage.verdict entry.owner entry.name = otherStage.verdict entry.owner entry.name) :
    (stage.record graph entry).withoutDeadReason =
      (otherStage.record other entry).withoutDeadReason := by
  cases hused : (otherStage.verdict entry.owner entry.name).used with
  | true => simp [ExportRecord.withoutDeadReason, record, hverdict, hused]
  | false => simp [ExportRecord.withoutDeadReason, record, hverdict, hused]

end Stage

end LiveExports

import LiveExports.Proofs.Liveness.Comparison
import LiveExports.Proofs.Liveness.Provision

/-!
# Analyses from several entries

From the entries of two lists, an analysis finds what the analyses from each of the lists find,
taken together, and nothing else (`Graph.liveness_append`).  So more entries never make anything
dead, and of a list of entries only the set of those that are modules of the graph counts.

## Strategy

No rule has two premises about what is live or demanded.  Sets that are closed for one list of
entries therefore join with sets that are closed for another to sets that are closed for both
(`Closed.append`), and whatever begins or is requested under joined sets does so under one of them
(`Origin.append_cases`, `Graph.Requests.or_cases`).  The other direction is monotony in the entries
(`Graph.within_of_entries`).
-/

namespace LiveExports

open Relation

section Rules

variable {graph : Graph} {entries others : List ModuleId} {entryExportsUsed : Bool}
  {live live' : ModuleId → Prop} {demanded demanded' : Demand → Prop}

/-! ## More entries -/

theorem Origin.of_entries (hentries : ∀ id ∈ entries, graph.contains id = true → id ∈ others)
    {site : UsageSite} {demand : Demand}
    (h : Origin graph entries entryExportsUsed live site demand) :
    Origin graph others entryExportsUsed live site demand := by
  cases h with
  | importedName hedge hkind hends hname hlive =>
      exact .importedName hedge hkind hends hname hlive
  | importedNamespace hedge hkind hends hname hlive =>
      exact .importedNamespace hedge hkind hends hname hlive
  | entryExport hused hentry hdeclares =>
      have hcontains := Graph.contains_of_declares hdeclares
      exact .entryExport hused (hentries _ hentry hcontains) hdeclares

theorem Arises.of_entries (hlive : ∀ id, live id → live' id)
    (hentries : ∀ id ∈ entries, graph.contains id = true → id ∈ others) {site : UsageSite}
    {demand : Demand} (h : Arises graph entries entryExportsUsed live site demand) :
    Arises graph others entryExportsUsed live' site demand := by
  obtain ⟨first, horigin, hchain⟩ := h
  exact ⟨first, (horigin.mono hlive).of_entries hentries, hchain⟩

theorem Closed.of_entries (hentries : ∀ id ∈ entries, graph.contains id = true → id ∈ others)
    (hclosed : Closed graph others entryExportsUsed live demanded) :
    Closed graph entries entryExportsUsed live demanded where
  entry id hid hcontains := hclosed.entry id (hentries id hid hcontains) hcontains
  run := hclosed.run
  origin horigin := hclosed.origin (horigin.of_entries hentries)
  declared := hclosed.declared
  follows := hclosed.follows

theorem Graph.Requests.mono (hlive : ∀ id, live id → live' id)
    (hdemanded : ∀ demand, demanded demand → demanded' demand) {requester : ModuleId}
    {demand : Demand} (h : graph.Requests live demanded requester demand) :
    graph.Requests live' demanded' requester demand := by
  cases h with
  | imported hedge hkind hends hsource => exact .imported hedge hkind hends (hlive _ hsource)
  | forwarded hown hentry htarget => exact .forwarded (hdemanded _ hown) hentry htarget

/-! ## Joined sets -/

/-- What begins under joined sets of live modules begins under one of them. -/
theorem Origin.append_cases {site : UsageSite} {demand : Demand}
    (h : Origin graph (entries ++ others) entryExportsUsed (fun id => live id ∨ live' id) site
      demand) :
    Origin graph entries entryExportsUsed live site demand ∨
      Origin graph others entryExportsUsed live' site demand := by
  cases h with
  | importedName hedge hkind hends hname hlive =>
      exact hlive.imp (.importedName hedge hkind hends hname)
        (.importedName hedge hkind hends hname)
  | importedNamespace hedge hkind hends hname hlive =>
      exact hlive.imp (.importedNamespace hedge hkind hends hname)
        (.importedNamespace hedge hkind hends hname)
  | entryExport hused hentry hdeclares =>
      exact (List.mem_append.mp hentry).imp (.entryExport hused · hdeclares)
        (.entryExport hused · hdeclares)

theorem Graph.Requests.or_cases {requester : ModuleId} {demand : Demand}
    (h : graph.Requests (fun id => live id ∨ live' id)
      (fun demand => demanded demand ∨ demanded' demand) requester demand) :
    graph.Requests live demanded requester demand ∨
      graph.Requests live' demanded' requester demand := by
  cases h with
  | imported hedge hkind hends hlive =>
      exact hlive.imp (.imported hedge hkind hends) (.imported hedge hkind hends)
  | forwarded hdemanded hentry htarget =>
      exact hdemanded.imp (.forwarded · hentry htarget) (.forwarded · hentry htarget)

theorem Closed.append (hleft : Closed graph entries entryExportsUsed live demanded)
    (hright : Closed graph others entryExportsUsed live' demanded') :
    Closed graph (entries ++ others) entryExportsUsed (fun id => live id ∨ live' id)
      (fun demand => demanded demand ∨ demanded' demand) where
  entry id hid hcontains := (List.mem_append.mp hid).imp (hleft.entry id · hcontains)
    (hright.entry id · hcontains)
  run edge hedge hkind hsource := hsource.imp (hleft.run edge hedge hkind)
    (hright.run edge hedge hkind)
  origin horigin := horigin.append_cases.imp hleft.origin hright.origin
  declared hdemanded hdeclares := hdemanded.imp (hleft.declared · hdeclares)
    (hright.declared · hdeclares)
  follows hfollows hdemanded := hdemanded.imp (hleft.follows hfollows) (hright.follows hfollows)

end Rules

/-- One result finds no more than another. -/
structure Liveness.Within (left right : Liveness) : Prop where
  live : ∀ id ∈ left.live, id ∈ right.live
  uses : ∀ module name, left.Uses module name → right.Uses module name
  triggers : ∀ module name, ∀ site ∈ left.triggers module name, site ∈ right.triggers module name
  diagnostics : ∀ diagnostic ∈ left.diagnostics, diagnostic ∈ right.diagnostics

namespace Graph

variable {graph : Graph} (hvalid : graph.Valid) {entries others : List ModuleId}
  {entryExportsUsed : Bool}

include hvalid

/-! ## Results from more entries -/

/-- More entries find no less. -/
theorem within_of_entries (hentries : ∀ id ∈ entries, graph.contains id = true → id ∈ others) :
    ((graph.finalStage entries entryExportsUsed).result graph).Within
      ((graph.finalStage others entryExportsUsed).result graph) := by
  have hleast := finalStage_leastClosed hvalid entries entryExportsUsed
  have hclosed := (finalStage_closed hvalid others entryExportsUsed).of_entries hentries
  have hlive : ∀ id ∈ (graph.finalStage entries entryExportsUsed).live,
      id ∈ (graph.finalStage others entryExportsUsed).live :=
    fun _ hid => hleast.live_least hclosed hid
  have hdemands : ∀ demand, (graph.finalStage entries entryExportsUsed).Demands demand →
      (graph.finalStage others entryExportsUsed).Demands demand :=
    fun _ hdemand => hleast.demanded_least hclosed hdemand
  refine ⟨hlive, fun module name huses => ?_, fun module name site hsite => ?_, ?_⟩
  · rw [uses_finalStage_iff hvalid] at huses ⊢
    obtain ⟨hlists, hdeclares, hdemanded⟩ := huses
    exact ⟨hlists, hdeclares, hdemands _ hdemanded⟩
  · rw [mem_triggers_result_iff hvalid] at hsite ⊢
    obtain ⟨hlists, hdeclares, harises⟩ := hsite
    exact ⟨hlists, hdeclares, harises.of_entries hlive hentries⟩
  · intro diagnostic hdiagnostic
    rw [mem_diagnostics_finalStage_iff hvalid] at hdiagnostic ⊢
    obtain ⟨requester, module, name, hrequests, hreport⟩ := hdiagnostic
    exact ⟨requester, module, name, hrequests.mono hlive hdemands, hreport⟩

/-- Of the entries, only the set of those that are modules of the graph counts. -/
theorem result_finalStage_eq_of_entries
    (hentries : ∀ id, graph.contains id = true → (id ∈ entries ↔ id ∈ others)) :
    (graph.finalStage entries entryExportsUsed).result graph =
      (graph.finalStage others entryExportsUsed).result graph := by
  have hleft : ((graph.finalStage entries entryExportsUsed).result graph).Within
      ((graph.finalStage others entryExportsUsed).result graph) :=
    within_of_entries hvalid fun id hid hcontains => (hentries id hcontains).mp hid
  have hright : ((graph.finalStage others entryExportsUsed).result graph).Within
      ((graph.finalStage entries entryExportsUsed).result graph) :=
    within_of_entries hvalid fun id hid hcontains => (hentries id hcontains).mpr hid
  refine Stage.result_eq ?_ ?_ ?_
  · exact SortedSet.ext_mem fun id => ⟨hleft.live id, hright.live id⟩
  · intro module name
    apply verdict_finalStage_eq hvalid hvalid rfl
    intro _ site
    exact ⟨fun h => h.of_entries hleft.live fun id hid hcontains => (hentries id hcontains).mp hid,
      fun h => h.of_entries hright.live fun id hid hcontains => (hentries id hcontains).mpr hid⟩
  · exact SortedSet.eq_of_mem_iff Stage.sorted_diagnostics_result Stage.sorted_diagnostics_result
      fun diagnostic => ⟨hleft.diagnostics diagnostic, hright.diagnostics diagnostic⟩

/-! ## Results from two lists of entries -/

theorem live_finalStage_append_cases {id : ModuleId}
    (h : id ∈ (graph.finalStage (entries ++ others) entryExportsUsed).live) :
    id ∈ (graph.finalStage entries entryExportsUsed).live ∨
      id ∈ (graph.finalStage others entryExportsUsed).live :=
  (finalStage_leastClosed hvalid (entries ++ others) entryExportsUsed).live_least
    ((finalStage_closed hvalid entries entryExportsUsed).append
      (finalStage_closed hvalid others entryExportsUsed)) h

theorem demands_finalStage_append_cases {demand : Demand}
    (h : (graph.finalStage (entries ++ others) entryExportsUsed).Demands demand) :
    (graph.finalStage entries entryExportsUsed).Demands demand ∨
      (graph.finalStage others entryExportsUsed).Demands demand :=
  (finalStage_leastClosed hvalid (entries ++ others) entryExportsUsed).demanded_least
    ((finalStage_closed hvalid entries entryExportsUsed).append
      (finalStage_closed hvalid others entryExportsUsed)) h

theorem within_append_left :
    ((graph.finalStage entries entryExportsUsed).result graph).Within
      ((graph.finalStage (entries ++ others) entryExportsUsed).result graph) :=
  within_of_entries hvalid fun _ hid _ => List.mem_append_left _ hid

theorem within_append_right :
    ((graph.finalStage others entryExportsUsed).result graph).Within
      ((graph.finalStage (entries ++ others) entryExportsUsed).result graph) :=
  within_of_entries hvalid fun _ hid _ => List.mem_append_right _ hid

theorem mem_triggers_append_iff {module : ModuleId} {name : String} {site : UsageSite} :
    site ∈ ((graph.finalStage (entries ++ others) entryExportsUsed).result graph).triggers module
        name ↔
      site ∈ ((graph.finalStage entries entryExportsUsed).result graph).triggers module name ∨
        site ∈ ((graph.finalStage others entryExportsUsed).result graph).triggers module name := by
  constructor
  · simp only [mem_triggers_result_iff hvalid]
    rintro ⟨hlists, hdeclares, first, horigin, hchain⟩
    have hbegins := (horigin.mono fun _ => live_finalStage_append_cases hvalid).append_cases
    exact hbegins.imp (fun hleft => ⟨hlists, hdeclares, first, hleft, hchain⟩)
      (fun hright => ⟨hlists, hdeclares, first, hright, hchain⟩)
  · rintro (hsite | hsite)
    · exact (within_append_left hvalid).triggers module name site hsite
    · exact (within_append_right hvalid).triggers module name site hsite

theorem mem_diagnostics_append_iff {diagnostic : Diagnostic} :
    diagnostic ∈
        ((graph.finalStage (entries ++ others) entryExportsUsed).result graph).diagnostics ↔
      diagnostic ∈ ((graph.finalStage entries entryExportsUsed).result graph).diagnostics ∨
        diagnostic ∈ ((graph.finalStage others entryExportsUsed).result graph).diagnostics := by
  constructor
  · simp only [mem_diagnostics_finalStage_iff hvalid]
    rintro ⟨requester, module, name, hrequests, hreport⟩
    have hasks := (hrequests.mono (fun _ => live_finalStage_append_cases hvalid)
      fun _ => demands_finalStage_append_cases hvalid).or_cases
    exact hasks.imp (fun hleft => ⟨requester, module, name, hleft, hreport⟩)
      (fun hright => ⟨requester, module, name, hright, hreport⟩)
  · rintro (hreport | hreport)
    · exact (within_append_left hvalid).diagnostics diagnostic hreport
    · exact (within_append_right hvalid).diagnostics diagnostic hreport

omit hvalid

/-- An analysis from two lists of entries joins the analyses from each of them: the live modules,
the used exports, the triggers of each export and the diagnostics are the unions, in order.  The
result grows with the entries, and depends only on which modules of the graph are among them. -/
theorem liveness_append {graph : Graph} (hvalid : graph.validate = .ok ())
    (entries others : List ModuleId) (entryExportsUsed : Bool) :
    ∃ left right both, graph.liveness entries entryExportsUsed = .ok left ∧
      graph.liveness others entryExportsUsed = .ok right ∧
      graph.liveness (entries ++ others) entryExportsUsed = .ok both ∧
      both.live = left.live.union right.live ∧
      (∀ module name, both.Uses module name ↔ left.Uses module name ∨ right.Uses module name) ∧
      (∀ module name, both.triggers module name =
        (SortedSet.ofList (left.triggers module name ++ right.triggers module name)).elements) ∧
      both.diagnostics = Diagnostic.listing (left.diagnostics ++ right.diagnostics) ∧
      ((∀ id ∈ entries, graph.contains id = true → id ∈ others) → left.Within right) ∧
      ((∀ id, graph.contains id = true → (id ∈ entries ↔ id ∈ others)) → left = right) := by
  rw [validate_eq_ok_iff] at hvalid
  refine ⟨_, _, _, liveness_of_valid hvalid entries entryExportsUsed,
    liveness_of_valid hvalid others entryExportsUsed,
    liveness_of_valid hvalid (entries ++ others) entryExportsUsed, ?_, ?_, ?_, ?_,
    within_of_entries hvalid, result_finalStage_eq_of_entries hvalid⟩
  · apply SortedSet.ext_mem
    intro id
    rw [SortedSet.mem_union]
    refine ⟨live_finalStage_append_cases hvalid, ?_⟩
    rintro (hlive | hlive)
    · exact (within_append_left hvalid).live id hlive
    · exact (within_append_right hvalid).live id hlive
  · intro module name
    simp only [uses_iff_exists_trigger hvalid, mem_triggers_append_iff hvalid, exists_or]
  · intro module name
    apply SortedSet.eq_of_mem_iff (Stage.sorted_triggers_result module name) (SortedSet.sorted _)
    intro site
    rw [mem_triggers_append_iff hvalid, ← SortedSet.mem_def, SortedSet.mem_ofList, List.mem_append]
  · apply SortedSet.eq_of_mem_iff Stage.sorted_diagnostics_result (Diagnostic.sorted_listing _)
    intro diagnostic
    rw [mem_diagnostics_append_iff hvalid, Diagnostic.mem_listing, List.mem_append]

/-- Two modules that run apart and import through the same module, one of them also in vain. -/
def twoDoors : Graph :=
  ofParts
    [{ id := ⟨"/one.js"⟩ },
      { id := ⟨"/two.js"⟩ },
      { id := ⟨"/bar.js"⟩
        exports := Table.ofList
          [("x", { owner := ⟨"/bar.js"⟩, name := "x", target := some ⟨⟨"/lib.js"⟩, "x"⟩ })]
        stars := [⟨"/lib.js"⟩] },
      { id := ⟨"/lib.js"⟩
        exports := Table.ofList
          [("x", { owner := ⟨"/lib.js"⟩, name := "x" }),
            ("y", { owner := ⟨"/lib.js"⟩, name := "y" })] }]
    [{ source := ⟨"/one.js"⟩, target := ⟨"/bar.js"⟩, name := "x", localName := "x",
        kind := .imports },
      { source := ⟨"/two.js"⟩, target := ⟨"/bar.js"⟩, name := "*", localName := "all",
        kind := .imports },
      { source := ⟨"/two.js"⟩, target := ⟨"/bar.js"⟩, name := "ghost", localName := "ghost",
        kind := .imports }]

theorem liveness_append_twoDoors :
    twoDoors.validate = .ok () ∧
      (∃ left right both, twoDoors.liveness [⟨"/one.js"⟩] true = .ok left ∧
        twoDoors.liveness [⟨"/two.js"⟩] true = .ok right ∧
        twoDoors.liveness [⟨"/one.js"⟩, ⟨"/two.js"⟩] true = .ok both ∧
        both.live = left.live.union right.live ∧
        (∀ module name, both.Uses module name ↔ left.Uses module name ∨ right.Uses module name) ∧
        (∀ module name, both.triggers module name =
          (SortedSet.ofList (left.triggers module name ++ right.triggers module name)).elements) ∧
        both.diagnostics = Diagnostic.listing (left.diagnostics ++ right.diagnostics)) ∧
      twoDoors.liveness [⟨"/one.js"⟩, ⟨"/two.js"⟩] true =
        twoDoors.liveness [⟨"/two.js"⟩, ⟨"/gone.js"⟩, ⟨"/one.js"⟩, ⟨"/two.js"⟩] true := by
  have hvalid : twoDoors.validate = .ok () := rfl
  have hentries : ∀ id ∈ twoDoors.ids, id ∈ [⟨"/one.js"⟩, ⟨"/two.js"⟩] ↔
      id ∈ [⟨"/two.js"⟩, ⟨"/gone.js"⟩, ⟨"/one.js"⟩, ⟨"/two.js"⟩] := by
    decide +kernel
  refine ⟨hvalid, ?_, ?_⟩
  · obtain ⟨left, right, both, hleft, hright, hboth, hlive, huses, htriggers, hreports, _⟩ :=
      liveness_append hvalid [⟨"/one.js"⟩] [⟨"/two.js"⟩] true
    exact ⟨left, right, both, hleft, hright, hboth, hlive, huses, htriggers, hreports⟩
  · obtain ⟨left, right, _, hleft, hright, _, _, _, _, _, _, hsame⟩ :=
      liveness_append hvalid [⟨"/one.js"⟩, ⟨"/two.js"⟩]
        [⟨"/two.js"⟩, ⟨"/gone.js"⟩, ⟨"/one.js"⟩, ⟨"/two.js"⟩] true
    rw [hleft, hright, hsame fun id hid => hentries id (mem_ids_iff.mpr hid)]

end Graph

end LiveExports

import LiveExports.Proofs.Graph.FirstSubmissions

/-!
# What becomes of the declarations of a module

Whatever else is submitted, the declarations of a module that are accepted determine its node, the
edges that leave it and the reports on its specifiers, and all of these are told by the declarations
directly (`Graph.build_renders`): the export table by the last declaration of each name, the stars
by the first occurrence of each module, the edges by the finished table, the stars and the imports,
and the reports by every place at which a specifier stands.

## Strategy

The edges and reports of all modules are each one list.  Those of one module are cut out of it again
by their source or module, as every module is accepted once (`Table.flatMap_entries_of_find?`).
What is left is about one module, and there the three uses of a resolved specifier are brought to
one form (`Resolver.target?_eq`).
-/

namespace LiveExports

/-! ## First occurrences -/

/-- Leaving elements out does not change the order of first occurrences. -/
theorem idxOf_lt_of_filter {α : Type} [DecidableEq α] {keep : α → Bool} {list : List α} {a b : α}
    (ha : keep a = true) (hb : keep b = true)
    (h : (list.filter keep).idxOf a < (list.filter keep).idxOf b) :
    list.idxOf a < list.idxOf b := by
  induction list with
  | nil => exact absurd h (Nat.lt_irrefl 0)
  | cons first rest ih =>
      by_cases hfirst : keep first = true
      · rw [List.filter_cons_of_pos hfirst] at h
        by_cases hfa : first = a
        · by_cases hfb : first = b
          · simp [hfa, ← hfb] at h
          · simp [hfa ▸ hfb, hfa]
        · by_cases hfb : first = b
          · simp [hfb] at h
          · rw [List.idxOf_cons_ne _ hfa, List.idxOf_cons_ne _ hfb] at h ⊢
            exact Nat.succ_lt_succ (ih (Nat.lt_of_succ_lt_succ h))
      · rw [List.filter_cons_of_neg hfirst] at h
        have hfa : first ≠ a := fun heq => hfirst (heq ▸ ha)
        have hfb : first ≠ b := fun heq => hfirst (heq ▸ hb)
        rw [List.idxOf_cons_ne _ hfa, List.idxOf_cons_ne _ hfb]
        exact Nat.succ_lt_succ (ih h)

/-- What is left without repetitions stands in the order of first occurrences. -/
theorem pairwise_idxOf_eraseDups {α : Type} [DecidableEq α] (list : List α) :
    list.eraseDups.Pairwise fun a b => list.idxOf a < list.idxOf b := by
  match list with
  | [] => exact List.Pairwise.nil
  | first :: rest =>
    have hne : ∀ {a}, a ∈ (rest.filter fun b => !b == first).eraseDups → first ≠ a := by
      intro a ha heq
      have hkept := List.of_mem_filter (List.mem_eraseDups.mp ha)
      simp [heq] at hkept
    rw [List.eraseDups_cons, List.pairwise_cons]
    refine ⟨fun a ha => ?_, ?_⟩
    · rw [List.idxOf_cons_self, List.idxOf_cons_ne _ (hne ha)]
      exact Nat.succ_pos _
    · refine (pairwise_idxOf_eraseDups _).imp_of_mem fun {a b} ha hb hlt => ?_
      rw [List.idxOf_cons_ne _ (hne ha), List.idxOf_cons_ne _ (hne hb)]
      refine Nat.succ_lt_succ (idxOf_lt_of_filter ?_ ?_ hlt)
      · simpa using Ne.symm (hne ha)
      · simpa using Ne.symm (hne hb)
termination_by list.length
decreasing_by
  simp only [List.length_cons]
  exact Nat.lt_succ_of_le (List.length_filter_le ..)

/-! ## Specifiers -/

namespace Resolver

variable (resolver : Resolver) (module : ModuleId) (specifier : String)

/-- The module that a specifier is resolved to, unless it names a package. -/
def destination? : Option ModuleId :=
  if isBareSpecifier specifier then none else (resolver.resolve module specifier).toOption

/-- Does a specifier that names no package resolve to no file? -/
def isUnresolved : Bool :=
  !isBareSpecifier specifier && !(resolver.resolve module specifier).isOk

/-- The report on a specifier that resolves to no file; line zero stands for no line. -/
def unresolvedReport (module : ModuleId) (specifier : String) (line : Nat) : Diagnostic where
  module
  kind := .unresolvedPath
  message := s!"Unresolved import '{specifier}' from {module}"
  line := if line = 0 then none else some line

theorem target?_eq :
    resolver.target? module specifier = resolver.destination? module specifier := by
  unfold target? follow destination?
  split
  · rfl
  · cases resolver.resolve module specifier with
    | ok target => rfl
    | error fault => rfl

variable {resolver module specifier} in
theorem eq_unresolvedPath_of_resolve {fault : Fault}
    (h : resolver.resolve module specifier = .error fault) :
    fault = .unresolvedPath module specifier (resolver.candidatesFor module specifier) := by
  unfold resolve at h
  dsimp only at h
  split at h
  · cases h
  · exact (Except.error.inj h).symm

theorem report?_eq (line : Nat) :
    resolver.report? module specifier line =
      if resolver.isUnresolved module specifier then some (unresolvedReport module specifier line)
      else none := by
  unfold report? follow isUnresolved
  cases isBareSpecifier specifier with
  | true => rfl
  | false =>
      cases hresolve : resolver.resolve module specifier with
      | ok target => rfl
      | error fault =>
          rw [eq_unresolvedPath_of_resolve hresolve]
          by_cases hline : line = 0
          · rw [hline]
            rfl
          · simp only [Bool.false_eq_true, if_false, Diagnostic.ofFault, Diagnostic.atLine,
              if_neg hline, unresolvedReport]
            rfl

end Resolver

/-! ## One module -/

namespace Declarations

variable (resolver : Resolver) (module : ModuleId) (declarations : Declarations)

/-- A declaration after which its name is not declared again. -/
def IsLast (decl : ExportDecl) : Prop :=
  ∃ before after, declarations.exports = before ++ decl :: after ∧
    ∀ later ∈ after, later.name ≠ decl.name

/-- The places at which a specifier stands, each with its line. -/
def references : List (String × Nat) :=
  (declarations.exports.filterMap fun decl =>
      decl.forward.map fun forward => (forward.source, decl.line)) ++
    (declarations.stars.map fun specifier => (specifier, 0)) ++
    declarations.imports.map fun decl => (decl.source, decl.line)

/-- An export stands for a declaration: it has its name, and forwards what the declaration forwards,
if its specifier is resolved, and is a binding of its own otherwise. -/
structure StandsFor (entry : Export) (decl : ExportDecl) : Prop where
  owner : entry.owner = module
  name : entry.name = decl.name
  line : entry.line = decl.line
  target : ∀ target, entry.target = some target ↔
    ∃ source, decl.forward = some ⟨source, target.name⟩ ∧
      resolver.destination? module source = some target.module

variable {resolver module declarations}

theorem target_exportOf_eq_some_iff {decl : ExportDecl} {target : Target} :
    (exportOf resolver module decl).target = some target ↔
      ∃ source, decl.forward = some ⟨source, target.name⟩ ∧
        resolver.destination? module source = some target.module := by
  unfold exportOf
  simp only [Option.bind_eq_some_iff, Option.map_eq_some_iff, Resolver.target?_eq]
  constructor
  · rintro ⟨forward, hforward, id, hid, rfl⟩
    exact ⟨forward.source, hforward, hid⟩
  · rintro ⟨source, hforward, hid⟩
    exact ⟨_, hforward, _, hid, rfl⟩

/-- An export is determined by the declaration that it stands for. -/
theorem standsFor_iff {entry : Export} {decl : ExportDecl} :
    StandsFor resolver module entry decl ↔ entry = exportOf resolver module decl := by
  constructor
  · rintro ⟨howner, hname, hline, htarget⟩
    have htargets : entry.target = (exportOf resolver module decl).target := by
      ext target
      rw [htarget, target_exportOf_eq_some_iff]
    obtain ⟨owner, name, target, line⟩ := entry
    obtain rfl : owner = module := howner
    obtain rfl : name = decl.name := hname
    obtain rfl : line = decl.line := hline
    obtain rfl : target = (exportOf resolver owner decl).target := htargets
    rfl
  · rintro rfl
    exact ⟨rfl, rfl, rfl, fun target => target_exportOf_eq_some_iff⟩

/-- A node finds under a name the export for the last declaration of the name. -/
theorem find?_exports_node_iff {name : String} {entry : Export} :
    (declarations.node resolver module).exports.find? name = some entry ↔
      ∃ decl, declarations.IsLast decl ∧ decl.name = name ∧
        StandsFor resolver module entry decl := by
  simp only [node, Table.find?_ofList_eq_some_iff_last, standsFor_iff]
  constructor
  · rintro ⟨before, after, hexports, hafter⟩
    obtain ⟨earlier, others, hsplit, -, hothers⟩ := List.map_eq_append_iff.mp hexports
    obtain ⟨decl, later, rfl, hdecl, rfl⟩ := List.map_eq_cons_iff.mp hothers
    obtain ⟨rfl, rfl⟩ := Prod.mk.inj hdecl
    refine ⟨decl, ⟨earlier, later, hsplit, fun other hother => ?_⟩, rfl, rfl⟩
    exact hafter _ (List.mem_map_of_mem hother)
  · rintro ⟨decl, ⟨before, after, hexports, hafter⟩, rfl, rfl⟩
    refine ⟨_, _, by rw [hexports, List.map_append, List.map_cons], ?_⟩
    intro later hlater
    obtain ⟨other, hother, rfl⟩ := List.mem_map.mp hlater
    exact hafter other hother

theorem starTargets_eq :
    declarations.starTargets resolver module =
      (declarations.stars.filterMap (resolver.destination? module)).eraseDups := by
  unfold starTargets
  rw [funext (resolver.target?_eq module)]

theorem importEdges_eq :
    declarations.importEdges resolver module = declarations.imports.filterMap fun decl =>
      (resolver.destination? module decl.source).map fun target =>
        { source := module, target, name := decl.name, localName := decl.localName,
          kind := if decl.name = "" then .runs else .imports } := by
  unfold importEdges
  simp only [Resolver.target?_eq, ImportDecl.isSideEffect, beq_iff_eq]

/-- There is one edge for each export that is forwarded, by exported name. -/
theorem mem_forwardEdges_iff {edge : Edge} :
    edge ∈ declarations.forwardEdges resolver module ↔
      ∃ name entry target,
        (declarations.node resolver module).exports.find? name = some entry ∧
        entry.target = some target ∧
        edge = ⟨module, target.module, target.name, name, .forwards⟩ := by
  unfold forwardEdges
  simp only [List.mem_filterMap, Prod.exists, Option.map_eq_some_iff, ← Table.find?_eq_some_iff]
  constructor
  · rintro ⟨name, entry, hentry, target, htarget, rfl⟩
    rw [name_of_find? hentry]
    exact ⟨name, entry, target, hentry, htarget, rfl⟩
  · rintro ⟨name, entry, target, hentry, htarget, rfl⟩
    refine ⟨name, entry, hentry, target, htarget, ?_⟩
    rw [name_of_find? hentry]

theorem sorted_forwardEdges :
    (declarations.forwardEdges resolver module).Pairwise fun edge other =>
      StrictOrder.less edge.localName other.localName = true := by
  have hnames : (declarations.node resolver module).exports.entries.Pairwise fun item other =>
      StrictOrder.less item.2.name other.2.name = true := by
    refine (declarations.node resolver module).exports.sorted.imp_of_mem ?_
    intro item other hitem hother hless
    rw [name_of_find? (Table.find?_eq_some_iff.mpr hitem),
      name_of_find? (Table.find?_eq_some_iff.mpr hother)]
    exact hless
  refine hnames.filterMap _ ?_
  rintro ⟨name, entry⟩ ⟨name', entry'⟩ hless edge hedge other hother
  obtain ⟨target, -, rfl⟩ := Option.map_eq_some_iff.mp hedge
  obtain ⟨target', -, rfl⟩ := Option.map_eq_some_iff.mp hother
  exact hless

/-- Every place of a specifier that is not resolved is reported once. -/
theorem reports_eq :
    declarations.reports resolver module =
      (declarations.references.filter fun reference =>
        resolver.isUnresolved module reference.1).map fun reference =>
          Resolver.unresolvedReport module reference.1 reference.2 := by
  have hreports : declarations.reports resolver module =
      declarations.references.filterMap fun reference =>
        resolver.report? module reference.1 reference.2 := by
    unfold reports references
    rw [List.filterMap_append, List.filterMap_append, List.filterMap_filterMap,
      List.filterMap_map, List.filterMap_map]
    congr 2
    congr 1
    funext decl
    rw [Option.bind_map]
    rfl
  rw [hreports, ← List.filterMap_eq_map, ← List.filterMap_eq_filter, List.filterMap_filterMap]
  congr 1
  funext reference
  rw [Resolver.report?_eq]
  cases hunresolved : resolver.isUnresolved module reference.1 with
  | true => simp [Option.guard, hunresolved]
  | false => simp [Option.guard, hunresolved]

theorem kind_of_mem_reports {diagnostic : Diagnostic}
    (h : diagnostic ∈ declarations.reports resolver module) :
    diagnostic.module = module ∧ diagnostic.kind = .unresolvedPath := by
  rw [reports_eq] at h
  obtain ⟨reference, -, rfl⟩ := List.mem_map.mp h
  exact ⟨rfl, rfl⟩

end Declarations

/-! ## A module among all -/

namespace Graph

variable {resolver : Resolver} {submissions : List Submission} {id : ModuleId}
  {declarations : Declarations}

/-- The edges that leave a module are those of its declarations. -/
theorem edgesFrom_build (h : (accepted submissions).find? id = some declarations) :
    (build resolver submissions).graph.edgesFrom id = declarations.edges resolver id := by
  have hedges : (build resolver submissions).graph.edges =
      (accepted submissions).entries.flatMap fun entry => entry.2.edges resolver entry.1 := rfl
  rw [edgesFrom, hedges, List.filter_flatMap, Table.flatMap_entries_of_find? h]
  · refine List.filter_eq_self.mpr fun edge hedge => ?_
    rw [Declarations.source_of_mem_edges hedge]
    exact beq_self_eq_true id
  · intro entry _ hother
    refine List.filter_eq_nil_iff.mpr fun edge hedge => ?_
    rw [Declarations.source_of_mem_edges hedge]
    simpa using hother

/-- The reports on the specifiers of a module are those of its declarations. -/
theorem reports_build (h : (accepted submissions).find? id = some declarations) :
    ((build resolver submissions).diagnostics.filter fun diagnostic =>
        diagnostic.module = id ∧ diagnostic.kind = .unresolvedPath) =
      declarations.reports resolver id := by
  have hdiagnostics : (build resolver submissions).diagnostics = (acceptInto ∅ submissions).2 ++
      (accepted submissions).entries.flatMap fun entry => entry.2.reports resolver entry.1 := rfl
  have hconflicts : (acceptInto ∅ submissions).2.filter (fun diagnostic =>
      diagnostic.module = id ∧ diagnostic.kind = .unresolvedPath) = [] := by
    refine List.filter_eq_nil_iff.mpr fun diagnostic hdiagnostic => ?_
    rw [conflicts_eq] at hdiagnostic
    obtain ⟨submission, -, rfl⟩ := List.mem_map.mp hdiagnostic
    simp [conflictReport, Diagnostic.ofFault]
  rw [hdiagnostics, List.filter_append, hconflicts, List.nil_append, List.filter_flatMap,
    Table.flatMap_entries_of_find? h]
  · refine List.filter_eq_self.mpr fun diagnostic hdiagnostic => ?_
    simpa using Declarations.kind_of_mem_reports hdiagnostic
  · intro entry _ hother
    refine List.filter_eq_nil_iff.mpr fun diagnostic hdiagnostic => ?_
    have hmodule := (Declarations.kind_of_mem_reports hdiagnostic).1
    simp [hmodule, hother]

theorem find?_accepted_of_first {before : List Submission}
    (hfirst : ∀ earlier ∈ before, earlier.module ≠ id) (declarations : Declarations)
    (after : List Submission) :
    (accepted (before ++ ⟨id, declarations⟩ :: after)).find? id = some declarations := by
  have hbefore : before.find? (·.module = id) = none :=
    List.find?_eq_none.mpr fun earlier hearlier => by simpa using hfirst earlier hearlier
  rw [find?_accepted, List.find?_append, hbefore, Option.none_or,
    List.find?_cons_of_pos (by simp), Option.map_some]

end Graph

/-- A graph and its reports say of a module what the declarations of the module say. -/
structure Construction.Renders (built : Construction) (resolver : Resolver) (id : ModuleId)
    (declarations : Declarations) (node : Node) : Prop where
  found : built.graph.node? id = some node
  submitted : node.id = id ∧ node.submitted = true
  /-- The last declaration of a name counts. -/
  exports : ∀ name entry, node.exports.find? name = some entry ↔
    ∃ decl, declarations.IsLast decl ∧ decl.name = name ∧
      Declarations.StandsFor resolver id entry decl
  stars : ∀ star, star ∈ node.stars ↔
    ∃ specifier ∈ declarations.stars, resolver.destination? id specifier = some star
  /-- No star is repeated, and stars stand in the order of their first occurrences. -/
  starOrder : node.stars.Pairwise fun star other =>
    (declarations.stars.filterMap (resolver.destination? id)).idxOf star <
      (declarations.stars.filterMap (resolver.destination? id)).idxOf other
  edges : ∃ forwards,
    built.graph.edgesFrom id =
      forwards ++
      (node.stars.map fun star => ⟨id, star, namespaceName, namespaceName, .forwards⟩) ++
      (declarations.imports.filterMap fun decl =>
        (resolver.destination? id decl.source).map fun target =>
          ⟨id, target, decl.name, decl.localName, if decl.name = "" then .runs else .imports⟩) ∧
    (∀ edge, edge ∈ forwards ↔ ∃ name entry target,
      node.exports.find? name = some entry ∧ entry.target = some target ∧
      edge = ⟨id, target.module, target.name, name, .forwards⟩) ∧
    forwards.Pairwise fun edge other => StrictOrder.less edge.localName other.localName = true
  /-- Every place of a specifier that is not resolved is reported once. -/
  reports : (built.diagnostics.filter fun diagnostic =>
      diagnostic.module = id ∧ diagnostic.kind = .unresolvedPath) =
    (declarations.references.filter fun reference =>
      resolver.isUnresolved id reference.1).map fun reference =>
        Resolver.unresolvedReport id reference.1 reference.2

/-- Of a module that was not submitted before, the graph and its reports say what the declarations
say, whatever is submitted besides. -/
theorem Graph.build_renders (resolver : Resolver) {id : ModuleId} (declarations : Declarations)
    {before : List Submission} (hfirst : ∀ earlier ∈ before, earlier.module ≠ id)
    (after : List Submission) :
    ∃ node, (build resolver (before ++ ⟨id, declarations⟩ :: after)).Renders resolver id
      declarations node := by
  have haccepted := find?_accepted_of_first hfirst declarations after
  refine ⟨declarations.node resolver id, ?_⟩
  have hstars : (declarations.node resolver id).stars =
      (declarations.stars.filterMap (resolver.destination? id)).eraseDups :=
    Declarations.starTargets_eq
  exact
    { found := by rw [node?_build, haccepted, Option.map_some, Option.some_or]
      submitted := ⟨rfl, rfl⟩
      exports := fun name entry => Declarations.find?_exports_node_iff
      stars := by
        intro star
        rw [hstars, List.mem_eraseDups, List.mem_filterMap]
      starOrder := by
        rw [hstars]
        exact pairwise_idxOf_eraseDups _
      edges := by
        refine ⟨declarations.forwardEdges resolver id, ?_,
          fun edge => Declarations.mem_forwardEdges_iff, Declarations.sorted_forwardEdges⟩
        rw [edgesFrom_build haccepted, Declarations.edges, Declarations.importEdges_eq]
        rfl
      reports := by rw [reports_build haccepted, Declarations.reports_eq] }

/-- Declarations with a forward that is overwritten, a package, a star in two spellings, and
specifiers that lead nowhere. -/
def tangled : Declarations where
  exports :=
    [⟨"x", some ⟨"./gone.js", "x"⟩, 1⟩, ⟨"y", some ⟨"./lib.js", "x"⟩, 2⟩,
      ⟨"x", some ⟨"./lib.js", "z"⟩, 3⟩, ⟨"w", some ⟨"package", "w"⟩, 4⟩]
  stars := ["./lib.js", "./gone.js", "./lib"]
  imports := [⟨"./lib.js", "", "", 5⟩, ⟨"./gone.js", "v", "v", 6⟩, ⟨"./lib", "x", "x", 7⟩]

theorem Graph.build_renders_tangled :
    (∀ earlier ∈ [library], earlier.module ≠ ⟨"/p/main.js"⟩) ∧
      (∃ node,
        (build libraryResolver ([library] ++ ⟨⟨"/p/main.js"⟩, tangled⟩ :: [importer])).Renders
        libraryResolver ⟨"/p/main.js"⟩ tangled node) ∧
      (build libraryResolver ([library] ++ ⟨⟨"/p/main.js"⟩, tangled⟩ :: [importer])).graph.edgesFrom
        ⟨"/p/main.js"⟩ =
          [⟨⟨"/p/main.js"⟩, ⟨"/p/lib.js"⟩, "z", "x", .forwards⟩,
            ⟨⟨"/p/main.js"⟩, ⟨"/p/lib.js"⟩, "x", "y", .forwards⟩,
            ⟨⟨"/p/main.js"⟩, ⟨"/p/lib.js"⟩, "*", "*", .forwards⟩,
            ⟨⟨"/p/main.js"⟩, ⟨"/p/lib.js"⟩, "", "", .runs⟩,
            ⟨⟨"/p/main.js"⟩, ⟨"/p/lib.js"⟩, "x", "x", .imports⟩] := by
  have hfirst : ∀ earlier ∈ [library], earlier.module ≠ ⟨"/p/main.js"⟩ := by decide
  exact ⟨hfirst, build_renders libraryResolver tangled hfirst [importer], by decide +kernel⟩

end LiveExports

import Mathlib.Data.List.Nodup
import LiveExports.Graph.Build
import LiveExports.Proofs.Graph.Validity
import LiveExports.Proofs.Liveness.FinalStage
import LiveExports.Proofs.Ordered.Listing

/-!
# Built graphs are valid

Whatever is submitted, and however specifiers are resolved, a built graph has no flaw, and so the
analysis of a built graph is never refused (`Graph.liveness_build`).

A node without exports is added only where an edge leads to.  That this is enough for the targets of
forwards and for stars, which stand in the nodes, is because each of them has brought about an edge:
the edges of forwards are read off the finished export table, and the edges of stars off the list of
stars.

The order of submissions does not matter as long as no module is submitted twice
(`Graph.build_eq_of_perm`).
-/

namespace LiveExports

/-! ## Nodes for missing modules -/

/-- What was there stays, and a module that an edge leads to is there. -/
theorem find?_addMissing (nodes : Table ModuleId Node) (edges : List Edge) (id : ModuleId) :
    (addMissing nodes edges).find? id =
      (nodes.find? id).or
        (if ∃ edge ∈ edges, edge.target = id then some { id, submitted := false } else none) := by
  unfold addMissing
  induction edges generalizing nodes with
  | nil => simp
  | cons edge edges ih =>
      rw [List.foldl_cons, ih]
      by_cases hthere : nodes.contains edge.target = true
      · rw [if_pos hthere]
        by_cases hid : edge.target = id
        · obtain ⟨node, hnode⟩ := Option.isSome_iff_exists.mp hthere
          rw [← hid, hnode, Option.some_or, Option.some_or]
        · simp [hid]
      · rw [if_neg hthere, Table.find?_insert]
        by_cases hid : id = edge.target
        · have hmissing : nodes.find? id = none := by
            rw [hid]
            exact Option.not_isSome_iff_eq_none.mp hthere
          rw [if_pos hid, hmissing, Option.some_or, Option.none_or, if_pos, hid]
          exact ⟨edge, List.mem_cons_self, hid.symm⟩
        · rw [if_neg hid]
          simp [Ne.symm hid]

/-! ## One module -/

namespace Declarations

variable {resolver : Resolver} {module : ModuleId} {declarations : Declarations}

/-- An export of a node is one of those declared. -/
theorem exists_decl_of_find? {name : String} {entry : Export}
    (h : (declarations.node resolver module).exports.find? name = some entry) :
    ∃ decl ∈ declarations.exports, decl.name = name ∧ entry = exportOf resolver module decl := by
  obtain ⟨decl, hdecl, heq⟩ := List.mem_map.mp (Table.mem_of_find?_ofList h)
  obtain ⟨hname, hentry⟩ := Prod.mk.inj heq
  exact ⟨decl, hdecl, hname, hentry.symm⟩

/-- A node has each export under its own name. -/
theorem name_of_find? {name : String} {entry : Export}
    (h : (declarations.node resolver module).exports.find? name = some entry) :
    entry.name = name := by
  obtain ⟨decl, _, hname, rfl⟩ := exists_decl_of_find? h
  exact hname

theorem exists_edge_of_target {name : String} {entry : Export} {target : Target}
    (hentry : (declarations.node resolver module).exports.find? name = some entry)
    (htarget : entry.target = some target) :
    ∃ edge ∈ declarations.edges resolver module, edge.target = target.module := by
  have hmem := Table.find?_eq_some_iff.mp hentry
  have hedge : (⟨module, target.module, target.name, entry.name, .forwards⟩ : Edge) ∈
      declarations.forwardEdges resolver module := by
    refine List.mem_filterMap.mpr ⟨(name, entry), hmem, ?_⟩
    simp only [htarget, Option.map_some]
  exact ⟨_, List.mem_append_left _ (List.mem_append_left _ hedge), rfl⟩

theorem exists_edge_of_star {star : ModuleId}
    (hstar : star ∈ (declarations.node resolver module).stars) :
    ∃ edge ∈ declarations.edges resolver module, edge.target = star :=
  ⟨_, List.mem_append_left _ (List.mem_append_right _ (List.mem_map_of_mem hstar)), rfl⟩

theorem source_of_mem_edges {edge : Edge} (h : edge ∈ declarations.edges resolver module) :
    edge.source = module := by
  simp only [edges, forwardEdges, starEdges, importEdges, List.mem_append, List.mem_filterMap,
    List.mem_map, Option.map_eq_some_iff] at h
  rcases h with (⟨_, _, _, _, rfl⟩ | ⟨_, _, rfl⟩) | ⟨_, _, _, _, rfl⟩ <;> rfl

/-- Every edge leads to what a specifier was resolved to. -/
theorem exists_target?_of_mem_edges {edge : Edge}
    (h : edge ∈ declarations.edges resolver module) :
    ∃ specifier, resolver.target? module specifier = some edge.target := by
  simp only [edges, List.mem_append] at h
  rcases h with (hforward | hstar) | himport
  · obtain ⟨⟨name, entry⟩, hentry, hedge⟩ := List.mem_filterMap.mp hforward
    obtain ⟨target, htarget, rfl⟩ := Option.map_eq_some_iff.mp hedge
    obtain ⟨decl, -, -, rfl⟩ := exists_decl_of_find? (Table.find?_eq_some_iff.mpr hentry)
    obtain ⟨forward, -, hforwarded⟩ := Option.bind_eq_some_iff.mp htarget
    obtain ⟨id, hid, rfl⟩ := Option.map_eq_some_iff.mp hforwarded
    exact ⟨forward.source, hid⟩
  · obtain ⟨target, htarget, rfl⟩ := List.mem_map.mp hstar
    obtain ⟨specifier, -, hspecifier⟩ := List.mem_filterMap.mp (List.mem_eraseDups.mp htarget)
    exact ⟨specifier, hspecifier⟩
  · obtain ⟨decl, -, hedge⟩ := List.mem_filterMap.mp himport
    obtain ⟨target, htarget, rfl⟩ := Option.map_eq_some_iff.mp hedge
    exact ⟨decl.source, htarget⟩

end Declarations

/-- A specifier leads only to what it is resolved to. -/
theorem Resolver.resolve_of_target? {resolver : Resolver} {module target : ModuleId}
    {specifier : String} (h : resolver.target? module specifier = some target) :
    resolver.resolve module specifier = .ok target := by
  unfold target? follow at h
  split at h
  · cases h
  · cases hresolve : resolver.resolve module specifier with
    | error fault =>
        rw [hresolve] at h
        cases h
    | ok found =>
        rw [hresolve] at h
        exact congrArg Except.ok (Option.some.inj h)

/-! ## All modules -/

namespace Graph

variable {resolver : Resolver} {submissions : List Submission}

/-- The submissions that count, by module. -/
def accepted (submissions : List Submission) : Table ModuleId Declarations :=
  (acceptInto ∅ submissions).1

/-- Of the submissions of a module the first counts, unless the module was accepted before. -/
theorem find?_acceptInto (accepted : Table ModuleId Declarations) (submissions : List Submission)
    (id : ModuleId) :
    (acceptInto accepted submissions).1.find? id =
      (accepted.find? id).or ((submissions.find? (·.module = id)).map (·.declarations)) := by
  induction submissions generalizing accepted with
  | nil => simp [acceptInto]
  | cons submission rest ih =>
      rw [acceptInto]
      split
      · next hnew =>
        rw [ih, Table.find?_insert]
        by_cases hid : submission.module = id
        · rw [if_pos hid.symm, ← hid, hnew, List.find?_cons_of_pos (by simp), Option.some_or,
            Option.none_or, Option.map_some]
        · rw [if_neg (Ne.symm hid), List.find?_cons_of_neg (by simpa using hid)]
      · next first hfirst =>
        rw [ih]
        by_cases hid : submission.module = id
        · rw [← hid, hfirst, Option.some_or, Option.some_or]
        · rw [List.find?_cons_of_neg (by simpa using hid)]

theorem find?_accepted (submissions : List Submission) (id : ModuleId) :
    (accepted submissions).find? id =
      (submissions.find? (·.module = id)).map (·.declarations) := by
  rw [accepted, find?_acceptInto]
  exact Option.none_or

theorem mem_edges_build_iff {edge : Edge} :
    edge ∈ (build resolver submissions).graph.edges ↔
      ∃ module declarations, (accepted submissions).find? module = some declarations ∧
        edge ∈ declarations.edges resolver module := by
  simp only [build, accepted, List.mem_flatMap, Prod.exists, Table.find?_eq_some_iff]

/-- The nodes of a built graph are those of the modules that were submitted, and empty ones for the
other modules that edges lead to. -/
theorem node?_build (id : ModuleId) :
    (build resolver submissions).graph.node? id =
      (((accepted submissions).find? id).map (Declarations.node resolver id)).or
        (if ∃ edge ∈ (build resolver submissions).graph.edges, edge.target = id then
          some { id, submitted := false }
        else none) := by
  refine (find?_addMissing _ _ id).trans ?_
  rw [← Table.find?_ofList_entries_map (accepted submissions)
    fun module declarations => Declarations.node resolver module declarations]
  rfl

theorem contains_build_of_accepted {id : ModuleId} {declarations : Declarations}
    (h : (accepted submissions).find? id = some declarations) :
    (build resolver submissions).graph.contains id = true := by
  rw [contains_iff, node?_build, h, Option.map_some, Option.some_or]
  exact ⟨_, rfl⟩

theorem contains_build_of_edge {edge : Edge}
    (h : edge ∈ (build resolver submissions).graph.edges) :
    (build resolver submissions).graph.contains edge.target = true := by
  rw [contains_iff, node?_build, if_pos ⟨edge, h, rfl⟩]
  cases ((accepted submissions).find? edge.target).map (Declarations.node resolver edge.target) with
  | none => exact ⟨_, rfl⟩
  | some node => exact ⟨_, rfl⟩

/-- A node that has anything to refer to comes from a submission. -/
theorem node_build_cases {id : ModuleId} {node : Node}
    (h : (build resolver submissions).graph.node? id = some node) :
    (∃ declarations, (accepted submissions).find? id = some declarations ∧
      node = declarations.node resolver id) ∨
    node = { id, submitted := false } := by
  rw [node?_build] at h
  cases haccepted : (accepted submissions).find? id with
  | some declarations =>
      rw [haccepted, Option.map_some, Option.some_or] at h
      exact Or.inl ⟨declarations, rfl, (Option.some.inj h).symm⟩
  | none =>
      rw [haccepted, Option.map_none, Option.none_or] at h
      split at h
      · exact Or.inr (Option.some.inj h).symm
      · contradiction

/-- An export of a built graph was submitted with its module. -/
theorem exists_accepted_of_export {id : ModuleId} {name : String} {entry : Export}
    (h : (build resolver submissions).graph.export? id name = some entry) :
    ∃ declarations, (accepted submissions).find? id = some declarations ∧
      (declarations.node resolver id).exports.find? name = some entry := by
  obtain ⟨node, hnode, hentry⟩ := export?_eq_some_iff.mp h
  rcases node_build_cases hnode with ⟨declarations, haccepted, rfl⟩ | rfl
  · exact ⟨declarations, haccepted, hentry⟩
  · exact nomatch hentry

theorem contains_build_of_mem_edges {id : ModuleId} {declarations : Declarations}
    {target : ModuleId}
    (haccepted : (accepted submissions).find? id = some declarations)
    (hedge : ∃ edge ∈ declarations.edges resolver id, edge.target = target) :
    (build resolver submissions).graph.contains target = true := by
  obtain ⟨edge, hmem, rfl⟩ := hedge
  exact contains_build_of_edge (mem_edges_build_iff.mpr ⟨id, declarations, haccepted, hmem⟩)

theorem valid_build (resolver : Resolver) (submissions : List Submission) :
    (build resolver submissions).graph.Valid where
  owner := by
    intro id name entry hentry
    obtain ⟨declarations, _, hfound⟩ := exists_accepted_of_export hentry
    obtain ⟨decl, _, _, rfl⟩ := Declarations.exists_decl_of_find? hfound
    rfl
  target := by
    intro id name entry target hentry htarget
    obtain ⟨declarations, haccepted, hfound⟩ := exists_accepted_of_export hentry
    exact contains_build_of_mem_edges haccepted
      (Declarations.exists_edge_of_target hfound htarget)
  star := by
    intro id node star hnode hstar
    rcases node_build_cases hnode with ⟨declarations, haccepted, rfl⟩ | rfl
    · exact contains_build_of_mem_edges haccepted (Declarations.exists_edge_of_star hstar)
    · exact absurd hstar List.not_mem_nil
  edgeSource := by
    intro edge hedge
    obtain ⟨module, declarations, haccepted, hmem⟩ := mem_edges_build_iff.mp hedge
    rw [Declarations.source_of_mem_edges hmem]
    exact contains_build_of_accepted haccepted
  edgeTarget := fun _ => contains_build_of_edge

theorem keyedByName_build (resolver : Resolver) (submissions : List Submission) :
    (build resolver submissions).graph.KeyedByName := by
  rw [keyedByName_iff]
  intro id name entry hentry
  obtain ⟨declarations, _, hfound⟩ := exists_accepted_of_export hentry
  exact Declarations.name_of_find? hfound

/-- A built graph passes validation: every export belongs to its module, and the ends of edges, the
targets of forwards and the stars are nodes.  So its analysis succeeds, whatever the entries. -/
theorem liveness_build (resolver : Resolver) (submissions : List Submission) :
    (build resolver submissions).graph.validate = .ok () ∧
      (build resolver submissions).graph.Valid ∧
      ∀ entries entryExportsUsed, ∃ result,
        (build resolver submissions).graph.liveness entries entryExportsUsed = .ok result := by
  have hvalid := valid_build resolver submissions
  refine ⟨validate_eq_ok_iff.mpr hvalid, hvalid, fun entries entryExportsUsed => ?_⟩
  exact ⟨_, liveness_of_valid hvalid entries entryExportsUsed⟩

/-! ## The order of submissions -/

theorem find?_accepted_eq_some_iff (hdistinct : (submissions.map (·.module)).Nodup) {id : ModuleId}
    {declarations : Declarations} :
    (accepted submissions).find? id = some declarations ↔ ⟨id, declarations⟩ ∈ submissions := by
  rw [find?_accepted, Option.map_eq_some_iff]
  constructor
  · rintro ⟨submission, hfound, rfl⟩
    have hid : submission.module = id := by simpa using List.find?_some hfound
    rw [← hid]
    exact List.mem_of_find?_eq_some hfound
  · intro hmem
    cases hfound : submissions.find? (·.module = id) with
    | none => simpa using List.find?_eq_none.mp hfound _ hmem
    | some submission =>
        have hid : submission.module = id := by simpa using List.find?_some hfound
        have hsame : submission = ⟨id, declarations⟩ :=
          List.inj_on_of_nodup_map hdistinct (List.mem_of_find?_eq_some hfound) hmem hid
        exact ⟨submission, rfl, by rw [hsame]⟩

/-- Nothing is reported if every module is submitted once. -/
theorem acceptInto_reports_of_distinct (hdistinct : (submissions.map (·.module)).Nodup)
    (accepted : Table ModuleId Declarations)
    (hnew : ∀ submission ∈ submissions, accepted.find? submission.module = none) :
    (acceptInto accepted submissions).2 = [] := by
  induction submissions generalizing accepted with
  | nil => rfl
  | cons submission rest ih =>
      rw [List.map_cons, List.nodup_cons] at hdistinct
      rw [acceptInto, hnew submission List.mem_cons_self]
      refine ih hdistinct.2 _ fun other hother => ?_
      have hne : other.module ≠ submission.module := fun heq =>
        hdistinct.1 (heq ▸ List.mem_map_of_mem hother)
      rw [Table.find?_insert, if_neg hne]
      exact hnew other (List.mem_cons_of_mem _ hother)

/-- The order of submissions does not matter if every module is submitted once. -/
theorem build_eq_of_perm {others : List Submission} (hperm : submissions.Perm others)
    (hdistinct : (submissions.map (·.module)).Nodup) :
    build resolver submissions = build resolver others := by
  have hothers : (others.map (·.module)).Nodup := (hperm.map _).nodup_iff.mp hdistinct
  have haccepted : accepted submissions = accepted others := by
    refine Table.ext_find? fun id => ?_
    ext declarations
    rw [find?_accepted_eq_some_iff hdistinct, find?_accepted_eq_some_iff hothers, hperm.mem_iff]
  have hreports : (acceptInto ∅ submissions).2 = (acceptInto ∅ others).2 := by
    rw [acceptInto_reports_of_distinct hdistinct ∅ fun _ _ => rfl,
      acceptInto_reports_of_distinct hothers ∅ fun _ _ => rfl]
  unfold build
  rw [show acceptInto ∅ submissions = acceptInto ∅ others from Prod.ext haccepted hreports]

end Graph

end LiveExports

import LiveExports.Proofs.Graph.Building

/-!
# Only first submissions count

A graph is built from the first submission of each module.  Later submissions leave no trace in it;
all that they bring about is a report on each of them that differs from the first, and these reports
come before all others.  The order of the first submissions does not matter (`Graph.build_firsts`).

## Strategy

Everything but the reports on later submissions is read off the table of accepted declarations, and
what this table finds for a module is the first submission (`find?_accepted`).  So it is enough that
taking the first submissions keeps the first submission of every module (`find?_firsts`).  For the
reports, one step of acceptance is compared with the table that is accepted in the end: an entry of
the table never changes once it is there.
-/

namespace LiveExports

/-- The submissions of modules that were not submitted before. -/
def firsts : List Submission → List Submission
  | [] => []
  | submission :: rest => submission :: (firsts rest).filter (·.module ≠ submission.module)

/-- The submissions that differ from the first one of their module. -/
def conflicting (submissions : List Submission) : List Submission :=
  submissions.filter fun submission =>
    (submissions.find? (·.module = submission.module)).map (·.declarations) ≠
      some submission.declarations

/-! ## First submissions -/

/-- The first submission of a module is kept. -/
theorem find?_firsts (submissions : List Submission) (id : ModuleId) :
    (firsts submissions).find? (·.module = id) = submissions.find? (·.module = id) := by
  induction submissions with
  | nil => rfl
  | cons submission rest ih =>
      rw [firsts]
      by_cases hid : submission.module = id
      · rw [List.find?_cons_of_pos (by simpa using hid),
          List.find?_cons_of_pos (by simpa using hid)]
      · rw [List.find?_cons_of_neg (by simpa using hid),
          List.find?_cons_of_neg (by simpa using hid), List.find?_filter, ← ih]
        -- What is removed here is not looked for.
        congr 1
        funext other
        by_cases hother : other.module = id
        · simp [hother, Ne.symm hid]
        · simp [hother]

/-- No module is submitted twice by first submissions. -/
theorem nodup_firsts (submissions : List Submission) :
    ((firsts submissions).map (·.module)).Nodup := by
  induction submissions with
  | nil => exact List.nodup_nil
  | cons submission rest ih =>
      rw [firsts, List.map_cons, List.nodup_cons]
      refine ⟨?_, ih.sublist (List.filter_sublist.map _)⟩
      rw [List.mem_map]
      rintro ⟨other, hother, hsame⟩
      have hne := List.of_mem_filter hother
      simp [hsame] at hne

/-! ## Reports on later submissions -/

namespace Graph

variable {submissions : List Submission}

/-- A submission is reported just if other declarations of its module are accepted in the end. -/
theorem acceptInto_reports (accepted : Table ModuleId Declarations)
    (submissions : List Submission) :
    (acceptInto accepted submissions).2 =
      (submissions.filter fun submission =>
        (acceptInto accepted submissions).1.find? submission.module ≠
          some submission.declarations).map fun submission => conflictReport submission.module := by
  induction submissions generalizing accepted with
  | nil => rfl
  | cons submission rest ih =>
      -- What is found under the module of the first submission was there, or is what it submits.
      have hfound := find?_acceptInto accepted (submission :: rest) submission.module
      rw [List.find?_cons_of_pos (by simp), Option.map_some] at hfound
      rw [List.filter_cons]
      simp only [hfound]
      rw [acceptInto]
      split
      · next hnew =>
        rw [hnew, Option.none_or, ih]
        simp
      · next first hfirst =>
        rw [hfirst, Option.some_or]
        by_cases hsame : first = submission.declarations
        · simp [hsame, ih]
        · simp [hsame, ih]

theorem conflicts_eq (submissions : List Submission) :
    (acceptInto ∅ submissions).2 =
      (conflicting submissions).map fun submission => conflictReport submission.module := by
  rw [acceptInto_reports]
  congr 1
  refine List.filter_congr fun submission _ => ?_
  have hfound := find?_accepted submissions submission.module
  rw [accepted] at hfound
  rw [hfound]

/-- The graph and the reports on specifiers are read off the accepted declarations. -/
theorem build_eq_of_accepted (resolver : Resolver) {others : List Submission}
    (h : accepted submissions = accepted others) :
    (build resolver submissions).graph = (build resolver others).graph ∧
      ∃ reports,
        (build resolver submissions).diagnostics = (acceptInto ∅ submissions).2 ++ reports ∧
        (build resolver others).diagnostics = (acceptInto ∅ others).2 ++ reports := by
  unfold accepted at h
  unfold build
  dsimp only
  rw [h]
  exact ⟨rfl, _, rfl, rfl⟩

theorem accepted_firsts (submissions : List Submission) :
    accepted (firsts submissions) = accepted submissions := by
  refine Table.ext_find? fun id => ?_
  rw [find?_accepted, find?_accepted, find?_firsts]

/-- A graph is that of the first submissions.  Each submission that differs from the first of its
module is reported, in the order of submissions, and these reports come before those on the first
submissions.  The order of the first submissions does not matter for the graph, its list of edges or
the reports. -/
theorem build_firsts (resolver : Resolver) (submissions : List Submission) :
    (build resolver submissions).graph = (build resolver (firsts submissions)).graph ∧
      (build resolver submissions).diagnostics =
        ((conflicting submissions).map fun submission =>
          { module := submission.module
            kind := .duplicateModule
            message := (Fault.duplicateModule submission.module
              "submitted twice with conflicting declarations; keeping the first").message }) ++
        (build resolver (firsts submissions)).diagnostics ∧
      ∀ others, others.Perm (firsts submissions) →
        build resolver others = build resolver (firsts submissions) := by
  have hdistinct := nodup_firsts submissions
  obtain ⟨hgraph, reports, hall, hfirsts⟩ :=
    build_eq_of_accepted resolver (accepted_firsts submissions).symm
  refine ⟨hgraph, ?_, fun others hperm => (build_eq_of_perm hperm.symm hdistinct).symm⟩
  rw [hall, hfirsts, acceptInto_reports_of_distinct hdistinct ∅ fun _ _ => rfl, List.nil_append,
    conflicts_eq]
  rfl

/-- A module that imports a name of another, and its library. -/
def importer : Submission :=
  ⟨⟨"/p/main.js"⟩, { imports := [⟨"./lib.js", "x", "x", 1⟩] }⟩

def library : Submission :=
  ⟨⟨"/p/lib.js"⟩, { exports := [{ name := "x", line := 1 }] }⟩

/-- A resolver that knows the library only. -/
def libraryResolver : Resolver where
  isFile path := path == "/p/lib.js"

/-- The importer is submitted before what it imports, and again without its import; the library is
submitted again as it was. -/
def resubmitted : List Submission :=
  [importer, library, { importer with declarations := {} }, library]

theorem build_firsts_resubmitted :
    firsts resubmitted = [importer, library] ∧
      [library, importer].Perm (firsts resubmitted) ∧
      build libraryResolver [library, importer] = build libraryResolver (firsts resubmitted) ∧
      conflicting resubmitted = [{ importer with declarations := {} }] ∧
      (build libraryResolver resubmitted).diagnostics =
        conflictReport ⟨"/p/main.js"⟩ ::
          (build libraryResolver (firsts resubmitted)).diagnostics := by
  have hperm : [library, importer].Perm (firsts resubmitted) := by decide
  have hconflicting : conflicting resubmitted = [{ importer with declarations := {} }] := by decide
  obtain ⟨-, hdiagnostics, horder⟩ := build_firsts libraryResolver resubmitted
  rw [hconflicting] at hdiagnostics
  exact ⟨by decide, hperm, horder _ hperm, hconflicting, hdiagnostics⟩

end Graph

end LiveExports

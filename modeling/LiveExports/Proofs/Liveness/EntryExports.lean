import LiveExports.Proofs.Liveness.Provision

/-!
# The exports of entry modules

Where the exports of entry modules count as used, the analysis starts with a demand for each name
that an entry declares.  A name that an entry only passes on with a star is not among them.  Such a
name is used for another reason or not at all: some live module imports it, or an entry forwards it
under a name of its own (`Graph.entryExport_used_iff`).
-/

namespace LiveExports

open Relation

namespace Graph

variable {graph : Graph}

/-- A demand goes back to an import of a live module, or to a name that an entry declares. -/
theorem exists_arises_iff {entries : List ModuleId} {entryExportsUsed : Bool}
    {live : ModuleId → Prop} {demand : Demand} :
    (∃ site, Arises graph entries entryExportsUsed live site demand) ↔
      (∃ edge ∈ graph.edges, edge.kind = .imports ∧ edge.source ≠ edge.target ∧ live edge.source ∧
        ReflTransGen graph.Follows ⟨edge.target, Wanted.ofImport edge.name⟩ demand) ∨
      (entryExportsUsed = true ∧ ∃ entry ∈ entries, ∃ own, graph.declares entry own = true ∧
        ReflTransGen graph.Follows ⟨entry, .named own⟩ demand) := by
  constructor
  · rintro ⟨site, first, horigin, hchain⟩
    rcases horigin.cases_requests with
        ⟨edge, hedge, hlive, _, rfl⟩ | ⟨hused, hentry, hdeclares, rfl⟩
    · obtain ⟨hmem, hsource, hkind, hends⟩ := mem_requests_iff.mp hedge
      rw [← hsource] at hlive
      exact Or.inl ⟨edge, hmem, hkind, hends, hlive, hchain⟩
    · exact Or.inr ⟨hused, site.module, hentry, site.name, hdeclares, hchain⟩
  · rintro (⟨edge, hmem, hkind, hends, hlive, hchain⟩ |
      ⟨hused, entry, hentry, own, hdeclares, hchain⟩)
    · have hedge : edge ∈ graph.requests edge.source :=
        mem_requests_iff.mpr ⟨hmem, rfl, hkind, hends⟩
      exact ⟨_, _, origin_of_mem_requests entries entryExportsUsed hedge hlive, hchain⟩
    · exact ⟨_, _, .entryExport hused hentry hdeclares, hchain⟩

variable (hvalid : graph.Valid) (entries : List ModuleId)

include hvalid

/-- What a demand in the final stage goes back to, where the exports of entries count as used. -/
theorem demands_finalStage_iff {demand : Demand} :
    (graph.finalStage entries true).Demands demand ↔
      (∃ edge ∈ graph.edges, edge.kind = .imports ∧ edge.source ≠ edge.target ∧
        edge.source ∈ (graph.finalStage entries true).live ∧
        ReflTransGen graph.Follows ⟨edge.target, Wanted.ofImport edge.name⟩ demand) ∨
      ∃ entry ∈ entries, ∃ own, graph.declares entry own = true ∧
        ReflTransGen graph.Follows ⟨entry, .named own⟩ demand := by
  unfold Stage.Demands
  simp only [mem_sites_finalStage_iff hvalid entries true]
  rw [exists_arises_iff]
  simp only [true_and]

/-- A name that an entry declares is used. -/
theorem uses_finalStage_of_entry (hkeyed : graph.KeyedByName) {entry : ModuleId} {name : String}
    (hentry : entry ∈ entries) (hdeclares : graph.declares entry name = true) :
    ((graph.finalStage entries true).result graph).Uses entry name := by
  rw [uses_keyed_iff hvalid entries true hkeyed, demands_finalStage_iff hvalid entries]
  exact ⟨hdeclares, Or.inr ⟨entry, hentry, name, hdeclares, ReflTransGen.refl⟩⟩

omit hvalid

/-- Where the exports of entries count as used, some module that an entry offers a name from has it
used just if the entry declares the name, or the demand for it goes back to an import of a live
module or to a name that an entry declares.  Offering the name over stars is not enough. -/
theorem entryExport_used_iff {graph : Graph} (hvalid : graph.validate = .ok ())
    (hkeyed : graph.KeyedByName) (entries : List ModuleId) :
    ∃ result, graph.liveness entries true = .ok result ∧
      ∀ entry ∈ entries, ∀ name,
        (graph.provides entry name = true ↔ ∃ provider, graph.Offers entry name provider) ∧
        (graph.declares entry name = true → result.Uses entry name) ∧
        ((∃ provider, graph.Offers entry name provider ∧ result.Uses provider name) ↔
          graph.declares entry name = true ∨
          ∃ provider, graph.Offers entry name provider ∧
            ((∃ edge ∈ graph.edges, edge.kind = .imports ∧ edge.source ≠ edge.target ∧
                edge.source ∈ result.live ∧
                ReflTransGen graph.Follows ⟨edge.target, Wanted.ofImport edge.name⟩
                  ⟨provider, .named name⟩) ∨
              ∃ other ∈ entries, ∃ own, graph.declares other own = true ∧
                ReflTransGen graph.Follows ⟨other, .named own⟩ ⟨provider, .named name⟩)) := by
  rw [validate_eq_ok_iff] at hvalid
  refine ⟨_, liveness_of_valid hvalid entries true, ?_⟩
  intro entry hentry name
  refine ⟨provides_iff, uses_finalStage_of_entry hvalid entries hkeyed hentry, ?_, ?_⟩
  · -- The provider may be the entry itself, but the demand still has one of the two beginnings.
    rintro ⟨provider, hoffers, huses⟩
    obtain ⟨_, hdemands⟩ := (uses_keyed_iff hvalid entries true hkeyed).mp huses
    exact Or.inr ⟨provider, hoffers, (demands_finalStage_iff hvalid entries).mp hdemands⟩
  · rintro (hdeclares | ⟨provider, hoffers, hreason⟩)
    · exact ⟨entry, Offers.self hdeclares,
        uses_finalStage_of_entry hvalid entries hkeyed hentry hdeclares⟩
    · refine ⟨provider, hoffers, (uses_keyed_iff hvalid entries true hkeyed).mpr ⟨hoffers.1, ?_⟩⟩
      exact (demands_finalStage_iff hvalid entries).mpr hreason

/-- An entry that has no names of its own, and passes on those of another module. -/
def starBarrel : Graph :=
  ofParts
    [{ id := ⟨"/index.js"⟩, stars := [⟨"/lib.js"⟩] },
      { id := ⟨"/lib.js"⟩
        exports := Table.ofList [("x", { owner := ⟨"/lib.js"⟩, name := "x" })] }]
    [{ source := ⟨"/index.js"⟩, target := ⟨"/lib.js"⟩, name := "*", localName := "*",
        kind := .forwards }]

theorem entryExport_used_iff_starBarrel :
    starBarrel.validate = .ok () ∧ starBarrel.KeyedByName ∧
      starBarrel.provides ⟨"/index.js"⟩ "x" = true ∧
      ∃ result, starBarrel.liveness [⟨"/index.js"⟩] true = .ok result ∧
        ¬∃ provider, starBarrel.Offers ⟨"/index.js"⟩ "x" provider ∧ result.Uses provider "x" := by
  have hvalid : starBarrel.validate = .ok () := rfl
  have hkeyed : starBarrel.KeyedByName := by decide
  have hprovides : starBarrel.provides ⟨"/index.js"⟩ "x" = true := by decide +kernel
  have hnothing : ∀ own, starBarrel.declares ⟨"/index.js"⟩ own = false := fun _ => rfl
  obtain ⟨result, hresult, hexact⟩ := entryExport_used_iff hvalid hkeyed [⟨"/index.js"⟩]
  obtain ⟨_, _, hused⟩ := hexact ⟨"/index.js"⟩ (List.mem_singleton_self _) "x"
  refine ⟨hvalid, hkeyed, hprovides, result, hresult, ?_⟩
  rw [hused]
  rintro (hdeclares | ⟨provider, _, ⟨edge, hedge, hkind, _⟩ | ⟨other, hother, own, hdeclares, _⟩⟩)
  · rw [hnothing] at hdeclares
    contradiction
  · rw [List.mem_singleton.mp hedge] at hkind
    contradiction
  · rw [List.mem_singleton.mp hother, hnothing] at hdeclares
    contradiction

end Graph

end LiveExports

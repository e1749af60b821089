import LiveExports.Graph.Basic
import LiveExports.Ordered.SortedSet

/-!
# Demands

A demand asks a module for one name, for all its names, or for all but `default`.  What a demand
passes on depends on the graph alone:

* a name that the module declares and forwards is demanded of the module it comes from;
* a name that the module does not declare is demanded of every module it forwards with a star,
  unless it is `default`;
* a demand for all names becomes a demand for each name that the module declares, and for all names
  but `default` of every module it forwards with a star.
-/

namespace LiveExports

/-- What a demand asks for. -/
inductive Wanted where
  | all
  | allButDefault
  | named (name : String)
deriving DecidableEq, Repr

namespace Wanted

/-- What is wanted of a module by importing the given name of it. -/
def ofImport (name : String) : Wanted :=
  if name = namespaceName then .all else .named name

/-- Does a demand for many names include this one? -/
def includes : Wanted → String → Bool
  | all, _ => true
  | allButDefault, name => name != defaultName
  | named wanted, name => wanted == name

def orderKey : Wanted → Nat × String
  | all => (0, "")
  | allButDefault => (1, "")
  | named name => (2, name)

theorem eq_of_orderKey_eq (a b : Wanted) (h : a.orderKey = b.orderKey) : a = b := by
  cases a <;> cases b <;> simp_all [orderKey]

end Wanted

/-- Something wanted of a module. -/
structure Demand where
  module : ModuleId
  wanted : Wanted
deriving DecidableEq, Repr

instance : StrictOrder Demand :=
  StrictOrder.ofKey (fun demand => (demand.module, demand.wanted.orderKey)) fun a b h => by
    obtain ⟨module, wanted⟩ := a
    obtain ⟨module', wanted'⟩ := b
    simp only [Prod.mk.injEq] at h
    obtain ⟨rfl, hwanted⟩ := h
    rw [Wanted.eq_of_orderKey_eq wanted wanted' hwanted]

/-- Where a demand comes from in the first place: a module, and the name it asks for. -/
structure UsageSite where
  module : ModuleId
  name : String
deriving DecidableEq, Repr

/-- Sites are listed by module, then by name. -/
instance : StrictOrder UsageSite :=
  StrictOrder.ofKey (fun site => (site.module, site.name)) fun a b h => by
    obtain ⟨module, name⟩ := a
    obtain ⟨module', name'⟩ := b
    simp only [Prod.mk.injEq] at h
    rw [h.1, h.2]

/-- A demand that follows from another; a module that forwards a name by name is the requester. -/
structure Consequence where
  demand : Demand
  requester : Option ModuleId := none
deriving DecidableEq, Repr

namespace Graph

/-- Does the demand name an export that its module declares? -/
def isMet (graph : Graph) (demand : Demand) : Bool :=
  match demand.wanted with
  | .named name => graph.declares demand.module name
  | _ => false

theorem isMet_iff {graph : Graph} {demand : Demand} :
    graph.isMet demand = true ↔
      ∃ name, demand = ⟨demand.module, .named name⟩ ∧
        graph.declares demand.module name = true := by
  obtain ⟨module, wanted⟩ := demand
  cases wanted with
  | named name => simp [isMet]
  | all => simp [isMet]
  | allButDefault => simp [isMet]

/-- The demands that follow from a demand on a module. -/
def consequencesAt (node : Node) (demand : Demand) : List Consequence :=
  match demand.wanted with
  | .named name =>
    match node.exports.find? name with
    | some entry =>
      match entry.target with
      | some target => [⟨⟨target.module, .named target.name⟩, some demand.module⟩]
      | none => []
    | none =>
      if name = defaultName then []
      else node.stars.map fun star => { demand := ⟨star, .named name⟩ }
  | wanted =>
    ((node.exports.keys.filter wanted.includes).map fun name =>
        { demand := ⟨demand.module, .named name⟩ }) ++
      node.stars.map fun star => { demand := ⟨star, .allButDefault⟩ }

/-- The demands that follow from a demand. -/
def consequences (graph : Graph) (demand : Demand) : List Consequence :=
  match graph.node? demand.module with
  | some node => consequencesAt node demand
  | none => []

/-- The imports by which a module asks others for names; what it asks of itself does not count. -/
def requests (graph : Graph) (module : ModuleId) : List Edge :=
  (graph.edgesFrom module).filter fun edge => edge.kind == .imports && !edge.isLoop

end Graph

end LiveExports

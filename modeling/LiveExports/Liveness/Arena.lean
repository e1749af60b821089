import LiveExports.Liveness.WorkList

/-!
# The work list in numbers

The work list again, on records that are cheap to compare and to copy.  Demands and usage sites are
numbered in the order in which they come up.  A site is written out once, in the site table, and a
demand once, in the arena; elsewhere sets of sites are sets of numbers, and the queue is a list of
numbers, with a mark at every demand that is in it.

A numbered stage stands for a stage (`NumberedStage.stage`), and each operation below is named for
the operation on stages that it stands for.
-/

namespace LiveExports

/-! ## Numbers for sites -/

/-- The sites so far, in the order in which they came up, and the number of each. -/
structure SiteTable where
  table : List UsageSite := []
  index : Table UsageSite Nat := ∅

/-- The number of a site, which is entered if it is new. -/
def SiteTable.intern (sites : SiteTable) (site : UsageSite) : Nat × SiteTable :=
  match sites.index.find? site with
  | some number => (number, sites)
  | none =>
    (sites.table.length,
      { table := sites.table ++ [site]
        index := sites.index.insert site sites.table.length })

/-! ## Numbers for demands -/

/-- The demands so far, in the order in which they came up, with the number of each, the sites it
comes from, a mark if it is queued, and the modules that ask for it by name; and the queue. -/
structure Arena where
  keys : List Demand := []
  index : Table Demand Nat := ∅
  sites : List (SortedSet Nat) := []
  queued : List Bool := []
  requestedBy : List (SortedSet ModuleId) := []
  queue : List Nat := []

namespace Arena

def sitesAt (arena : Arena) (i : Nat) : SortedSet Nat :=
  arena.sites[i]?.getD ∅

def requestersAt (arena : Arena) (i : Nat) : SortedSet ModuleId :=
  arena.requestedBy[i]?.getD ∅

/-- The sites of a demand, if it has come up. -/
def sitesOf (arena : Arena) (key : Demand) : SortedSet Nat :=
  ((arena.index.find? key).map arena.sitesAt).getD ∅

/-- The number of a demand, which is entered without sites if it is new. -/
def keyIndex (arena : Arena) (key : Demand) : Nat × Arena :=
  match arena.index.find? key with
  | some i => (i, arena)
  | none =>
    (arena.keys.length,
      { arena with
        keys := arena.keys ++ [key]
        index := arena.index.insert key arena.keys.length
        sites := arena.sites ++ [∅]
        queued := arena.queued ++ [false]
        requestedBy := arena.requestedBy ++ [∅] })

/-- Do these sites bring a demand into the queue?  One of them has to be new to it, and it must not
be queued yet. -/
def joins (arena : Arena) (i : Nat) (sites : SortedSet Nat) : Bool :=
  (arena.sitesAt i).size < ((arena.sitesAt i).union sites).size && arena.queued[i]? == some false

/-- Adds sites to a demand. -/
def extend (arena : Arena) (i : Nat) (sites : SortedSet Nat) : Arena :=
  { arena with
    sites := arena.sites.set i ((arena.sitesAt i).union sites)
    queued := if arena.joins i sites then arena.queued.set i true else arena.queued
    queue := if arena.joins i sites then arena.queue ++ [i] else arena.queue }

/-- Makes a demand from the given sites. -/
def demand (arena : Arena) (key : Demand) (sites : SortedSet Nat) : Nat × Arena :=
  let (i, arena) := arena.keyIndex key
  (i, arena.extend i sites)

/-- Notes that a module asks for a demand by name. -/
def request (arena : Arena) (i : Nat) (requester : ModuleId) : Arena :=
  { arena with requestedBy := arena.requestedBy.modify i (·.insert requester) }

/-- Takes the first demand out of the queue. -/
def pop (arena : Arena) : Option (Nat × Arena) :=
  match arena.queue with
  | [] => none
  | i :: queue => some (i, { arena with queue, queued := arena.queued.set i false })

end Arena

/-! ## Stages -/

/-- A stage in numbers. -/
structure NumberedStage where
  live : SortedSet ModuleId := ∅
  siteTable : SiteTable := {}
  arena : Arena := {}
  used : Table (ModuleId × String) (SortedSet Nat) := ∅

namespace NumberedStage

/-- The sites that use an export. -/
def uses (stage : NumberedStage) (module : ModuleId) (name : String) : SortedSet Nat :=
  (stage.used.find? (module, name)).getD ∅

def raise (stage : NumberedStage) (demand : Demand) (sites : SortedSet Nat)
    (requester : Option ModuleId) : NumberedStage :=
  let (i, arena) := stage.arena.demand demand sites
  { stage with arena := requester.elim arena (arena.request i) }

/-- Makes a demand from a single site. -/
def raiseFrom (stage : NumberedStage) (demand : Demand) (site : UsageSite)
    (requester : Option ModuleId) : NumberedStage :=
  let (number, siteTable) := stage.siteTable.intern site
  ({ stage with siteTable } : NumberedStage).raise demand (SortedSet.ofList [number]) requester

def raiseImport (stage : NumberedStage) (edge : Edge) : NumberedStage :=
  stage.raiseFrom ⟨edge.target, Wanted.ofImport edge.name⟩ ⟨edge.source, edge.name⟩
    (some edge.source)

def enliven (graph : Graph) (stage : NumberedStage) (module : ModuleId) : NumberedStage :=
  let stage := (graph.requests module).foldl raiseImport stage
  { stage with live := stage.live.insert module }

def fresh (graph : Graph) (stage : NumberedStage) (roots : List ModuleId) : List ModuleId :=
  (SortedSet.ofList ((graph.reachableFrom .execution roots).filter (· ∉ stage.live))).elements

def activate (graph : Graph) (stage : NumberedStage) (roots : List ModuleId) : NumberedStage :=
  (stage.fresh graph roots).foldl (enliven graph) stage

def awaken (graph : Graph) (stage : NumberedStage) (demand : Demand) : NumberedStage :=
  if graph.isMet demand ∧ demand.module ∉ stage.live then stage.activate graph [demand.module]
  else stage

def credit (graph : Graph) (stage : NumberedStage) (demand : Demand) (sites : SortedSet Nat) :
    NumberedStage :=
  match demand.wanted with
  | .named name =>
    if graph.declares demand.module name then
      { stage with
        used := stage.used.insert (demand.module, name)
          ((stage.uses demand.module name).union sites) }
    else stage
  | _ => stage

def passOn (graph : Graph) (stage : NumberedStage) (demand : Demand) (sites : SortedSet Nat) :
    NumberedStage :=
  (graph.consequences demand).foldl
    (fun stage consequence => stage.raise consequence.demand sites consequence.requester) stage

def turn (graph : Graph) (stage : NumberedStage) : NumberedStage :=
  match stage.arena.pop with
  | none => stage
  | some (i, arena) =>
    let taken : NumberedStage := { stage with arena }
    match arena.keys[i]? with
    | none => taken
    | some demand =>
      let sites := arena.sitesAt i
      ((taken.awaken graph demand).credit graph demand sites).passOn graph demand sites

def takeTurns (graph : Graph) : (bound : Nat) → NumberedStage → NumberedStage
  | 0, stage => stage
  | bound + 1, stage =>
    if stage.arena.queue.isEmpty then stage else takeTurns graph bound (stage.turn graph)

def raiseEntryExport (stage : NumberedStage) (entry : ModuleId) (name : String) : NumberedStage :=
  stage.raiseFrom ⟨entry, .named name⟩ ⟨entry, name⟩ none

def raiseEntryExports (graph : Graph) (stage : NumberedStage) (entries : List ModuleId) :
    NumberedStage :=
  entries.foldl
    (fun stage entry =>
      match graph.node? entry with
      | some node =>
        node.exports.keys.foldl (fun stage name => stage.raiseEntryExport entry name) stage
      | none => stage)
    stage

def initial (graph : Graph) (entries : List ModuleId) (entryExportsUsed : Bool) : NumberedStage :=
  let stage := ({} : NumberedStage).activate graph entries
  if entryExportsUsed then stage.raiseEntryExports graph entries else stage

/-! ## The stage that a numbered stage stands for -/

/-- The sites with the given numbers. -/
def siteSet (stage : NumberedStage) (numbers : SortedSet Nat) : SortedSet UsageSite :=
  SortedSet.ofList (numbers.elements.filterMap (stage.siteTable.table[·]?))

/-- What is known about the demand with the given number. -/
def standingAt (stage : NumberedStage) (i : Nat) : Standing where
  sites := stage.siteSet (stage.arena.sitesAt i)
  requesters := stage.arena.requestersAt i

def stage (stage : NumberedStage) : Stage where
  live := stage.live
  standings := Table.ofList
    (stage.arena.index.entries.map fun entry => (entry.1, stage.standingAt entry.2))
  queue := stage.arena.queue.filterMap (stage.arena.keys[·]?)
  used := Table.ofList (stage.used.entries.map fun entry => (entry.1, stage.siteSet entry.2))

end NumberedStage

end LiveExports

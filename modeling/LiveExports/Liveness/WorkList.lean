import LiveExports.Graph.Search
import LiveExports.Liveness.Demand

/-!
# The work list of demands

Every demand is kept with the usage sites that it comes from.  A demand is queued when it gains a
site, and when its turn comes it passes all its sites on to the demands that follow from it.  A
demand for a declared name also brings the declaring module to life, if it is not alive: all that
the module runs becomes live, and what the live modules import is demanded.  Its sites are noted as
uses of the export.

A demand may be queued many times, but each time it has gained a site since the last.  There are
finitely many demands and sites in a graph, so the queue runs empty (`Graph.turnBound`).
-/

namespace LiveExports

/-- What is known about a demand: the sites it comes from, and the modules that ask for it by
name. -/
structure Standing where
  sites : SortedSet UsageSite := ∅
  requesters : SortedSet ModuleId := ∅

/-- A stage of the analysis: the live modules, the demands so far, the demands whose turn is to
come, in this order, and the exports used so far with the sites that use them. -/
structure Stage where
  live : SortedSet ModuleId := ∅
  standings : Table Demand Standing := ∅
  queue : List Demand := []
  used : Table (ModuleId × String) (SortedSet UsageSite) := ∅

namespace Stage

def standing (stage : Stage) (demand : Demand) : Standing :=
  (stage.standings.find? demand).getD {}

def sites (stage : Stage) (demand : Demand) : SortedSet UsageSite :=
  (stage.standing demand).sites

def requesters (stage : Stage) (demand : Demand) : SortedSet ModuleId :=
  (stage.standing demand).requesters

/-- The sites that use an export. -/
def uses (stage : Stage) (module : ModuleId) (name : String) : SortedSet UsageSite :=
  (stage.used.find? (module, name)).getD ∅

/-- Makes a demand from the given sites, asked for by a requester; it is queued if it gains a
site. -/
def raise (stage : Stage) (demand : Demand) (sites : SortedSet UsageSite)
    (requester : Option ModuleId) : Stage :=
  let before := stage.standing demand
  let after : Standing :=
    { sites := before.sites.union sites
      requesters := requester.elim before.requesters before.requesters.insert }
  { stage with
    standings := stage.standings.insert demand after
    queue :=
      if before.sites.size < after.sites.size ∧ demand ∉ stage.queue then stage.queue ++ [demand]
      else stage.queue }

/-- Makes the demand of an import. -/
def raiseImport (stage : Stage) (edge : Edge) : Stage :=
  stage.raise ⟨edge.target, Wanted.ofImport edge.name⟩ (SortedSet.ofList [⟨edge.source, edge.name⟩])
    (some edge.source)

/-- Makes a module live, with the demands of its imports. -/
def enliven (graph : Graph) (stage : Stage) (module : ModuleId) : Stage :=
  let stage := (graph.requests module).foldl raiseImport stage
  { stage with live := stage.live.insert module }

/-- The modules run by the roots that are not live yet, in order. -/
def fresh (graph : Graph) (stage : Stage) (roots : List ModuleId) : List ModuleId :=
  (SortedSet.ofList ((graph.reachableFrom .execution roots).filter (· ∉ stage.live))).elements

/-- Makes everything live that the roots run. -/
def activate (graph : Graph) (stage : Stage) (roots : List ModuleId) : Stage :=
  (stage.fresh graph roots).foldl (enliven graph) stage

/-- Brings the module of a demand to life, if the demand names an export of it. -/
def awaken (graph : Graph) (stage : Stage) (demand : Demand) : Stage :=
  if graph.isMet demand ∧ demand.module ∉ stage.live then stage.activate graph [demand.module]
  else stage

/-- Notes that the sites use the export that a demand names, if there is one. -/
def credit (graph : Graph) (stage : Stage) (demand : Demand) (sites : SortedSet UsageSite) :
    Stage :=
  match demand.wanted with
  | .named name =>
    if graph.declares demand.module name then
      { stage with
        used := stage.used.insert (demand.module, name)
          ((stage.uses demand.module name).union sites) }
    else stage
  | _ => stage

/-- Passes the sites of a demand on to the demands that follow from it. -/
def passOn (graph : Graph) (stage : Stage) (demand : Demand) (sites : SortedSet UsageSite) :
    Stage :=
  (graph.consequences demand).foldl
    (fun stage consequence => stage.raise consequence.demand sites consequence.requester) stage

/-- The turn of the first demand in the queue. -/
def turn (graph : Graph) (stage : Stage) : Stage :=
  match stage.queue with
  | [] => stage
  | demand :: queue =>
    let sites := stage.sites demand
    ((({ stage with queue } : Stage).awaken graph demand).credit graph demand sites).passOn graph
      demand sites

/-- Takes turns until the queue is empty, at most `bound` of them. -/
def takeTurns (graph : Graph) : (bound : Nat) → Stage → Stage
  | 0, stage => stage
  | bound + 1, stage =>
    if stage.queue.isEmpty then stage else takeTurns graph bound (stage.turn graph)

/-- Makes the demand for an export of an entry module, on behalf of the entry itself. -/
def raiseEntryExport (stage : Stage) (entry : ModuleId) (name : String) : Stage :=
  stage.raise ⟨entry, .named name⟩ (SortedSet.ofList [⟨entry, name⟩]) none

/-- Makes the demands for all exports of the entry modules. -/
def raiseEntryExports (graph : Graph) (stage : Stage) (entries : List ModuleId) : Stage :=
  entries.foldl
    (fun stage entry =>
      match graph.node? entry with
      | some node =>
        node.exports.keys.foldl (fun stage name => stage.raiseEntryExport entry name) stage
      | none => stage)
    stage

/-- The stage before the first turn: the entries are live, and their exports are demanded if they
count as used. -/
def initial (graph : Graph) (entries : List ModuleId) (entryExportsUsed : Bool) : Stage :=
  let stage := ({} : Stage).activate graph entries
  if entryExportsUsed then stage.raiseEntryExports graph entries else stage

end Stage

/-- No more turns than this are taken: there are at most as many demands as modules and wanted names
together allow, and each is queued at most once for each site. -/
def Graph.turnBound (graph : Graph) : Nat :=
  graph.nodes.size * (2 + graph.edges.length + 2 * graph.exportCount) *
    (graph.edges.length + graph.exportCount)

/-- The stage in which nothing is left to do. -/
def Graph.finalStage (graph : Graph) (entries : List ModuleId) (entryExportsUsed : Bool) : Stage :=
  (Stage.initial graph entries entryExportsUsed).takeTurns graph graph.turnBound

end LiveExports

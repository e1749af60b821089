import LiveExports.Proofs.Liveness.Arena
import LiveExports.Proofs.Liveness.FinalStage
import LiveExports.Proofs.Liveness.Provenance
import LiveExports.Proofs.Ordered.Listing

/-!
# The work list in numbers is the work list

Whatever is done to a numbered stage is done to the stage that it stands for, as long as its records
agree: numbers lead to just one site and to just one demand, so sets of numbers grow when the sets
of sites do, and a number is queued when its demand is.  Each operation is a sequence of single
calls (`NumberedStage.Leads`), hence the records do agree throughout.

So a run in numbers passes through the same stages as the run.  What is known about stages between
turns then holds of the numbers: a demand that is not queued has passed on all its sites
(`NumberedStage.Saturated`).
-/

namespace LiveExports

open Relation

theorem Stage.eq_of_fields {stage other : Stage} (hlive : stage.live = other.live)
    (hstandings : stage.standings = other.standings) (hqueue : stage.queue = other.queue)
    (hused : stage.used = other.used) : stage = other := by
  cases stage
  cases other
  simp_all

namespace NumberedStage

variable {graph : Graph} {stage later : NumberedStage} {numbers : SortedSet Nat}

/-! ## Sets of sites -/

theorem mem_siteSet {site : UsageSite} :
    site ∈ stage.siteSet numbers ↔
      ∃ number ∈ numbers, stage.siteTable.table[number]? = some site := by
  rw [siteSet, SortedSet.mem_ofList, List.mem_filterMap]
  rfl

theorem siteSet_union (stage : NumberedStage) (numbers others : SortedSet Nat) :
    stage.siteSet (numbers.union others) =
      (stage.siteSet numbers).union (stage.siteSet others) := by
  apply SortedSet.ext_mem
  intro site
  simp only [mem_siteSet, SortedSet.mem_union, or_and_right, exists_or]

/-- Numbers stand for the same sites when the table has grown. -/
theorem siteSet_of_table (htable : stage.siteTable.table <+: later.siteTable.table)
    (hknown : stage.Knows numbers) : later.siteSet numbers = stage.siteSet numbers := by
  obtain ⟨added, htable⟩ := htable
  apply SortedSet.ext_mem
  intro site
  simp only [mem_siteSet, ← htable]
  refine exists_congr fun number => and_congr_right fun hnumber => ?_
  rw [List.getElem?_append_left (hknown number hnumber)]

theorem Knows.mono (hknown : stage.Knows numbers)
    (htable : stage.siteTable.table <+: later.siteTable.table) : later.Knows numbers :=
  fun number hnumber => Nat.lt_of_lt_of_le (hknown number hnumber) htable.length_le

theorem Sound.mem_siteSet_iff (h : stage.Sound) {number : Nat} {site : UsageSite}
    (hsite : stage.siteTable.table[number]? = some site) :
    site ∈ stage.siteSet numbers ↔ number ∈ numbers := by
  rw [mem_siteSet]
  constructor
  · intro ⟨other, hother, hsame⟩
    exact h.sites.place_unique hsite hsame ▸ hother
  · intro hnumber
    exact ⟨number, hnumber, hsite⟩

/-- A set of numbers is contained in another when its sites are. -/
theorem Sound.subset_of_siteSet (h : stage.Sound) (hknown : stage.Knows numbers)
    {others : SortedSet Nat}
    (hsites : ∀ site ∈ stage.siteSet numbers, site ∈ stage.siteSet others) :
    ∀ number ∈ numbers, number ∈ others := by
  intro number hnumber
  have hsite := List.getElem?_eq_getElem (hknown number hnumber)
  exact (h.mem_siteSet_iff hsite).mp (hsites _ ((h.mem_siteSet_iff hsite).mpr hnumber))

/-- A set of numbers grows when the set of sites does. -/
theorem Sound.size_lt_size_union_iff (h : stage.Sound) {others : SortedSet Nat}
    (hknown : stage.Knows others) :
    (stage.siteSet numbers).size < ((stage.siteSet numbers).union (stage.siteSet others)).size ↔
      numbers.size < (numbers.union others).size := by
  rw [SortedSet.size_lt_size_union_iff, SortedSet.size_lt_size_union_iff]
  constructor
  · intro ⟨site, hnew, hold⟩
    obtain ⟨number, hnumber, hsite⟩ := mem_siteSet.mp hnew
    exact ⟨number, hnumber, fun hmem => hold (mem_siteSet.mpr ⟨number, hmem, hsite⟩)⟩
  · intro ⟨number, hnew, hold⟩
    have hsite := List.getElem?_eq_getElem (hknown number hnew)
    refine ⟨_, (h.mem_siteSet_iff hsite).mpr hnew, ?_⟩
    rwa [h.mem_siteSet_iff hsite]

/-! ## What the stage knows -/

theorem find?_standings (stage : NumberedStage) (key : Demand) :
    stage.stage.standings.find? key = (stage.arena.index.find? key).map stage.standingAt :=
  Table.find?_ofList_entries_map stage.arena.index (fun _ i => stage.standingAt i) key

theorem find?_used (stage : NumberedStage) (key : ModuleId × String) :
    stage.stage.used.find? key = (stage.used.find? key).map stage.siteSet :=
  Table.find?_ofList_entries_map stage.used (fun _ numbers => stage.siteSet numbers) key

theorem sites_stage (stage : NumberedStage) (key : Demand) :
    stage.stage.sites key = stage.siteSet (stage.arena.sitesOf key) := by
  unfold Stage.sites Stage.standing Arena.sitesOf
  rw [find?_standings]
  cases stage.arena.index.find? key <;> rfl

theorem uses_stage (stage : NumberedStage) (module : ModuleId) (name : String) :
    stage.stage.uses module name = stage.siteSet (stage.uses module name) := by
  unfold Stage.uses uses
  rw [find?_used]
  cases stage.used.find? (module, name) <;> rfl

/-- A demand that has not come up is like one without sites. -/
theorem Sound.standing_stage (h : stage.Sound) (key : Demand) :
    stage.stage.standing key = stage.standingAt (stage.arena.keyIndex key).1 := by
  unfold Stage.standing Arena.keyIndex
  rw [find?_standings]
  cases stage.arena.index.find? key with
  | some i => rfl
  | none =>
      have hsites : stage.arena.sitesAt stage.arena.keys.length = ∅ := by
        rw [Arena.sitesAt, List.getElem?_eq_none (Nat.le_of_eq h.arena.length_sites),
          Option.getD_none]
      have hrequesters : stage.arena.requestersAt stage.arena.keys.length = ∅ := by
        rw [Arena.requestersAt,
          List.getElem?_eq_none (Nat.le_of_eq h.arena.length_requestedBy), Option.getD_none]
      unfold standingAt
      rw [hsites, hrequesters]
      rfl

theorem Sound.mem_queue_stage_iff (h : stage.Sound) {i : Nat} {key : Demand}
    (hkey : stage.arena.keys[i]? = some key) :
    key ∈ stage.stage.queue ↔ i ∈ stage.arena.queue := by
  unfold NumberedStage.stage
  rw [List.mem_filterMap]
  constructor
  · intro ⟨j, hj, hsame⟩
    exact h.arena.keys.place_unique hkey hsame ▸ hj
  · intro hi
    exact ⟨i, hi, hkey⟩

/-! ## Making a demand -/

section Raise

variable (demand : Demand) (numbers : SortedSet Nat) (requester : Option ModuleId)

theorem keys_raise (stage : NumberedStage) :
    (stage.raise demand numbers requester).arena.keys = (stage.arena.keyIndex demand).2.keys := by
  cases requester <;> rfl

theorem index_raise (stage : NumberedStage) (key : Demand) :
    (stage.raise demand numbers requester).arena.index.find? key =
      if key = demand then some (stage.arena.keyIndex demand).1
      else stage.arena.index.find? key := by
  rw [← Arena.index_keyIndex]
  cases requester <;> rfl

theorem Sound.sitesAt_raise (h : stage.Sound) (i : Nat) :
    (stage.raise demand numbers requester).arena.sitesAt i =
      if i = (stage.arena.keyIndex demand).1 then (stage.arena.sitesAt i).union numbers
      else stage.arena.sitesAt i := by
  have hextend := (h.arena.keyIndex demand).sitesAt_extend (h.lt_length_keyIndex demand) numbers i
  rw [Arena.sitesAt_keyIndex] at hextend
  rw [← hextend]
  cases requester <;> rfl

theorem Sound.requestersAt_raise (h : stage.Sound) (hknown : stage.Knows numbers) (i : Nat) :
    (stage.raise demand numbers requester).arena.requestersAt i =
      if i = (stage.arena.keyIndex demand).1 then
        requester.elim (stage.arena.requestersAt i) (stage.arena.requestersAt i).insert
      else stage.arena.requestersAt i := by
  have hextend : ((stage.arena.keyIndex demand).2.extend (stage.arena.keyIndex demand).1
      numbers).requestersAt = stage.arena.requestersAt :=
    funext (stage.arena.requestersAt_keyIndex demand)
  cases requester with
  | none =>
      rw [Option.elim_none, ite_self, ← hextend]
      rfl
  | some id =>
      have hlt := h.lt_length_keyIndex demand
      have hrequest := ((h.arena.keyIndex demand).extend hlt hknown).requestersAt_request hlt id i
      rw [hextend] at hrequest
      exact hrequest

theorem Sound.queue_raise (h : stage.Sound) :
    (stage.raise demand numbers requester).arena.queue =
      if (stage.arena.sitesAt (stage.arena.keyIndex demand).1).size <
          ((stage.arena.sitesAt (stage.arena.keyIndex demand).1).union numbers).size ∧
        (stage.arena.keyIndex demand).1 ∉ stage.arena.queue
      then stage.arena.queue ++ [(stage.arena.keyIndex demand).1] else stage.arena.queue := by
  have hjoins := (h.arena.keyIndex demand).joins_iff (h.lt_length_keyIndex demand) numbers
  rw [Arena.sitesAt_keyIndex, Arena.queue_keyIndex] at hjoins
  simp only [← hjoins]
  rw [← stage.arena.queue_keyIndex demand]
  cases requester <;> rfl

theorem Sound.standingAt_raise (h : stage.Sound) (hknown : stage.Knows numbers) (i : Nat) :
    (stage.raise demand numbers requester).standingAt i =
      if i = (stage.arena.keyIndex demand).1 then
        { sites := (stage.standingAt i).sites.union (stage.siteSet numbers)
          requesters := requester.elim (stage.standingAt i).requesters
            (stage.standingAt i).requesters.insert }
      else stage.standingAt i := by
  have hsites : (stage.raise demand numbers requester).siteSet = stage.siteSet := rfl
  unfold standingAt
  rw [h.sitesAt_raise, h.requestersAt_raise demand numbers requester hknown, hsites]
  by_cases hi : i = (stage.arena.keyIndex demand).1
  · rw [if_pos hi, if_pos hi, if_pos hi, siteSet_union]
  · rw [if_neg hi, if_neg hi, if_neg hi]

theorem Sound.standings_raise (h : stage.Sound) (hknown : stage.Knows numbers) :
    (stage.raise demand numbers requester).stage.standings =
      (stage.stage.raise demand (stage.siteSet numbers) requester).standings := by
  apply Table.ext_find?
  intro key
  rw [find?_standings, index_raise, Stage.raise, Table.find?_insert, find?_standings,
    h.standing_stage]
  by_cases hkey : key = demand
  · rw [if_pos hkey, if_pos hkey, Option.map_some,
      h.standingAt_raise demand numbers requester hknown, if_pos rfl]
  · rw [if_neg hkey, if_neg hkey]
    cases hfound : stage.arena.index.find? key with
    | none => rfl
    | some i =>
        -- Another demand has another number.
        have hi : i ≠ (stage.arena.keyIndex demand).1 := by
          intro heq
          have hentered := (h.arena.keyIndex demand).keys.find?_eq_some_iff key i
          rw [Arena.index_keyIndex, if_neg hkey, heq, h.arena.keys_keyIndex demand] at hentered
          exact hkey (Option.some.inj (hentered.mp (heq ▸ hfound))).symm
        rw [Option.map_some, Option.map_some, h.standingAt_raise demand numbers requester hknown,
          if_neg hi]

/-- The queue leads to the same demands when a demand has been entered. -/
theorem Sound.filterMap_queue (h : stage.Sound) :
    stage.arena.queue.filterMap ((stage.raise demand numbers requester).arena.keys[·]?) =
      stage.stage.queue := by
  obtain ⟨added, hadded⟩ := stage.arena.keys_prefix_keyIndex demand
  apply List.filterMap_congr
  intro i hi
  rw [keys_raise, ← hadded, List.getElem?_append_left (h.arena.lt_length hi)]

theorem Sound.queue_stage_raise (h : stage.Sound) (hknown : stage.Knows numbers) :
    (stage.raise demand numbers requester).stage.queue =
      (stage.stage.raise demand (stage.siteSet numbers) requester).queue := by
  have hkey := h.arena.keys_keyIndex demand
  have hmem : demand ∈ stage.stage.queue ↔ (stage.arena.keyIndex demand).1 ∈ stage.arena.queue := by
    rw [← h.filterMap_queue demand numbers requester, List.mem_filterMap, keys_raise]
    constructor
    · intro ⟨i, hi, hsame⟩
      exact (h.arena.keyIndex demand).keys.place_unique hkey hsame ▸ hi
    · intro hi
      exact ⟨_, hi, hkey⟩
  unfold Stage.raise
  rw [h.standing_stage]
  unfold standingAt
  simp only [h.size_lt_size_union_iff hknown, hmem]
  unfold NumberedStage.stage
  rw [h.queue_raise]
  split
  · rw [List.filterMap_append, h.filterMap_queue, keys_raise, List.filterMap_cons_some hkey]
    rfl
  · exact h.filterMap_queue demand numbers requester

/-- Making a demand in numbers makes it. -/
theorem Sound.stage_raise (h : stage.Sound) (hknown : stage.Knows numbers) :
    (stage.raise demand numbers requester).stage =
      stage.stage.raise demand (stage.siteSet numbers) requester :=
  Stage.eq_of_fields rfl (h.standings_raise demand numbers requester hknown)
    (h.queue_stage_raise demand numbers requester hknown) rfl

end Raise

/-! ## Operations are sequences of calls -/

/-- A numbered stage has come about from another by calls, and it stands for the given stage. -/
structure Leads (stage later : NumberedStage) (goal : Stage) : Prop where
  calls : ReflTransGen Call stage later
  stage_eq : later.stage = goal

namespace Leads

variable {goal goal' : Stage} {last : NumberedStage}

theorem refl (stage : NumberedStage) : Leads stage stage stage.stage :=
  ⟨ReflTransGen.refl, rfl⟩

theorem trans (h : Leads stage later goal) (h' : Leads later last goal') : Leads stage last goal' :=
  ⟨h.calls.trans h'.calls, h'.stage_eq⟩

theorem sound (h : Leads stage later goal) (hsound : stage.Sound) : later.Sound :=
  sound_of_calls h.calls hsound

/-- Numbers of sites keep their meaning on the way. -/
theorem knows (h : Leads stage later goal) (hknown : stage.Knows numbers) : later.Knows numbers :=
  hknown.mono (table_of_calls h.calls)

theorem siteSet_eq (h : Leads stage later goal) (hknown : stage.Knows numbers) :
    later.siteSet numbers = stage.siteSet numbers :=
  siteSet_of_table (table_of_calls h.calls) hknown

theorem foldl {α : Type} {step : NumberedStage → α → NumberedStage} {step' : Stage → α → Stage}
    (hstep : ∀ stage a, stage.Sound → Leads stage (step stage a) (step' stage.stage a))
    (list : List α) (hsound : stage.Sound) :
    Leads stage (list.foldl step stage) (list.foldl step' stage.stage) := by
  induction list generalizing stage with
  | nil => exact refl stage
  | cons a list ih =>
      have hfirst := hstep stage a hsound
      have hrest := ih (hfirst.sound hsound)
      rw [hfirst.stage_eq] at hrest
      exact hfirst.trans hrest

end Leads

theorem Sound.leads_raise (h : stage.Sound) (demand : Demand) (hknown : stage.Knows numbers)
    (requester : Option ModuleId) :
    Leads stage (stage.raise demand numbers requester)
      (stage.stage.raise demand (stage.siteSet numbers) requester) where
  calls := by
    have hdemand := Call.demand stage demand hknown
    cases requester with
    | none => exact ReflTransGen.single hdemand
    | some id => exact (ReflTransGen.single hdemand).tail (Call.request _ _ id)
  stage_eq := h.stage_raise demand numbers requester hknown

/-- A site that is only entered is not seen in the stage. -/
theorem Sound.leads_intern (h : stage.Sound) (site : UsageSite) :
    Leads stage { stage with siteTable := (stage.siteTable.intern site).2 } stage.stage where
  calls := ReflTransGen.single (Call.intern stage site)
  stage_eq := by
    have hsame {numbers : SortedSet Nat} (hknown : stage.Knows numbers) :
        NumberedStage.siteSet { stage with siteTable := (stage.siteTable.intern site).2 } numbers =
          stage.siteSet numbers :=
      siteSet_of_table (stage.siteTable.table_intern site) hknown
    refine Stage.eq_of_fields rfl (Table.ext_find? fun key => ?_) rfl
      (Table.ext_find? fun key => ?_)
    · rw [find?_standings, find?_standings]
      refine congrArg (fun f => (stage.arena.index.find? key).map f) (funext fun i => ?_)
      unfold standingAt
      rw [hsame (h.arena.known_sitesAt i)]
    · rw [find?_used, find?_used]
      cases hfound : stage.used.find? key with
      | none => rfl
      | some numbers => exact congrArg some (hsame (h.used key numbers hfound))

theorem Sound.leads_raiseFrom (h : stage.Sound) (demand : Demand) (site : UsageSite)
    (requester : Option ModuleId) :
    Leads stage (stage.raiseFrom demand site requester)
      (stage.stage.raise demand (SortedSet.ofList [site]) requester) := by
  have hintern := h.leads_intern site
  have hsite := SiteTable.getElem?_intern h.sites site
  have hknown : NumberedStage.Knows { stage with siteTable := (stage.siteTable.intern site).2 }
      (SortedSet.ofList [(stage.siteTable.intern site).1]) := by
    intro number hnumber
    rw [SortedSet.mem_ofList, List.mem_singleton] at hnumber
    rw [hnumber]
    exact (List.getElem?_eq_some_iff.mp hsite).1
  have hsites : NumberedStage.siteSet { stage with siteTable := (stage.siteTable.intern site).2 }
      (SortedSet.ofList [(stage.siteTable.intern site).1]) = SortedSet.ofList [site] := by
    apply SortedSet.ext_mem
    intro other
    simp only [mem_siteSet, SortedSet.mem_ofList, List.mem_singleton, exists_eq_left, hsite,
      Option.some.injEq]
    exact ⟨Eq.symm, Eq.symm⟩
  have hraise := (hintern.sound h).leads_raise demand hknown requester
  rw [hintern.stage_eq, hsites] at hraise
  exact hintern.trans hraise

theorem Sound.leads_enliven (h : stage.Sound) (graph : Graph) (id : ModuleId) :
    Leads stage (stage.enliven graph id) (stage.stage.enliven graph id) := by
  have hraised : Leads stage ((graph.requests id).foldl raiseImport stage)
      ((graph.requests id).foldl Stage.raiseImport stage.stage) :=
    Leads.foldl (fun _ edge hsound => hsound.leads_raiseFrom _ ⟨edge.source, edge.name⟩ _) _ h
  refine ⟨hraised.calls.tail (Call.enliven _ id), ?_⟩
  unfold Stage.enliven
  rw [← hraised.stage_eq]
  rfl

theorem Sound.leads_activate (h : stage.Sound) (graph : Graph) (roots : List ModuleId) :
    Leads stage (stage.activate graph roots) (stage.stage.activate graph roots) :=
  Leads.foldl (fun _ id hsound => hsound.leads_enliven graph id) _ h

theorem Sound.leads_awaken (h : stage.Sound) (graph : Graph) (demand : Demand) :
    Leads stage (stage.awaken graph demand) (stage.stage.awaken graph demand) := by
  have hlive : stage.stage.live = stage.live := rfl
  unfold awaken Stage.awaken
  rw [hlive]
  split
  · exact h.leads_activate graph [demand.module]
  · exact Leads.refl stage

theorem Sound.knows_uses (h : stage.Sound) (module : ModuleId) (name : String) :
    stage.Knows (stage.uses module name) := by
  unfold uses
  cases hfound : stage.used.find? (module, name) with
  | none => exact fun number hnumber => absurd hnumber (SortedSet.not_mem_empty number)
  | some numbers => exact h.used _ numbers hfound

theorem Sound.leads_credit (h : stage.Sound) (graph : Graph) (demand : Demand)
    (hknown : stage.Knows numbers) :
    Leads stage (stage.credit graph demand numbers)
      (stage.stage.credit graph demand (stage.siteSet numbers)) := by
  unfold credit Stage.credit
  cases demand.wanted with
  | all => exact Leads.refl stage
  | allButDefault => exact Leads.refl stage
  | named name =>
      dsimp only
      by_cases hdeclares : graph.declares demand.module name = true
      · have hunion : stage.Knows ((stage.uses demand.module name).union numbers) := by
          intro number hnumber
          exact (SortedSet.mem_union.mp hnumber).elim (h.knows_uses demand.module name number)
            (hknown number)
        rw [if_pos hdeclares, if_pos hdeclares]
        refine ⟨ReflTransGen.single (Call.credit stage _ hunion), ?_⟩
        refine Stage.eq_of_fields rfl rfl rfl (Table.ext_find? fun key => ?_)
        rw [find?_used, Table.find?_insert, Table.find?_insert, find?_used, uses_stage,
          ← siteSet_union]
        split <;> rfl
      · rw [if_neg hdeclares, if_neg hdeclares]
        exact Leads.refl stage

theorem Sound.leads_passOn (h : stage.Sound) (graph : Graph) (demand : Demand)
    (hknown : stage.Knows numbers) :
    Leads stage (stage.passOn graph demand numbers)
      (stage.stage.passOn graph demand (stage.siteSet numbers)) := by
  unfold passOn Stage.passOn
  -- No site is entered on the way, so the numbers keep their meaning.
  induction graph.consequences demand generalizing stage with
  | nil => exact Leads.refl stage
  | cons consequence rest ih =>
      have hfirst := h.leads_raise consequence.demand hknown consequence.requester
      have hrest := ih (hfirst.sound h) hknown
      rw [hfirst.stage_eq] at hrest
      exact hfirst.trans hrest

/-! ## Turns -/

theorem Sound.queue_stage_eq_nil_iff (h : stage.Sound) :
    stage.stage.queue = [] ↔ stage.arena.queue = [] := by
  unfold NumberedStage.stage
  rw [List.filterMap_eq_nil_iff, List.eq_nil_iff_forall_not_mem]
  refine forall_congr' fun i => ⟨fun hnone hi => ?_, fun hout hi => absurd hi hout⟩
  have hlt := h.arena.lt_length hi
  rw [List.getElem?_eq_getElem hlt] at hnone
  exact absurd (hnone hi) (Option.some_ne_none _)

theorem Sound.sitesOf_eq (h : stage.Sound) {i : Nat} {key : Demand}
    (hkey : stage.arena.keys[i]? = some key) : stage.arena.sitesOf key = stage.arena.sitesAt i := by
  rw [Arena.sitesOf, (h.arena.keys.find?_eq_some_iff key i).mpr hkey]
  rfl

/-- The number that is taken out of the queue is that of the first demand. -/
theorem Sound.leads_pop (h : stage.Sound) {i : Nat} {taken : Arena}
    (hpop : stage.arena.pop = some (i, taken)) :
    ∃ demand queue, stage.arena.keys[i]? = some demand ∧
      stage.stage.queue = demand :: queue ∧
      Leads stage { stage with arena := taken } { stage.stage with queue } := by
  obtain ⟨queue, hqueue, htaken⟩ := Arena.pop_eq_some_iff.mp hpop
  have hi : i < stage.arena.keys.length :=
    h.arena.lt_length (hqueue ▸ List.mem_cons_self)
  have hkey := List.getElem?_eq_getElem hi
  refine ⟨_, queue.filterMap (stage.arena.keys[·]?), hkey, ?_,
    ReflTransGen.single (Call.pop stage hpop), ?_⟩
  · unfold NumberedStage.stage
    rw [hqueue, List.filterMap_cons_some hkey]
  · rw [htaken]
    rfl

theorem turn_of_pop {i : Nat} {taken : Arena} {demand : Demand}
    (hpop : stage.arena.pop = some (i, taken)) (hkey : stage.arena.keys[i]? = some demand) :
    stage.turn graph =
      ((({ stage with arena := taken } : NumberedStage).awaken graph demand).credit graph demand
        (stage.arena.sitesAt i)).passOn graph demand (stage.arena.sitesAt i) := by
  obtain ⟨queue, _, rfl⟩ := Arena.pop_eq_some_iff.mp hpop
  rw [turn, hpop]
  dsimp only
  rw [hkey]
  rfl

theorem Sound.leads_turn (h : stage.Sound) (graph : Graph) :
    Leads stage (stage.turn graph) (stage.stage.turn graph) := by
  cases hpop : stage.arena.pop with
  | none =>
      have hqueue := h.queue_stage_eq_nil_iff.mpr (Arena.pop_eq_none_iff.mp hpop)
      rw [turn, hpop, Stage.turn_of_queue_nil hqueue]
      exact Leads.refl stage
  | some popped =>
      obtain ⟨i, taken⟩ := popped
      obtain ⟨demand, queue, hkey, hqueue, htaken⟩ := h.leads_pop hpop
      rw [turn_of_pop hpop hkey, Stage.turn_of_queue hqueue, sites_stage, h.sitesOf_eq hkey]
      -- The sites are read off at the start, and their numbers mean the same after each step.
      have hknown : stage.Knows (stage.arena.sitesAt i) := h.arena.known_sitesAt i
      have hawake := (htaken.sound h).leads_awaken graph demand
      rw [htaken.stage_eq] at hawake
      replace hawake := htaken.trans hawake
      have hcredit := (hawake.sound h).leads_credit graph demand (hawake.knows hknown)
      rw [hawake.stage_eq, hawake.siteSet_eq hknown] at hcredit
      replace hcredit := hawake.trans hcredit
      have hpassed := (hcredit.sound h).leads_passOn graph demand (hcredit.knows hknown)
      rw [hcredit.stage_eq, hcredit.siteSet_eq hknown] at hpassed
      exact hcredit.trans hpassed

theorem Sound.leads_takeTurns (h : stage.Sound) (graph : Graph) (bound : Nat) :
    Leads stage (stage.takeTurns graph bound) (stage.stage.takeTurns graph bound) := by
  induction bound generalizing stage with
  | zero => exact Leads.refl stage
  | succ bound ih =>
      unfold takeTurns Stage.takeTurns
      simp only [List.isEmpty_iff, h.queue_stage_eq_nil_iff]
      split
      · exact Leads.refl stage
      · have hturn := h.leads_turn graph
        have hrest := ih (hturn.sound h)
        rw [hturn.stage_eq] at hrest
        exact hturn.trans hrest

theorem Sound.leads_raiseEntryExports (h : stage.Sound) (graph : Graph) (entries : List ModuleId) :
    Leads stage (stage.raiseEntryExports graph entries)
      (stage.stage.raiseEntryExports graph entries) := by
  refine Leads.foldl (fun stage entry hsound => ?_) entries h
  cases graph.node? entry with
  | none => exact Leads.refl stage
  | some node =>
      exact Leads.foldl (fun _ name hsound => hsound.leads_raiseFrom _ ⟨entry, name⟩ none) _ hsound

/-- A run in numbers starts at the stage at which the run starts. -/
theorem leads_initial (graph : Graph) (entries : List ModuleId) (entryExportsUsed : Bool) :
    Leads {} (initial graph entries entryExportsUsed)
      (Stage.initial graph entries entryExportsUsed) := by
  have hactive := Sound.empty.leads_activate graph entries
  have hempty : ({} : NumberedStage).stage = {} := rfl
  rw [hempty] at hactive
  unfold initial Stage.initial
  dsimp only
  split
  · have hraised := (hactive.sound Sound.empty).leads_raiseEntryExports graph entries
    rw [hactive.stage_eq] at hraised
    exact hactive.trans hraised
  · exact hactive

/-- A run in numbers passes through the stages of the run. -/
theorem leads_run (graph : Graph) (entries : List ModuleId) (entryExportsUsed : Bool)
    (turns : Nat) :
    Leads {} ((initial graph entries entryExportsUsed).takeTurns graph turns)
      ((Stage.initial graph entries entryExportsUsed).takeTurns graph turns) := by
  have hinitial := leads_initial graph entries entryExportsUsed
  have hturns := (hinitial.sound Sound.empty).leads_takeTurns graph turns
  rw [hinitial.stage_eq] at hturns
  exact hinitial.trans hturns

/-! ## Between turns -/

/-- The demand with this number has passed on all its sites, and they are noted as uses of the
export that it names, if there is one. -/
structure Settled (graph : Graph) (stage : NumberedStage) (i : Nat) (key : Demand) : Prop where
  forwarded : ∀ consequence ∈ graph.consequences key, ∀ number ∈ stage.arena.sitesAt i,
    number ∈ stage.arena.sitesOf consequence.demand
  credited : ∀ name, key.wanted = .named name → graph.declares key.module name = true →
    ∀ number ∈ stage.arena.sitesAt i, number ∈ stage.uses key.module name

/-- What is not queued is settled. -/
def Saturated (graph : Graph) (stage : NumberedStage) : Prop :=
  ∀ i key, stage.arena.keys[i]? = some key → i ∉ stage.arena.queue → stage.Settled graph i key

/-- Wherever a demand is passed on to, its sites are found. -/
def ForwardClosed (graph : Graph) (stage : NumberedStage) : Prop :=
  ∀ key, ∀ consequence ∈ graph.consequences key, ∀ number ∈ stage.arena.sitesOf key,
    number ∈ stage.arena.sitesOf consequence.demand

theorem Sound.saturated (h : stage.Sound) {entries : List ModuleId} {entryExportsUsed : Bool}
    (hstage : Stage.Saturated graph entries entryExportsUsed stage.stage) :
    stage.Saturated graph := by
  intro i key hkey hout
  have hknown : stage.Knows (stage.arena.sitesAt i) := h.arena.known_sitesAt i
  have hserves : ∀ site ∈ stage.siteSet (stage.arena.sitesAt i),
      stage.stage.Serves graph key site := by
    intro site hsite
    rw [← h.sitesOf_eq hkey, ← sites_stage] at hsite
    exact hstage.served key (fun hqueued => hout ((h.mem_queue_stage_iff hkey).mp hqueued))
      site hsite
  constructor
  · intro consequence hconsequence
    refine h.subset_of_siteSet hknown fun site hsite => ?_
    rw [← sites_stage]
    exact (hserves site hsite).passed consequence hconsequence
  · intro name hname hdeclares
    refine h.subset_of_siteSet hknown fun site hsite => ?_
    rw [← uses_stage]
    exact (hserves site hsite).credited (by rw [← hname]) hdeclares

theorem Saturated.forwardClosed (hsaturated : stage.Saturated graph) (h : stage.Sound)
    (hqueue : stage.arena.queue = []) : stage.ForwardClosed graph := by
  intro key consequence hconsequence number hnumber
  cases hfound : stage.arena.index.find? key with
  | none =>
      rw [Arena.sitesOf, hfound] at hnumber
      exact absurd hnumber (SortedSet.not_mem_empty number)
  | some i =>
      have hkey := (h.arena.keys.find?_eq_some_iff key i).mp hfound
      rw [h.sitesOf_eq hkey] at hnumber
      have hout : i ∉ stage.arena.queue := hqueue ▸ List.not_mem_nil
      exact (hsaturated i key hkey hout).forwarded consequence hconsequence number hnumber

end NumberedStage

/-- The records agree with each other after any sequence of calls, and a run consists of calls.  In
a valid graph the states between turns stand for the stages of the run, and a demand that is not
queued has passed all its sites on to whatever follows from it and to the export that it names.  So
the sites are closed under forwarding once the queue is empty.  It does run empty, and the result is
read off then. -/
theorem Graph.numbered_run_saturated {graph : Graph} (hvalid : graph.validate = .ok ())
    (entries : List ModuleId) (entryExportsUsed : Bool) :
    (∀ state, ReflTransGen NumberedStage.Call {} state → state.Sound) ∧
      (∀ turns,
        let state := (NumberedStage.initial graph entries entryExportsUsed).takeTurns graph turns
        ReflTransGen NumberedStage.Call {} state ∧
          ReflTransGen NumberedStage.Call state (state.turn graph) ∧
          state.stage = (Stage.initial graph entries entryExportsUsed).takeTurns graph turns ∧
          state.Saturated graph ∧
          (state.arena.queue = [] → state.ForwardClosed graph)) ∧
      ∃ turns,
        let state := (NumberedStage.initial graph entries entryExportsUsed).takeTurns graph turns
        state.arena.queue = [] ∧
          graph.liveness entries entryExportsUsed = .ok (state.stage.result graph) := by
  rw [validate_eq_ok_iff] at hvalid
  have hsaturated (turns : Nat) :
      ((NumberedStage.initial graph entries entryExportsUsed).takeTurns graph turns).Saturated
        graph := by
    have hrun := NumberedStage.leads_run graph entries entryExportsUsed turns
    apply (hrun.sound NumberedStage.Sound.empty).saturated
    rw [hrun.stage_eq]
    exact (Stage.Saturated.initial hvalid entries entryExportsUsed).takeTurns hvalid turns
  refine ⟨fun state hcalls => NumberedStage.sound_of_calls hcalls NumberedStage.Sound.empty,
    fun turns => ?_, graph.turnBound, ?_⟩
  · have hrun := NumberedStage.leads_run graph entries entryExportsUsed turns
    have hsound := hrun.sound NumberedStage.Sound.empty
    exact ⟨hrun.calls, (hsound.leads_turn graph).calls, hrun.stage_eq, hsaturated turns,
      (hsaturated turns).forwardClosed hsound⟩
  · have hrun := NumberedStage.leads_run graph entries entryExportsUsed graph.turnBound
    have hsound := hrun.sound NumberedStage.Sound.empty
    refine ⟨hsound.queue_stage_eq_nil_iff.mp ?_, ?_⟩
    · rw [hrun.stage_eq]
      exact queue_finalStage hvalid entries entryExportsUsed
    · rw [hrun.stage_eq]
      exact liveness_of_valid hvalid entries entryExportsUsed

/-- Here a module wakes up in the middle of a turn, and demands come round to where they started. -/
theorem Graph.numbered_run_saturated_ring :
    ring.validate = .ok () ∧
      (∀ state, ReflTransGen NumberedStage.Call {} state → state.Sound) ∧
      (∀ turns,
        let state := (NumberedStage.initial ring [⟨"/main.js"⟩] false).takeTurns ring turns
        ReflTransGen NumberedStage.Call {} state ∧
          ReflTransGen NumberedStage.Call state (state.turn ring) ∧
          state.stage = (Stage.initial ring [⟨"/main.js"⟩] false).takeTurns ring turns ∧
          state.Saturated ring ∧
          (state.arena.queue = [] → state.ForwardClosed ring)) ∧
      ∃ turns,
        let state := (NumberedStage.initial ring [⟨"/main.js"⟩] false).takeTurns ring turns
        state.arena.queue = [] ∧
          ring.liveness [⟨"/main.js"⟩] false = .ok (state.stage.result ring) :=
  ⟨rfl, numbered_run_saturated rfl [⟨"/main.js"⟩] false⟩

end LiveExports

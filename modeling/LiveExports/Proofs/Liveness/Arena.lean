import LiveExports.Liveness.Arena
import LiveExports.Proofs.Ordered.Size

/-!
# Numbered demands and sites are kept in order

The records of the arena say the same thing several times: the index inverts the list of keys, the
lists of sites, marks and requesters run along it, the marks repeat the queue, and site numbers lead
into the site table.  `NumberedStage.Sound` says that all this agrees.  It holds at the start and
every single call keeps it (`NumberedStage.Call.sound`), so it holds after any sequence of calls
(`NumberedStage.sound_of_calls`), in the middle of a turn as well as between turns.
-/

namespace LiveExports

open Relation

/-! ## A list and its index -/

/-- A list without repetition, with the place of each of its elements. -/
structure Enumerates {α : Type} [StrictOrder α] (list : List α) (index : Table α Nat) : Prop where
  nodup : list.Nodup
  find?_eq_some_iff : ∀ a i, index.find? a = some i ↔ list[i]? = some a

namespace Enumerates

variable {α : Type} [StrictOrder α] {list : List α} {index : Table α Nat}

theorem nil : Enumerates ([] : List α) ∅ :=
  ⟨List.nodup_nil, fun a i => by rw [List.getElem?_nil]; exact ⟨nofun, nofun⟩⟩

theorem not_mem (h : Enumerates list index) {a : α} (hnone : index.find? a = none) : a ∉ list := by
  intro hmem
  obtain ⟨i, hi⟩ := List.mem_iff_getElem?.mp hmem
  rw [(h.find?_eq_some_iff a i).mpr hi] at hnone
  contradiction

/-- No element stands in two places. -/
theorem place_unique (h : Enumerates list index) {a : α} {i j : Nat} (hi : list[i]? = some a)
    (hj : list[j]? = some a) : i = j := by
  have hfound := (h.find?_eq_some_iff a i).mpr hi
  rw [(h.find?_eq_some_iff a j).mpr hj] at hfound
  exact (Option.some.inj hfound).symm

/-- A new element goes to the end. -/
theorem append [DecidableEq α] (h : Enumerates list index) {a : α} (hnone : index.find? a = none) :
    Enumerates (list ++ [a]) (index.insert a list.length) where
  nodup := by
    rw [List.nodup_append]
    refine ⟨h.nodup, List.pairwise_singleton _ a, ?_⟩
    intro b hb c hc heq
    rw [List.mem_singleton] at hc
    exact h.not_mem hnone (hc ▸ heq ▸ hb)
  find?_eq_some_iff b i := by
    rw [Table.find?_insert]
    by_cases hb : b = a
    · subst hb
      rw [if_pos rfl, Option.some.injEq]
      constructor
      · rintro rfl
        exact List.getElem?_concat_length
      · intro hi
        by_contra hne
        have hlt : i < list.length := by
          have := (List.getElem?_eq_some_iff.mp hi).1
          rw [List.length_append, List.length_singleton] at this
          omega
        rw [List.getElem?_append_left hlt] at hi
        exact h.not_mem hnone (List.mem_of_getElem? hi)
    · rw [if_neg hb, h.find?_eq_some_iff]
      constructor
      · intro hi
        rw [List.getElem?_append_left (List.getElem?_eq_some_iff.mp hi).1, hi]
      · intro hi
        rcases Nat.lt_or_ge i list.length with hlt | hge
        · rwa [List.getElem?_append_left hlt] at hi
        · rw [List.getElem?_append_right hge] at hi
          exact absurd (List.mem_singleton.mp (List.mem_of_getElem? hi)) hb

end Enumerates

/-! ## The site table -/

namespace SiteTable

variable {sites : SiteTable}

theorem enumerates_intern (h : Enumerates sites.table sites.index) (site : UsageSite) :
    Enumerates (sites.intern site).2.table (sites.intern site).2.index := by
  unfold intern
  split
  · exact h
  · rename_i hnone
    exact h.append hnone

/-- The table only grows at its end. -/
theorem table_intern (sites : SiteTable) (site : UsageSite) :
    sites.table <+: (sites.intern site).2.table := by
  unfold intern
  split
  · exact List.prefix_rfl
  · exact List.prefix_append _ _

theorem getElem?_intern (h : Enumerates sites.table sites.index) (site : UsageSite) :
    (sites.intern site).2.table[(sites.intern site).1]? = some site := by
  unfold intern
  split
  · rename_i number hfound
    exact (h.find?_eq_some_iff site number).mp hfound
  · exact List.getElem?_concat_length

end SiteTable

/-! ## The arena -/

namespace Arena

variable {arena : Arena} {known : Nat}

/-- The records of an arena agree with each other, and its site numbers are below `known`. -/
structure Sound (arena : Arena) (known : Nat) : Prop where
  keys : Enumerates arena.keys arena.index
  length_sites : arena.sites.length = arena.keys.length
  length_queued : arena.queued.length = arena.keys.length
  length_requestedBy : arena.requestedBy.length = arena.keys.length
  queue_nodup : arena.queue.Nodup
  queued_iff : ∀ i, arena.queued[i]? = some true ↔ i ∈ arena.queue
  known : ∀ numbers ∈ arena.sites, ∀ number ∈ numbers, number < known

theorem Sound.empty : ({} : Arena).Sound 0 where
  keys := Enumerates.nil
  length_sites := rfl
  length_queued := rfl
  length_requestedBy := rfl
  queue_nodup := List.nodup_nil
  queued_iff i := by simp
  known := by simp

theorem Sound.mono (h : arena.Sound known) {later : Nat} (hle : known ≤ later) :
    arena.Sound later :=
  { h with known := fun numbers hmem number hnumber =>
      Nat.lt_of_lt_of_le (h.known numbers hmem number hnumber) hle }

theorem Sound.lt_length (h : arena.Sound known) {i : Nat} (hi : i ∈ arena.queue) :
    i < arena.keys.length := by
  rw [← h.length_queued]
  exact (List.getElem?_eq_some_iff.mp ((h.queued_iff i).mpr hi)).1

theorem Sound.known_sitesAt (h : arena.Sound known) (i : Nat) :
    ∀ number ∈ arena.sitesAt i, number < known := by
  unfold sitesAt
  cases hi : arena.sites[i]? with
  | none => exact fun number hnumber => absurd hnumber (SortedSet.not_mem_empty number)
  | some numbers => exact h.known numbers (List.mem_of_getElem? hi)

/-- Of the demands in the arena the queued ones are marked, and the others are not. -/
theorem Sound.not_queued_iff (h : arena.Sound known) {i : Nat} (hi : i < arena.keys.length) :
    arena.queued[i]? = some false ↔ i ∉ arena.queue := by
  rw [← h.queued_iff, List.getElem?_eq_getElem (h.length_queued ▸ hi), Option.some.injEq,
    Option.some.injEq, Bool.not_eq_true]

/-! ### Entering a demand -/

theorem Sound.keyIndex (h : arena.Sound known) (key : Demand) :
    (arena.keyIndex key).2.Sound known := by
  unfold Arena.keyIndex
  split
  · exact h
  · rename_i hnone
    refine ⟨h.keys.append hnone, ?_, ?_, ?_, h.queue_nodup, ?_, ?_⟩
    · simp [h.length_sites]
    · simp [h.length_queued]
    · simp [h.length_requestedBy]
    · intro i
      rw [← h.queued_iff]
      rcases Nat.lt_or_ge i arena.queued.length with hlt | hge
      · rw [List.getElem?_append_left hlt]
      · rw [List.getElem?_append_right hge, List.getElem?_eq_none hge]
        simp [List.getElem?_singleton]
    · intro numbers hmem number hnumber
      rcases List.mem_append.mp hmem with hold | hnew
      · exact h.known numbers hold number hnumber
      · rw [List.mem_singleton.mp hnew] at hnumber
        exact absurd hnumber (SortedSet.not_mem_empty number)

theorem Sound.keys_keyIndex (h : arena.Sound known) (key : Demand) :
    (arena.keyIndex key).2.keys[(arena.keyIndex key).1]? = some key := by
  unfold Arena.keyIndex
  split
  · rename_i i hfound
    exact (h.keys.find?_eq_some_iff key i).mp hfound
  · exact List.getElem?_concat_length

/-- The demands before it keep their numbers. -/
theorem keys_prefix_keyIndex (arena : Arena) (key : Demand) :
    arena.keys <+: (arena.keyIndex key).2.keys := by
  unfold keyIndex
  split
  · exact List.prefix_rfl
  · exact List.prefix_append _ _

theorem index_keyIndex (arena : Arena) (key other : Demand) :
    (arena.keyIndex key).2.index.find? other =
      if other = key then some (arena.keyIndex key).1 else arena.index.find? other := by
  unfold keyIndex
  split
  · rename_i i hfound
    by_cases hother : other = key
    · rw [if_pos hother, hother, hfound]
    · rw [if_neg hother]
  · exact Table.find?_insert _ _ _ _

/-- A place past the end of a list is as good as a default there. -/
theorem getD_append_singleton {α : Type} (list : List α) (default : α) (i : Nat) :
    (list ++ [default])[i]?.getD default = list[i]?.getD default := by
  rcases Nat.lt_or_ge i list.length with hlt | hge
  · rw [List.getElem?_append_left hlt]
  · rw [List.getElem?_append_right hge, List.getElem?_eq_none hge, List.getElem?_singleton]
    split <;> rfl

/-- A new demand has no sites, and a number that is not in the arena has none either. -/
theorem sitesAt_keyIndex (arena : Arena) (key : Demand) (i : Nat) :
    (arena.keyIndex key).2.sitesAt i = arena.sitesAt i := by
  unfold keyIndex sitesAt
  split
  · rfl
  · exact getD_append_singleton _ _ _

theorem requestersAt_keyIndex (arena : Arena) (key : Demand) (i : Nat) :
    (arena.keyIndex key).2.requestersAt i = arena.requestersAt i := by
  unfold keyIndex requestersAt
  split
  · rfl
  · exact getD_append_singleton _ _ _

theorem queue_keyIndex (arena : Arena) (key : Demand) :
    (arena.keyIndex key).2.queue = arena.queue := by
  unfold keyIndex
  split <;> rfl

/-! ### Adding sites -/

theorem Sound.joins_iff (h : arena.Sound known) {i : Nat} (hi : i < arena.keys.length)
    (numbers : SortedSet Nat) :
    arena.joins i numbers = true ↔
      (arena.sitesAt i).size < ((arena.sitesAt i).union numbers).size ∧ i ∉ arena.queue := by
  rw [joins, Bool.and_eq_true, decide_eq_true_eq, beq_iff_eq, h.not_queued_iff hi]

theorem Sound.sitesAt_extend (h : arena.Sound known) {i : Nat} (hi : i < arena.keys.length)
    (numbers : SortedSet Nat) (j : Nat) :
    (arena.extend i numbers).sitesAt j =
      if j = i then (arena.sitesAt j).union numbers else arena.sitesAt j := by
  unfold sitesAt Arena.extend
  rw [List.getElem?_set]
  by_cases hj : j = i
  · rw [if_pos hj.symm, if_pos (h.length_sites ▸ hi), if_pos hj, hj]
    rfl
  · rw [if_neg (Ne.symm hj), if_neg hj]

theorem Sound.extend (h : arena.Sound known) {i : Nat} (hi : i < arena.keys.length)
    {numbers : SortedSet Nat} (hnumbers : ∀ number ∈ numbers, number < known) :
    (arena.extend i numbers).Sound known := by
  have hsites : ∀ numbers' ∈ arena.sites.set i ((arena.sitesAt i).union numbers),
      ∀ number ∈ numbers', number < known := by
    intro numbers' hmem number hnumber
    rcases List.mem_or_eq_of_mem_set hmem with hold | rfl
    · exact h.known numbers' hold number hnumber
    · exact (SortedSet.mem_union.mp hnumber).elim (h.known_sitesAt i number) (hnumbers number)
  have hlength : (arena.sites.set i ((arena.sitesAt i).union numbers)).length =
      arena.keys.length := by
    rw [List.length_set, h.length_sites]
  unfold Arena.extend
  by_cases hjoins : arena.joins i numbers = true
  · have hout := ((h.joins_iff hi numbers).mp hjoins).2
    rw [if_pos hjoins, if_pos hjoins]
    refine ⟨h.keys, hlength, ?_, h.length_requestedBy, ?_, ?_, hsites⟩
    · rw [List.length_set, h.length_queued]
    · rw [List.nodup_append]
      refine ⟨h.queue_nodup, List.pairwise_singleton _ i, ?_⟩
      intro j hj k hk heq
      exact hout (List.mem_singleton.mp hk ▸ heq ▸ hj)
    · intro j
      rw [List.getElem?_set, List.mem_append, List.mem_singleton, ← h.queued_iff]
      by_cases hj : j = i
      · simp [hj, h.length_queued, hi]
      · simp [hj, Ne.symm hj]
  · rw [if_neg hjoins, if_neg hjoins]
    exact ⟨h.keys, hlength, h.length_queued, h.length_requestedBy, h.queue_nodup, h.queued_iff,
      hsites⟩

/-! ### The other calls -/

theorem Sound.request (h : arena.Sound known) (i : Nat) (requester : ModuleId) :
    (arena.request i requester).Sound known := by
  have hlength : (arena.requestedBy.modify i (·.insert requester)).length = arena.keys.length := by
    rw [List.length_modify, h.length_requestedBy]
  exact { h with length_requestedBy := hlength }

theorem Sound.requestersAt_request (h : arena.Sound known) {i : Nat} (hi : i < arena.keys.length)
    (requester : ModuleId) (j : Nat) :
    (arena.request i requester).requestersAt j =
      if j = i then (arena.requestersAt j).insert requester else arena.requestersAt j := by
  rw [← h.length_requestedBy] at hi
  unfold requestersAt Arena.request
  rw [List.getElem?_modify]
  by_cases hj : j = i
  · subst hj
    rw [if_pos rfl, List.getElem?_eq_getElem hi]
    simp
  · simp [hj, Ne.symm hj]

theorem pop_eq_none_iff : arena.pop = none ↔ arena.queue = [] := by
  unfold pop
  split
  · rename_i hnil
    simp [hnil]
  · rename_i hcons
    simp [hcons]

theorem pop_eq_some_iff {i : Nat} {taken : Arena} :
    arena.pop = some (i, taken) ↔
      ∃ queue, arena.queue = i :: queue ∧
        taken = { arena with queue, queued := arena.queued.set i false } := by
  unfold pop
  split
  · rename_i hnil
    simp [hnil]
  · rename_i first rest hcons
    rw [hcons]
    constructor
    · intro h
      simp only [Option.some.injEq, Prod.mk.injEq] at h
      obtain ⟨rfl, rfl⟩ := h
      exact ⟨rest, rfl, rfl⟩
    · intro ⟨queue, hqueue, htaken⟩
      obtain ⟨rfl, rfl⟩ := List.cons_eq_cons.mp hqueue
      rw [htaken]

theorem Sound.pop (h : arena.Sound known) {i : Nat} {taken : Arena}
    (hpop : arena.pop = some (i, taken)) : taken.Sound known := by
  obtain ⟨queue, hqueue, rfl⟩ := pop_eq_some_iff.mp hpop
  have hnodup := h.queue_nodup
  rw [hqueue, List.nodup_cons] at hnodup
  have hi : i < arena.queued.length :=
    h.length_queued ▸ h.lt_length (hqueue ▸ List.mem_cons_self)
  refine ⟨h.keys, h.length_sites, ?_, h.length_requestedBy, hnodup.2, ?_, h.known⟩
  · rw [List.length_set, h.length_queued]
  · intro j
    rw [List.getElem?_set]
    by_cases hj : j = i
    · simp [hj, hi, hnodup.1]
    · rw [if_neg (Ne.symm hj), h.queued_iff, hqueue, List.mem_cons]
      simp [hj]

end Arena

/-! ## Single calls -/

namespace NumberedStage

variable {stage later : NumberedStage}

/-- All these numbers stand for sites. -/
def Knows (stage : NumberedStage) (numbers : SortedSet Nat) : Prop :=
  ∀ number ∈ numbers, number < stage.siteTable.table.length

/-- All records of a numbered stage agree with each other. -/
structure Sound (stage : NumberedStage) : Prop where
  sites : Enumerates stage.siteTable.table stage.siteTable.index
  arena : stage.arena.Sound stage.siteTable.table.length
  used : ∀ key numbers, stage.used.find? key = some numbers → stage.Knows numbers

/-- The single calls of which a run consists.  Numbers of sites are taken from the site table. -/
inductive Call : NumberedStage → NumberedStage → Prop
  | intern (stage : NumberedStage) (site : UsageSite) :
      Call stage { stage with siteTable := (stage.siteTable.intern site).2 }
  | keyIndex (stage : NumberedStage) (key : Demand) :
      Call stage { stage with arena := (stage.arena.keyIndex key).2 }
  | demand (stage : NumberedStage) (key : Demand) {numbers : SortedSet Nat}
      (hknown : stage.Knows numbers) :
      Call stage { stage with arena := (stage.arena.demand key numbers).2 }
  | request (stage : NumberedStage) (i : Nat) (requester : ModuleId) :
      Call stage { stage with arena := stage.arena.request i requester }
  | pop (stage : NumberedStage) {i : Nat} {arena : Arena}
      (hpop : stage.arena.pop = some (i, arena)) : Call stage { stage with arena }
  | enliven (stage : NumberedStage) (id : ModuleId) :
      Call stage { stage with live := stage.live.insert id }
  | credit (stage : NumberedStage) (key : ModuleId × String) {numbers : SortedSet Nat}
      (hknown : stage.Knows numbers) :
      Call stage { stage with used := stage.used.insert key numbers }

theorem Sound.empty : ({} : NumberedStage).Sound where
  sites := Enumerates.nil
  arena := Arena.Sound.empty
  used _ _ hfound := nomatch hfound

theorem Sound.lt_length_keyIndex (h : stage.Sound) (key : Demand) :
    (stage.arena.keyIndex key).1 < (stage.arena.keyIndex key).2.keys.length :=
  (List.getElem?_eq_some_iff.mp (h.arena.keys_keyIndex key)).1

theorem Call.sound (hcall : Call stage later) (h : stage.Sound) : later.Sound := by
  cases hcall with
  | intern site =>
      have hle := (stage.siteTable.table_intern site).length_le
      exact ⟨SiteTable.enumerates_intern h.sites site, h.arena.mono hle,
        fun key numbers hfound number hnumber =>
          Nat.lt_of_lt_of_le (h.used key numbers hfound number hnumber) hle⟩
  | keyIndex key => exact ⟨h.sites, h.arena.keyIndex key, h.used⟩
  | demand key hknown =>
      exact ⟨h.sites, (h.arena.keyIndex key).extend (h.lt_length_keyIndex key) hknown, h.used⟩
  | request i requester => exact ⟨h.sites, h.arena.request i requester, h.used⟩
  | pop hpop => exact ⟨h.sites, h.arena.pop hpop, h.used⟩
  | enliven id => exact ⟨h.sites, h.arena, h.used⟩
  | credit key hknown =>
      refine ⟨h.sites, h.arena, fun other numbers' hfound => ?_⟩
      rw [Table.find?_insert] at hfound
      split at hfound
      · rw [← Option.some.inj hfound]
        exact hknown
      · exact h.used other numbers' hfound

theorem Call.table (hcall : Call stage later) :
    stage.siteTable.table <+: later.siteTable.table := by
  cases hcall with
  | intern site => exact stage.siteTable.table_intern site
  | _ => exact List.prefix_rfl

/-- Nothing that a run calls puts the records at odds. -/
theorem sound_of_calls (hcalls : ReflTransGen Call stage later) (h : stage.Sound) :
    later.Sound := by
  induction hcalls with
  | refl => exact h
  | tail _ hcall ih => exact hcall.sound ih

/-- Sites keep their numbers. -/
theorem table_of_calls (hcalls : ReflTransGen Call stage later) :
    stage.siteTable.table <+: later.siteTable.table := by
  induction hcalls with
  | refl => exact List.prefix_rfl
  | tail _ hcall ih => exact ih.trans hcall.table

end NumberedStage

end LiveExports

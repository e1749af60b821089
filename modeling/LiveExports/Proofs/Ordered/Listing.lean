import Mathlib.Data.List.Nodup
import LiveExports.Proofs.Ordered.Size

/-!
# Tables of listed entries

A table made from a list finds under each key the value that the list gives last
(`Table.find?_ofList`).  If no key is listed twice, it finds just what is listed; so the entries of
a table make the table again.
-/

namespace LiveExports.Table

variable {κ β : Type} [StrictOrder κ] [DecidableEq κ]

theorem find?_foldl_insert (entries : List (κ × β)) (table : Table κ β) (key : κ) :
    (entries.foldl (fun table entry => table.insert entry.1 entry.2) table).find? key =
      ((entries.filter (·.1 = key)).getLast?.map (·.2)).or (table.find? key) := by
  induction entries generalizing table with
  | nil => rfl
  | cons entry entries ih =>
      rw [List.foldl_cons, ih, find?_insert]
      by_cases hkey : entry.1 = key
      · rw [List.filter_cons_of_pos (by simpa using hkey), if_pos hkey.symm, List.getLast?_cons]
        cases (entries.filter (·.1 = key)).getLast? with
        | none => rfl
        | some last => rfl
      · rw [List.filter_cons_of_neg (by simpa using hkey), if_neg (Ne.symm hkey)]

/-- Of the entries under a key, a table finds the last. -/
theorem find?_ofList (entries : List (κ × β)) (key : κ) :
    (ofList entries).find? key = (entries.filter (·.1 = key)).getLast?.map (·.2) := by
  rw [ofList, find?_foldl_insert, find?_empty, Option.or_none]

/-- A table of a list finds an entry that no later one of its key follows. -/
theorem find?_ofList_eq_some_iff_last {entries : List (κ × β)} {key : κ} {value : β} :
    (ofList entries).find? key = some value ↔
      ∃ before after, entries = before ++ (key, value) :: after ∧
        ∀ later ∈ after, later.1 ≠ key := by
  rw [find?_ofList, List.getLast?_filter, Option.map_eq_some_iff]
  simp only [List.find?_eq_some_iff_append, decide_eq_true_eq, Bool.not_eq_true',
    decide_eq_false_iff_not]
  constructor
  · rintro ⟨⟨found, _⟩, ⟨rfl, after, before, hreverse, hafter⟩, rfl⟩
    refine ⟨before.reverse, after.reverse, ?_, fun later hlater => ?_⟩
    · rw [← List.reverse_reverse entries, hreverse]
      simp
    · exact hafter later (List.mem_reverse.mp hlater)
  · rintro ⟨before, after, rfl, hafter⟩
    refine ⟨(key, value),
      ⟨rfl, after.reverse, before.reverse, by simp, fun later hlater => ?_⟩, rfl⟩
    exact hafter later (List.mem_reverse.mp hlater)

theorem mem_of_find?_ofList {entries : List (κ × β)} {key : κ} {value : β}
    (h : (ofList entries).find? key = some value) : (key, value) ∈ entries := by
  rw [find?_ofList, Option.map_eq_some_iff] at h
  obtain ⟨⟨found, _⟩, hlast, rfl⟩ := h
  obtain ⟨hmem, hkey⟩ := List.mem_filter.mp (List.mem_of_getLast? hlast)
  obtain rfl : found = key := by simpa using hkey
  exact hmem

/-- What is listed under a key is found, though perhaps not with the same value. -/
theorem exists_find?_ofList {entries : List (κ × β)} {entry : κ × β} (h : entry ∈ entries) :
    ∃ value, (ofList entries).find? entry.1 = some value := by
  have hmem : entry ∈ entries.filter (·.1 = entry.1) := List.mem_filter.mpr ⟨h, by simp⟩
  rw [find?_ofList, List.getLast?_eq_some_getLast (List.ne_nil_of_mem hmem)]
  exact ⟨_, rfl⟩

/-- If no key is listed twice, the order of the list does not matter. -/
theorem find?_ofList_eq_some_iff {entries : List (κ × β)} (hdistinct : (entries.map (·.1)).Nodup)
    {key : κ} {value : β} : (ofList entries).find? key = some value ↔ (key, value) ∈ entries := by
  refine ⟨mem_of_find?_ofList, fun hmem => ?_⟩
  obtain ⟨found, hfound⟩ := exists_find?_ofList hmem
  have hsame : (key, value) = (key, found) :=
    List.inj_on_of_nodup_map hdistinct hmem (mem_of_find?_ofList hfound) rfl
  rw [hfound, (Prod.mk.inj hsame).2]

/-- A table that is made from the entries of another finds what becomes of them. -/
theorem find?_ofList_entries_map {γ : Type} (table : Table κ β) (f : κ → β → γ) (key : κ) :
    (ofList (table.entries.map fun entry => (entry.1, f entry.1 entry.2))).find? key =
      (table.find? key).map (f key) := by
  have hdistinct : ((table.entries.map fun entry => (entry.1, f entry.1 entry.2)).map
      (·.1)).Nodup := by
    rw [List.map_map]
    exact table.nodup_keys
  ext value
  rw [find?_ofList_eq_some_iff hdistinct, Option.map_eq_some_iff]
  simp only [List.mem_map, Prod.exists, Prod.mk.injEq, find?_eq_some_iff]
  constructor
  · rintro ⟨_, old, hentry, rfl, rfl⟩
    exact ⟨old, hentry, rfl⟩
  · rintro ⟨old, hentry, rfl⟩
    exact ⟨key, old, hentry, rfl, rfl⟩

/-- The entries of a table make the table again. -/
theorem ofList_entries (table : Table κ β) : ofList table.entries = table := by
  refine ext_find? fun key => ?_
  ext value
  rw [find?_ofList_eq_some_iff table.nodup_keys, find?_eq_some_iff]

omit [DecidableEq κ] in
/-- A list that only the entry of one key contributes to is what this entry contributes. -/
theorem flatMap_entries_of_find? {γ : Type} {table : Table κ β} {key : κ} {value : β}
    (hfound : table.find? key = some value) {f : κ × β → List γ}
    (hother : ∀ entry ∈ table.entries, entry.1 ≠ key → f entry = []) :
    table.entries.flatMap f = f (key, value) := by
  obtain ⟨before, after, hentries⟩ := List.append_of_mem (find?_eq_some_iff.mp hfound)
  have hdistinct := table.nodup_keys
  rw [keys, hentries, List.map_append, List.map_cons, List.nodup_middle, List.nodup_cons,
    ← List.map_append] at hdistinct
  have hnothing : ∀ entry ∈ before ++ after, f entry = [] := by
    intro entry hentry
    refine hother entry ?_ fun hkey => hdistinct.1 (List.mem_map.mpr ⟨entry, hentry, hkey⟩)
    rw [hentries]
    exact (List.perm_middle.mem_iff).mpr (List.mem_cons_of_mem _ hentry)
  rw [hentries, List.flatMap_append, List.flatMap_cons,
    List.flatMap_eq_nil_iff.mpr fun entry hentry => hnothing entry (List.mem_append_left _ hentry),
    List.flatMap_eq_nil_iff.mpr fun entry hentry => hnothing entry (List.mem_append_right _ hentry),
    List.nil_append, List.append_nil]

end LiveExports.Table

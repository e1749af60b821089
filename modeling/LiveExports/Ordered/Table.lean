import LiveExports.Ordered.Basic

/-!
# Tables

A table holds one value per key and lists its keys in ascending order.  A table is determined by
what it finds under each key (`Table.ext_find?`).
-/

namespace LiveExports

open StrictOrder

/-- Values under keys, held in ascending order of the keys. -/
structure Table (κ β : Type) [StrictOrder κ] where
  entries : List (κ × β)
  sorted : entries.Pairwise fun a b => less a.1 b.1 = true

namespace Table

variable {κ β : Type} [StrictOrder κ]

def empty : Table κ β := ⟨[], List.Pairwise.nil⟩

instance : EmptyCollection (Table κ β) := ⟨empty⟩

instance : Inhabited (Table κ β) := ⟨empty⟩

def keys (table : Table κ β) : List κ :=
  table.entries.map (·.1)

def values (table : Table κ β) : List β :=
  table.entries.map (·.2)

def size (table : Table κ β) : Nat :=
  table.entries.length

/-- The value under a key among ascending entries. -/
def lookup (key : κ) : List (κ × β) → Option β
  | [] => none
  | (k, value) :: rest =>
    if less key k then none
    else if less k key then lookup key rest
    else some value

def find? (table : Table κ β) (key : κ) : Option β :=
  lookup key table.entries

def contains (table : Table κ β) (key : κ) : Bool :=
  (table.find? key).isSome

/-- Puts a value under its key among ascending entries, in place of one that is there already. -/
def place (key : κ) (value : β) : List (κ × β) → List (κ × β)
  | [] => [(key, value)]
  | (k, old) :: rest =>
    if less key k then (key, value) :: (k, old) :: rest
    else if less k key then (k, old) :: place key value rest
    else (key, value) :: rest

theorem fst_of_mem_place {key : κ} {value : β} {entries : List (κ × β)} {entry : κ × β}
    (h : entry ∈ place key value entries) : entry.1 = key ∨ entry ∈ entries := by
  induction entries with
  | nil => simp only [place, List.mem_singleton] at h; exact Or.inl (h ▸ rfl)
  | cons first rest ih =>
    simp only [place] at h
    split at h
    · rcases List.mem_cons.1 h with rfl | h
      · exact Or.inl rfl
      · exact Or.inr h
    · split at h
      · rcases List.mem_cons.1 h with rfl | h
        · exact Or.inr List.mem_cons_self
        · exact (ih h).imp id (List.mem_cons_of_mem _)
      · rcases List.mem_cons.1 h with rfl | h
        · exact Or.inl rfl
        · exact Or.inr (List.mem_cons_of_mem _ h)

theorem place_sorted {key : κ} {value : β} {entries : List (κ × β)}
    (h : entries.Pairwise fun a b => less a.1 b.1 = true) :
    (place key value entries).Pairwise fun a b => less a.1 b.1 = true := by
  induction entries with
  | nil => simp [place]
  | cons first rest ih =>
    obtain ⟨hfirst, hrest⟩ := List.pairwise_cons.1 h
    simp only [place]
    split
    · rename_i hlt
      refine List.pairwise_cons.2 ⟨?_, h⟩
      intro entry hentry
      rcases List.mem_cons.1 hentry with rfl | hentry
      · exact hlt
      · exact less_trans hlt (hfirst entry hentry)
    · split
      · rename_i hgt
        refine List.pairwise_cons.2 ⟨?_, ih hrest⟩
        intro entry hentry
        rcases fst_of_mem_place hentry with hkey | hentry
        · exact hkey ▸ hgt
        · exact hfirst entry hentry
      · rename_i hlt hgt
        have heq : key = first.1 := eq_of_not_less (by simpa using hlt) (by simpa using hgt)
        refine List.pairwise_cons.2 ⟨?_, hrest⟩
        intro entry hentry
        exact heq ▸ hfirst entry hentry

/-- The table with `value` under `key`, in place of what was there. -/
def insert (table : Table κ β) (key : κ) (value : β) : Table κ β :=
  ⟨place key value table.entries, place_sorted table.sorted⟩

/-- The table of a list of entries; of two under one key the later one counts. -/
def ofList (entries : List (κ × β)) : Table κ β :=
  entries.foldl (fun table entry => table.insert entry.1 entry.2) empty

/-! ## What a table finds -/

theorem lookup_place_self {key : κ} {value : β} {entries : List (κ × β)} :
    lookup key (place key value entries) = some value := by
  induction entries with
  | nil => simp [place, lookup, less_irrefl]
  | cons first rest ih =>
    simp only [place]
    split
    · simp [lookup, less_irrefl]
    · split
      · rename_i hlt hgt
        simp [lookup, hgt, hlt, ih]
      · simp [lookup, less_irrefl]

theorem lookup_place_ne {key other : κ} {value : β} {entries : List (κ × β)} (h : other ≠ key)
    (hsorted : entries.Pairwise fun a b => less a.1 b.1 = true) :
    lookup other (place key value entries) = lookup other entries := by
  have hcompare : less other key = false → less key other = true := by
    intro hlt
    cases hgt : less key other with
    | true => rfl
    | false => exact absurd (eq_of_not_less hlt hgt) h
  induction entries with
  | nil =>
    cases hlt : less other key with
    | true => simp [place, lookup, hlt]
    | false => simp [place, lookup, hlt, hcompare hlt]
  | cons first rest ih =>
    obtain ⟨hfirst, hrest⟩ := List.pairwise_cons.1 hsorted
    simp only [place]
    split
    · rename_i hkf
      cases hlt : less other key with
      | true => simp [lookup, hlt, less_trans hlt hkf]
      | false => simp [lookup, hlt, hcompare hlt]
    · split
      · simp only [lookup, ih hrest]
      · rename_i hkf hfk
        have heq : key = first.1 := eq_of_not_less (by simpa using hkf) (by simpa using hfk)
        cases hlt : less other key with
        | true => simp [lookup, hlt, ← heq]
        | false => simp [lookup, hlt, hcompare hlt, ← heq]

@[simp] theorem find?_insert_self (table : Table κ β) (key : κ) (value : β) :
    (table.insert key value).find? key = some value :=
  lookup_place_self

theorem find?_insert_ne (table : Table κ β) {key other : κ} (value : β) (h : other ≠ key) :
    (table.insert key value).find? other = table.find? other :=
  lookup_place_ne h table.sorted

@[simp] theorem find?_empty (key : κ) : (empty : Table κ β).find? key = none := rfl

/-- Under a key of an ascending list of entries stands its entry. -/
theorem lookup_eq_some_iff {key : κ} {value : β} {entries : List (κ × β)}
    (hsorted : entries.Pairwise fun a b => less a.1 b.1 = true) :
    lookup key entries = some value ↔ (key, value) ∈ entries := by
  induction entries with
  | nil => simp [lookup]
  | cons first rest ih =>
    obtain ⟨hfirst, hrest⟩ := List.pairwise_cons.1 hsorted
    obtain ⟨k, old⟩ := first
    simp only [lookup, List.mem_cons, Prod.mk.injEq]
    split
    · rename_i hlt
      constructor
      · intro h; contradiction
      · rintro (⟨rfl, _⟩ | h)
        · rw [less_irrefl] at hlt; contradiction
        · have := less_trans hlt (hfirst _ h)
          rw [less_irrefl] at this; contradiction
    · split
      · rename_i hgt
        rw [ih hrest]
        constructor
        · exact Or.inr
        · rintro (⟨rfl, _⟩ | h)
          · rw [less_irrefl] at hgt; contradiction
          · exact h
      · rename_i hlt hgt
        have heq : key = k := eq_of_not_less (by simpa using hlt) (by simpa using hgt)
        subst heq
        simp only [Option.some.injEq, true_and]
        constructor
        · exact fun h => Or.inl h.symm
        · rintro (h | h)
          · exact h.symm
          · have := hfirst _ h
            rw [less_irrefl] at this; contradiction

theorem find?_eq_some_iff {table : Table κ β} {key : κ} {value : β} :
    table.find? key = some value ↔ (key, value) ∈ table.entries :=
  lookup_eq_some_iff table.sorted

theorem find?_insert [DecidableEq κ] (table : Table κ β) (key other : κ) (value : β) :
    (table.insert key value).find? other =
      if other = key then some value else table.find? other := by
  by_cases h : other = key
  · rw [if_pos h, h, find?_insert_self]
  · rw [if_neg h, find?_insert_ne table value h]

theorem mem_keys_iff {table : Table κ β} {key : κ} :
    key ∈ table.keys ↔ (table.find? key).isSome = true := by
  simp only [keys, List.mem_map, Option.isSome_iff_exists, find?_eq_some_iff]
  constructor
  · rintro ⟨⟨k, value⟩, hentry, rfl⟩
    exact ⟨value, hentry⟩
  · rintro ⟨value, hentry⟩
    exact ⟨(key, value), hentry, rfl⟩

/-- A table of values that are given by their keys finds just these values. -/
theorem find?_ofList_map [DecidableEq κ] (keys : List κ) (value : κ → β) (key : κ) :
    (ofList (keys.map fun k => (k, value k))).find? key =
      if key ∈ keys then some (value key) else none := by
  have hfold : ∀ table : Table κ β,
      ((keys.map fun k => (k, value k)).foldl (fun table entry => table.insert entry.1 entry.2)
        table).find? key = if key ∈ keys then some (value key) else table.find? key := by
    induction keys with
    | nil => intro table; rfl
    | cons k keys ih =>
      intro table
      rw [List.map_cons, List.foldl_cons, ih, find?_insert]
      by_cases hkey : key = k
      · simp [hkey]
      · simp [hkey]
  exact hfold empty

theorem entries_nodup (table : Table κ β) : table.entries.Nodup := by
  refine table.sorted.imp ?_
  intro a b hless heq
  rw [heq, less_irrefl] at hless
  contradiction

/-- A table is determined by what it finds. -/
theorem ext_find? {table other : Table κ β} (h : ∀ key, table.find? key = other.find? key) :
    table = other := by
  have hentries : table.entries = other.entries := by
    apply List.Perm.eq_of_pairwise _ table.sorted other.sorted
    · rw [List.perm_ext_iff_of_nodup table.entries_nodup other.entries_nodup]
      rintro ⟨key, value⟩
      rw [← find?_eq_some_iff, ← find?_eq_some_iff, h]
    · intro a b _ _ hab hba
      rw [not_less_of_less hab] at hba
      contradiction
  cases table
  cases other
  simpa using hentries

end Table

end LiveExports

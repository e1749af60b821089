import LiveExports.Ordered.Basic

/-!
# Sorted sets

A set of elements of an ordered type, held as the list of its elements in ascending order without
repetition.  The main statement is that such a set is determined by its members
(`SortedSet.ext_mem`): however a set came about, it is listed in the same way.
-/

namespace LiveExports

open StrictOrder

/-- A finite set, held in ascending order. -/
structure SortedSet (α : Type) [StrictOrder α] where
  elements : List α
  sorted : elements.Pairwise fun a b => less a b = true
deriving DecidableEq

namespace SortedSet

variable {α : Type} [StrictOrder α]

instance : Membership α (SortedSet α) := ⟨fun set a => a ∈ set.elements⟩

instance [DecidableEq α] (a : α) (set : SortedSet α) : Decidable (a ∈ set) :=
  inferInstanceAs (Decidable (a ∈ set.elements))

def empty : SortedSet α := ⟨[], List.Pairwise.nil⟩

instance : EmptyCollection (SortedSet α) := ⟨empty⟩

instance : Inhabited (SortedSet α) := ⟨empty⟩

def isEmpty (set : SortedSet α) : Bool :=
  set.elements.isEmpty

def size (set : SortedSet α) : Nat :=
  set.elements.length

/-- Puts `a` in its place among ascending elements; one that is there already is not repeated. -/
def place (a : α) : List α → List α
  | [] => [a]
  | b :: rest =>
    if less a b then a :: b :: rest
    else if less b a then b :: place a rest
    else b :: rest

theorem mem_place {a x : α} {elements : List α} :
    x ∈ place a elements ↔ x = a ∨ x ∈ elements := by
  induction elements with
  | nil => simp [place]
  | cons b rest ih =>
    simp only [place]
    split
    · simp
    · split
      · simp only [List.mem_cons, ih]
        grind
      · rename_i hab hba
        have heq : a = b := eq_of_not_less (by simpa using hab) (by simpa using hba)
        simp [heq]

theorem place_sorted {a : α} {elements : List α}
    (h : elements.Pairwise fun a b => less a b = true) :
    (place a elements).Pairwise fun a b => less a b = true := by
  induction elements with
  | nil => simp [place]
  | cons b rest ih =>
    obtain ⟨hb, hrest⟩ := List.pairwise_cons.1 h
    simp only [place]
    split
    · rename_i hab
      refine List.pairwise_cons.2 ⟨?_, h⟩
      intro c hc
      rcases List.mem_cons.1 hc with rfl | hc
      · exact hab
      · exact less_trans hab (hb c hc)
    · split
      · rename_i hba
        refine List.pairwise_cons.2 ⟨?_, ih hrest⟩
        intro c hc
        rcases mem_place.1 hc with rfl | hc
        · exact hba
        · exact hb c hc
      · exact h

def insert (set : SortedSet α) (a : α) : SortedSet α :=
  ⟨place a set.elements, place_sorted set.sorted⟩

/-- The set of the elements of a list. -/
def ofList (list : List α) : SortedSet α :=
  list.foldl insert empty

def union (set other : SortedSet α) : SortedSet α :=
  other.elements.foldl insert set

theorem mem_def {a : α} {set : SortedSet α} : a ∈ set ↔ a ∈ set.elements := Iff.rfl

@[simp] theorem not_mem_empty (a : α) : a ∉ (empty : SortedSet α) := by
  simp [mem_def, empty]

@[simp] theorem mem_insert {a x : α} {set : SortedSet α} : x ∈ set.insert a ↔ x = a ∨ x ∈ set :=
  mem_place

theorem mem_foldl_insert {list : List α} {set : SortedSet α} {x : α} :
    x ∈ list.foldl insert set ↔ x ∈ set ∨ x ∈ list := by
  induction list generalizing set with
  | nil => simp
  | cons a rest ih =>
    simp only [List.foldl_cons, ih, mem_insert, List.mem_cons]
    grind

@[simp] theorem mem_ofList {list : List α} {x : α} : x ∈ ofList list ↔ x ∈ list := by
  simp [ofList, mem_foldl_insert]

@[simp] theorem mem_union {set other : SortedSet α} {x : α} :
    x ∈ set.union other ↔ x ∈ set ∨ x ∈ other :=
  mem_foldl_insert

theorem nodup_elements (set : SortedSet α) : set.elements.Nodup :=
  set.sorted.imp fun h => ne_of_less h

/-- Ascending lists with the same members are the same list. -/
theorem eq_of_mem_iff {list other : List α} (hlist : list.Pairwise fun a b => less a b = true)
    (hother : other.Pairwise fun a b => less a b = true) (hmem : ∀ a, a ∈ list ↔ a ∈ other) :
    list = other := by
  apply List.Perm.eq_of_pairwise _ hlist hother
  · rw [List.perm_ext_iff_of_nodup (hlist.imp ne_of_less) (hother.imp ne_of_less)]
    exact hmem
  · intro a b _ _ hab hba
    rw [not_less_of_less hab] at hba
    contradiction

/-- A set is determined by its members. -/
theorem ext_mem {set other : SortedSet α} (h : ∀ a, a ∈ set ↔ a ∈ other) : set = other := by
  cases set with
  | mk elements sorted =>
    cases other with
    | mk elements' sorted' =>
      have heq : elements = elements' := eq_of_mem_iff sorted sorted' h
      subst heq
      rfl

end SortedSet

end LiveExports

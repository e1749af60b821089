import Mathlib.Data.List.Perm.Subperm
import LiveExports.Ordered.SortedSet
import LiveExports.Ordered.Table

/-!
# Sizes of sets and tables

A set whose elements come from a list is no larger than the list, and a union is larger than the set
exactly if it brings something new.  For a table, a quantity is added up over all values; putting
one value in place changes the total by what that value adds over the old one.
-/

namespace LiveExports

namespace SortedSet

variable {α : Type} [StrictOrder α]

theorem size_le_length {set : SortedSet α} {list : List α} (h : ∀ a ∈ set, a ∈ list) :
    set.size ≤ list.length :=
  (List.subperm_of_subset set.nodup_elements h).length_le

theorem size_le_size_union (set other : SortedSet α) : set.size ≤ (set.union other).size :=
  size_le_length fun _ ha => mem_union.mpr (Or.inl ha)

theorem size_lt_size_union_iff {set other : SortedSet α} :
    set.size < (set.union other).size ↔ ∃ a ∈ other, a ∉ set := by
  constructor
  · intro hlt
    by_contra hnone
    have hsame : set.union other = set := by
      apply ext_mem
      intro a
      rw [mem_union]
      refine ⟨fun h => h.elim id fun hother => ?_, Or.inl⟩
      by_contra hset
      exact hnone ⟨a, hother, hset⟩
    rw [hsame] at hlt
    exact Nat.lt_irrefl _ hlt
  · rintro ⟨a, hother, hset⟩
    have hnodup : (a :: set.elements).Nodup := List.nodup_cons.mpr ⟨hset, set.nodup_elements⟩
    have hsubset : a :: set.elements ⊆ (set.union other).elements := by
      intro b hb
      rcases List.mem_cons.mp hb with rfl | hb
      · exact mem_union.mpr (Or.inr hother)
      · exact mem_union.mpr (Or.inl hb)
    exact (List.subperm_of_subset hnodup hsubset).length_le

end SortedSet

namespace Table

variable {κ β : Type} [StrictOrder κ]

/-- A quantity of the values, added up over a list of entries. -/
def totalOf (quantity : β → Nat) : List (κ × β) → Nat
  | [] => 0
  | entry :: rest => quantity entry.2 + totalOf quantity rest

/-- A quantity of the values, added up over the table. -/
def total (quantity : β → Nat) (table : Table κ β) : Nat :=
  totalOf quantity table.entries

theorem totalOf_place (quantity : β → Nat) (key : κ) (value : β) (entries : List (κ × β)) :
    totalOf quantity (place key value entries) + ((lookup key entries).map quantity).getD 0 =
      totalOf quantity entries + quantity value := by
  induction entries with
  | nil => simp [place, lookup, totalOf]
  | cons first rest ih =>
      obtain ⟨k, old⟩ := first
      simp only [place, lookup]
      split
      · simp only [totalOf, Option.map_none, Option.getD_none]
        omega
      · split
        · simp only [totalOf]
          omega
        · simp only [totalOf, Option.map_some, Option.getD_some]
          omega

/-- What was there before is taken off the total. -/
theorem total_insert (quantity : β → Nat) (table : Table κ β) (key : κ) (value : β) :
    (table.insert key value).total quantity + ((table.find? key).map quantity).getD 0 =
      table.total quantity + quantity value :=
  totalOf_place quantity key value table.entries

omit [StrictOrder κ] in
theorem totalOf_le {quantity : β → Nat} {bound : Nat} {entries : List (κ × β)}
    (h : ∀ entry ∈ entries, quantity entry.2 ≤ bound) :
    totalOf quantity entries ≤ entries.length * bound := by
  induction entries with
  | nil => simp [totalOf]
  | cons first rest ih =>
      have hfirst := h first List.mem_cons_self
      have hrest := ih fun entry hentry => h entry (List.mem_cons_of_mem _ hentry)
      rw [totalOf, List.length_cons, Nat.succ_mul]
      omega

theorem total_le {quantity : β → Nat} {table : Table κ β} {bound : Nat}
    (h : ∀ key value, table.find? key = some value → quantity value ≤ bound) :
    table.total quantity ≤ table.size * bound := by
  apply totalOf_le
  intro entry hentry
  exact h entry.1 entry.2 (find?_eq_some_iff.mpr hentry)

theorem nodup_keys (table : Table κ β) : table.keys.Nodup := by
  unfold keys
  rw [List.Nodup, List.pairwise_map]
  exact table.sorted.imp fun h => StrictOrder.ne_of_less h

theorem size_le_of_keys {table : Table κ β} {list : List κ} (h : ∀ key ∈ table.keys, key ∈ list) :
    table.size ≤ list.length := by
  have hlength : table.keys.length = table.size := List.length_map _
  rw [← hlength]
  exact (List.subperm_of_subset table.nodup_keys h).length_le

end Table

end LiveExports

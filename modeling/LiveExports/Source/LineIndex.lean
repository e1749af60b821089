/-!
# Line indexes

The lines of the places in a text.  A place is told by the bytes that come before it in the stored
text.  An index holds the places where lines begin, in ascending order, and a place is looked up in
it by binary search.
-/

namespace LiveExports.Source

/-- The places behind the line ends of a text that begins at `offset`. -/
def startsFrom : (offset : Nat) → List Char → List Nat
  | _, [] => []
  | offset, c :: rest =>
    if c = '\n' then (offset + 1) :: startsFrom (offset + 1) rest
    else startsFrom (offset + c.utf8Size) rest

theorem lt_of_mem_startsFrom {offset start : Nat} {text : List Char}
    (h : start ∈ startsFrom offset text) : offset < start := by
  induction text generalizing offset with
  | nil => cases h
  | cons c rest ih =>
      rw [startsFrom] at h
      split at h
      · rcases List.mem_cons.mp h with rfl | hrest
        · exact Nat.lt_succ_self offset
        · exact Nat.lt_trans (Nat.lt_succ_self offset) (ih hrest)
      · have hlater := ih h
        omega

theorem pairwise_startsFrom (offset : Nat) (text : List Char) :
    (startsFrom offset text).Pairwise (· < ·) := by
  induction text generalizing offset with
  | nil => exact .nil
  | cons c rest ih =>
      rw [startsFrom]
      split
      · exact List.pairwise_cons.mpr ⟨fun _ => lt_of_mem_startsFrom, ih _⟩
      · exact ih _

/-- The places where the lines of a text begin. -/
structure LineIndex where
  starts : Array Nat
  ascending : starts.toList.Pairwise (· < ·)

namespace LineIndex

def ofText (text : List Char) : LineIndex where
  starts := (0 :: startsFrom 0 text).toArray
  ascending := List.pairwise_cons.mpr ⟨fun _ => lt_of_mem_startsFrom, pairwise_startsFrom 0 text⟩

/-- Where the line of an entry begins. -/
def start (index : LineIndex) (entry : Nat) : Nat :=
  index.starts.getD entry 0

/-- Goes on from `size` entries of the index, the first of them at `base`, to a single one: the
upper half is left out where it begins behind the place. -/
def narrow (index : LineIndex) (offset base size : Nat) : Nat :=
  if size ≤ 1 then base
  else
    let middle := base + size / 2
    if offset < index.start middle then index.narrow offset base (size - size / 2)
    else index.narrow offset middle (size - size / 2)
termination_by size

/-- The entry that is the place, or as a failure the entry that the place would have to stand
before. -/
def search (index : LineIndex) (offset : Nat) : Except Nat Nat :=
  if index.starts.isEmpty then .error 0
  else
    let base := index.narrow offset 0 index.starts.size
    if index.start base = offset then .ok base
    else .error (if index.start base < offset then base + 1 else base)

/-- The line of a place, counted from one. -/
def lineOf (index : LineIndex) (offset : Nat) : Nat :=
  match index.search offset with
  | .ok entry => entry + 1
  | .error following => following

end LineIndex

end LiveExports.Source

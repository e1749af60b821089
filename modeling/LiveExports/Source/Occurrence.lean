import LiveExports.Source.LineIndex

/-!
# Occurrences of statements

A recogniser is tried at every place where a statement may begin, from left to right.  Where it
succeeds, the search goes on behind the text it took.  The line of what was found is looked up.
-/

namespace LiveExports.Source

/-- Something found in a text: how many bytes come before it, and on which line it begins. -/
structure Occurrence (α : Type) where
  offset : Nat
  line : Nat
  found : α
deriving Repr

variable {α : Type}

/-- Searches the text that follows `previous`; the first `skip` characters belong to the statement
found last. -/
def matchesFrom (mayBegin : Option Char → Bool) (recognise : List Char → Option (α × List Char)) :
    (previous : Option Char) → (offset skip : Nat) → List Char → List (Nat × α)
  | _, _, _, [] => []
  | _, offset, skip + 1, c :: rest =>
    matchesFrom mayBegin recognise (some c) (offset + c.utf8Size) skip rest
  | previous, offset, 0, c :: rest =>
    match if mayBegin previous then recognise (c :: rest) else none with
    | some (found, after) =>
      (offset, found) ::
        matchesFrom mayBegin recognise (some c) (offset + c.utf8Size)
          (rest.length - after.length) rest
    | none => matchesFrom mayBegin recognise (some c) (offset + c.utf8Size) 0 rest

/-- What is found at a place of the text that an index is of. -/
def LineIndex.occurrence (index : LineIndex) (place : Nat × α) : Occurrence α :=
  { offset := place.1, line := index.lineOf place.1, found := place.2 }

/-- What is found in a text, from left to right. -/
def occurrences (mayBegin : Option Char → Bool)
    (recognise : List Char → Option (α × List Char)) (text : List Char) : List (Occurrence α) :=
  (matchesFrom mayBegin recognise none 0 0 text).map (LineIndex.ofText text).occurrence

/-- A line begins at the head of the text and after every line end. -/
def beginsLine : Option Char → Bool
  | none => true
  | some c => c == '\n'

/-- The occurrences at the beginnings of lines. -/
def lineOccurrences (recognise : List Char → Option (α × List Char)) (text : List Char) :
    List (Occurrence α) :=
  occurrences beginsLine recognise text

/-- The items in the order of their places; items of one place keep their order. -/
def inOrder (items : List (Occurrence α)) : List (Occurrence α) :=
  items.mergeSort fun a b => a.offset ≤ b.offset

/-- The same occurrence of something else. -/
def Occurrence.with {β : Type} (occurrence : Occurrence α) (found : β) : Occurrence β :=
  { offset := occurrence.offset, line := occurrence.line, found }

end LiveExports.Source

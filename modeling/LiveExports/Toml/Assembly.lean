import LiveExports.Toml.Value

/-!
# Putting a TOML document together

Headers and assignments come one after another and build up one table.  Which of them may add to a
table depends on how the table came about: a table with a header of its own is closed to dotted
keys, a table made by dotted keys is closed to headers, and no key can be assigned twice.
-/

namespace LiveExports.Toml

/-- How a table came about. -/
inductive Origin where
  /-- By a header of its own. -/
  | header
  /-- On the way to the table of another header. -/
  | passage
  /-- By a dotted key. -/
  | dotted
deriving DecidableEq

/-- What stands under a key while a document is put together. -/
inductive Item where
  | value (value : Value)
  | table (origin : Origin) (members : List (String × Item))
  /-- An array of tables, each with a header of its own. -/
  | tables (elements : List (List (String × Item)))
deriving Inhabited

/-- The members of a table. -/
abbrev Members := List (String × Item)

/-- The members with an item under a key, instead of what was there. -/
def Members.set (key : String) (item : Item) : Members → Members
  | [] => [(key, item)]
  | (other, old) :: rest =>
    if other = key then (key, item) :: rest else (other, old) :: Members.set key item rest

/-- Changes the table at the end of a path.  Missing tables on the way come about as `via` says; an
array of tables leads to its last element.  A dotted path does not go through a table with a header
of its own. -/
def changeAt (via : Origin) (change : Origin → Members → Option (Origin × Members)) :
    List String → Origin → Members → Option (Origin × Members)
  | [], origin, members => change origin members
  | key :: path, origin, members =>
    match members.lookup key with
    | none => do
      let (inner, content) ← changeAt via change path via []
      return (origin, members.set key (.table inner content))
    | some (.value _) => none
    | some (.table inner content) =>
      if via = .dotted ∧ inner = .header then none
      else do
        let (inner, content) ← changeAt via change path inner content
        return (origin, members.set key (.table inner content))
    | some (.tables elements) => do
      let last ← elements.getLast?
      let (_, content) ← changeAt via change path .header last
      return (origin, members.set key (.tables (elements.dropLast ++ [content])))

/-- Assigns a value to a key of a table, unless the key is taken. -/
def assign (key : String) (value : Value) (members : Members) : Option Members :=
  if (members.lookup key).isSome then none else some (members.set key (.value value))

/-- Assigns a value to a dotted key below a table.  The last table on the way has to be one that
dotted keys made. -/
def assignAt (path : List String) (key : String) (value : Value) (members : Members) :
    Option Members :=
  let put (origin : Origin) (members : Members) : Option (Origin × Members) :=
    if path ≠ [] ∧ origin ≠ .dotted then none
    else (assign key value members).map (origin, ·)
  (changeAt .dotted put path .header members).map (·.2)

/-- Opens the table of a header. -/
def openTable (key : String) (members : Members) : Option Members :=
  match members.lookup key with
  | none => some (members.set key (.table .header []))
  | some (.table .passage content) => some (members.set key (.table .header content))
  | some _ => none

/-- Opens a new element of an array of tables. -/
def openElement (key : String) (members : Members) : Option Members :=
  match members.lookup key with
  | none => some (members.set key (.tables [[]]))
  | some (.tables elements) => some (members.set key (.tables (elements ++ [[]])))
  | some _ => none

mutual

/-- The value that an item stands for. -/
def Item.finish : Item → Value
  | .value value => value
  | .table _ members => .table (finishMembers members)
  | .tables elements => .array (finishElements elements)

def finishMembers : List (String × Item) → List (String × Value)
  | [] => []
  | (key, item) :: rest => (key, item.finish) :: finishMembers rest

def finishElements : List (List (String × Item)) → List Value
  | [] => []
  | members :: rest => .table (finishMembers members) :: finishElements rest

end

/-! ## Documents -/

/-- A line of a document that says something. -/
inductive Line where
  | header (path : List String) (key : String)
  | elementHeader (path : List String) (key : String)
  | assignment (path : List String) (key : String) (value : Value)

/-- A document so far: its members, and the table that assignments go to. -/
structure Draft where
  members : Members := []
  current : List String := []

/-- Changes the table at the end of a path of headers. -/
def Draft.change (draft : Draft) (path : List String) (change : Members → Option Members) :
    Option Members :=
  (changeAt .passage (fun origin members => (change members).map (origin, ·)) path .header
    draft.members).map (·.2)

/-- Takes in a line. -/
def Draft.add (draft : Draft) : Line → Option Draft
  | .header path key => do
    return { members := ← draft.change path (openTable key), current := path ++ [key] }
  | .elementHeader path key => do
    return { members := ← draft.change path (openElement key), current := path ++ [key] }
  | .assignment path key value => do
    return { draft with members := ← draft.change draft.current (assignAt path key value) }

/-- The members of a document. -/
def assemble? (lines : List Line) : Option (List (String × Value)) :=
  (lines.foldlM Draft.add {}).map fun draft => finishMembers draft.members

/-- The members of a table that is written as a value. -/
def assembleInline? (assignments : List (List String × String × Value)) :
    Option (List (String × Value)) :=
  (assignments.foldlM (fun members (path, key, value) => assignAt path key value members) []).map
    finishMembers

end LiveExports.Toml

import LiveExports.Ordered.Basic
import LiveExports.Text.Utf8

/-!
# File trees

A file tree is a file or a folder of named trees.  A name is any bytes; most names are the bytes of
a text, but not all of them.  A place in a tree is given by the names that lead to it.
-/

namespace LiveExports

/-! ## Names -/

structure Name where
  bytes : List UInt8
deriving DecidableEq, Repr

namespace Name

def ofChars (chars : List Char) : Name :=
  ⟨chars.flatMap Text.encodeChar⟩

def ofText (text : String) : Name :=
  ofChars text.toList

@[simp] theorem ofChars_toList (text : String) : ofChars text.toList = ofText text :=
  rfl

instance : Coe String Name :=
  ⟨ofText⟩

/-- The text whose bytes make up the name, if there is one. -/
def text? (name : Name) : Option String :=
  Text.decode? name.bytes

/-- The name as it is shown, with the replacement character for every fault. -/
def shown (name : Name) : String :=
  Text.decodeLossy name.bytes

/-- Names are ordered byte by byte. -/
instance : StrictOrder Name :=
  .ofKey (fun name => name.bytes.map UInt8.toNat) fun a b h => by
    cases a
    cases b
    rw [Name.mk.injEq]
    exact (List.map_inj_right fun _ _ => UInt8.toNat_inj.mp).mp h

end Name

/-! ## Trees -/

inductive Tree where
  | file (content : List UInt8)
  | folder (children : List (Name × Tree))
deriving Inhabited

namespace Tree

def isFile : Tree → Bool
  | file _ => true
  | folder _ => false

def isFolder : Tree → Bool
  | file _ => false
  | folder _ => true

/-- The tree at a place. -/
def at? : Tree → List Name → Option Tree
  | tree, [] => some tree
  | folder children, name :: names => (children.lookup name).bind (·.at? names)
  | file _, _ :: _ => none

/-- The children with a tree under a name, instead of what was there. -/
def setChild (name : Name) (tree : Tree) : List (Name × Tree) → List (Name × Tree)
  | [] => [(name, tree)]
  | (other, child) :: rest =>
    if other = name then (name, tree) :: rest else (other, child) :: setChild name tree rest

@[simp] theorem lookup_setChild_self (name : Name) (tree : Tree)
    (children : List (Name × Tree)) :
    (setChild name tree children).lookup name = some tree := by
  induction children with
  | nil => simp [setChild]
  | cons child rest ih =>
    obtain ⟨other, old⟩ := child
    by_cases h : other = name
    · simp [setChild, h]
    · have hne : (name == other) = false := by simpa using Ne.symm h
      simp [setChild, h, List.lookup_cons, hne, ih]

/-- What stands under other names stays as it was. -/
theorem lookup_setChild_of_ne {name other : Name} (tree : Tree) (children : List (Name × Tree))
    (h : other ≠ name) : (setChild name tree children).lookup other = children.lookup other := by
  have hne : (other == name) = false := by simpa using h
  induction children with
  | nil => simp [setChild, List.lookup_cons, hne]
  | cons child rest ih =>
    obtain ⟨first, old⟩ := child
    by_cases hfirst : first = name
    · subst hfirst
      simp [setChild, List.lookup_cons, hne]
    · simp [setChild, hfirst, List.lookup_cons, ih]

/-- The tree with `new` at a place, instead of what was there.  Missing folders on the way are
added; a file on the way stays as it is. -/
def put : Tree → List Name → Tree → Tree
  | _, [], new => new
  | folder children, name :: names, new =>
    folder (setChild name (put ((children.lookup name).getD (folder [])) names new) children)
  | file content, _ :: _, _ => file content

/-- The tree without what is at a place. -/
def erase : Tree → List Name → Tree
  | tree, [] => tree
  | file content, _ :: _ => file content
  | folder children, [name] => folder (children.filter (·.1 != name))
  | folder children, name :: names =>
    match children.lookup name with
    | some child => folder (setChild name (erase child names) children)
    | none => folder children

end Tree

end LiveExports

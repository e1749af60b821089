/-!
# JSON values

A document as a value.  An object keeps its members in the order and number in which they are
written, so that a repeated key can be seen; a number keeps its literal.  A string may be written
with half of a surrogate pair; such a string is *torn*: it has no text.  An object is torn as well
when one of its keys is.  A document that holds a torn value can be read only where that value is
passed over.
-/

namespace LiveExports.Json

inductive Value where
  | null
  | bool (value : Bool)
  | number (literal : List Char)
  | string (text : String)
  | torn
  | array (elements : List Value)
  | object (members : List (String × Value))
deriving Inhabited

namespace Value

/-- The number `n`. -/
def natural (n : Nat) : Value :=
  .number (Nat.toDigits 10 n)

/-- A value that may be missing; a missing one is written `null`. -/
def optional {α : Type} (encode : α → Value) : Option α → Value
  | none => .null
  | some a => encode a

def strings (texts : List String) : Value :=
  .array (texts.map .string)

end Value

end LiveExports.Json

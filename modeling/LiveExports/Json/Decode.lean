import LiveExports.Decimal
import LiveExports.Json.Value

/-!
# Taking values out of documents

Records are read from documents in two forms: as an object, whose members may come in any order and
may include unknown ones, or as the list of the fields in order.  In an object no known field may
stand twice; a list may stop early but not go on after the last field.
-/

namespace LiveExports.Json

namespace Value

/-- A whole number from zero up to, but not including, `bound`. -/
def natural? (bound : Nat) : Value → Option Nat
  | .number literal =>
    if literal.all Char.isDigit ∧ naturalOfDigits literal < bound then
      some (naturalOfDigits literal)
    else none
  | _ => none

def string? : Value → Option String
  | .string text => some text
  | _ => none

/-- An array all of whose elements can be read. -/
def list? {α : Type} (decode : Value → Option α) : Value → Option (List α)
  | .array elements => elements.mapM decode
  | _ => none

/-- The value of a key that stands at most once among the members. -/
def member? (key : String) (members : List (String × Value)) : Option (Option Value) :=
  match members.filter (·.1 == key) with
  | [] => some none
  | [(_, value)] => some (some value)
  | _ => none

/-- The fields of a record with the given names, in the order of the names. -/
def fields? (names : List String) : Value → Option (List (Option Value))
  | .object members => names.mapM (member? · members)
  | .array elements =>
    if elements.length ≤ names.length then
      some (elements.map some ++ List.replicate (names.length - elements.length) none)
    else none
  | _ => none

/-! ## Limits -/

mutual

/-- Are all numbers finite, judged by their leading digits, is nothing torn, and is nothing nested
more than `depth` deep? -/
def isWithin (depth : Nat) : Value → Bool
  | .number literal => (Decimal.ofLiteral literal).isRoughlyFinite
  | .torn => false
  | .array elements =>
    match depth with
    | 0 => false
    | depth + 1 => allWithin depth elements
  | .object members =>
    match depth with
    | 0 => false
    | depth + 1 => allMembersWithin depth members
  | _ => true

def allWithin (depth : Nat) : List Value → Bool
  | [] => true
  | element :: rest => element.isWithin depth && allWithin depth rest

def allMembersWithin (depth : Nat) : List (String × Value) → Bool
  | [] => true
  | (_, value) :: rest => value.isWithin depth && allMembersWithin depth rest

end

end Value

end LiveExports.Json

/-!
# TOML values

A document as a value.  Numbers and dates are kept as they are written, without the separators
between digits.
-/

namespace LiveExports.Toml

inductive Value where
  | bool (value : Bool)
  | integer (value : Int)
  | float (literal : List Char)
  | date (literal : List Char)
  | string (text : String)
  | array (elements : List Value)
  | table (members : List (String × Value))
deriving Inhabited

namespace Value

def bool? : Value → Option Bool
  | bool value => some value
  | _ => none

def string? : Value → Option String
  | string text => some text
  | _ => none

/-- An array of strings. -/
def strings? : Value → Option (List String)
  | array elements => elements.mapM string?
  | _ => none

end Value

end LiveExports.Toml

import LiveExports.Json.Value

/-!
# Writing JSON

Documents are written either on one line without blanks, or with one member or element a line and
two spaces of indentation for each level.  Empty arrays and objects take no line of their own in
either layout.  In a string, quotes, backslashes and control characters are escaped, and nothing
else; a torn value is written as the string of half a surrogate pair.
-/

namespace LiveExports.Json

inductive Layout where
  | compact
  | indented
deriving DecidableEq

namespace Layout

/-- What stands between two lines of a document, before a line at the given level. -/
def lineBreak (layout : Layout) (level : Nat) : List Char :=
  match layout with
  | compact => []
  | indented => '\n' :: List.replicate (2 * level) ' '

/-- What stands between a key and its value. -/
def colon : Layout → List Char
  | compact => [':']
  | indented => [':', ' ']

end Layout

/-- The last digit of a number in base sixteen. -/
def hexDigit (n : Nat) : Char :=
  (Nat.digitChar (n % 16))

/-- A character as it stands inside a string. -/
def escape (c : Char) : List Char :=
  if c = '"' then ['\\', '"']
  else if c = '\\' then ['\\', '\\']
  else if 0x20 ≤ c.toNat then [c]
  else if c.toNat = 0x08 then ['\\', 'b']
  else if c.toNat = 0x09 then ['\\', 't']
  else if c.toNat = 0x0A then ['\\', 'n']
  else if c.toNat = 0x0C then ['\\', 'f']
  else if c.toNat = 0x0D then ['\\', 'r']
  else ['\\', 'u', '0', '0', hexDigit (c.toNat / 16), hexDigit c.toNat]

/-- A string with its quotes. -/
def quote (text : String) : List Char :=
  '"' :: text.toList.flatMap escape ++ ['"']

mutual

/-- The text of a value that begins at the given level. -/
def Value.write (layout : Layout) (level : Nat) : Value → List Char
  | .null => ['n', 'u', 'l', 'l']
  | .bool true => ['t', 'r', 'u', 'e']
  | .bool false => ['f', 'a', 'l', 's', 'e']
  | .number literal => literal
  | .string text => quote text
  | .torn => ['"', '\\', 'u', 'd', '8', '0', '0', '"']
  | .array [] => ['[', ']']
  | .array (first :: rest) =>
    '[' :: layout.lineBreak (level + 1) ++ first.write layout (level + 1) ++
      writeElements layout (level + 1) rest ++ layout.lineBreak level ++ [']']
  | .object [] => ['\x7b', '\x7d']
  | .object ((key, first) :: rest) =>
    '\x7b' :: layout.lineBreak (level + 1) ++ quote key ++ layout.colon ++
      first.write layout (level + 1) ++ writeMembers layout (level + 1) rest ++
      layout.lineBreak level ++ ['\x7d']

/-- The elements that follow the first one. -/
def writeElements (layout : Layout) (level : Nat) : List Value → List Char
  | [] => []
  | element :: rest =>
    ',' :: layout.lineBreak level ++ element.write layout level ++
      writeElements layout level rest

/-- The members that follow the first one. -/
def writeMembers (layout : Layout) (level : Nat) : List (String × Value) → List Char
  | [] => []
  | (key, value) :: rest =>
    ',' :: layout.lineBreak level ++ quote key ++ layout.colon ++ value.write layout level ++
      writeMembers layout level rest

end

/-- The document on one line. -/
def Value.compact (value : Value) : String :=
  String.ofList (value.write .compact 0)

/-- The document with one member or element a line. -/
def Value.pretty (value : Value) : String :=
  String.ofList (value.write .indented 0)

end LiveExports.Json

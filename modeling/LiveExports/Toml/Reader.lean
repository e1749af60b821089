import LiveExports.Toml.Assembly
import LiveExports.Toml.Scalar

/-!
# Reading TOML

A document is read line by line: headers, assignments, comments and blank lines.  The reader of
values is bounded by the length of the text, which every element shortens; apart from that, values
are nested, and dotted keys are long, only up to a limit.
-/

namespace LiveExports.Toml

/-- Values are nested less deep than this, and dotted keys have fewer parts. -/
def depthLimit : Nat := 80

/-! ## Keys -/

def isKeyChar (c : Char) : Bool :=
  c.isAlphanum || c == '_' || c == '-'

/-- One part of a key. -/
def simpleKey? : List Char → Option (String × List Char)
  | '"' :: rest => lineString? .basic rest
  | '\'' :: rest => lineString? .literal rest
  | text =>
    let run := text.takeWhile isKeyChar
    if run.isEmpty then none else some (String.ofList run, text.dropWhile isKeyChar)

/-- The parts of a dotted key, with blanks around them. -/
def keyParts? : (fuel : Nat) → List Char → Option (List String × List Char)
  | 0, _ => none
  | fuel + 1, text =>
    match simpleKey? (skipBlanks text) with
    | none => none
    | some (part, rest) =>
      match skipBlanks rest with
      | '.' :: rest => (keyParts? fuel rest).map fun (parts, rest) => (part :: parts, rest)
      | rest => some ([part], rest)

/-- A dotted key: the path to a table, and the key in it. -/
def key? (text : List Char) : Option (List String × String × List Char) := do
  let (parts, rest) ← keyParts? (text.length + 1) text
  if parts.length < depthLimit then
    return (parts.dropLast, ← parts.getLast?, rest)
  else none

/-! ## Values -/

/-- The text after a comment, if one stands here. -/
def skipComment : List Char → List Char
  | '#' :: rest => rest.dropWhile isPrintable
  | text => text

/-- Blanks, line ends and comments between the elements of an array. -/
def skipBetween : (fuel : Nat) → List Char → List Char
  | 0, text => text
  | fuel + 1, text =>
    match text with
    | [] => []
    | '#' :: rest => skipBetween fuel (rest.dropWhile isPrintable)
    | c :: rest =>
      if isBlank c then skipBetween fuel rest
      else
        match lineEnd? (c :: rest) with
        | some rest => skipBetween fuel rest
        | none => c :: rest

/-- The text after what may stand between the elements of an array. -/
def skipSpace (text : List Char) : List Char :=
  skipBetween (text.length + 1) text

/-- A word that stands for a value. -/
def word? (word : String) (value : Value) (text : List Char) : Option (Value × List Char) :=
  (Text.after? word.toList text).map fun rest => (value, rest)

/-- A date or a number. -/
def dateOrNumber? (text : List Char) : Option (Value × List Char) :=
  match date? text with
  | some (literal, rest) => some (.date literal, rest)
  | none =>
    match float? text with
    | some (literal, rest) => some (.float literal, rest)
    | none => (integer? text).map fun (n, rest) => (.integer n, rest)

mutual

/-- A value that stands inside `depth` arrays and tables. -/
def value? (depth : Nat) : (fuel : Nat) → List Char → Option (Value × List Char)
  | 0, _ => none
  | fuel + 1, text =>
    match text with
    | '[' :: rest =>
      if depth + 1 < depthLimit then
        match skipSpace rest with
        | ']' :: rest => some (.array [], rest)
        | rest =>
          (elements? (depth + 1) fuel rest).map fun (elements, rest) => (.array elements, rest)
      else none
    | '\x7b' :: rest =>
      if depth + 1 < depthLimit then
        match skipBlanks rest with
        | '\x7d' :: rest => some (.table [], rest)
        | rest => do
          let (assignments, rest) ← assignments? (depth + 1) fuel rest
          return (.table (← assembleInline? assignments), rest)
      else none
    | '"' :: rest => (string? ('"' :: rest)).map fun (text, rest) => (.string text, rest)
    | '\'' :: rest => (string? ('\'' :: rest)).map fun (text, rest) => (.string text, rest)
    | 't' :: rest => word? "rue" (.bool true) rest
    | 'f' :: rest => word? "alse" (.bool false) rest
    | text => dateOrNumber? text

/-- The elements of an array, at least one, and its closing bracket.  A comma may follow the last
one. -/
def elements? (depth : Nat) : (fuel : Nat) → List Char → Option (List Value × List Char)
  | 0, _ => none
  | fuel + 1, text =>
    match value? depth fuel text with
    | none => none
    | some (element, rest) =>
      match skipSpace rest with
      | ']' :: rest => some ([element], rest)
      | ',' :: rest =>
        match skipSpace rest with
        | ']' :: rest => some ([element], rest)
        | rest => (elements? depth fuel rest).map fun (elements, rest) =>
            (element :: elements, rest)
      | _ => none

/-- The assignments of a table that is written as a value, at least one, and its closing brace. -/
def assignments? (depth : Nat) :
    (fuel : Nat) → List Char → Option (List (List String × String × Value) × List Char)
  | 0, _ => none
  | fuel + 1, text =>
    match key? text with
    | none => none
    | some (path, key, rest) =>
      match rest with
      | '=' :: rest =>
        match value? depth fuel (skipBlanks rest) with
        | none => none
        | some (value, rest) =>
          match skipBlanks rest with
          | '\x7d' :: rest => some ([(path, key, value)], rest)
          | ',' :: rest =>
            (assignments? depth fuel rest).map fun (assignments, rest) =>
              ((path, key, value) :: assignments, rest)
          | _ => none
      | _ => none

end

/-! ## Lines -/

/-- The text after blanks, a comment and the end of the line. -/
def finishLine? (text : List Char) : Option (List Char) :=
  match skipComment (skipBlanks text) with
  | [] => some []
  | rest => lineEnd? rest

/-- A header, after its opening bracket. -/
def header? (text : List Char) : Option (Line × List Char) :=
  match text with
  | '[' :: rest => do
    let (path, key, rest) ← key? rest
    let rest ← Text.after? [']', ']'] rest
    return (.elementHeader path key, rest)
  | rest => do
    let (path, key, rest) ← key? rest
    let rest ← Text.after? [']'] rest
    return (.header path key, rest)

def assignment? (text : List Char) : Option (Line × List Char) := do
  let (path, key, rest) ← key? text
  let text ← Text.after? ['='] rest
  let (value, rest) ← value? 0 (2 * text.length + 1) (skipBlanks text)
  return (.assignment path key value, rest)

/-- The lines of a document that say something. -/
def lines? : (fuel : Nat) → List Char → Option (List Line)
  | 0, _ => none
  | fuel + 1, text =>
    match skipBlanks text with
    | [] => some []
    | '#' :: rest => (finishLine? ('#' :: rest)).bind (lines? fuel)
    | '[' :: rest => do
      let (line, rest) ← header? rest
      let others ← lines? fuel (← finishLine? rest)
      return line :: others
    | text =>
      match lineEnd? text with
      | some rest => lines? fuel rest
      | none => do
        let (line, rest) ← assignment? text
        let others ← lines? fuel (← finishLine? rest)
        return line :: others

/-- The text without a byte order mark at its head. -/
def withoutMark : List Char → List Char
  | [] => []
  | c :: rest => if c.toNat = 0xFEFF then rest else c :: rest

/-- Reads a whole text as a document. -/
def read? (text : String) : Option (List (String × Value)) :=
  let chars := withoutMark text.toList
  (lines? (chars.length + 1) chars).bind assemble?

end LiveExports.Toml

import LiveExports.Json.Value

/-!
# Reading JSON

A recursive-descent reader.  Each function takes the text from where it stands and gives what it
read together with the rest.  The reader of values is bounded by the length of the text, which every
element and member shortens.
-/

namespace LiveExports.Json

def isSpace (c : Char) : Bool :=
  c == ' ' || c == '\t' || c == '\n' || c == '\r'

def skipSpace (text : List Char) : List Char :=
  text.dropWhile isSpace

/-! ## Numbers -/

/-- A run of digits, at least one. -/
def digits? (text : List Char) : Option (List Char × List Char) :=
  let run := text.takeWhile Char.isDigit
  if run.isEmpty then none else some (run, text.dropWhile Char.isDigit)

/-- The whole part of a number: a zero alone, or digits that do not begin with zero. -/
def wholePart? : List Char → Option (List Char × List Char)
  | '0' :: rest => if rest.head?.any Char.isDigit then none else some (['0'], rest)
  | text => digits? text

/-- The places after the point, if there is one. -/
def fraction? : List Char → Option (List Char × List Char)
  | '.' :: rest => (digits? rest).map fun (run, rest) => ('.' :: run, rest)
  | text => some ([], text)

def exponentSign : List Char → List Char × List Char
  | '+' :: rest => (['+'], rest)
  | '-' :: rest => (['-'], rest)
  | text => ([], text)

/-- The exponent, if there is one. -/
def exponent? : List Char → Option (List Char × List Char)
  | [] => some ([], [])
  | mark :: rest =>
    if mark = 'e' ∨ mark = 'E' then
      let (sign, rest) := exponentSign rest
      (digits? rest).map fun (run, rest) => (mark :: sign ++ run, rest)
    else some ([], mark :: rest)

/-- A number without its sign. -/
def unsigned? (text : List Char) : Option (List Char × List Char) := do
  let (whole, text) ← wholePart? text
  let (places, text) ← fraction? text
  let (power, text) ← exponent? text
  return (whole ++ places ++ power, text)

def number? : List Char → Option (List Char × List Char)
  | '-' :: rest => (unsigned? rest).map fun (literal, rest) => ('-' :: literal, rest)
  | text => unsigned? text

/-! ## Strings -/

def hexValue? (c : Char) : Option Nat :=
  if c.isDigit then some (c.toNat - '0'.toNat)
  else if 'a' ≤ c ∧ c ≤ 'f' then some (c.toNat - 'a'.toNat + 10)
  else if 'A' ≤ c ∧ c ≤ 'F' then some (c.toNat - 'A'.toNat + 10)
  else none

/-- The number written by four digits in base sixteen. -/
def codeUnit? (a b c d : Char) : Option Nat := do
  return ((← hexValue? a) * 16 + (← hexValue? b)) * 256 + ((← hexValue? c) * 16 + (← hexValue? d))

/-- The character that follows a backslash stands for this one. -/
def simpleEscape? : Char → Option Char
  | '"' => some '"'
  | '\\' => some '\\'
  | '/' => some '/'
  | 'b' => some (Char.ofNat 0x08)
  | 'f' => some (Char.ofNat 0x0C)
  | 'n' => some '\n'
  | 'r' => some '\r'
  | 't' => some '\t'
  | _ => none

/-- The characters of a string up to its closing quote; the escape of half a surrogate pair gives no
character. -/
def stringBody? : List Char → Option (List (Option Char) × List Char)
  | [] => none
  | '"' :: rest => some ([], rest)
  | '\\' :: 'u' :: a :: b :: c :: d :: rest =>
    match codeUnit? a b c d with
    | none => none
    | some unit =>
      let alone := (stringBody? rest).map fun (text, rest) =>
        ((if unit < 0xD800 ∨ 0xDFFF < unit then some (Char.ofNat unit) else none) :: text, rest)
      if unit < 0xD800 ∨ 0xDBFF < unit then alone
      else
        match rest with
        | '\\' :: 'u' :: e :: f :: g :: h :: rest =>
          match codeUnit? e f g h with
          | none => none
          | some low =>
            if 0xDC00 ≤ low ∧ low ≤ 0xDFFF then
              let code := 0x10000 + (unit - 0xD800) * 0x400 + (low - 0xDC00)
              (stringBody? rest).map fun (text, rest) => (some (Char.ofNat code) :: text, rest)
            else alone
        | _ => alone
  | '\\' :: mark :: rest =>
    match simpleEscape? mark with
    | none => none
    | some c => (stringBody? rest).map fun (text, rest) => (some c :: text, rest)
  | c :: rest =>
    if c = '\\' ∨ c.toNat < 0x20 then none
    else (stringBody? rest).map fun (text, rest) => (some c :: text, rest)

/-- The text of a string that is not torn. -/
def wholeText? (characters : List (Option Char)) : Option String :=
  (characters.mapM id).map String.ofList

/-- A string as a value, after its opening quote. -/
def stringValue? (text : List Char) : Option (Value × List Char) :=
  (stringBody? text).map fun (characters, rest) =>
    (((wholeText? characters).map Value.string).getD .torn, rest)

/-- A key, from its opening quote; a torn key has no text. -/
def key? : List Char → Option (Option String × List Char)
  | '"' :: rest => (stringBody? rest).map fun (characters, rest) => (wholeText? characters, rest)
  | _ => none

/-! ## Values -/

/-- A member whose key is whole. -/
def wholeMember? (member : Option String × Value) : Option (String × Value) :=
  member.1.map (·, member.2)

/-- The object with the given members, torn if one of the keys is. -/
def objectValue (members : List (Option String × Value)) : Value :=
  ((members.mapM wholeMember?).map Value.object).getD .torn

/-- The word `word`, standing for `value`. -/
def literal? (word : String) (value : Value) (text : List Char) : Option (Value × List Char) :=
  if word.toList.isPrefixOf text then some (value, text.drop word.length) else none

mutual

/-- A value, after any space. -/
def value? : Nat → List Char → Option (Value × List Char)
  | 0, _ => none
  | fuel + 1, text =>
    match skipSpace text with
    | 'n' :: rest => literal? "ull" .null rest
    | 't' :: rest => literal? "rue" (.bool true) rest
    | 'f' :: rest => literal? "alse" (.bool false) rest
    | '"' :: rest => stringValue? rest
    | '[' :: rest =>
      match skipSpace rest with
      | ']' :: rest => some (.array [], rest)
      | rest => (elements? fuel rest).map fun (elements, rest) => (.array elements, rest)
    | '\x7b' :: rest =>
      match skipSpace rest with
      | '\x7d' :: rest => some (.object [], rest)
      | rest => (members? fuel rest).map fun (members, rest) => (objectValue members, rest)
    | text => (number? text).map fun (literal, rest) => (.number literal, rest)

/-- The elements of an array, at least one, and its closing bracket. -/
def elements? : Nat → List Char → Option (List Value × List Char)
  | 0, _ => none
  | fuel + 1, text =>
    match value? fuel text with
    | none => none
    | some (element, rest) =>
      match skipSpace rest with
      | ']' :: rest => some ([element], rest)
      | ',' :: rest =>
        (elements? fuel rest).map fun (elements, rest) => (element :: elements, rest)
      | _ => none

/-- The members of an object, at least one, and its closing brace. -/
def members? : Nat → List Char → Option (List (Option String × Value) × List Char)
  | 0, _ => none
  | fuel + 1, text =>
    match key? (skipSpace text) with
    | none => none
    | some (key, rest) =>
      match skipSpace rest with
      | ':' :: rest =>
        match value? fuel rest with
        | none => none
        | some (value, rest) =>
          match skipSpace rest with
          | '\x7d' :: rest => some ([(key, value)], rest)
          | ',' :: rest =>
            (members? fuel rest).map fun (members, rest) => ((key, value) :: members, rest)
          | _ => none
      | _ => none

end

/-- Reads a whole text as one value with nothing but space around it. -/
def read? (text : String) : Option Value :=
  let chars := text.toList
  match value? (2 * chars.length + 1) chars with
  | some (value, rest) => if (skipSpace rest).isEmpty then some value else none
  | none => none

end LiveExports.Json

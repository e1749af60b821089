import LiveExports.Decimal
import LiveExports.Json.Reader
import LiveExports.Text.Pieces
import LiveExports.Toml.Value

/-!
# Reading TOML strings, numbers and dates

Each function takes the text from where it stands and gives what it read together with the rest.
-/

namespace LiveExports.Toml

/-! ## Blanks and line ends -/

def isBlank (c : Char) : Bool :=
  c == ' ' || c == '\t'

def skipBlanks (text : List Char) : List Char :=
  text.dropWhile isBlank

/-- The text after a line end. -/
def lineEnd? : List Char → Option (List Char)
  | '\n' :: rest => some rest
  | '\r' :: '\n' :: rest => some rest
  | _ => none

/-- May the character stand in a comment or, quotes and backslashes apart, in a string? -/
def isPrintable (c : Char) : Bool :=
  c == '\t' || (' ' ≤ c && c ≤ '~') || 0x80 ≤ c.toNat

/-! ## Strings -/

/-- The number written by digits in base sixteen. -/
def hexNumber? (digits : List Char) : Option Nat :=
  digits.foldlM (fun n c => (Json.hexValue? c).map (16 * n + ·)) 0

/-- The character with a number, unless it is a surrogate or too large. -/
def character? (code : Nat) : Option Char :=
  if code < 0xD800 ∨ (0xDFFF < code ∧ code < 0x110000) then some (Char.ofNat code) else none

/-- The character that an escape stands for, after the backslash. -/
def escape? : List Char → Option (Char × List Char)
  | 'b' :: rest => some (Char.ofNat 0x08, rest)
  | 'f' :: rest => some (Char.ofNat 0x0C, rest)
  | 'n' :: rest => some ('\n', rest)
  | 'r' :: rest => some ('\r', rest)
  | 't' :: rest => some ('\t', rest)
  | '\\' :: rest => some ('\\', rest)
  | '"' :: rest => some ('"', rest)
  | 'u' :: a :: b :: c :: d :: rest => do
    return (← character? (← hexNumber? [a, b, c, d]), rest)
  | 'U' :: a :: b :: c :: d :: e :: f :: g :: h :: rest => do
    return (← character? (← hexNumber? [a, b, c, d, e, f, g, h]), rest)
  | _ => none

/-- The kinds of strings: with escapes or literal. -/
inductive Quoting where
  | basic
  | literal

namespace Quoting

def mark : Quoting → Char
  | basic => '"'
  | literal => '\''

/-- Does the character begin an escape? -/
def escapes : Quoting → Char → Bool
  | basic, c => c == '\\'
  | literal, _ => false

end Quoting

/-- The characters of a string on one line, up to its closing quote. -/
def lineBody? (quoting : Quoting) : (fuel : Nat) → List Char → Option (List Char × List Char)
  | 0, _ => none
  | _, [] => none
  | fuel + 1, c :: rest =>
    if c = quoting.mark then some ([], rest)
    else if quoting.escapes c then do
      let (escaped, rest) ← escape? rest
      let (text, rest) ← lineBody? quoting fuel rest
      return (escaped :: text, rest)
    else if isPrintable c then
      (lineBody? quoting fuel rest).map fun (text, rest) => (c :: text, rest)
    else none

/-- The text after the blanks and line ends that a backslash at the end of a line removes. -/
def skipLineEnds : List Char → List Char
  | '\n' :: rest => skipLineEnds rest
  | '\r' :: '\n' :: rest => skipLineEnds rest
  | ' ' :: rest => skipLineEnds rest
  | '\t' :: rest => skipLineEnds rest
  | text => text

/-- The characters of a string over several lines, up to its closing quotes.  Up to two quotes may
stand anywhere, also right before the closing three.  A line end is read as a line feed. -/
def linesBody? (quoting : Quoting) : (fuel : Nat) → List Char → Option (List Char × List Char)
  | 0, _ => none
  | _, [] => none
  | fuel + 1, c :: rest =>
    let text := c :: rest
    if c = quoting.mark then
      let quotes := text.takeWhile (· = quoting.mark)
      let after := text.dropWhile (· = quoting.mark)
      if quotes.length < 3 then
        (linesBody? quoting fuel after).map fun (text, rest) => (quotes ++ text, rest)
      else if quotes.length ≤ 5 then some (quotes.drop 3, after)
      else none
    else
      match lineEnd? text with
      | some rest => (linesBody? quoting fuel rest).map fun (text, rest) => ('\n' :: text, rest)
      | none =>
        if quoting.escapes c then
          match lineEnd? (skipBlanks rest) with
          | some rest => linesBody? quoting fuel (skipLineEnds rest)
          | none => do
            let (escaped, rest) ← escape? rest
            let (text, rest) ← linesBody? quoting fuel rest
            return (escaped :: text, rest)
        else if isPrintable c then
          (linesBody? quoting fuel rest).map fun (text, rest) => (c :: text, rest)
        else none

/-- A string on one line, after its opening quote. -/
def lineString? (quoting : Quoting) (text : List Char) : Option (String × List Char) :=
  (lineBody? quoting (text.length + 1) text).map fun (text, rest) => (String.ofList text, rest)

/-- A string over several lines, after its opening quotes; a line end right after them does not
count. -/
def linesString? (quoting : Quoting) (text : List Char) : Option (String × List Char) :=
  let body := (lineEnd? text).getD text
  (linesBody? quoting (body.length + 1) body).map fun (text, rest) => (String.ofList text, rest)

/-- A string of either kind. -/
def string? : List Char → Option (String × List Char)
  | '"' :: '"' :: '"' :: rest => linesString? .basic rest
  | '\'' :: '\'' :: '\'' :: rest => linesString? .literal rest
  | '"' :: rest => lineString? .basic rest
  | '\'' :: rest => lineString? .literal rest
  | _ => none

/-! ## Numbers -/

/-- A run of digits of a kind; between two digits a separator may stand. -/
def digitRun (isDigit : Char → Bool) : List Char → List Char × List Char
  | '_' :: c :: rest =>
    if isDigit c then
      let (run, rest) := digitRun isDigit rest
      (c :: run, rest)
    else ([], '_' :: c :: rest)
  | c :: rest =>
    if isDigit c then
      let (run, rest) := digitRun isDigit rest
      (c :: run, rest)
    else ([], c :: rest)
  | [] => ([], [])

/-- A run of at least one digit of a kind. -/
def digits? (isDigit : Char → Bool) : List Char → Option (List Char × List Char)
  | c :: rest =>
    if isDigit c then
      let (run, rest) := digitRun isDigit rest
      some (c :: run, rest)
    else none
  | [] => none

def sign : List Char → List Char × List Char
  | '+' :: rest => (['+'], rest)
  | '-' :: rest => (['-'], rest)
  | text => ([], text)

/-- Decimal digits that do not begin with zero, or a zero. -/
def decimal? : List Char → Option (List Char × List Char)
  | '0' :: rest => some (['0'], rest)
  | text => digits? Char.isDigit text

/-- An integer has to be below this bound, and not below its opposite. -/
def integerBound : Int := 9223372036854775808

/-- The number, if it is in range. -/
def inRange? (n : Int) : Option Int :=
  if -integerBound ≤ n ∧ n < integerBound then some n else none

/-- The number written by digits in a base. -/
def inBase (base : Nat) (digits : List Char) : Nat :=
  digits.foldl (fun n c => base * n + (Json.hexValue? c).getD 0) 0

def integer? : List Char → Option (Int × List Char)
  | '0' :: 'x' :: rest => do
    let (run, rest) ← digits? (fun c => (Json.hexValue? c).isSome) rest
    return (← inRange? (inBase 16 run), rest)
  | '0' :: 'o' :: rest => do
    let (run, rest) ← digits? (fun c => '0' ≤ c && c ≤ '7') rest
    return (← inRange? (inBase 8 run), rest)
  | '0' :: 'b' :: rest => do
    let (run, rest) ← digits? (fun c => c == '0' || c == '1') rest
    return (← inRange? (inBase 2 run), rest)
  | text => do
    let (mark, text) := sign text
    let (run, rest) ← decimal? text
    let size : Int := inBase 10 run
    return (← inRange? (if mark = ['-'] then -size else size), rest)

/-- The places after the point of a float. -/
def fraction? : List Char → Option (List Char × List Char)
  | '.' :: rest => (digits? Char.isDigit rest).map fun (run, rest) => ('.' :: run, rest)
  | _ => none

/-- The exponent of a float. -/
def exponent? : List Char → Option (List Char × List Char)
  | mark :: rest =>
    if mark = 'e' ∨ mark = 'E' then
      let (mark, rest) := sign rest
      (digits? Char.isDigit rest).map fun (run, rest) => ('e' :: mark ++ run, rest)
    else none
  | [] => none

/-- A float with digits.  It has a fraction, an exponent or both, and must not exceed what binary
floating point can hold. -/
def digitFloat? (text : List Char) : Option (List Char × List Char) := do
  let (mark, text) := sign text
  let (whole, text) ← decimal? text
  let (tail, rest) ←
    match fraction? text with
    | some (places, text) =>
      match exponent? text with
      | some (power, rest) => some (places ++ power, rest)
      | none => some (places, text)
    | none => exponent? text
  if mark = ['-'] ∨ (Decimal.ofLiteral (whole ++ tail)).isFinite then
    return (mark ++ whole ++ tail, rest)
  else none

/-- A float: digits, an infinity, or none. -/
def float? (text : List Char) : Option (List Char × List Char) :=
  match digitFloat? text with
  | some read => some read
  | none =>
    match sign text with
    | (mark, 'i' :: 'n' :: 'f' :: rest) => some (mark ++ ['i', 'n', 'f'], rest)
    | (mark, 'n' :: 'a' :: 'n' :: rest) => some (mark ++ ['n', 'a', 'n'], rest)
    | _ => none

/-! ## Dates -/

/-- A number of exactly `count` digits, from `low` to `high`. -/
def digitsBetween? (count low high : Nat) (text : List Char) : Option (Nat × List Char) :=
  let run := text.take count
  let n := inBase 10 run
  if run.length = count ∧ run.all Char.isDigit ∧ low ≤ n ∧ n ≤ high then
    some (n, text.drop count)
  else none

/-- The text after a character. -/
def after? (c : Char) : List Char → Option (List Char)
  | d :: rest => if c = d then some rest else none
  | [] => none

def isLeapYear (year : Nat) : Bool :=
  year % 4 == 0 && (year % 100 != 0 || year % 400 == 0)

def daysIn (year month : Nat) : Nat :=
  if month = 2 then if isLeapYear year then 29 else 28
  else if month = 4 ∨ month = 6 ∨ month = 9 ∨ month = 11 then 30
  else 31

/-- The text after a day of the calendar. -/
def day? (text : List Char) : Option (List Char) := do
  let (year, text) ← digitsBetween? 4 0 9999 text
  let (month, text) ← digitsBetween? 2 1 12 (← after? '-' text)
  let (_, text) ← digitsBetween? 2 1 (daysIn year month) (← after? '-' text)
  return text

/-- The text after hours and minutes. -/
def hourAndMinute? (text : List Char) : Option (List Char) := do
  let (_, text) ← digitsBetween? 2 0 23 text
  let (_, text) ← digitsBetween? 2 0 59 (← after? ':' text)
  return text

/-- The text after a time of the day. -/
def time? (text : List Char) : Option (List Char) := do
  let (_, text) ← digitsBetween? 2 0 60 (← after? ':' (← hourAndMinute? text))
  match text with
  | '.' :: rest =>
    if rest.head?.any Char.isDigit then return rest.dropWhile Char.isDigit else return text
  | _ => return text

/-- The text after a distance from world time, if there is one. -/
def offset? : List Char → Option (List Char)
  | 'Z' :: rest => some rest
  | 'z' :: rest => some rest
  | '+' :: rest => hourAndMinute? rest
  | '-' :: rest => hourAndMinute? rest
  | text => some text

/-- The text after a time and a distance, at the end of a date. -/
def timeOfDate? : List Char → Option (List Char)
  | mark :: rest =>
    if mark = 'T' ∨ mark = 't' ∨ mark = ' ' then (time? rest).bind offset? else none
  | [] => none

/-- The text after a date: a day, a time, or both. -/
def dateEnd? (text : List Char) : Option (List Char) :=
  match day? text with
  | some rest => some ((timeOfDate? rest).getD rest)
  | none => time? text

def date? (text : List Char) : Option (List Char × List Char) :=
  (dateEnd? text).map fun rest => (text.take (text.length - rest.length), rest)

end LiveExports.Toml

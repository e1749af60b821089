/-!
# Blanking comments

Comments are replaced by spaces, character for character, so that what is left stands where it
stood.  Text in quotes is passed over: a quoted text ends at its quote, or at the end of the line
unless it is a template; a backslash protects the character after it.
-/

namespace LiveExports.Source

/-- Where in a source a character stands. -/
inductive Place where
  | code
  /-- Inside quotes of the given kind. -/
  | quoted (quote : Char)
  | lineComment
  /-- Inside a block comment that begins on the given line. -/
  | blockComment (line : Nat)
deriving DecidableEq, Repr

/-- The quote that text over several lines is written in. -/
def templateQuote : Char := '\x60'

def isQuote (c : Char) : Bool :=
  c == '\'' || c == '"' || c == templateQuote

/-- What a character of a comment becomes. -/
def blanked (c : Char) : Char :=
  if c = '\n' then '\n' else ' '

/-- The line after a character, given the line it is on. -/
def lineAfter (line : Nat) (c : Char) : Nat :=
  if c = '\n' then line + 1 else line

/-- Blanks the comments of a text that begins at `place` on line `line`.  A block comment that does
not end is an error at the line it begins on. -/
def blankFrom : Place → Nat → List Char → Except Nat (List Char)
  | .blockComment start, _, [] => .error start
  | .code, _, [] => .ok []
  | .quoted _, _, [] => .ok []
  | .lineComment, _, [] => .ok []
  | .code, line, '/' :: '/' :: rest => (blankFrom .lineComment line rest).map ([' ', ' '] ++ ·)
  | .code, line, '/' :: '*' :: rest =>
    (blankFrom (.blockComment line) line rest).map ([' ', ' '] ++ ·)
  | .code, line, c :: rest =>
    (blankFrom (if isQuote c then .quoted c else .code) (lineAfter line c) rest).map (c :: ·)
  | .quoted quote, line, '\\' :: escaped :: rest =>
    (blankFrom (.quoted quote) (lineAfter line escaped) rest).map (['\\', escaped] ++ ·)
  | .quoted quote, line, c :: rest =>
    let ends := c = quote ∨ (c = '\n' ∧ quote ≠ templateQuote)
    (blankFrom (if ends then .code else .quoted quote) (lineAfter line c) rest).map (c :: ·)
  | .lineComment, line, c :: rest =>
    (blankFrom (if c = '\n' then .code else .lineComment) (lineAfter line c) rest).map
      (blanked c :: ·)
  | .blockComment _, line, '*' :: '/' :: rest => (blankFrom .code line rest).map ([' ', ' '] ++ ·)
  | .blockComment start, line, c :: rest =>
    (blankFrom (.blockComment start) (lineAfter line c) rest).map (blanked c :: ·)

/-- The source with its comments blanked, or the line of a block comment that does not end. -/
def blankComments (source : List Char) : Except Nat (List Char) :=
  blankFrom .code 1 source

end LiveExports.Source

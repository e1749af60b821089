/-!
# Taking a text apart

Texts are read as lists of characters.  This module holds the few ways in which the library takes
them apart: a leading literal, blanks at either end, pieces between separators, and words.  Bytes
are taken apart at separators in the same way.

The blanks are the white space of the Unicode standard: the ASCII spaces with the vertical tab and
the form feed, the next-line and no-break characters, and the wider spaces and separators.
-/

namespace LiveExports.Text

/-- White space of any kind, line ends included. -/
def isBlank (c : Char) : Bool :=
  let code := c.toNat
  (9 ≤ code && code ≤ 13) || code == 0x20 || code == 0x85 || code == 0xA0 || code == 0x1680 ||
    (0x2000 ≤ code && code ≤ 0x200A) || code == 0x2028 || code == 0x2029 || code == 0x202F ||
    code == 0x205F || code == 0x3000

/-- What follows `literal` at the head of a text, if it stands there. -/
def after? : List Char → List Char → Option (List Char)
  | [], text => some text
  | _ :: _, [] => none
  | l :: literal, c :: text => if l = c then after? literal text else none

@[simp] theorem after?_append (literal text : List Char) :
    after? literal (literal ++ text) = some text := by
  induction literal with
  | nil => rfl
  | cons l literal ih => simp [after?, ih]

theorem eq_append_of_after? {literal text rest : List Char} (h : after? literal text = some rest) :
    text = literal ++ rest := by
  induction literal generalizing text with
  | nil => simpa [after?] using h
  | cons l literal ih =>
    cases text with
    | nil => simp [after?] at h
    | cons c text =>
      by_cases hc : l = c
      · subst hc
        simp only [after?, if_true] at h
        simp [ih h]
      · simp [after?, hc] at h

/-- The text without the blanks at its head. -/
def trimStart (text : List Char) : List Char :=
  text.dropWhile isBlank

/-- The text without the blanks at its end. -/
def trimEnd (text : List Char) : List Char :=
  (text.reverse.dropWhile isBlank).reverse

/-- The text without the blanks around it. -/
def trim (text : List Char) : List Char :=
  trimEnd (trimStart text)

section Pieces

variable {α : Type}

/-- The pieces between the characters that `separates` picks; there is always at least one. -/
def splitWhen (separates : α → Bool) : List α → List (List α)
  | [] => [[]]
  | c :: text =>
    if separates c then [] :: splitWhen separates text
    else
      match splitWhen separates text with
      | [] => [[c]]
      | first :: others => (c :: first) :: others

/-- The pieces between occurrences of `separator`; there is always at least one. -/
def split [DecidableEq α] (separator : α) (text : List α) : List (List α) :=
  splitWhen (· == separator) text

/-- The pieces with `separator` between them. -/
def join (separator : α) : List (List α) → List α
  | [] => []
  | [piece] => piece
  | piece :: others => piece ++ separator :: join separator others

theorem splitWhen_ne_nil (separates : α → Bool) (text : List α) :
    splitWhen separates text ≠ [] := by
  cases text with
  | nil => simp [splitWhen]
  | cons c text =>
    simp only [splitWhen]
    split
    · simp
    · split <;> simp

/-- Joining the pieces gives the text back. -/
theorem join_split [DecidableEq α] (separator : α) (text : List α) :
    join separator (split separator text) = text := by
  induction text with
  | nil => rfl
  | cons c text ih =>
    unfold split at ih ⊢
    obtain ⟨first, others, hs⟩ :=
      List.exists_cons_of_ne_nil (splitWhen_ne_nil (· == separator) text)
    rw [hs] at ih
    by_cases hc : c = separator
    · subst hc
      simp only [splitWhen, BEq.rfl, if_true, hs, join, List.nil_append, ih]
    · cases others with
      | nil =>
        simp only [join] at ih
        simp [splitWhen, hs, hc, join, ih]
      | cons second others =>
        simp only [join] at ih
        simp [splitWhen, hs, hc, join, ih]

end Pieces

/-- The maximal pieces without blanks. -/
def words (text : List Char) : List (List Char) :=
  (splitWhen isBlank text).filter (! ·.isEmpty)

/-- Every character that is `old` becomes `new`. -/
def replaceChar (old new : Char) (text : List Char) : List Char :=
  text.map fun c => if c = old then new else c

/-- Does `piece` occur in the text? -/
def occursIn (piece : List Char) : List Char → Bool
  | [] => piece.isEmpty
  | c :: text => piece.isPrefixOf (c :: text) || occursIn piece text

theorem occursIn_iff {piece text : List Char} : occursIn piece text = true ↔ piece <:+: text := by
  induction text with
  | nil => simp [occursIn]
  | cons c text ih => simp [occursIn, List.infix_cons_iff, ih]

end LiveExports.Text

/-!
# Decimal numbers and the range of binary floating point

A decimal number is given by its digits, the places after its point and a power of ten.  Binary
floating point has no number for it from a certain size on.  That size can be judged exactly, or
from the leading digits alone: as many as 64 bits hold, rounded, times a rounded power of ten.  The
two judgements differ only close to the limit.
-/

namespace LiveExports

/-- The number written by decimal digits. -/
def naturalOfDigits (digits : List Char) : Nat :=
  digits.foldl (fun n c => 10 * n + (c.toNat - '0'.toNat)) 0

/-- A decimal number without its sign. -/
structure Decimal where
  whole : List Char
  places : List Char
  power : Int

namespace Decimal

/-- The number a literal stands for, its sign left out. -/
def ofLiteral (literal : List Char) : Decimal :=
  let unsigned := if literal.head? = some '-' then literal.tail else literal
  let mantissa := unsigned.takeWhile fun c => c ≠ 'e' ∧ c ≠ 'E'
  let power := unsigned.dropWhile (fun c => c ≠ 'e' ∧ c ≠ 'E') |>.drop 1
  { whole := mantissa.takeWhile (· ≠ '.')
    places := mantissa.dropWhile (· ≠ '.') |>.drop 1
    power :=
      match power with
      | '-' :: digits => -naturalOfDigits digits
      | '+' :: digits => naturalOfDigits digits
      | digits => naturalOfDigits digits }

/-- The least number that is rounded past the largest one of binary floating point. -/
def limit : Nat :=
  Nat.pow 2 1024 - Nat.pow 2 970

/-- Is the number below the limit? -/
def isFinite (number : Decimal) : Bool :=
  let significant := (number.whole ++ number.places).dropWhile (· = '0')
  -- The number is `significant` digits with the point after `pointAfter` of them.
  let pointAfter : Int := number.power - number.places.length + significant.length
  significant.isEmpty || pointAfter < 309 ||
    (pointAfter == 309 &&
      naturalOfDigits ((significant ++ List.replicate 309 '0').take 309) < limit)

/-! ## Judging by the leading digits -/

/-- The nearest number with at most 53 binary digits before its zeros; of two equally near ones, the
even one. -/
def round (n : Nat) : Nat :=
  let unit := Nat.pow 2 (n.log2 - 52)
  let units := n / unit
  let rest := n % unit
  if 2 * rest < unit ∨ (2 * rest = unit ∧ units % 2 = 0) then units * unit else (units + 1) * unit

/-- Appends digits to a number as long as it fits 64 bits, and gives the digits that are left. -/
def fill (leading : Nat) : List Char → Nat × List Char
  | [] => (leading, [])
  | digit :: rest =>
    let longer := 10 * leading + naturalOfDigits [digit]
    if longer < Nat.pow 2 64 then fill longer rest else (leading, digit :: rest)

/-- Is the number below the limit, judged by its leading digits?  A whole digit that is left out
counts as a power of ten, a place that is left out not at all. -/
def isRoughlyFinite (number : Decimal) : Bool :=
  let (leading, wholeLeft) := fill 0 number.whole
  let (leading, placesLeft) := fill leading number.places
  let power : Int :=
    number.power + wholeLeft.length - (number.places.length - placesLeft.length)
  leading == 0 || power < 0 ||
    (power ≤ 308 && round leading * round (Nat.pow 10 power.toNat) < limit)

end Decimal

end LiveExports

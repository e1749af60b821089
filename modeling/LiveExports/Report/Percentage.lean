/-!
# Percentages

A percentage is computed in binary floating point and written with one place after the point.  The
place is the nearest one to the exact value of the binary number; a half goes to the even neighbour.
-/

namespace LiveExports

/-- The quotient, rounded to the nearest whole number, and to the even one of two. -/
def roundedQuotient (n d : Nat) : Nat :=
  let quotient := n / d
  let rest := n % d
  if 2 * rest < d ∨ (2 * rest = d ∧ quotient % 2 = 0) then quotient else quotient + 1

/-- The tenths in a number that is not negative, rounded. -/
def tenths (x : Float) : Nat :=
  let bits := x.toBits.toNat
  let unit := Nat.pow 2 52
  let exponent := bits / unit % 2048
  let fraction := bits % unit
  -- The number is `significand * 2 ^ (power - 1075)`.
  let significand := if exponent = 0 then fraction else unit + fraction
  let power := if exponent = 0 then 1 else exponent
  roundedQuotient (10 * significand * Nat.pow 2 power) (Nat.pow 2 1075)

/-- A number of tenths with a point before the last digit. -/
def showTenths (n : Nat) : String :=
  s!"{n / 10}.{n % 10}"

/-- How much `part` is of `whole`; nothing, if there is no whole. -/
def percentage (part whole : Nat) : Float :=
  if whole = 0 then 0
  else (UInt64.ofNat part).toFloat / (UInt64.ofNat whole).toFloat * 100

end LiveExports

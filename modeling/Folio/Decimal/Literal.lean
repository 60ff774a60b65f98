import Folio.Decimal.Binary64

/-!
# The value of a decimal literal

A literal gives a significand of at most 64 bits and a power of ten.  Its value
is the significand, rounded to a magnitude, times or divided by the power of
ten, rounded again.  Below `10 ^ -308` the division takes two steps.  The two
roundings are part of the rule: the value is not always the magnitude nearest to
the literal.
-/

namespace Folio.Decimal

/-- The largest significand that a literal keeps; digits that would take it
further are not absorbed. -/
def maxSignificand : Nat := twoTo 64 - 1

/-- The largest power of ten that is a finite magnitude. -/
def maxPower : Nat := 308

/-- The numeral of a decimal digit. -/
def digitValue (digit : Char) : Nat := digit.toNat - '0'.toNat

/-- Whether a character is one of the ten decimal digits. -/
def isDigit (c : Char) : Bool := '0' ≤ c && c ≤ '9'

/-- Extend a significand by digits while it stays within 64 bits.  The second
part is what was left over from the first digit that did not fit. -/
def absorb (significand : Nat) (digits : List Char) : Nat × List Char :=
  match digits with
  | [] => (significand, [])
  | digit :: rest =>
      let extended := significand * 10 + digitValue digit
      if extended ≤ maxSignificand then absorb extended rest else (significand, digit :: rest)

namespace Binary64

/-- A power of ten as a magnitude. -/
def powerOfTen? (power : Nat) : Option Binary64 := ofNat? (tenTo power)

/-- Multiply by a power of ten; `none` when the result is not finite. -/
def timesTenTo (x : Binary64) (power : Nat) : Option Binary64 :=
  if power ≤ maxPower then (powerOfTen? power).bind x.mul?
  else if x.isZero then some zero
  else none

/-- Divide by a power of ten.  Beyond `10 ^ 308` the division goes by way of
`10 ^ 308`, and beyond twice that nothing is left of a 64-bit significand. -/
def overTenTo (x : Binary64) (power : Nat) : Option Binary64 :=
  if power ≤ maxPower then (powerOfTen? power).bind x.div?
  else if power ≤ 2 * maxPower then do
    let reduced ← (powerOfTen? maxPower).bind x.div?
    (powerOfTen? (power - maxPower)).bind reduced.div?
  else some zero

/-- The value of a significand times a power of ten. -/
def ofLiteral (significand : Nat) (power : Int) : Option Binary64 := do
  let magnitude ← ofNat? significand
  match power with
  | .ofNat n => magnitude.timesTenTo n
  | .negSucc n => magnitude.overTenTo (n + 1)

end Binary64

end Folio.Decimal

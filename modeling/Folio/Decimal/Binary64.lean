import Folio.Decimal.Power

/-!
# Magnitudes of double-precision numbers

A magnitude is a natural number of at most 53 bits times a power of two; the
smallest step is `2 ^ -1074`.  Everything here is exact arithmetic on natural
numbers: the product, the quotient and the conversion of a natural number are
all one rounding of an exact quotient, to the nearest magnitude and on a tie to
the one with the even mantissa.
-/

namespace Folio.Decimal

/-- The magnitude `mantissa * 2 ^ scale / 2 ^ 1074`. -/
structure Binary64 where
  mantissa : Nat
  scale : Nat
deriving DecidableEq, Inhabited, Repr

namespace Binary64

/-- The number of bits in a mantissa. -/
def precision : Nat := 53

/-- The smallest positive magnitude is one unit, and `2 ^ 1074` units make one. -/
def unitsPerOne : Nat := twoTo 1074

/-- The largest scale; a magnitude that would need a larger one is infinite. -/
def maxScale : Nat := 2045

/-- The magnitude zero. -/
def zero : Binary64 := ⟨0, 0⟩

/-- Whether a magnitude is zero. -/
def isZero (x : Binary64) : Bool := x.mantissa == 0

/-- The magnitude in units of `2 ^ -1074`. -/
def units (x : Binary64) : Nat := x.mantissa * twoTo x.scale

/-- The scale at which a value of so many whole units has a mantissa of at most
53 bits. -/
def scaleFor (wholeUnits : Nat) : Nat := wholeUnits.log2 + 1 - precision

/-- Round a quotient to the nearest natural number, a tie to the even one. -/
def roundDiv (numerator denominator : Nat) : Nat :=
  let quotient := numerator / denominator
  let remainder := numerator % denominator
  if 2 * remainder < denominator then quotient
  else if denominator < 2 * remainder then quotient + 1
  else if quotient % 2 = 0 then quotient else quotient + 1

/-- The magnitude nearest to a quotient of natural numbers; `none` when it lies
beyond the largest finite one. -/
def nearest (numerator denominator : Nat) : Option Binary64 :=
  let scaled := numerator * unitsPerOne
  let scale := scaleFor (scaled / denominator)
  let mantissa := roundDiv scaled (denominator * twoTo scale)
  let rounded : Binary64 :=
    if mantissa = twoTo precision then ⟨twoTo (precision - 1), scale + 1⟩
    else ⟨mantissa, scale⟩
  if rounded.scale ≤ maxScale then some rounded else none

/-- The magnitude nearest to a natural number. -/
def ofNat? (n : Nat) : Option Binary64 := nearest n 1

/-- The rounded product. -/
def mul? (x y : Binary64) : Option Binary64 :=
  nearest (x.units * y.units) (unitsPerOne * unitsPerOne)

/-- The rounded quotient. -/
def div? (x y : Binary64) : Option Binary64 :=
  nearest x.units y.units

end Binary64

end Folio.Decimal

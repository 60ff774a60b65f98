import Folio.Decimal.Binary64

/-!
# The shortest decimal that reads back

The decimals that round to a given magnitude form an interval around it.  For
one, two, three and more digits this module looks at the two neighbours of the
magnitude on the grid of decimals with so many digits; the first grid with a
neighbour inside the interval gives the text of the number, and of two such
neighbours the nearer one is taken.
-/

namespace Folio.Decimal

/-- The decimal `digits * 10 ^ power`. -/
structure Scientific where
  digits : Nat
  power : Int
deriving DecidableEq, Inhabited, Repr

/-- The number of decimal digits of a natural number; zero has one. -/
def digitCount (n : Nat) : Nat := (Nat.toDigits 10 n).length

namespace Binary64

/-- The reals that round to a magnitude, in quarters of a unit.  The ends belong
to them exactly when the mantissa is even. -/
structure Interval where
  low : Nat
  high : Nat
  closed : Bool
deriving DecidableEq, Repr

/-- Half the distance to each neighbouring magnitude around a magnitude.  Just
above a power of two the lower neighbour is twice as near. -/
def interval (x : Binary64) : Interval :=
  let quarters := 4 * x.units
  let above := 2 * twoTo x.scale
  let below := if x.mantissa = twoTo (precision - 1) ∧ 0 < x.scale then twoTo x.scale else above
  ⟨quarters - below, quarters + above, x.mantissa % 2 == 0⟩

/-- The power of ten at or below a positive magnitude. -/
def decimalExponent (x : Binary64) : Int :=
  let whole := x.units / unitsPerOne
  if whole = 0 then
    - (digitCount (unitsPerOne / x.units) : Int)
  else
    (digitCount whole : Int) - 1

/-- A decimal as a quotient of natural numbers, in quarters of a unit. -/
def quartersOf (decimal : Scientific) : Nat × Nat :=
  match decimal.power with
  | .ofNat n => (4 * decimal.digits * tenTo n * unitsPerOne, 1)
  | .negSucc n => (4 * decimal.digits * unitsPerOne, tenTo (n + 1))

/-- Whether a decimal rounds to the magnitude of this interval. -/
def Interval.holds (around : Interval) (decimal : Scientific) : Bool :=
  let (numerator, denominator) := quartersOf decimal
  if around.closed then
    around.low * denominator ≤ numerator && numerator ≤ around.high * denominator
  else
    around.low * denominator < numerator && numerator < around.high * denominator

/-- The decimal below or at a magnitude on the grid of multiples of a power of
ten, and whether the one above is nearer; a tie goes to the even one. -/
def gridBelow (x : Binary64) (power : Int) : Nat × Bool :=
  let (numerator, denominator) :=
    match power with
    | .ofNat n => (x.units, unitsPerOne * tenTo n)
    | .negSucc n => (x.units * tenTo (n + 1), unitsPerOne)
  let quotient := numerator / denominator
  (quotient, quotient < roundDiv numerator denominator)

/-- The nearest decimal with so many digits that rounds to the magnitude. -/
def withDigits (x : Binary64) (around : Interval) (exponent : Int) (count : Nat) :
    Option Scientific :=
  let power := exponent + 1 - count
  let (below, upper) := x.gridBelow power
  let nearer : Scientific := ⟨if upper then below + 1 else below, power⟩
  let farther : Scientific := ⟨if upper then below else below + 1, power⟩
  if around.holds nearer then some nearer
  else if around.holds farther then some farther
  else none

/-- The first digit count, from one upwards, with a decimal that rounds to the
magnitude. -/
def firstWithin (x : Binary64) (around : Interval) (exponent : Int) :
    (attempts count : Nat) → Option Scientific
  | 0, _ => none
  | attempts + 1, count =>
      match x.withDigits around exponent count with
      | some decimal => some decimal
      | none => firstWithin x around exponent attempts (count + 1)

/-- The shortest decimal that rounds to a positive magnitude; seventeen digits
always suffice. -/
def shortest (x : Binary64) : Scientific :=
  (x.firstWithin x.interval x.decimalExponent 17 1).getD ⟨0, 0⟩

end Binary64

end Folio.Decimal

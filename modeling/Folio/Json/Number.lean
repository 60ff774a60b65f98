import Folio.Decimal.Shortest
import Folio.Decimal.Literal

/-!
# JSON numbers and their text

A number is an integer or a double-precision value.  Integers are written in
full.  Other values are written with the fewest digits that read back: with a
point and at least one digit after it while the point falls within sixteen
digits on the right and at most four zeros on the left, and otherwise with an
exponent that carries its sign.
-/

namespace Folio

open Decimal

/-- A JSON number.  Integers lie between `-2 ^ 63` and `2 ^ 64 - 1`. -/
inductive Number where
  | integer (value : Int)
  | float (negative : Bool) (magnitude : Binary64)
deriving DecidableEq, Inhabited, Repr

namespace Number

/-- Whether two numbers are equal as values: the two zeros are, an integer and a
floating-point number never. -/
def same : Number → Number → Bool
  | .integer a, .integer b => a == b
  | .float s x, .float t y => x == y && (s == t || x.isZero)
  | _, _ => false

/-- How the shortest decimal of a number is written: the first place of the
decimal point that needs an exponent on either side, and the two signs of an
exponent. -/
structure Style where
  maxPoint : Int
  minPoint : Int
  plus : List Char
  minus : List Char

/-- Numbers from `1e16` up and below `1e-5` have an exponent, and a positive
exponent carries a plus sign. -/
def standard : Style := ⟨16, -4, ['+'], ['-']⟩

/-- The decimal digits of a natural number. -/
def naturalText (n : Nat) : List Char := Nat.toDigits 10 n

/-- The decimal digits of an integer after its sign. -/
def integerText : Int → List Char
  | .ofNat n => naturalText n
  | .negSucc n => '-' :: naturalText (n + 1)

/-- The digits of a number without the zeros at its end. -/
def significantDigits (n : Nat) : List Char :=
  ((naturalText n).reverse.dropWhile (· == '0')).reverse

/-- An exponent after its letter and sign. -/
def exponentText (style : Style) (exponent : Int) : List Char :=
  'e' :: (if exponent < 0 then style.minus else style.plus) ++ naturalText exponent.natAbs

/-- Write the digits of a decimal whose point stands after the first `point` of
them. -/
def place (style : Style) (digits : List Char) (point : Int) : List Char :=
  if style.maxPoint < point ∨ point < style.minPoint then
    let mantissa :=
      match digits with
      | [] => ['0']
      | [single] => [single]
      | first :: rest => first :: '.' :: rest
    mantissa ++ exponentText style (point - 1)
  else if point ≤ 0 then
    '0' :: '.' :: List.replicate point.natAbs '0' ++ digits
  else
    let whole := digits.take point.toNat
    let fraction := digits.drop point.toNat
    whole ++ List.replicate (point.toNat - whole.length) '0' ++
      '.' :: (if fraction.isEmpty then ['0'] else fraction)

/-- The text of a magnitude. -/
def magnitudeText (style : Style) (x : Binary64) : List Char :=
  if x.isZero then ['0', '.', '0']
  else
    let decimal := x.shortest
    place style (significantDigits decimal.digits) (digitCount decimal.digits + decimal.power)

/-- The text of a number. -/
def chars : Number → List Char
  | .integer value => integerText value
  | .float negative magnitude =>
      (if negative then ['-'] else []) ++ magnitudeText standard magnitude

/-- The text of a number as a string. -/
def text (number : Number) : String := String.ofList number.chars

end Number

end Folio

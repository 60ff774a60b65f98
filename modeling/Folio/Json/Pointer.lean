import Folio.Json.Basic
import Folio.Decimal.Literal

/-!
# Pointers into JSON values

A pointer is a list of steps, each behind a slash.  A step names a member of an
object or, in decimal without leading zeros, an item of an array.  Inside a step
`~1` stands for a slash and `~0` for a tilde.
-/

namespace Folio.Json

open Decimal

/-- Replace each pair of neighbouring characters by one character, from the left.
-/
def replacePair (first second replacement : Char) : List Char → List Char
  | [] => []
  | [c] => [c]
  | a :: b :: rest =>
      if a = first ∧ b = second then replacement :: replacePair first second replacement rest
      else a :: replacePair first second replacement (b :: rest)

/-- The step that a piece of a pointer stands for. -/
def unescapeStep (piece : List Char) : List Char :=
  replacePair '~' '0' '~' (replacePair '~' '1' '/' piece)

/-- The steps of a pointer behind its first slash. -/
def pointerSteps (pointer : List Char) : List String :=
  (pointer.splitOn '/').map fun piece => String.ofList (unescapeStep piece)

/-- The index that a step stands for. -/
def indexOfStep? (step : List Char) : Option Nat :=
  if step = [] ∨ ¬ step.all isDigit then none
  else if step.head? = some '0' ∧ step ≠ ['0'] then none
  else some (step.foldl (fun value digit => value * 10 + digitValue digit) 0)

/-- Take one step into a value. -/
def stepInto? (value : Json) (step : String) : Option Json :=
  match value with
  | .object members => Fields.get? members step
  | .array items => (indexOfStep? step.toList).bind (items[·]?)
  | _ => none

/-- The value that steps lead to. -/
def walk? (value : Json) : (steps : List String) → Option Json
  | [] => some value
  | step :: rest => (stepInto? value step).bind fun inner => walk? inner rest

end Folio.Json

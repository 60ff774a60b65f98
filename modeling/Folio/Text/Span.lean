/-!
# Sets of characters as spans

A set of characters is a list of spans of code points in ascending order.
-/

namespace Folio.Text

/-- Whether a code point lies in one of the spans, which ascend. -/
def within (point : Nat) : List (Nat × Nat) → Bool
  | [] => false
  | (first, last) :: rest =>
      if point < first then false
      else if point ≤ last then true
      else within point rest

end Folio.Text

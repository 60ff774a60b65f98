import Folio.Text.Search
import Folio.Text.Width

/-!
# Paths

The text of a path is made of pieces between slashes, each a step from one
directory to the next.  A text that starts with a slash leads from the root of the
volume; any other text leads from the directory where its reader stands.
-/

namespace Folio

open Text

/-- A path: the names that lead from the root to where it starts, and its steps.
-/
structure Path where
  start : List String
  steps : List String
deriving DecidableEq, Inhabited, Repr

namespace Path

/-- The path of a text for a reader who stands where names lead from the root. -/
def ofText (here : List String) (text : String) : Path :=
  ⟨if text.toList.head? = some '/' then [] else here, piecesBetween '/' text⟩

/-- Whether the text of a path is empty. -/
def isEmpty (path : Path) : Bool := path.steps = [""]

/-- The number of bytes in the text of a path: of its steps and of the slashes between
them. -/
def size (path : Path) : Nat :=
  path.steps.foldr (fun step rest => width step.toList + 1 + rest) 0 - 1

/-- Go on from the end of a path; a slash at its end is not doubled. -/
def join (path : Path) (name : String) : Path :=
  let steps := if path.steps.getLast? = some "" then path.steps.dropLast else path.steps
  ⟨path.start, steps ++ [name]⟩

example : (ofText ["a"] "b//c").start = ["a"] ∧ (ofText ["a"] "b//c").steps = ["b", "", "c"] ∧
    (ofText ["a"] "b//c").size = 4 := by
  decide +kernel

example : (ofText ["a"] "/").join "b" = ofText ["a"] "/b" ∧
    (ofText ["a"] "").join "b" = ofText ["a"] "b" := by
  decide +kernel

end Path

end Folio

import Folio.Selection.Basic

/-!
# Writing selections

The canonical text of a selection has a comma between two fields, a group in
parentheses behind a colon, and no blanks.
-/

namespace Folio

mutual

/-- The text that follows the name of a field. -/
def Field.chars : Field → List Char
  | .leaf => []
  | .group sub => [':', '('] ++ Selection.chars sub ++ [')']
termination_by structural field => field

/-- The canonical text of a selection. -/
def Selection.chars : List (String × Field) → List Char
  | [] => []
  | [(name, field)] => name.toList ++ Field.chars field
  | (name, field) :: next :: rest =>
      name.toList ++ Field.chars field ++ ',' :: Selection.chars (next :: rest)
termination_by structural selection => selection

end

namespace Selection

/-- The canonical text of a selection as a string. -/
def text (selection : Selection) : String := String.ofList (chars selection)

end Selection

end Folio

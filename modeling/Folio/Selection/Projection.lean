import Folio.Json.Basic
import Folio.Selection.Basic

/-!
# Projections

The projection of a document to a selection is an object with the selected
fields that the document has, in the order of the selection.  A field that is
taken whole is copied.  A group goes into an object, and into every item of an
array except the empty objects among them; any other value gives an empty object.

A document that is not empty but has an empty projection shares nothing with the
selection.
-/

namespace Folio.Selection

mutual

/-- What a selection takes of a field's value. -/
def projectField (value : Json) : Field → Json
  | .leaf => value
  | .group sub =>
      match value with
      | .array items =>
          .array ((items.filter fun item => !item.isEmptyObject).map fun item =>
            .object (projectMembers (item.object?.getD []) sub))
      | other => .object (projectMembers (other.object?.getD []) sub)
termination_by structural field => field

/-- The selected members of an object. -/
def projectMembers (members : Fields Json) : List (String × Field) → List (String × Json)
  | [] => []
  | (name, field) :: rest =>
      match Fields.get? members name with
      | some value => (name, projectField value field) :: projectMembers members rest
      | none => projectMembers members rest
termination_by structural entries => entries

end

/-- The projection of a document to a selection. -/
def project (selection : Selection) (document : Json) : Json :=
  .object (projectMembers (document.object?.getD []) selection)

/-- Whether a document holds nothing that a selection could take. -/
def isVacant : Json → Bool
  | .object members => members.isEmpty
  | .null => true
  | _ => false

/-- Whether a document is not vacant but shares no field with a selection. -/
def mismatches (selection : Selection) (document : Json) : Bool :=
  !isVacant document && (selection.project document).isEmptyObject

end Folio.Selection

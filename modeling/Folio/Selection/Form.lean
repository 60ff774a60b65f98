import Folio.Selection.Reader

/-!
# The JSON form of a selection

In JSON a selection is an object with `true` for a field that is taken whole and
an object for a group.  When a selection is read from JSON its text is accepted
as well.  A selection is serialized by writing its entries into an object one after
the other, and deserialized as it is read from JSON.
-/

namespace Folio.Selection

mutual

/-- The JSON form of a field. -/
def fieldToJson : Field → Json
  | .leaf => .bool true
  | .group sub => .object (entriesToJson sub)
termination_by structural field => field

/-- The members of the JSON form of a selection. -/
def entriesToJson : List (String × Field) → List (String × Json)
  | [] => []
  | (name, field) :: rest => (name, fieldToJson field) :: entriesToJson rest
termination_by structural entries => entries

end

/-- The JSON form of a selection. -/
def toJson (selection : Selection) : Json := .object (entriesToJson selection)

mutual

/-- Read a field from a member of the JSON form of a selection. -/
def ofMember (whole : Fields Json) (name : String) : Json → Except Malformed Field
  | .bool true => .ok .leaf
  | .object members => (ofMembers members [] members).map .group
  | value => .error ⟨(Json.object whole).text, .memberShape name value⟩
termination_by structural value => value

/-- Read the entries of a selection from the members of its JSON form. -/
def ofMembers (whole : Fields Json) (sofar : Selection) :
    List (String × Json) → Except Malformed Selection
  | [] => .ok sofar
  | (name, value) :: rest => do
      let field ← ofMember whole name value
      let extended ← insert sofar name field
      ofMembers whole extended rest
termination_by structural members => members

end

/-- Read a selection from its text or from its JSON form. -/
def ofJson : Json → Except Malformed Selection
  | .string text => read text
  | .object members => ofMembers members [] members
  | value => .error ⟨value.text, .valueShape⟩

mutual

/-- The value that a field is serialized as. -/
def serializeField : Field → Json
  | .leaf => .bool true
  | .group sub => .object (serializeEntries [] sub)
termination_by structural field => field

/-- Write entries behind members, one after the other. -/
def serializeEntries (sofar : Fields Json) : List (String × Field) → Fields Json
  | [] => sofar
  | (name, field) :: rest =>
      serializeEntries (Fields.put sofar name (serializeField field)) rest
termination_by structural entries => entries

end

/-- The value that a selection is serialized as. -/
def serialize (selection : Selection) : Json := .object (serializeEntries [] selection)

/-- Deserialize a selection from a value; a refusal is passed on as its wording. -/
def deserialize (value : Json) : Except String Selection :=
  (ofJson value).mapError Malformed.message

end Folio.Selection

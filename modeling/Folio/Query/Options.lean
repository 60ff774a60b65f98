import Folio.Filter.Basic
import Folio.Json.Record
import Folio.Selection.Form

/-!
# What is asked of a collection

A query asks for one document by its id, or for the documents that match all
filters, as ids or in full.  The fields wanted of each document are given as the
text of a selection or as a selection; a text is only read when the query is
answered.
-/

namespace Folio

/-- A selection as it is given: as a text, which need not be well formed, or as a
selection. -/
inductive GivenSelection where
  | text (source : String)
  | tree (selection : Selection)
deriving Inhabited, Repr

/-- The selection that is meant. -/
def GivenSelection.resolve : GivenSelection → Except Selection.Malformed Selection
  | .text source => Selection.read source
  | .tree selection => .ok selection

/-- What is asked of a collection. -/
structure Query where
  id : Option String := none
  filters : List Filter := []
  fields : Option GivenSelection := none
  includeDocuments : Bool := false
deriving Inhabited, Repr

namespace Query

/-- Ask for one document. -/
def byId (id : String) : Query := { id := some id, includeDocuments := true }

/-- Ask for the ids of all documents. -/
def all : Query := {}

end Query

/-! ## JSON forms -/

namespace Filter

/-- The JSON form of a filter. -/
def toJson (filter : Filter) : Json :=
  .object [("property", .string filter.property), ("match", .string filter.operator.symbol),
    ("filter", .string filter.value)]

/-- Read a filter from JSON. -/
def ofJson? (value : Json) : Option Filter := do
  match ← value.record? ["property", "match", "filter"] with
  | [property, operator, text] =>
      return ⟨← Json.required Json.string? property,
        Operator.ofSymbol (← Json.required Json.string? operator),
        ← Json.required Json.string? text⟩
  | _ => none

end Filter

namespace GivenSelection

/-- The JSON form: a string for a text, an object for a selection. -/
def toJson : GivenSelection → Json
  | .text source => .string source
  | .tree selection => selection.serialize

/-- Read from JSON; a string stays a text, whether or not it is well formed. -/
def ofJson? : Json → Option GivenSelection
  | .string source => some (.text source)
  | value => (Selection.ofJson value).toOption.map .tree

end GivenSelection

namespace Query

/-- The JSON form of a query. -/
def toJson (query : Query) : Json :=
  .object [("id", Json.ofOption .string query.id),
    ("filters", .array (query.filters.map Filter.toJson)),
    ("fields", Json.ofOption GivenSelection.toJson query.fields),
    ("include_docs", .bool query.includeDocuments)]

/-- Read a query from JSON; every field may be missing. -/
def ofJson? (value : Json) : Option Query := do
  match ← value.record? ["id", "filters", "fields", "include_docs"] with
  | [id, filters, fields, includeDocuments] =>
      return {
        id := ← Json.defaulted none (Json.nullable Json.string?) id
        filters := ← Json.defaulted [] (Json.listOf Filter.ofJson?) filters
        fields := ← Json.defaulted none (Json.nullable GivenSelection.ofJson?) fields
        includeDocuments := ← Json.defaulted false Json.bool? includeDocuments }
  | _ => none

end Query

end Folio

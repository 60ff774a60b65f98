import Folio.Digest.Blake3
import Folio.Json.Printer
import Folio.Json.Record
import Folio.Selection.Form
import Folio.Store.View
import Folio.Text.Slug

/-!
# How a collection is set up

A collection has a name, possibly a schema, and a way to mint ids for documents
that come without one.  A document with a public id is stored under a key made
of the name of the collection, a hyphen and the id; a design document under a key
of its own declares the views of the collection.
-/

namespace Folio

open Text Digest

/-- How an id is minted: from the time and the document, or from a field of the
document. -/
inductive IdStrategy where
  | timestamped
  | field (name : String)
deriving DecidableEq, Inhabited, Repr

namespace IdStrategy

/-- The time in milliseconds and the stamp of the document. -/
def timestampedId (now : Nat) (document : Json) : String :=
  String.ofList (Nat.toDigits 10 now ++ '-' :: (stamp document.text).toList)

/-- Mint an id for a document.  A field that is not a string, or whose slug is
empty, does not serve. -/
def mint (strategy : IdStrategy) (now : Nat) (document : Json) : String :=
  match strategy with
  | .timestamped => timestampedId now document
  | .field name =>
      match (document.stringMember? name).map slug with
      | some word => if word = "" then timestampedId now document else word
      | none => timestampedId now document

/-- The JSON form of a strategy. -/
def toJson : IdStrategy → Json
  | .timestamped => .string "timestamped"
  | .field name => .object [("field", .string name)]

/-- Read a strategy from JSON. -/
def ofJson? : Json → Option IdStrategy
  | .string "timestamped" => some .timestamped
  | .object [("timestamped", .null)] => some .timestamped
  | .object [("field", .string name)] => some (.field name)
  | _ => none

end IdStrategy

/-- How a collection is set up. -/
structure CollectionConfig where
  name : String
  schema : Option Selection := none
  ids : IdStrategy := .timestamped
deriving Inhabited, Repr

namespace CollectionConfig

/-- The key under which the document with a public id is stored. -/
def privateId (config : CollectionConfig) (id : String) : String :=
  config.name ++ "-" ++ id

/-- What the keys of the collection start with. -/
def keyStart (config : CollectionConfig) : String := config.name ++ "-"

/-- The public id of a key, if it belongs to the collection. -/
def publicId? (config : CollectionConfig) (key : String) : Option String :=
  after? config.keyStart key

/-- The key of the design document. -/
def designId (config : CollectionConfig) : String := designKey config.name

/-- The JSON form of a set-up. -/
def toJson (config : CollectionConfig) : Json :=
  .object [("collection", .string config.name),
    ("fields", Json.ofOption Selection.serialize config.schema), ("id", config.ids.toJson)]

/-- Read a set-up from JSON; only the name of the collection is required. -/
def ofJson? (value : Json) : Option CollectionConfig := do
  match ← value.record? ["collection", "fields", "id"] with
  | [name, schema, ids] =>
      return {
        name := ← Json.required Json.string? name
        schema := ← Json.defaulted none
          (Json.nullable fun given => (Selection.ofJson given).toOption) schema
        ids := ← Json.defaulted .timestamped IdStrategy.ofJson? ids }
  | _ => none

end CollectionConfig

end Folio

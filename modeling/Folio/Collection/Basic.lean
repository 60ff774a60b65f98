import Folio.Collection.Config
import Folio.Query.Found
import Folio.Query.Options
import Folio.Selection.Printer
import Folio.Selection.Projection
import Folio.Store.Access

/-!
# Collections of documents

A collection gives its documents public ids.  Readers see a document without what
belongs to the store and with its public id in front; writers give a document
with or without an id, and only what the schema selects of it is stored.

Operations run against a store and may change it also when they fail: the store
is the state of a session.
-/

namespace Folio

/-- Why a collection refuses. -/
inductive QueryError where
  | malformed (refusal : Selection.Malformed)
  | mismatch (document expected : String)
  | notFound (collection id : String)
  | store (error : StoreError)
deriving Inhabited, Repr

/-- The wording of a refusal. -/
def QueryError.message : QueryError → String
  | .malformed refusal => refusal.message
  | .mismatch document expected => s!"entry {document} does not match model {expected}"
  | .notFound collection id => s!"no {collection} with id {id} found"
  | .store error => error.message

/-- A collection: how it is set up, and the id of the n-th document that comes
without one. -/
structure Collection where
  config : CollectionConfig
  mint : Nat → Json → String

/-- What a collection works on: its store, and how many ids were minted. -/
structure Desk (σ : Type) where
  store : σ
  minted : Nat := 0
deriving Inhabited

/-- An operation of a collection. -/
abbrev Session (σ : Type) := ExceptT QueryError (StateM (Desk σ))

namespace Session

variable {σ : Type} [DocumentStore σ]

/-- The document under a key, if the store has one. -/
def lookUp (key : String) : Session σ (Option Json) := fun desk =>
  match DocumentStore.get desk.store key with
  | (.ok document, store) => (.ok (some document), { desk with store })
  | (.error (.notFound _), store) => (.ok none, { desk with store })
  | (.error error, store) => (.error (.store error), { desk with store })

/-- Write a document under a key. -/
def write (document : Json) (key : String) : Session σ Ack := fun desk =>
  match DocumentStore.insert desk.store document key with
  | (.ok ack, store) => (.ok ack, { desk with store })
  | (.error error, store) => (.error (.store error), { desk with store })

/-- The rows of a view. -/
def rows (collection view : String) (options : ViewOptions) :
    Session σ (List ViewRow) := fun desk =>
  match DocumentStore.view desk.store collection view options with
  | (.ok rows, store) => (.ok rows, { desk with store })
  | (.error error, store) => (.error (.store error), { desk with store })

/-- Mint an id. -/
def mintId (mint : Nat → Json → String) (document : Json) : Session σ String := fun desk =>
  (.ok (mint desk.minted document), { desk with minted := desk.minted + 1 })

/-- Refuse. -/
def refuse {α : Type} (error : QueryError) : Session σ α := fun desk => (.error error, desk)

end Session

/-- The name of the view of all documents of a collection. -/
def findAllView : String := "findAll"

namespace Collection

open Session

variable {σ : Type} [DocumentStore σ]

/-- The refusal for a document that does not fit the collection. -/
def mismatch (collection : Collection) (document : Json) : QueryError :=
  .mismatch document.text (match collection.config.schema with
    | some schema => schema.text
    | none => "an object")

/-- The refusal for an id that is not bound. -/
def notFound (collection : Collection) (id : String) : QueryError :=
  .notFound collection.config.name id

/-! ## Setting up -/

/-- The design document that declares the view of all documents. -/
def design (collection : Collection) : Fields Json :=
  [("views", .object [(findAllView, .object [("prefix", .string collection.config.keyStart)])])]

/-- Write the design document, replacing the one that is there. -/
def prepare (collection : Collection) : Session σ Unit := do
  let existing ← lookUp collection.config.designId
  let design :=
    match existing.bind (Json.member? · revisionMember) with
    | some revision => Fields.put collection.design revisionMember revision
    | none => collection.design
  let _ ← write (.object design) collection.config.designId
  return ()

/-! ## Reading -/

/-- Take away what belongs to the store. -/
def withoutPrivate (members : Fields Json) : Fields Json :=
  privateMembers.foldl Fields.erase members

/-- What a reader sees of a stored document, if it belongs to the collection. -/
def published? (collection : Collection) : Json → Option Json
  | .object members => do
      let key ← (Fields.get? members idMember).bind Json.string?
      let id ← collection.config.publicId? key
      return .object (("id", .string id) :: Fields.erase (withoutPrivate members) "id")
  | _ => none

/-- Narrow a document to the fields that are wanted. -/
def narrow (fields : Option Selection) (document : Json) : Json :=
  match fields with
  | some selection => selection.project document
  | none => document

/-- The selection that a query asks for. -/
def wanted (query : Query) : Session σ (Option Selection) :=
  match query.fields with
  | none => pure none
  | some given =>
      match given.resolve with
      | .ok selection => pure (some selection)
      | .error refusal => refuse (.malformed refusal)

/-- The document with a public id. -/
def fetchOne (collection : Collection) (id : String) : Session σ Json := do
  let found ← rows collection.config.name findAllView
    { key := some (collection.config.privateId id), includeDocuments := true }
  match found.head?.bind fun row => collection.published? row.content with
  | some document => pure document
  | none => refuse (collection.notFound id)

/-- All documents of the collection. -/
def fetchAll (collection : Collection) : Session σ (List Json) := do
  let found ← rows collection.config.name findAllView {}
  return found.filterMap fun row => collection.published? row.content

/-- Answer a query.  One document is never filtered; all others are filtered
before they are narrowed. -/
def find (collection : Collection) (query : Query) : Session σ Found := do
  let fields ← wanted query
  match query.id with
  | some id =>
      let document ← collection.fetchOne id
      return .document (narrow fields document)
  | none =>
      let documents ← collection.fetchAll
      let kept := Filter.keep query.filters documents
      if query.includeDocuments then
        return .documents (kept.map (narrow fields))
      else
        return .ids (kept.filterMap (Json.stringMember? · "id"))

/-! ## Writing -/

/-- What an entry says about its id. -/
inductive GivenId where
  | absent
  | given (id : String)
  | unusable (value : Json)

/-- The id that an entry gives: a string, or a number as its text. -/
def givenId : Option Json → GivenId
  | none => .absent
  | some .null => .absent
  | some (.string id) => .given id
  | some (.number value) => .given value.text
  | some value => .unusable value

/-- What is stored of an entry: the part that the schema selects. -/
def admitted (collection : Collection) (payload : Fields Json) : Except QueryError (Fields Json) :=
  match collection.config.schema with
  | none => .ok payload
  | some schema =>
      if schema.mismatches (.object payload) then .error (collection.mismatch (.object payload))
      else .ok (Selection.projectMembers payload schema)

/-- Write the members of a document under a public id, replacing the revision
that is given. -/
def store (collection : Collection) (members : Fields Json) (id : String)
    (revision : Option Json) : Session σ String := do
  let named := Fields.put members "id" (.string id)
  let document :=
    match revision with
    | some revision => Fields.put named revisionMember revision
    | none => named
  let _ ← write (.object document) (collection.config.privateId id)
  return id

/-- Save the members of an entry, without its id, under a public id or under one
that is minted. -/
def saveAs (collection : Collection) (id : Option String) (body : Fields Json) :
    Session σ String := do
  match collection.admitted (withoutPrivate body) with
  | .error refusal => refuse refusal
  | .ok members =>
      match id with
      | some id =>
          let existing ← lookUp (collection.config.privateId id)
          collection.store members id (existing.bind (Json.member? · revisionMember))
      | none =>
          let id ← mintId collection.mint (.object members)
          collection.store members id none

/-- Save an entry and answer its public id. -/
def save (collection : Collection) (entry : Json) : Session σ String :=
  match entry with
  | .object members =>
      let body := Fields.erase members "id"
      match givenId (Fields.get? members "id") with
      | .absent => collection.saveAs none body
      | .given id => collection.saveAs (some id) body
      | .unusable value => refuse (collection.mismatch (.object (Fields.put body "id" value)))
  | other => refuse (collection.mismatch other)

/-- Mark the document with a public id as deleted. -/
def delete (collection : Collection) (id : String) : Session σ Unit := do
  let key := collection.config.privateId id
  match ← lookUp key with
  | none => refuse (collection.notFound id)
  | some document =>
      let marked := Fields.put (document.object?.getD []) deletedMember (.bool true)
      let _ ← write (.object marked) key
      return ()

end Collection

end Folio

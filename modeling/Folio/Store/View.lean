import Folio.Json.Pointer
import Folio.Json.Record
import Folio.Store.Basic

/-!
# Views of the store

A design document declares views.  A view selects the documents whose key starts
with the text given for it, in the order of the keys.
-/

namespace Folio

open Text

/-- A row of a view. -/
structure ViewRow where
  id : String
  key : String
  value : Json
  document : Option Json
deriving Inhabited, Repr

/-- The document of a row, which is its value unless it brings another one. -/
def ViewRow.content (row : ViewRow) : Json := row.document.getD row.value

/-- Read a row from JSON; only the document may be missing. -/
def ViewRow.ofJson? (value : Json) : Option ViewRow := do
  match ← value.record? ["id", "key", "value", "doc"] with
  | [id, key, content, document] =>
      return ⟨← Json.required Json.string? id, ← Json.required Json.string? key,
        ← Json.required some content,
        ← Json.defaulted none (Json.nullable some) document⟩
  | _ => none

/-- What is asked of a view: one key only, and the documents beside the values.
-/
structure ViewOptions where
  key : Option String := none
  includeDocuments : Bool := false
deriving Inhabited, Repr

/-- The key of the design document of a collection. -/
def designKey (collection : String) : String := "_design/" ++ collection

/-- The text with which the keys of a view start, as a design document gives it.
The name of the view is spliced into a pointer. -/
def Json.viewStart? (design : Json) (view : String) : Option String :=
  (design.walk? (Json.pointerSteps ("views/".toList ++ view.toList ++ "/prefix".toList))).bind
    Json.string?

namespace Store

/-- The entries from the first one whose key is not below a text, as long as the keys
start with that text. -/
def scan (store : Store) (start : String) : List (String × Json) :=
  (store.entries.dropWhile fun (key, _) => key < start).takeWhile fun (key, _) =>
    startsWith start key

/-- The rows for the documents whose key starts with a text. -/
def rowsFrom (store : Store) (start : String) (options : ViewOptions) : List ViewRow :=
  ((store.scan start).filter fun (key, document) =>
      !document.isDeleted && options.key.all (· == key)).map
    fun (key, document) =>
      ⟨key, key, document, if options.includeDocuments then some document else none⟩

/-- The rows of a view of a collection. -/
def view (store : Store) (collection view : String) (options : ViewOptions) :
    Except StoreError (List ViewRow) :=
  match store.live? (designKey collection) with
  | none => .error (.notFound (designKey collection))
  | some design =>
      match design.viewStart? view with
      | none => .error (.notFound (designKey collection ++ "/" ++ view))
      | some start => .ok (store.rowsFrom start options)

end Store

end Folio

import Folio.Json.Basic

/-!
# Answers to queries

A query is answered with one document, with documents, or with their ids.
-/

namespace Folio

/-- The answer to a query. -/
inductive Found where
  | document (value : Json)
  | documents (values : List Json)
  | ids (values : List String)
deriving Inhabited, Repr

namespace Found

/-- The document of an answer with one document. -/
def document? : Found → Option Json
  | .document value => some value
  | _ => none

/-- The documents of an answer with documents. -/
def documents? : Found → Option (List Json)
  | .documents values => some values
  | _ => none

/-- The ids of an answer with ids. -/
def ids? : Found → Option (List String)
  | .ids values => some values
  | _ => none

/-- The JSON form of an answer: the document itself, or an array. -/
def toJson : Found → Json
  | .document value => value
  | .documents values => .array values
  | .ids values => .array (values.map .string)

end Found

end Folio

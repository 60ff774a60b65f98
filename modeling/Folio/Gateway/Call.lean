import Folio.Collection.Basic
import Folio.Filter.Parameter
import Folio.Gateway.MediaType
import Folio.Gateway.Request
import Folio.Gateway.Route
import Folio.Gateway.Tally
import Folio.Json.Reader

/-!
# From requests to calls

A request is either turned away or leads to a call of an operation.  What a call
needs is read from the request in a fixed order: the id, the query, the body.
-/

namespace Folio

/-- A call of an operation. -/
inductive Call where
  | list (parameters : List (String × String))
  | read (id : String) (fields : Option String)
  | create (entry : Json)
  | update (id : String) (entry : Json)
  | delete (id : String)
deriving Inhabited, Repr

/-- What a request comes to.  `preflight` is a question about what is allowed;
`refused` turns the request away with a status. -/
inductive Intake where
  | preflight
  | health
  | metrics
  | call (call : Call)
  | refused (status : Nat)
deriving Inhabited, Repr

namespace Call

/-- The operation of a call. -/
def operation : Call → Operation
  | .list _ => .list
  | .read _ _ => .read
  | .create _ => .create
  | .update _ _ => .update
  | .delete _ => .delete

/-! ## Parameters of the query -/

/-- The name of the parameter with the fields that are wanted. -/
def fieldsParameter : String := "fields"

/-- The name of the parameter that asks for documents instead of ids. -/
def includeParameter : String := "include_docs"

/-- Whether the value of a parameter asks for something: only two values do not.
-/
def asks (value : String) : Bool := !(value = "false" || value = "0")

/-- The values of the parameters with a name. -/
def valuesOf (name : String) (parameters : List (String × String)) : List String :=
  (parameters.filter fun parameter => parameter.1 = name).map Prod.snd

/-- The parameters that are meant as filters. -/
def filterParameters (parameters : List (String × String)) : List (String × String) :=
  parameters.filter fun (name, _) => name ≠ fieldsParameter ∧ name ≠ includeParameter

/-- The query that parameters stand for; of repeated parameters the last one
counts. -/
def queryOf (schema : Option Selection) (parameters : List (String × String)) : Query where
  filters := Filter.ofParameters schema (filterParameters parameters)
  fields := (valuesOf fieldsParameter parameters).getLast?.map .text
  includeDocuments := (valuesOf includeParameter parameters).getLast?.any asks

/-! ## Taking requests in -/

/-- The id that a path captured.  Any other number of captures than one is a
fault of the set-up. -/
def idOf (captures : List (List Char)) : Except Nat String :=
  match captures.mapM Route.captured? with
  | none => .error 400
  | some [id] => .ok id
  | some _ => .error 500

/-- The largest number of bytes in the body of a request. -/
def maxBodySize : Nat := 2097152

/-- The entry in the body of a request.  Its media type has to stand for JSON;
what follows the value is ignored.  An embedded text is at fault in a way of its own.
-/
def entryOf (request : Request) : Except Nat Json :=
  if ¬ MediaType.headerIsJson request.contentType then .error 415
  else if maxBodySize < request.body.bytes.size then .error 413
  else
    match Json.Reader.leading request.body.text.toList with
    | .ok (entry, _) => .ok entry
    | .error error => .error (if error.isInEmbedding then 422 else 400)

/-- The fields that a request for one document asks for, at most once. -/
def fieldsOf (request : Request) : Except Nat (Option String) :=
  match valuesOf fieldsParameter request.parameters with
  | [] => .ok none
  | [fields] => .ok (some fields)
  | _ => .error 400

/-- The call that a request for a collection comes to. -/
def onCollection (request : Request) : Except Nat Call :=
  match request.method with
  | .get | .head => .ok (.list request.parameters)
  | .post => return .create (← entryOf request)
  | _ => .error 405

/-- The call that a request for a document comes to. -/
def onDocument (request : Request) (captures : List (List Char)) : Except Nat Call :=
  match request.method with
  | .get | .head => do
      let id ← idOf captures
      return .read id (← fieldsOf request)
  | .put => do
      let id ← idOf captures
      return .update id (← entryOf request)
  | .delete => return .delete (← idOf captures)
  | _ => .error 405

end Call

namespace Intake

/-- A call, or the status that turns the request away. -/
def ofAttempt : Except Nat Call → Intake
  | .ok asked => .call asked
  | .error status => .refused status

/-- Answer a request only if it reads. -/
def ifReading (request : Request) (intake : Intake) : Intake :=
  match request.method with
  | .get | .head => intake
  | _ => .refused 405

/-- What a request to a collection comes to. -/
def ofRequest (collection : String) (request : Request) : Intake :=
  if request.method = .options then .preflight
  else
    match Route.find? collection request.path with
    | none => .refused 404
    | some .health => ifReading request .health
    | some .metrics => ifReading request .metrics
    | some .collection => ofAttempt (Call.onCollection request)
    | some (.document captures) => ofAttempt (Call.onDocument request captures)

end Intake

end Folio

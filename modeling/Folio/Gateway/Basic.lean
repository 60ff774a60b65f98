import Folio.Gateway.Call

/-!
# The gateway

The gateway answers requests about one collection.  It holds what the collection
works on and the counters; a request that is turned away changes neither.
-/

namespace Folio

/-- The state between two requests. -/
structure Gateway (σ : Type) where
  desk : Desk σ
  tally : Tally

namespace Gateway

variable {σ : Type} [DocumentStore σ]

/-- A response with a JSON value. -/
def jsonResponse (status : Nat) (value : Json) : Response :=
  ⟨status, some Response.jsonType, value.text⟩

/-- The status for a kind of failure. -/
def statusOf : Failure → Nat
  | .malformedSelection => 400
  | .schemaMismatch => 400
  | .notFound => 404
  | .conflict => 409
  | .store => 500

/-- The response to a call that fails. -/
def refusal (error : QueryError) : Response :=
  jsonResponse (statusOf (Failure.ofError error)) (.object [("error", .string error.message)])

/-- The JSON form of what a list answers: ids become the paths of their
documents. -/
def listing (collection : Collection) : Found → Json
  | .ids ids => .array (ids.map fun id => .string (Route.url collection.config.name id))
  | found => found.toJson

/-- The entry of an update carries the id of its path. -/
def named (id : String) : Json → Json
  | .object members => .object (Fields.put members "id" (.string id))
  | other => other

/-- Save an entry and answer the path of its document. -/
def saveEntry (collection : Collection) (entry : Json) : Session σ Response := do
  let id ← collection.save entry
  return jsonResponse 200 (.string (Route.url collection.config.name id))

/-- Run a call. -/
def run (collection : Collection) : Call → Session σ Response
  | .list parameters => do
      let found ← collection.find (Call.queryOf collection.config.schema parameters)
      return jsonResponse 200 (listing collection found)
  | .read id fields => do
      let found ← collection.find { Query.byId id with fields := fields.map .text }
      return jsonResponse 200 found.toJson
  | .create entry => saveEntry collection entry
  | .update id entry => saveEntry collection (named id entry)
  | .delete id => do
      collection.delete id
      return ⟨204, none, ""⟩

/-- Run a call and count it. -/
def perform (collection : Collection) (call : Call) (gateway : Gateway σ) :
    Response × Gateway σ :=
  match (run collection call).run gateway.desk with
  | (.ok response, desk) => (response, ⟨desk, gateway.tally.count call.operation none⟩)
  | (.error error, desk) =>
      (refusal error, ⟨desk, gateway.tally.count call.operation (some (Failure.ofError error))⟩)

/-- Answer what a request comes to. -/
def respond (collection : Collection) (intake : Intake) (gateway : Gateway σ) :
    Response × Gateway σ :=
  match intake with
  | .preflight => (⟨200, none, ""⟩, gateway)
  | .health => (⟨200, some Response.plainType, "ok"⟩, gateway)
  | .metrics => (⟨200, some "text/plain; version=0.0.4", gateway.tally.text⟩, gateway)
  | .call call => perform collection call gateway
  | .refused status => (⟨status, none, ""⟩, gateway)

/-- Answer a request.  A request for the head alone is answered without content.
-/
def handle (collection : Collection) (request : Request) (gateway : Gateway σ) :
    Response × Gateway σ :=
  let (response, next) := respond collection (Intake.ofRequest collection.config.name request)
    gateway
  (if request.method = .head then response.withoutContent else response, next)

/-- Answer requests one after the other. -/
def handleAll (collection : Collection) (gateway : Gateway σ) :
    List Request → List Response × Gateway σ
  | [] => ([], gateway)
  | request :: rest =>
      let (response, next) := handle collection request gateway
      let (responses, last) := handleAll collection next rest
      (response :: responses, last)

end Gateway

end Folio

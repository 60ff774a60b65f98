import Folio.Gateway.Basic
import Folio.Proofs.Collection.Seen
import Folio.Proofs.Gateway.Addresses
import Folio.Proofs.Json.First

/-!
# Reading a document under its path

A response with a document tells the id of the document.  So a request for the path of a
document that is seen is answered with that document exactly when the path leads to it:
whatever else the path may lead to answers something else.
-/

namespace Folio

namespace Selection

/-- What a projection starts with was taken of a member. -/
theorem exists_of_projectMembers_eq_cons {members : Fields Json} {selection : Selection}
    {name : String} {value : Json} {rest : Fields Json}
    (projected : projectMembers members selection = (name, value) :: rest) :
    ∃ given field, Fields.get? members name = some given ∧ value = projectField given field := by
  induction selection with
  | nil => cases projected
  | cons entry others ih =>
      rcases entry with ⟨wanted, field⟩
      rw [projectMembers] at projected
      cases found : Fields.get? members wanted with
      | none =>
          rw [found] at projected
          exact ih projected
      | some given =>
          rw [found] at projected
          cases projected
          exact ⟨given, field, found, rfl⟩

end Selection

namespace Collection

/-- Narrowing a document does not change its id. -/
theorem id_eq_of_partOf {fields : Option Selection} {id other : String}
    {members others : Fields Json}
    (narrowed : partOf fields (.object (("id", .string id) :: members)) =
      .object (("id", .string other) :: others)) : id = other := by
  cases fields with
  | none =>
      cases narrowed
      rfl
  | some selection =>
      rcases Selection.exists_of_projectMembers_eq_cons (Json.object.inj narrowed) with
        ⟨given, field, found, value⟩
      cases found
      cases field with
      | leaf => exact (Json.string.inj value).symm
      | group sub => cases value

end Collection

namespace Gateway

variable {collection : Collection}

theorem handle_of_ne_head {request : Request} (notHead : request.method ≠ .head)
    (gateway : Gateway Store) : handle collection request gateway =
      respond collection (Intake.ofRequest collection.config.name request) gateway := by
  unfold handle
  simp only [if_neg notHead]

theorem le_statusOf (failure : Failure) : 400 ≤ statusOf failure := by
  cases failure <;> decide

/-- A call is answered with what it ran to, or refused. -/
theorem perform_fst {σ : Type} [DocumentStore σ] (call : Call) (gateway : Gateway σ) :
    (perform collection call gateway).1 =
      match ((run collection call).run gateway.desk).1 with
      | .ok response => response
      | .error error => refusal error := by
  unfold perform
  rcases (run collection call).run gateway.desk with ⟨_ | _, _⟩ <;> rfl

theorem exists_call_of_json {intake : Intake} {gateway : Gateway Store}
    (json : (respond collection intake gateway).1.contentType = some Response.jsonType) :
    ∃ call, intake = .call call := by
  cases intake with
  | call call => exact ⟨call, rfl⟩
  | health =>
      have plain : some Response.plainType = some Response.jsonType := json
      exact absurd plain (by decide)
  | metrics =>
      have plain : some "text/plain; version=0.0.4" = some Response.jsonType := json
      exact absurd plain (by decide)
  | preflight => cases json
  | refused status => cases json

/-- A call that is answered with status 200 ran to its answer. -/
theorem run_of_status {call : Call} {gateway : Gateway Store}
    (status : (perform collection call gateway).1.status = 200) :
    ((run collection call).run gateway.desk).1 = .ok (perform collection call gateway).1 := by
  rw [perform_fst] at status ⊢
  cases ended : ((run collection call).run gateway.desk).1 with
  | ok response => rfl
  | error error =>
      rw [ended] at status
      have failed := le_statusOf (Failure.ofError error)
      exact absurd (failed.trans_eq status) (by decide)

/-- A response with the text of a document was made from a value that starts with its
id. -/
theorem exists_first_of_response_eq {value : Json} {id : String} {members : Fields Json}
    (same : jsonResponse 200 value = jsonResponse 200 (.object (("id", .string id) :: members))) :
    ∃ others, value = .object (("id", .string id) :: others) :=
  Json.exists_first_of_text_eq (congrArg Response.content same)

theorem text_eq_of_response_eq {first second : String}
    (same : jsonResponse 200 (.string first) = jsonResponse 200 (.string second)) :
    first = second := by
  have chars : Json.quote first = Json.quote second := by
    have inner := congrArg (String.toList ∘ Response.content) same
    simpa [jsonResponse, Json.text, Json.chars] using inner
  exact (Json.quote_append_inj (congrArg (· ++ []) chars)).1

/-- Saving answers a text. -/
theorem run_saveEntry (entry : Json) (desk : Desk Store) :
    (saveEntry collection entry).run desk =
      (((collection.save entry).run desk).1.map fun id =>
          jsonResponse 200 (.string (Route.url collection.config.name id)),
        ((collection.save entry).run desk).2) :=
  Session.run_bind_pure _ _ desk

section Serving

variable {gateway : Gateway Store} (serves : collection.Serves gateway.desk.store)
include serves

/-- A list is answered from what is seen. -/
theorem run_list (parameters : List (String × String)) :
    (run collection (.list parameters)).run gateway.desk =
      ((collection.answer gateway.desk.store
          (Call.queryOf collection.config.schema parameters)).map
        fun found => jsonResponse 200 (listing collection found), gateway.desk) := by
  rw [run, Session.run_bind_pure, serves.run_find]

/-- A document is answered from what is seen. -/
theorem run_read (id : String) (fields : Option String) :
    (run collection (.read id fields)).run gateway.desk =
      ((collection.answer gateway.desk.store
          { Query.byId id with fields := fields.map .text }).map
        fun found => jsonResponse 200 found.toJson, gateway.desk) := by
  rw [run, Session.run_bind_pure, serves.run_find]

omit serves in
theorem exists_listing_eq_array {found : Found} {query : Query} (all : query.id = none)
    (answered : collection.answer gateway.desk.store query = .ok found) :
    ∃ items, listing collection found = .array items := by
  rcases Collection.exists_answerWith_of_answer answered with ⟨fields, answered⟩
  rw [Collection.answerWith, all] at answered
  simp only at answered
  split at answered
  all_goals
    cases answered
    exact ⟨_, rfl⟩

/-- Only a request for a document with an id is answered with a document that starts
with this id. -/
theorem exists_eq_read {call : Call} {id : String} {members : Fields Json}
    (answered : (perform collection call gateway).1 =
      jsonResponse 200 (.object (("id", .string id) :: members))) :
    ∃ fields, call = .read id fields := by
  have status : (perform collection call gateway).1.status = 200 := by
    rw [answered]
    rfl
  have ended := run_of_status status
  rw [answered] at ended
  cases call with
  | list parameters =>
      rw [run_list serves] at ended
      rcases map_eq_ok_iff.mp ended with ⟨found, listed, same⟩
      rcases exists_first_of_response_eq same with ⟨others, object⟩
      rcases exists_listing_eq_array rfl listed with ⟨items, array⟩
      rw [array] at object
      cases object
  | read other fields =>
      rw [run_read serves] at ended
      rcases map_eq_ok_iff.mp ended with ⟨found, document, same⟩
      rcases exists_first_of_response_eq same with ⟨others, object⟩
      rcases Collection.exists_seen?_of_answer rfl document with ⟨wanted, stored, seen, rfl⟩
      rcases serves.exists_of_seen?_eq_some seen with ⟨inner, rfl⟩
      rw [Collection.id_eq_of_partOf object]
      exact ⟨fields, rfl⟩
  | create entry =>
      rw [run, run_saveEntry] at ended
      rcases map_eq_ok_iff.mp ended with ⟨saved, _, same⟩
      rcases exists_first_of_response_eq same with ⟨others, object⟩
      cases object
  | update other entry =>
      rw [run, run_saveEntry] at ended
      rcases map_eq_ok_iff.mp ended with ⟨saved, _, same⟩
      rcases exists_first_of_response_eq same with ⟨others, object⟩
      cases object
  | delete other =>
      rw [run, Session.run_bind_pure] at ended
      rcases map_eq_ok_iff.mp ended with ⟨_, _, same⟩
      cases congrArg Response.status same

/-- A document that is seen is the answer to a request for its path exactly when it can
be asked for under it. -/
theorem answered_iff {id : String} {document : Json}
    (seen : collection.seen? gateway.desk.store id = some document) {request : Request}
    (reads : request.method = .get)
    (target : request.target = Route.url collection.config.name id) :
    (handle collection request gateway).1 = jsonResponse 200 document ↔
      Route.Addressable collection.config.name id := by
  rw [handle_of_ne_head (by simp [reads])]
  rcases request with ⟨method, _, contentType, body⟩
  subst reads target
  constructor
  · intro answered
    rcases serves.exists_of_seen?_eq_some seen with ⟨members, rfl⟩
    rcases exists_call_of_json (congrArg Response.contentType answered) with ⟨call, intake⟩
    rw [intake] at answered
    rcases exists_eq_read serves answered with ⟨fields, rfl⟩
    exact (Intake.ofRequest_get_url_iff.mp intake).1
  · intro addressable
    rw [Intake.ofRequest_get_url_iff.mpr ⟨addressable, rfl⟩, respond, perform_fst,
      run_read serves]
    simp only [Collection.answer, Collection.answerWith, Query.byId, Option.map_none, seen]
    rfl

end Serving

end Gateway

end Folio

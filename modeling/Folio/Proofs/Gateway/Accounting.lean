import Folio.Proofs.Gateway.Reading
import Folio.Proofs.Gateway.Requests

/-!
# Counters that balance

Every request that comes to a call is timed and either completed or failed, and a request
that is turned away is not counted at all.  So over any run the operations that were timed
are those that were completed and those that failed, and the responses and the failures of
calls can be read off the counters.  The kind of a failure is told by what the error is.
-/

namespace Folio

/-! ## Errors as they are answered -/

/-- The kind under which an error counts and the status with which it is answered, by what
the error is. -/
inductive QueryError.Answered : QueryError → String → Nat → Prop where
  | malformed (refusal : Selection.Malformed) :
      Answered (.malformed refusal) "malformed_selection" 400
  | mismatch (document expected : String) :
      Answered (.mismatch document expected) "schema_mismatch" 400
  | notFound (collection id : String) : Answered (.notFound collection id) "not_found" 404
  | conflict (reason : String) : Answered (.store (.conflict reason)) "conflict" 409
  | missing (key : String) : Answered (.store (.notFound key)) "store" 500
  | io (reason : String) : Answered (.store (.io reason)) "store" 500
  | internal (reason : String) : Answered (.store (.internal reason)) "store" 500

/-- Every error counts under one kind and is answered with one status. -/
theorem QueryError.answered_iff {error : QueryError} {kind : String} {status : Nat} :
    error.Answered kind status ↔
      (Failure.ofError error).name = kind ∧ Gateway.statusOf (Failure.ofError error) = status := by
  constructor
  · intro answered
    cases answered <;> exact ⟨rfl, rfl⟩
  · rintro ⟨rfl, rfl⟩
    cases error with
    | malformed refusal => exact .malformed refusal
    | mismatch document expected => exact .mismatch document expected
    | notFound collection id => exact .notFound collection id
    | store error =>
        cases error with
        | notFound key => exact .missing key
        | conflict reason => exact .conflict reason
        | io reason => exact .io reason
        | internal reason => exact .internal reason

instance (error : QueryError) (kind : String) (status : Nat) :
    Decidable (error.Answered kind status) :=
  decidable_of_iff _ QueryError.answered_iff.symm

theorem Failure.name_injective : Function.Injective Failure.name := by
  intro first second same
  cases first <;> cases second <;> first | rfl | exact absurd same (by decide)

theorem Operation.name_injective : Function.Injective Operation.name := by
  intro first second same
  cases first <;> cases second <;> first | rfl | exact absurd same (by decide)

/-! ## Counters as they are shown -/

namespace Tally

/-- The name of the counter of the times that an operation was run. -/
def timedLabel (operation : Operation) : String :=
  label "docsel_op_duration_seconds_count" [("op", operation.name)]

/-- The name of the counter of the times that an operation was completed. -/
def completedLabel (operation : Operation) : String :=
  label "docsel_ops_total" [("op", operation.name)]

/-- The name of the counter of the times that an operation failed in some way. -/
def failedLabel (operation : Operation) (failure : Failure) : String :=
  label "docsel_op_errors_total" [("kind", failure.name), ("op", operation.name)]

/-- The count that is shown under a name; what is not shown stands at zero. -/
def shown (tally : Tally) (name : String) : Nat := (Fields.get? tally.lines name).getD 0

/-- All counters with their names, those at zero as well. -/
def counters (tally : Tally) : List (String × Nat) :=
  (Operation.all.map fun operation => (timedLabel operation, tally.timed operation)) ++
    (Failure.all.flatMap fun failure => Operation.all.map fun operation =>
      (failedLabel operation failure, tally.failed (operation, failure))) ++
    Operation.all.map fun operation => (completedLabel operation, tally.completed operation)

variable {tally : Tally}

theorem nodup_names_counters (tally : Tally) : (Fields.names tally.counters).Nodup := by
  have labels : Fields.names tally.counters = Fields.names zero.counters := rfl
  rw [labels]
  decide +kernel

/-- Every counter is shown under its name. -/
theorem shown_of_mem {name : String} {count : Nat} (counted : (name, count) ∈ tally.counters) :
    tally.shown name = count := by
  have distinct := nodup_names_counters tally
  have kept : (Fields.names tally.lines).Nodup :=
    distinct.sublist (List.filter_sublist.map _)
  have lines : tally.lines = tally.counters.filter fun line => line.2 ≠ 0 := rfl
  -- A count of zero is not among the lines, and nothing else stands under its name.
  by_cases zero : count = 0
  · subst zero
    have hidden : Fields.get? tally.lines name = none := by
      rw [Fields.get?_eq_none_iff, Fields.names, List.mem_map]
      rintro ⟨⟨_, other⟩, member, rfl⟩
      rw [lines, List.mem_filter] at member
      have same := (Fields.get?_eq_some_iff_mem distinct).mpr member.1
      rw [(Fields.get?_eq_some_iff_mem distinct).mpr counted] at same
      cases same
      simp at member
    rw [shown, hidden]
    rfl
  · have member : (name, count) ∈ tally.lines := by
      rw [lines, List.mem_filter]
      exact ⟨counted, by simpa using zero⟩
    rw [shown, (Fields.get?_eq_some_iff_mem kept).mpr member]
    rfl

theorem shown_timedLabel (tally : Tally) (operation : Operation) :
    tally.shown (timedLabel operation) = tally.timed operation := by
  apply shown_of_mem
  have listed : operation ∈ Operation.all := by cases operation <;> decide
  simp only [counters, List.mem_append, List.mem_map]
  exact .inl (.inl ⟨operation, listed, rfl⟩)

theorem shown_completedLabel (tally : Tally) (operation : Operation) :
    tally.shown (completedLabel operation) = tally.completed operation := by
  apply shown_of_mem
  have listed : operation ∈ Operation.all := by cases operation <;> decide
  simp only [counters, List.mem_append, List.mem_map]
  exact .inr ⟨operation, listed, rfl⟩

theorem shown_failedLabel (tally : Tally) (operation : Operation) (failure : Failure) :
    tally.shown (failedLabel operation failure) = tally.failed (operation, failure) := by
  apply shown_of_mem
  have listed : operation ∈ Operation.all := by cases operation <;> decide
  have told : failure ∈ Failure.all := by cases failure <;> decide
  simp only [counters, List.mem_append, List.mem_flatMap, List.mem_map]
  exact .inl (.inr ⟨failure, told, operation, listed, rfl⟩)

/-! ## Counting one operation -/

theorem countUp_apply {α : Type} [DecidableEq α] (counts : α → Nat) (key other : α) :
    countUp counts key other = counts other + if key = other then 1 else 0 := by
  unfold countUp
  by_cases same : other = key
  · simp [same]
  · simp [same, Ne.symm same]

/-- How often an operation was completed or failed. -/
def settled (tally : Tally) (operation : Operation) : Nat :=
  tally.completed operation +
    Failure.all.foldr (fun failure sum => tally.failed (operation, failure) + sum) 0

theorem timed_count (tally : Tally) (operation other : Operation) (failure : Option Failure) :
    (tally.count operation failure).timed other =
      tally.timed other + if operation = other then 1 else 0 := by
  cases failure <;> exact countUp_apply _ _ _

theorem completed_count (tally : Tally) (operation other : Operation) (failure : Option Failure) :
    (tally.count operation failure).completed other =
      tally.completed other + if (operation, failure) = (other, none) then 1 else 0 := by
  cases failure with
  | none => simp [count, countUp_apply]
  | some failure => simp [count]

theorem failed_count (tally : Tally) (operation other : Operation) (failure : Option Failure)
    (kind : Failure) : (tally.count operation failure).failed (other, kind) =
      tally.failed (other, kind) + if (operation, failure) = (other, some kind) then 1 else 0 := by
  cases failure with
  | none => simp [count]
  | some failure => simp [count, countUp_apply]

theorem settled_count (tally : Tally) (operation other : Operation) (failure : Option Failure) :
    (tally.count operation failure).settled other =
      tally.settled other + if operation = other then 1 else 0 := by
  simp only [settled, completed_count, failed_count, Prod.mk.injEq]
  by_cases same : operation = other
  · rcases failure with _ | (_ | _ | _ | _ | _) <;>
      simp [Failure.all, same] <;> omega
  · simp [same]

end Tally

/-! ## Requests and what they come to -/

namespace Operation

/-- The name of the operation that a method asks of a collection. -/
def onCollection : Method → Option String
  | .get | .head => some "list"
  | .post => some "create"
  | _ => none

/-- The name of the operation that a method asks of a document. -/
def onDocument : Method → Option String
  | .get | .head => some "read"
  | .put => some "update"
  | .delete => some "delete"
  | _ => none

/-- The name of the operation that a request is for, by its method and by where its path
leads. -/
def ofRequest? (collection : String) (request : Request) : Option String :=
  match Route.find? collection request.path with
  | some .collection => onCollection request.method
  | some (.document _) => onDocument request.method
  | _ => none

end Operation

namespace Call

variable {request : Request} {call : Call}

theorem operation_of_onCollection (taken : onCollection request = .ok call) :
    Operation.onCollection request.method = some call.operation.name := by
  rcases asked_of_onCollection taken with ⟨asked, listed | created⟩
  · cases asked with
    | list reads =>
        rcases reads with gets | heads
        · rw [gets]
          rfl
        · rw [heads]
          rfl
    | _ => cases listed
  · cases asked with
    | create posts _ =>
        rw [posts]
        rfl
    | _ => cases created

theorem operation_of_onDocument {captures : List (List Char)}
    (taken : onDocument request captures = .ok call) :
    Operation.onDocument request.method = some call.operation.name := by
  rcases asked_of_onDocument taken with ⟨asked, notListed, notCreated⟩
  cases asked with
  | list _ => exact absurd rfl notListed
  | create _ _ => exact absurd rfl notCreated
  | read reads =>
      rcases reads with gets | heads
      · rw [gets]
        rfl
      · rw [heads]
        rfl
  | update puts _ =>
      rw [puts]
      rfl
  | delete deletes =>
      rw [deletes]
      rfl

end Call

namespace Intake

variable {name : String} {request : Request} {call : Call}

theorem operation_of_ofRequest (taken : ofRequest name request = .call call) :
    Operation.ofRequest? name request = some call.operation.name := by
  rcases path_of_ofRequest taken with ⟨found, accepted⟩ | ⟨captures, found, accepted⟩
  · rw [Operation.ofRequest?, found]
    exact Call.operation_of_onCollection accepted
  · rw [Operation.ofRequest?, found]
    exact Call.operation_of_onDocument accepted

/-- A request that is for an operation leads to a call of it or is turned away. -/
theorem call_or_refused_of_operation {operation : String}
    (asked : Operation.ofRequest? name request = some operation) :
    (∃ call, ofRequest name request = .call call) ∨
      ∃ status, ofRequest name request = .refused status := by
  have notOptions : request.method ≠ .options := by
    intro options
    unfold Operation.ofRequest? at asked
    rw [options] at asked
    split at asked <;> cases asked
  rw [ofRequest, if_neg notOptions]
  unfold Operation.ofRequest? at asked
  split at asked
  · rename_i found
    rw [found]
    exact attempted _
  · rename_i found
    rw [found]
    exact attempted _
  · cases asked

end Intake

namespace Gateway

variable {σ : Type} [DocumentStore σ]

/-- The error that an answer tells, if it tells one. -/
def errorOf {α : Type} : Except QueryError α → Option QueryError
  | .ok _ => none
  | .error error => some error

/-- What the call that a request comes to ends with: its operation, and its error if it
fails.  A request that is turned away comes to no call. -/
def ending? (collection : Collection) (request : Request) (desk : Desk σ) :
    Option (Operation × Option QueryError) :=
  match Intake.ofRequest collection.config.name request with
  | .call call => some (call.operation, errorOf ((run collection call).run desk).1)
  | _ => none

/-- What an ending is counted as: an operation, and the kind of its failure. -/
def counted (ending : Option (Operation × Option QueryError)) :
    Option (Operation × Option Failure) :=
  ending.map fun (operation, error) => (operation, error.map Failure.ofError)

theorem map_fst_counted (ending : Option (Operation × Option QueryError)) :
    (counted ending).map Prod.fst = ending.map Prod.fst := by
  rw [counted, Option.map_map]
  rfl

theorem counted_eq_completed_iff {ending : Option (Operation × Option QueryError)}
    {operation : Operation} :
    counted ending = some (operation, none) ↔ ending = some (operation, none) := by
  simp [counted, Option.map_eq_some_iff]

/-- A request that was served, with what its call ended with and with the response. -/
structure Served where
  request : Request
  ending : Option (Operation × Option QueryError)
  response : Response

/-- Serve a request. -/
def served (collection : Collection) (request : Request) (gateway : Gateway σ) : Served :=
  ⟨request, ending? collection request gateway.desk, (handle collection request gateway).1⟩

/-- What happens to a gateway: a request, or a change of what it works on that is made from
outside, such as a fault of the store that is going to show. -/
inductive Event (σ : Type) where
  | request (request : Request)
  | outside (change : Desk σ → Desk σ)

/-- Serve the requests in a run of events. -/
def serve (collection : Collection) (gateway : Gateway σ) :
    List (Event σ) → List Served × Gateway σ
  | [] => ([], gateway)
  | .request request :: rest =>
      let (later, last) := serve collection (handle collection request gateway).2 rest
      (served collection request gateway :: later, last)
  | .outside change :: rest => serve collection ⟨change gateway.desk, gateway.tally⟩ rest

variable {collection : Collection} {gateway : Gateway σ} {request : Request}

theorem ending?_of_call {call : Call}
    (intake : Intake.ofRequest collection.config.name request = .call call) (desk : Desk σ) :
    ending? collection request desk =
      some (call.operation, errorOf ((run collection call).run desk).1) := by
  rw [ending?, intake]

theorem status_handle (collection : Collection) (request : Request) (gateway : Gateway σ) :
    (handle collection request gateway).1.status =
      (respond collection (Intake.ofRequest collection.config.name request) gateway).1.status := by
  unfold handle
  dsimp only
  split <;> rfl

/-- A call that does not fail is answered with a status of success. -/
theorem status_of_run {call : Call} {desk : Desk σ} {response : Response}
    (ended : ((run collection call).run desk).1 = .ok response) :
    response.status = 200 ∨ response.status = 204 := by
  cases call with
  | list parameters =>
      rw [run, Session.run_bind_pure] at ended
      rcases map_eq_ok_iff.mp ended with ⟨found, _, rfl⟩
      exact .inl rfl
  | read id fields =>
      rw [run, Session.run_bind_pure] at ended
      rcases map_eq_ok_iff.mp ended with ⟨found, _, rfl⟩
      exact .inl rfl
  | create entry =>
      rw [run, saveEntry, Session.run_bind_pure] at ended
      rcases map_eq_ok_iff.mp ended with ⟨id, _, rfl⟩
      exact .inl rfl
  | update id entry =>
      rw [run, saveEntry, Session.run_bind_pure] at ended
      rcases map_eq_ok_iff.mp ended with ⟨id, _, rfl⟩
      exact .inl rfl
  | delete id =>
      rw [run, Session.run_bind_pure] at ended
      rcases map_eq_ok_iff.mp ended with ⟨_, _, rfl⟩
      exact .inr rfl

/-- Whether a request was one for an operation and was answered that it succeeded. -/
def Served.Succeeded (collection : Collection) (operation : Operation) (served : Served) : Prop :=
  Operation.ofRequest? collection.config.name served.request = some operation.name ∧
    (served.response.status = 200 ∨ served.response.status = 204)

instance (collection : Collection) (operation : Operation) :
    DecidablePred (Served.Succeeded collection operation) :=
  fun _ => inferInstanceAs (Decidable (_ ∧ _))

/-- A call is answered with a status of success exactly when it does not fail. -/
theorem succeeds_iff_of_call {call : Call}
    (intake : Intake.ofRequest collection.config.name request = .call call) :
    ((handle collection request gateway).1.status = 200 ∨
        (handle collection request gateway).1.status = 204) ↔
      errorOf ((run collection call).run gateway.desk).1 = none := by
  rw [status_handle, intake, respond, perform_fst]
  cases ended : ((run collection call).run gateway.desk).1 with
  | ok response => exact iff_of_true (status_of_run ended) rfl
  | error error =>
      have failed := le_statusOf (Failure.ofError error)
      refine iff_of_false (fun success => ?_) (Option.some_ne_none _)
      change statusOf (Failure.ofError error) = 200 ∨ statusOf (Failure.ofError error) = 204
        at success
      omega

/-- The requests that succeed are those whose call does not fail. -/
theorem succeeded_served_iff {operation : Operation} :
    (served collection request gateway).Succeeded collection operation ↔
      ending? collection request gateway.desk = some (operation, none) := by
  unfold Served.Succeeded served
  dsimp only
  constructor
  · rintro ⟨asked, success⟩
    -- The status of success leaves only the call, as it is no status of a refusal.
    rcases Intake.call_or_refused_of_operation asked with ⟨call, intake⟩ | ⟨refused, intake⟩
    · have named := (Intake.operation_of_ofRequest intake).symm.trans asked
      have same := Operation.name_injective (Option.some.inj named)
      rw [ending?_of_call intake, same, (succeeds_iff_of_call intake).mp success]
    · have status := status_handle collection request gateway
      rw [intake] at status
      have failed := (Intake.le_of_refused intake).trans_eq status.symm
      omega
  · intro ended
    unfold ending? at ended
    split at ended
    · rename_i call intake
      rw [Option.some.injEq, Prod.mk.injEq] at ended
      exact ⟨(Intake.operation_of_ofRequest intake).trans (congrArg (some ·.name) ended.1),
        (succeeds_iff_of_call intake).mpr ended.2⟩
    · cases ended

/-- Whether a request came to a call of an operation that failed, and was answered with an
error of a kind: with the status for it and, unless only the head was asked for, its
wording. -/
def Served.FailedAs (operation : Operation) (kind : String) (served : Served) : Prop :=
  ∃ ending ∈ served.ending, ending.1 = operation ∧
    ∃ error ∈ ending.2, error.Answered kind served.response.status ∧
      (served.request.method = .head ∨
        served.response.content = (Json.object [("error", .string error.message)]).text)

instance (operation : Operation) (kind : String) :
    DecidablePred (Served.FailedAs operation kind) :=
  fun served => inferInstanceAs (Decidable (∃ ending ∈ served.ending, _ ∧ ∃ error ∈ ending.2, _))

/-- A call that fails is answered with its error. -/
theorem response_of_error {call : Call} {error : QueryError}
    (intake : Intake.ofRequest collection.config.name request = .call call)
    (ended : ((run collection call).run gateway.desk).1 = .error error) :
    (handle collection request gateway).1.status = statusOf (Failure.ofError error) ∧
      (request.method = .head ∨ (handle collection request gateway).1.content =
        (Json.object [("error", .string error.message)]).text) := by
  have answer : (perform collection call gateway).1 = refusal error := by
    rw [perform_fst, ended]
  constructor
  · rw [status_handle, intake, respond, answer]
    rfl
  · by_cases head : request.method = .head
    · exact .inl head
    · right
      unfold handle
      simp only [if_neg head, intake, respond, answer]
      rfl

/-- The requests that fail in a way are those whose call ends with an error of the kind. -/
theorem failedAs_served_iff {operation : Operation} {failure : Failure} :
    (served collection request gateway).FailedAs operation failure.name ↔
      counted (ending? collection request gateway.desk) = some (operation, some failure) := by
  unfold Served.FailedAs served counted
  dsimp only
  simp only [Option.map_eq_some_iff, Prod.mk.injEq, Option.mem_def, QueryError.answered_iff]
  constructor
  · rintro ⟨ending, ended, same, error, failed, ⟨kind, _⟩, _⟩
    exact ⟨ending, ended, same, error, failed, Failure.name_injective kind⟩
  · rintro ⟨ending, ended, same, error, failed, rfl⟩
    refine ⟨ending, ended, same, error, failed, ?_⟩
    unfold ending? at ended
    split at ended
    · rename_i call intake
      cases ended
      have stopped : ((run collection call).run gateway.desk).1 = .error error := by
        revert failed
        cases ((run collection call).run gateway.desk).1 with
        | ok response => exact nofun
        | error other =>
            intro failed
            rw [Option.some.inj failed]
      rcases response_of_error intake stopped with ⟨status, told⟩
      exact ⟨⟨rfl, status.symm⟩, told⟩
    · cases ended

/-- A request changes the counters as its call ends. -/
theorem tally_handle (collection : Collection) (request : Request) (gateway : Gateway σ) :
    (handle collection request gateway).2.tally =
      match counted (ending? collection request gateway.desk) with
      | some (operation, failure) => gateway.tally.count operation failure
      | none => gateway.tally := by
  unfold handle ending?
  cases Intake.ofRequest collection.config.name request with
  | call call =>
      simp only [respond, perform]
      rcases (run collection call).run gateway.desk with ⟨_ | _, _⟩ <;> rfl
  | preflight => rfl
  | health => rfl
  | metrics => rfl
  | refused status => rfl

/-! ## Runs -/

theorem exists_of_mem_serve {events : List (Event σ)} {done : Served}
    (member : done ∈ (serve collection gateway events).1) :
    ∃ (request : Request) (before : Gateway σ), done = served collection request before := by
  induction events generalizing gateway with
  | nil => cases member
  | cons event rest ih =>
      cases event with
      | request request =>
          rcases List.mem_cons.mp member with rfl | later
          · exact ⟨request, gateway, rfl⟩
          · exact ih later
      | outside change => exact ih member

section Run

variable (collection : Collection) (gateway : Gateway σ) (events : List (Event σ))

/-- What grows by one for every ending that counts has grown by the number of these. -/
theorem serve_grows (measure : Tally → Nat) (counts : Option (Operation × Option Failure) → Bool)
    (idle : counts none = false)
    (step : ∀ tally ended failure, measure (tally.count ended failure) =
      measure tally + if counts (some (ended, failure)) then 1 else 0) :
    measure (serve collection gateway events).2.tally = measure gateway.tally +
      (serve collection gateway events).1.countP (counts <| counted ·.ending) := by
  -- The gateway changes from event to event, the measure only where a request is served.
  induction events generalizing gateway with
  | nil => rfl
  | cons event rest ih =>
      cases event with
      | request request =>
          have here : measure (handle collection request gateway).2.tally = measure gateway.tally +
              if counts (counted (served collection request gateway).ending) then 1 else 0 := by
            rw [tally_handle, served]
            cases counted (ending? collection request gateway.desk) with
            | none => simp [idle]
            | some ending => exact step _ _ _
          simp only [serve, List.countP_cons]
          rw [ih, here]
          omega
      | outside change => exact ih ⟨change gateway.desk, gateway.tally⟩

variable (operation : Operation)

theorem serve_grows_of_calls (measure : Tally → Nat)
    (step : ∀ tally ended failure, measure (tally.count ended failure) =
      measure tally + if ended = operation then 1 else 0) :
    measure (serve collection gateway events).2.tally =
      measure gateway.tally + (serve collection gateway events).1.countP
        fun served => served.ending.map Prod.fst = some operation := by
  simp only [← map_fst_counted]
  exact serve_grows collection gateway events measure
    (fun ending => ending.map Prod.fst = some operation) rfl (by simpa using step)

theorem countP_serve_congr {first second : Served → Prop} [DecidablePred first]
    [DecidablePred second] (same : ∀ (request : Request) (before : Gateway σ),
      first (served collection request before) ↔ second (served collection request before)) :
    (serve collection gateway events).1.countP (fun done => first done) =
      (serve collection gateway events).1.countP fun done => second done := by
  apply List.countP_congr
  intro done member
  rcases exists_of_mem_serve member with ⟨request, before, rfl⟩
  simpa using same request before

theorem completed_serve : (serve collection gateway events).2.tally.completed operation =
    gateway.tally.completed operation + (serve collection gateway events).1.countP
      fun served => served.Succeeded collection operation := by
  have step (tally : Tally) (ended : Operation) (failure : Option Failure) :=
    tally.completed_count ended operation failure
  have grown := serve_grows collection gateway events
    (fun tally => tally.completed operation) (fun ending => ending = some (operation, none)) rfl
    (by simpa using step)
  rw [grown]
  congr 1
  exact countP_serve_congr collection gateway events fun _ _ =>
    counted_eq_completed_iff.trans succeeded_served_iff.symm

theorem failed_serve (failure : Failure) :
    (serve collection gateway events).2.tally.failed (operation, failure) =
      gateway.tally.failed (operation, failure) + (serve collection gateway events).1.countP
        fun served => served.FailedAs operation failure.name := by
  have step (tally : Tally) (ended : Operation) (kind : Option Failure) :=
    tally.failed_count ended operation kind failure
  have grown := serve_grows collection gateway events
    (fun tally => tally.failed (operation, failure))
    (fun ending => ending = some (operation, some failure)) rfl (by simpa using step)
  rw [grown]
  congr 1
  exact countP_serve_congr collection gateway events fun _ _ => failedAs_served_iff.symm

end Run

/-- Over any run of requests an operation is timed as often as it is completed and as it
fails in some way.  It is completed as often as a request for it succeeds, it fails in a way
as often as a call of it is answered with an error of that kind, and a request that comes to
no call is not counted. -/
theorem counters_balance (collection : Collection) (gateway : Gateway σ) (events : List (Event σ))
    (operation : Operation) :
    let run := serve collection gateway events
    let growth (name : String) : Int := run.2.tally.shown name - gateway.tally.shown name
    growth (Tally.timedLabel operation) = growth (Tally.completedLabel operation) +
        Failure.all.foldr (fun failure sum => growth (Tally.failedLabel operation failure) + sum) 0 ∧
      growth (Tally.timedLabel operation) =
        run.1.countP (fun served => served.ending.map Prod.fst = some operation) ∧
      growth (Tally.completedLabel operation) =
        run.1.countP (fun served => served.Succeeded collection operation) ∧
      (∀ failure, growth (Tally.failedLabel operation failure) =
        run.1.countP fun served => served.FailedAs operation failure.name) ∧
      ∀ (request : Request) (before : Gateway σ),
        (∀ call, Intake.ofRequest collection.config.name request ≠ .call call) →
          (handle collection request before).2.tally = before.tally := by
  have timed := serve_grows_of_calls collection gateway events operation
    (fun tally => tally.timed operation) fun tally ended => tally.timed_count ended operation
  have settled := serve_grows_of_calls collection gateway events operation
    (fun tally => tally.settled operation) fun tally ended => tally.settled_count ended operation
  have completed := completed_serve collection gateway events operation
  have failed := failed_serve collection gateway events operation
  dsimp only
  simp only [Tally.shown_timedLabel, Tally.shown_completedLabel, Tally.shown_failedLabel]
  refine ⟨?_, by omega, by omega, fun failure => ?_, ?_⟩
  · simp only [Tally.settled, Failure.all, List.foldr_cons, List.foldr_nil] at settled ⊢
    omega
  · have one := failed failure
    omega
  · intro request before turned
    rw [tally_handle]
    unfold ending?
    split
    · rename_i ended
      split at ended
      · exact absurd ‹_› (turned _)
      · cases ended
    · rfl

end Gateway

end Folio

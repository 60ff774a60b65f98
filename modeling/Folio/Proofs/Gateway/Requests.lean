import Folio.Gateway.Basic
import Folio.Proofs.Collection.Saving
import Folio.Proofs.Json.Accepted

/-!
# What requests come to

A request that leads to a call has the method of the call, and the entry that it brings
binds no name twice.  A request that is turned away is never told that it succeeded.
-/

namespace Folio

/-- Whether a request leaves the documents as they are, by its method. -/
def Request.Reads (request : Request) : Prop :=
  request.method ≠ .post ∧ request.method ≠ .put ∧ request.method ≠ .delete

namespace Call

/-- The entry that a call saves. -/
def saved? : Call → Option Json
  | .create entry => some entry
  | .update id entry => some (Gateway.named id entry)
  | _ => none

/-- What a request may ask a collection for, by its method. -/
inductive Asked (request : Request) : Call → Prop
  | list (reads : request.method = .get ∨ request.method = .head) :
      Asked request (.list request.parameters)
  | read {id : String} {fields : Option String}
      (reads : request.method = .get ∨ request.method = .head) : Asked request (.read id fields)
  | create {entry : Json} (posts : request.method = .post) (body : entryOf request = .ok entry) :
      Asked request (.create entry)
  | update {id : String} {entry : Json} (puts : request.method = .put)
      (body : entryOf request = .ok entry) : Asked request (.update id entry)
  | delete {id : String} (deletes : request.method = .delete) : Asked request (.delete id)

variable {request : Request} {call : Call} {status : Nat}

/-- The entry in a body binds no name twice. -/
theorem nodup_of_entryOf {members : Fields Json} (body : entryOf request = .ok (.object members)) :
    (Fields.names members).Nodup := by
  unfold entryOf at body
  split at body
  · cases body
  split at body
  · cases body
  split at body
  · rename_i entry rest read
    cases body
    exact (Json.plain_of_leading read).1
  · cases body

/-- The entry that a call saves binds no name twice. -/
theorem Asked.nodup (asked : Asked request call) {members : Fields Json}
    (saves : call.saved? = some (.object members)) : (Fields.names members).Nodup := by
  cases asked with
  | create _ body =>
      cases saves
      exact nodup_of_entryOf body
  | @update id entry _ body =>
      cases entry with
      | object given =>
          cases saves
          exact Fields.nodup_names_put (nodup_of_entryOf body) _ _
      | null => cases saves
      | bool _ => cases saves
      | number _ => cases saves
      | string _ => cases saves
      | array _ => cases saves
  | list _ => cases saves
  | read _ => cases saves
  | delete _ => cases saves

/-- A collection is listed or gets a new document. -/
theorem asked_of_onCollection (taken : onCollection request = .ok call) :
    Asked request call ∧ (call.operation = .list ∨ call.operation = .create) := by
  unfold onCollection at taken
  split at taken
  · rename_i reads
    cases taken
    exact ⟨.list (.inl reads), .inl rfl⟩
  · rename_i reads
    cases taken
    exact ⟨.list (.inr reads), .inl rfl⟩
  · rename_i posts
    rcases bind_eq_ok_iff.mp taken with ⟨entry, body, same⟩
    cases same
    exact ⟨.create posts body, .inr rfl⟩
  · cases taken

/-- A document is read, updated or deleted. -/
theorem asked_of_onDocument {captures : List (List Char)}
    (taken : onDocument request captures = .ok call) :
    Asked request call ∧ call.operation ≠ .list ∧ call.operation ≠ .create := by
  have read (reads : request.method = .get ∨ request.method = .head)
      (taken : (do
        let id ← idOf captures
        return .read id (← fieldsOf request) : Except Nat Call) = .ok call) :
      Asked request call ∧ call.operation ≠ .list ∧ call.operation ≠ .create := by
    rcases bind_eq_ok_iff.mp taken with ⟨id, _, taken⟩
    rcases bind_eq_ok_iff.mp taken with ⟨fields, _, same⟩
    cases same
    exact ⟨.read reads, nofun, nofun⟩
  unfold onDocument at taken
  split at taken
  · rename_i reads
    exact read (.inl reads) taken
  · rename_i reads
    exact read (.inr reads) taken
  · rename_i puts
    rcases bind_eq_ok_iff.mp taken with ⟨id, _, taken⟩
    rcases bind_eq_ok_iff.mp taken with ⟨entry, body, same⟩
    cases same
    exact ⟨.update puts body, nofun, nofun⟩
  · rename_i deletes
    rcases bind_eq_ok_iff.mp taken with ⟨id, _, same⟩
    cases same
    exact ⟨.delete deletes, nofun, nofun⟩
  · cases taken

/-! ## Statuses of requests that are turned away -/

/-- Whether an attempt, if it fails, fails with the status of a failure. -/
def Proper {α : Type} (attempt : Except Nat α) : Prop :=
  ∀ status, attempt = .error status → 400 ≤ status

theorem Proper.bind {α β : Type} {first : Except Nat α} {next : α → Except Nat β}
    (proper : Proper first) (later : ∀ value, Proper (next value)) : Proper (first >>= next) := by
  intro status refused
  rcases bind_eq_error_iff.mp refused with early | ⟨value, _, late⟩
  · exact proper status early
  · exact later value status late

theorem proper_ok {α : Type} (value : α) : Proper (.ok value) := by
  intro status refused
  cases refused

theorem proper_error {α : Type} (failure : 400 ≤ status) : Proper (.error status : Except Nat α) := by
  intro other refused
  cases refused
  exact failure

theorem proper_idOf (captures : List (List Char)) : Proper (idOf captures) := by
  unfold idOf
  split
  · exact proper_error (by decide)
  · exact proper_ok _
  · exact proper_error (by decide)

theorem proper_fieldsOf (request : Request) : Proper (fieldsOf request) := by
  unfold fieldsOf
  split
  · exact proper_ok _
  · exact proper_ok _
  · exact proper_error (by decide)

theorem proper_entryOf (request : Request) : Proper (entryOf request) := by
  unfold entryOf
  split
  · exact proper_error (by decide)
  split
  · exact proper_error (by decide)
  split
  · exact proper_ok _
  · exact proper_error (by split <;> decide)

theorem proper_onCollection (request : Request) : Proper (onCollection request) := by
  unfold onCollection
  split
  · exact proper_ok _
  · exact proper_ok _
  · exact (proper_entryOf request).bind fun _ => proper_ok _
  · exact proper_error (by decide)

theorem proper_onDocument (request : Request) (captures : List (List Char)) :
    Proper (onDocument request captures) := by
  have read : Proper (do
      let id ← idOf captures
      return .read id (← fieldsOf request) : Except Nat Call) := by
    apply (proper_idOf captures).bind
    intro id
    exact (proper_fieldsOf request).bind fun _ => proper_ok _
  unfold onDocument
  split
  · exact read
  · exact read
  · apply (proper_idOf captures).bind
    intro id
    exact (proper_entryOf request).bind fun _ => proper_ok _
  · exact (proper_idOf captures).bind fun _ => proper_ok _
  · exact proper_error (by decide)

end Call

namespace Intake

variable {name : String} {request : Request} {call : Call} {status : Nat}

theorem ofAttempt_eq_call_iff {attempt : Except Nat Call} :
    ofAttempt attempt = .call call ↔ attempt = .ok call := by
  cases attempt <;> simp [ofAttempt]

/-- An attempt comes to a call or turns the request away. -/
theorem attempted (attempt : Except Nat Call) : (∃ call, ofAttempt attempt = .call call) ∨
    ∃ status, ofAttempt attempt = .refused status := by
  cases attempt with
  | ok call => exact .inl ⟨call, rfl⟩
  | error status => exact .inr ⟨status, rfl⟩

/-- A request leads to a call only on the path of the collection or of a document. -/
theorem path_of_ofRequest (taken : ofRequest name request = .call call) :
    Route.find? name request.path = some .collection ∧ Call.onCollection request = .ok call ∨
      ∃ captures, Route.find? name request.path = some (.document captures) ∧
        Call.onDocument request captures = .ok call := by
  unfold ofRequest at taken
  split at taken
  · cases taken
  split at taken
  · cases taken
  · unfold ifReading at taken
    split at taken <;> cases taken
  · unfold ifReading at taken
    split at taken <;> cases taken
  · rename_i found
    exact .inl ⟨found, ofAttempt_eq_call_iff.mp taken⟩
  · rename_i captures found
    exact .inr ⟨captures, found, ofAttempt_eq_call_iff.mp taken⟩

theorem asked_of_ofRequest (taken : ofRequest name request = .call call) :
    call.Asked request := by
  rcases path_of_ofRequest taken with ⟨-, accepted⟩ | ⟨captures, -, accepted⟩
  · exact (Call.asked_of_onCollection accepted).1
  · exact (Call.asked_of_onDocument accepted).1

/-- A request that neither reads nor asks what is allowed leads to a call or is turned
away. -/
theorem call_or_refused (saves : request.method = .post ∨ request.method = .put) :
    (∃ call, ofRequest name request = .call call) ∨
      ∃ status, ofRequest name request = .refused status := by
  have notOptions : request.method ≠ .options := by
    rcases saves with posts | puts
    · simp [posts]
    · simp [puts]
  have turnedAway (intake : Intake) : ifReading request intake = .refused 405 := by
    rcases saves with posts | puts
    · simp [ifReading, posts]
    · simp [ifReading, puts]
  rw [ofRequest, if_neg notOptions]
  split
  · exact .inr ⟨404, rfl⟩
  · exact .inr ⟨405, turnedAway _⟩
  · exact .inr ⟨405, turnedAway _⟩
  · exact attempted _
  · exact attempted _

/-- A request that is turned away is told that it failed. -/
theorem le_of_refused (refused : ofRequest name request = .refused status) : 400 ≤ status := by
  have ofAttempt {attempt : Except Nat Call} (proper : Call.Proper attempt)
      (refused : ofAttempt attempt = .refused status) : 400 ≤ status := by
    cases attempt with
    | ok call => cases refused
    | error other =>
        cases refused
        exact proper _ rfl
  unfold ofRequest at refused
  split at refused
  · cases refused
  split at refused
  · cases refused
    decide
  · unfold ifReading at refused
    split at refused <;> cases refused
    decide
  · unfold ifReading at refused
    split at refused <;> cases refused
    decide
  · exact ofAttempt (Call.proper_onCollection request) refused
  · exact ofAttempt (Call.proper_onDocument request _) refused

end Intake

end Folio

import Folio.Collection.Basic
import Folio.Proofs.Query.Reading
import Folio.Proofs.Store.Layered

/-!
# Running a session

A session stops at its first refusal and keeps the state that it has reached.
Over a plain store the calls of a session always reach it: reading changes
nothing, and writing does what the store answers.  Over any other store a session goes on
with what the store makes of its calls.
-/

namespace Folio.Session

variable {σ α β : Type}

@[simp]
theorem run_pure (value : α) (desk : Desk σ) :
    (pure value : Session σ α).run desk = (.ok value, desk) := rfl

@[simp]
theorem run_refuse (error : QueryError) (desk : Desk σ) :
    (refuse error : Session σ α).run desk = (.error error, desk) := rfl

@[simp]
theorem run_bind (first : Session σ α) (next : α → Session σ β) (desk : Desk σ) :
    (first >>= next).run desk =
      match first.run desk with
      | (.ok value, after) => (next value).run after
      | (.error error, after) => (.error error, after) := by
  change (StateT.bind first (ExceptT.bindCont next)) desk = _
  simp only [StateT.bind, ExceptT.run]
  rcases first desk with ⟨_ | _, _⟩ <;> rfl

/-- What is made of an answer leaves the state that was reached. -/
theorem run_bind_pure (first : Session σ α) (make : α → β) (desk : Desk σ) :
    (first >>= fun value => pure (make value)).run desk =
      ((first.run desk).1.map make, (first.run desk).2) := by
  rw [run_bind]
  rcases first.run desk with ⟨_ | _, _⟩ <;> rfl

@[simp]
theorem run_mintId (mint : Nat → Json → String) (document : Json) (desk : Desk σ) :
    (mintId mint document : Session σ String).run desk =
      (.ok (mint desk.minted document), { desk with minted := desk.minted + 1 }) := rfl

theorem snd_run_lookUp [DocumentStore σ] (key : String) (desk : Desk σ) :
    ((lookUp key).run desk).2 =
      { desk with store := (DocumentStore.get desk.store key).2 } := by
  change (lookUp key desk).2 = _
  simp only [lookUp]
  rcases DocumentStore.get desk.store key with ⟨error | document, store⟩
  · cases error <;> rfl
  · rfl

theorem run_write_eq [DocumentStore σ] (document : Json) (key : String) (desk : Desk σ) :
    (write document key).run desk =
      ((DocumentStore.insert desk.store document key).1.mapError .store,
        { desk with store := (DocumentStore.insert desk.store document key).2 }) := by
  change write document key desk = _
  simp only [write]
  rcases DocumentStore.insert desk.store document key with ⟨error | ack, store⟩ <;> rfl

section Layered

variable [DocumentStore σ] [Layered σ] {desk after : Desk σ} {key : String}

theorem plain_of_run_lookUp {answer : Except QueryError (Option Json)}
    (looked : (lookUp key).run desk = (answer, after)) :
    Layered.plain after.store = Layered.plain desk.store := by
  have left : after = { desk with store := (DocumentStore.get desk.store key).2 } := by
    rw [← snd_run_lookUp, looked]
  rw [left]
  exact Layered.get desk.store key

theorem insert_of_run_write {document : Json} {ack : Ack}
    (written : (write document key).run desk = (.ok ack, after)) :
    (Layered.plain desk.store).insert document key = .ok (ack, Layered.plain after.store) := by
  rw [run_write_eq] at written
  rcases answer : DocumentStore.insert desk.store document key with ⟨error | ack, next⟩
  · rw [answer] at written
    cases written
  · rw [answer] at written
    cases written
    exact Layered.insert_eq_ok answer

end Layered

/-- Looking a key up finds what is alive there. -/
@[simp]
theorem run_lookUp (key : String) (desk : Desk Store) :
    (lookUp key).run desk = (.ok (desk.store.live? key), desk) := by
  change lookUp key desk = _
  simp only [lookUp, DocumentStore.get, Store.get]
  cases desk.store.live? key <;> rfl

@[simp]
theorem run_write (document : Json) (key : String) (desk : Desk Store) :
    (write document key).run desk =
      match desk.store.insert document key with
      | .ok (ack, next) => (.ok ack, { desk with store := next })
      | .error error => (.error (.store error), desk) := by
  change write document key desk = _
  simp only [write, DocumentStore.insert]
  cases desk.store.insert document key <;> rfl

@[simp]
theorem run_rows (collection view : String) (options : ViewOptions) (desk : Desk Store) :
    (rows collection view options).run desk =
      match desk.store.view collection view options with
      | .ok rows => (.ok rows, desk)
      | .error error => (.error (.store error), desk) := by
  change rows collection view options desk = _
  simp only [rows, DocumentStore.view]
  cases desk.store.view collection view options <;> rfl

/-- The selection that a query asks for is worked out without the store. -/
@[simp]
theorem run_wanted (query : Query) (desk : Desk σ) :
    (Collection.wanted query : Session σ (Option Selection)).run desk =
      match query.reading with
      | .ok fields => (.ok fields, desk)
      | .error refusal => (.error (.malformed refusal), desk) := by
  unfold Collection.wanted Query.reading
  cases query.fields with
  | none => rfl
  | some given =>
      cases given with
      | tree selection => rfl
      | text source =>
          simp only [GivenSelection.resolve]
          cases Selection.read source <;> rfl

end Folio.Session

import Folio.Proofs.Collection.Saving

/-!
# Runs of actions

The actions of a run are carried out one after the other on what the actions before them
left.  An action that saves or deletes acknowledges at most one document, and the keys of
all other documents keep what stands under them.  So a run leaves alone what it does not
acknowledge.
-/

namespace Folio.Collection

open Session

variable {collection : Collection} {desk : Desk Store}

/-- What a collection works on after actions that were carried out one after the other. -/
def deskAfter (collection : Collection) (desk : Desk Store) : List Action → Desk Store
  | [] => desk
  | action :: rest => collection.deskAfter ((collection.perform action).run desk).2 rest

/-- Whether an action saves or deletes. -/
def Action.Writes : Action → Prop
  | .save _ => True
  | .delete _ => True
  | _ => False

/-- The id of the document that an action has saved or deleted, as its answer tells. -/
def Action.written? : Action → Except QueryError Reply → Option String
  | .save _, .ok (.saved id) => some id
  | .delete id, .ok _ => some id
  | _, _ => none

/-- The ids of the documents that a run has saved or deleted. -/
def written (collection : Collection) (desk : Desk Store) : List Action → List String
  | [] => []
  | action :: rest =>
      let outcome := (collection.perform action).run desk
      (action.written? outcome.1).toList ++ collection.written outcome.2 rest

/-! ## One action -/

theorem current?_run_write (document : Json) {key other : String} (different : other ≠ key)
    (desk : Desk Store) :
    ((write document key).run desk).2.store.current? other = desk.store.current? other := by
  rw [run_write]
  cases written : desk.store.insert document key with
  | error error => rfl
  | ok acknowledged =>
      rcases Store.exists_of_insert_eq_ok written with ⟨members, sequence, _, next⟩
      simp only [next]
      exact Store.current?_place_of_ne different _

theorem run_write_of_error {document : Json} {key : String} {error : QueryError}
    (refused : ((write document key).run desk).1 = .error error) :
    ((write document key).run desk).2 = desk := by
  rw [run_write] at refused ⊢
  cases written : desk.store.insert document key with
  | error _ => rfl
  | ok acknowledged =>
      rw [written] at refused
      cases refused

/-- Whether what stands under a key can only have changed if the answer is the id that the
key is made of. -/
def Spares (collection : Collection) (store : Store)
    (outcome : Except QueryError String × Desk Store) : Prop :=
  ∀ key, (∀ id, outcome.1 = .ok id → key ≠ collection.config.privateId id) →
    outcome.2.store.current? key = store.current? key

theorem spares_write (document : Json) (id : String) (desk : Desk Store) :
    Spares collection desk.store
      (((write document (collection.config.privateId id)).run desk).1.map fun _ => id,
        ((write document (collection.config.privateId id)).run desk).2) := by
  intro key apart
  cases answer : ((write document (collection.config.privateId id)).run desk).1 with
  | error error =>
      simp only
      rw [run_write_of_error answer]
  | ok ack => exact current?_run_write _ (apart id (by rw [answer]; rfl)) desk

theorem spares_store (members : Fields Json) (id : String) (revision : Option Json)
    (desk : Desk Store) :
    Spares collection desk.store ((collection.store members id revision).run desk) := by
  rw [store_eq, run_bind_pure]
  exact spares_write _ id desk

theorem spares_save (entry : Json) (desk : Desk Store) :
    Spares collection desk.store ((collection.save entry).run desk) := by
  rcases save_cases Store collection entry with
    ⟨refusal, same⟩ | ⟨members, id, same⟩ | ⟨members, same⟩
  · rw [same]
    exact fun _ _ => rfl
  · rw [same, run_bind, run_lookUp]
    exact spares_store members id _ desk
  · rw [same, run_bind, run_mintId]
    exact spares_store members _ none { desk with minted := desk.minted + 1 }

/-- Deleting changes at most what stands under the key of the id. -/
theorem spares_delete (id : String) (desk : Desk Store) :
    Spares collection desk.store
      (((collection.delete id).run desk).1.map fun _ => id,
        ((collection.delete id).run desk).2) := by
  simp only [delete]
  rw [run_bind, run_lookUp]
  cases alive : desk.store.live? (collection.config.privateId id) with
  | none => exact fun _ _ => rfl
  | some document =>
      have forget (answer : Except QueryError Ack) :
          (answer.map fun _ => ()).map (fun _ => id) = answer.map fun _ => id := by
        cases answer <;> rfl
      simp only
      rw [run_bind_pure, forget]
      exact spares_write _ id desk

theorem run_perform_save (entry : Json) (desk : Desk Store) :
    (collection.perform (.save entry)).run desk =
      (((collection.save entry).run desk).1.map .saved, ((collection.save entry).run desk).2) :=
  run_bind_pure _ _ _

theorem run_perform_delete (id : String) (desk : Desk Store) :
    (collection.perform (.delete id)).run desk =
      (((collection.delete id).run desk).1.map fun _ => .done,
        ((collection.delete id).run desk).2) :=
  run_bind_pure _ _ _

/-- What stands under a key stays if the action does not acknowledge its document. -/
theorem current?_perform {action : Action} (writes : action.Writes) {key : String}
    (apart : ∀ id, action.written? ((collection.perform action).run desk).1 = some id →
      key ≠ collection.config.privateId id) :
    ((collection.perform action).run desk).2.store.current? key = desk.store.current? key := by
  cases action with
  | prepare => exact writes.elim
  | find query => exact writes.elim
  | save entry =>
      rw [run_perform_save] at apart ⊢
      apply spares_save entry desk
      intro id saved
      exact apart id (by rw [saved]; rfl)
  | delete id =>
      rw [run_perform_delete] at apart ⊢
      apply spares_delete id desk
      intro answered deleted
      cases answer : ((collection.delete id).run desk).1 with
      | error error =>
          rw [answer] at deleted
          cases deleted
      | ok done =>
          rw [answer] at deleted
          cases deleted
          exact apart _ (by rw [answer]; rfl)

/-- Saving and deleting lead from stores that can be reached to others. -/
theorem reached_perform (reached : desk.store.Reached) {action : Action} (writes : action.Writes) :
    ((collection.perform action).run desk).2.store.Reached := by
  have onward {next : Store} (changes : Changes collection desk.store next) : next.Reached := by
    cases changes with
    | nothing => exact reached
    | write written => exact reached.insert written
  cases action with
  | prepare => exact writes.elim
  | find query => exact writes.elim
  | save entry =>
      rw [run_perform_save]
      exact onward (changes_save entry desk)
  | delete id =>
      rw [run_perform_delete]
      exact onward (changes_delete id desk)

/-! ## Runs -/

/-- What stands under a key stays in a run that does not acknowledge its document. -/
theorem current?_deskAfter {actions : List Action} (writes : ∀ action ∈ actions, action.Writes)
    {key : String}
    (apart : ∀ id ∈ collection.written desk actions, key ≠ collection.config.privateId id) :
    (collection.deskAfter desk actions).store.current? key = desk.store.current? key := by
  induction actions generalizing desk with
  | nil => rfl
  | cons action rest ih =>
      rw [List.forall_mem_cons] at writes
      simp only [written, List.mem_append, Option.mem_toList] at apart
      rw [deskAfter, ih writes.2 fun id member => apart id (.inr member)]
      exact current?_perform writes.1 fun id acknowledged => apart id (.inl acknowledged)

theorem reached_deskAfter (reached : desk.store.Reached) {actions : List Action}
    (writes : ∀ action ∈ actions, action.Writes) :
    (collection.deskAfter desk actions).store.Reached := by
  induction actions generalizing desk with
  | nil => exact reached
  | cons action rest ih =>
      rw [List.forall_mem_cons] at writes
      exact ih (reached_perform reached writes.1) writes.2

/-! ## Runs and catalogues -/

/-- What is left of a register after actions that were carried out one after the other. -/
def Register.after (collection : Collection) (register : Register) : List Action → Register
  | [] => register
  | action :: rest => Register.after collection (Register.step collection register action).2 rest

/-- A run leaves a store that represents the catalogue that it leaves. -/
theorem represents_deskAfter {register : Register}
    (represents : Represents collection desk.store register.catalogue)
    (minted : desk.minted = register.minted) {actions : List Action}
    (wellFormed : ∀ action ∈ actions, action.WellFormed) :
    Represents collection (collection.deskAfter desk actions).store
      (Register.after collection register actions).catalogue := by
  induction actions generalizing desk register with
  | nil => exact represents
  | cons action rest ih =>
      rw [List.forall_mem_cons] at wellFormed
      obtain ⟨_, nextMinted, next⟩ := agrees_perform represents minted wellFormed.1
      exact ih next nextMinted wellFormed.2

theorem represents_prepared (collection : Collection) :
    Represents collection collection.prepared.store Catalogue.empty := by
  rcases run_prepare ⟨Store.empty, 0⟩ (mirrors_empty collection.config)
    (Store.replaceable_of_live?_eq_none rfl) with ⟨store, run, represents⟩
  rwa [prepared, run]

end Folio.Collection

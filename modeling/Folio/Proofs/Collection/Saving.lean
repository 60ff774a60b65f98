import Folio.Proofs.Collection.Serving

/-!
# What operations write

Saving and deleting write at most once, under a key of the collection, so the collection
stays set up.  A document that was saved is seen under its id as what was kept of its
entry.
-/

namespace Folio.Collection

open Session

variable {collection : Collection} {store next : Store} {desk after : Desk Store}

/-! ## At most one write -/

/-- What an operation of a collection may do to its store: nothing, or one write under a
key of the collection. -/
inductive Changes (collection : Collection) (store : Store) : Store → Prop
  | nothing : Changes collection store store
  | write {id : String} {document : Json} {ack : Ack} {next : Store}
      (written : store.insert document (collection.config.privateId id) = .ok (ack, next)) :
      Changes collection store next

/-- A collection stays set up. -/
theorem Initialised.changes (initialised : Initialised collection store)
    (changes : Changes collection store next) : Initialised collection next := by
  cases changes with
  | nothing => exact initialised
  | write written => exact initialised.insert (collection.config.privateId_ne_designId _) written

theorem changes_write (document : Json) (id : String) (desk : Desk Store) :
    Changes collection desk.store
      ((write document (collection.config.privateId id)).run desk).2.store := by
  rw [run_write]
  cases written : desk.store.insert document (collection.config.privateId id) with
  | error error => exact .nothing
  | ok acknowledged => exact .write written

theorem changes_store (members : Fields Json) (id : String) (revision : Option Json)
    (desk : Desk Store) :
    Changes collection desk.store ((collection.store members id revision).run desk).2.store := by
  rw [store_eq, run_bind_pure]
  exact changes_write _ id desk

/-- Saving an entry writes at most once. -/
theorem changes_save (entry : Json) (desk : Desk Store) :
    Changes collection desk.store ((collection.save entry).run desk).2.store := by
  rcases save_cases Store collection entry with
    ⟨refusal, same⟩ | ⟨members, id, same⟩ | ⟨members, same⟩
  · rw [same]
    exact .nothing
  · rw [same, run_bind, run_lookUp]
    exact changes_store members id _ desk
  · rw [same, run_bind, run_mintId]
    exact changes_store members _ none { desk with minted := desk.minted + 1 }

/-- Deleting a document writes at most once. -/
theorem changes_delete (id : String) (desk : Desk Store) :
    Changes collection desk.store ((collection.delete id).run desk).2.store := by
  simp only [delete]
  rw [run_bind, run_lookUp]
  cases desk.store.live? (collection.config.privateId id) with
  | none => exact .nothing
  | some document =>
      simp only
      rw [run_bind_pure]
      exact changes_write _ id desk

/-! ## What was saved -/

/-- An entry is saved as a document: as what is kept of it, under the id that it gives or
else under the one that is minted. -/
def SavedAs (collection : Collection) (minted : Nat) (entry : Json) (id : String)
    (document : Json) : Prop :=
  ∃ members, entry = .object members ∧
    document = Catalogue.document (id, Register.kept collection (Register.payload members)) ∧
    match givenId (Fields.get? members "id") with
    | .given given => id = given
    | .absent => id = collection.mint minted
        (.object (Register.kept collection (Register.payload members)))
    | .unusable _ => False

/-- Plain members that were stored are seen. -/
theorem seen?_of_store {members : Fields Json} (plain : Plain members) {id saved : String}
    {revision : Option Json}
    (ended : (collection.store members id revision).run desk = (.ok saved, after)) :
    saved = id ∧
      collection.seen? after.store id = some (Catalogue.document (id, members)) := by
  rw [store_eq, run_bind_pure, run_write] at ended
  cases written : desk.store.insert
      (.object (carrying (Fields.put members "id" (.string id)) revision))
      (collection.config.privateId id) with
  | error error =>
      rw [written] at ended
      cases ended
  | ok acknowledged =>
      rw [written] at ended
      cases ended
      rcases Store.exists_of_insert_eq_ok written with ⟨_, sequence, same, next⟩
      cases same
      rcases revised_named collection.config id plain sequence with ⟨text, named⟩
      have alive : acknowledged.2.live? (collection.config.privateId id) =
          some (.object (stored collection.config id members text)) := by
        rw [Store.live?_eq_some_iff, next, Store.current?_place_self,
          revised_carrying (plain.revision_not_mem_named id), named]
        exact ⟨rfl, isDeleted_stored plain⟩
      refine ⟨rfl, ?_⟩
      rw [seen?, alive]
      exact published?_stored collection plain

/-- What was saved under an id, or under the one that was minted, is seen. -/
theorem seen?_of_saveAs {body : Fields Json} (plain : Plain (withoutPrivate body))
    {given : Option String} {id : String}
    (saved : (collection.saveAs given body).run desk = (.ok id, after)) :
    id = given.getD (collection.mint desk.minted
        (.object (Register.kept collection (withoutPrivate body)))) ∧
      collection.seen? after.store id =
        some (Catalogue.document (id, Register.kept collection (withoutPrivate body))) := by
  have keptPlain := plain_kept collection plain
  unfold saveAs at saved
  rw [admitted_eq] at saved
  by_cases foreign : Register.isForeign collection (withoutPrivate body)
  · rw [if_pos foreign] at saved
    cases saved
  · rw [if_neg foreign] at saved
    cases given with
    | some given =>
        simp only at saved
        rw [run_bind, run_lookUp] at saved
        rcases seen?_of_store keptPlain saved with ⟨rfl, seen⟩
        exact ⟨rfl, seen⟩
    | none =>
        simp only at saved
        rw [run_bind, run_mintId] at saved
        rcases seen?_of_store keptPlain saved with ⟨rfl, seen⟩
        exact ⟨rfl, seen⟩

/-- What was saved is seen. -/
theorem exists_savedAs {entry : Json}
    (distinct : ∀ members, entry = .object members → (Fields.names members).Nodup) {id : String}
    (saved : (collection.save entry).run desk = (.ok id, after)) :
    ∃ document, SavedAs collection desk.minted entry id document ∧
      collection.seen? after.store id = some document := by
  cases entry with
  | object members =>
      have plain := plain_payload (distinct members rfl)
      simp only [save] at saved
      cases said : givenId (Fields.get? members "id") with
      | absent =>
          rw [said] at saved
          rcases seen?_of_saveAs plain saved with ⟨minted, seen⟩
          exact ⟨_, ⟨members, rfl, rfl, by rw [said]; exact minted⟩, seen⟩
      | given id =>
          rw [said] at saved
          rcases seen?_of_saveAs plain saved with ⟨given, seen⟩
          exact ⟨_, ⟨members, rfl, rfl, by rw [said]; exact given⟩, seen⟩
      | unusable value =>
          rw [said] at saved
          cases saved
  | null => cases saved
  | bool _ => cases saved
  | number _ => cases saved
  | string _ => cases saved
  | array _ => cases saved

end Folio.Collection

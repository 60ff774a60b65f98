import Folio.Proofs.Collection.Refinement
import Folio.Proofs.Store.Reached

/-!
# Stores that serve a collection

A store serves a collection from the time on that the collection was set up in it,
whatever the store held before and whatever else is written into it.  Every document
in a store carries the key under which it stands, because the store writes it there.
So what is alive under the keys of the collection is what a reader sees, and saving,
finding and deleting keep it so.
-/

namespace Folio.Collection

open Session

variable {collection : Collection} {store : Store}

/-- The stores in which a collection was set up.  Whatever the store held before stays,
and everything but the design document may be written afterwards. -/
inductive Initialised (collection : Collection) : Store → Prop
  | prepare {store : Store} {desk : Desk Store} {minted : Nat} (reached : store.Reached)
      (prepared : (collection.prepare).run ⟨store, minted⟩ = (.ok (), desk)) :
      Initialised collection desk.store
  | insert {store next : Store} {document : Json} {key : String} {ack : Ack}
      (initialised : Initialised collection store) (beside : key ≠ collection.config.designId)
      (written : store.insert document key = .ok (ack, next)) : Initialised collection next
  | restore {store : Store} {document : Json} (initialised : Initialised collection store)
      (beside : document.stringMember? idMember ≠ some collection.config.designId) :
      Initialised collection (store.restore document)

/-- Setting up writes the design document, in the place of the one that is found. -/
theorem exists_insert_of_prepare {σ : Type} [DocumentStore σ] [Layered σ] {desk after : Desk σ}
    (prepared : (collection.prepare).run desk = (.ok (), after)) :
    ∃ document ack, (Layered.plain desk.store).insert document collection.config.designId =
        .ok (ack, Layered.plain after.store) ∧
      ∃ revision, (Layered.plain after.store).current? collection.config.designId =
        some (collection.declaration revision) := by
  rw [prepare_eq, run_bind] at prepared
  rcases looked : (lookUp collection.config.designId).run desk with ⟨error | existing, between⟩
  · rw [looked] at prepared
    cases prepared
  · rw [looked] at prepared
    dsimp only at prepared
    rw [run_bind_pure] at prepared
    rcases outcome : (write (.object (carrying collection.design
      (existing.bind (Json.member? · revisionMember)))) collection.config.designId).run between with
        ⟨error | ack, reached⟩
    · rw [outcome] at prepared
      cases prepared
    · rw [outcome] at prepared
      cases prepared
      have written := insert_of_run_write outcome
      rw [plain_of_run_lookUp looked] at written
      refine ⟨_, ack, written, ?_⟩
      rcases Store.exists_of_insert_eq_ok written with ⟨members, sequence, same, next⟩
      cases same
      rcases exists_revised_design collection sequence with ⟨revision, declared⟩
      rw [next, revised_carrying (revision_not_mem_design collection), declared]
      exact ⟨revision, Store.current?_place_self _ _ _⟩

namespace Initialised

variable (initialised : Initialised collection store)
include initialised

theorem reached : store.Reached := by
  induction initialised with
  | prepare reached prepared =>
      rcases exists_insert_of_prepare prepared with ⟨document, ack, written, _⟩
      exact reached.insert written
  | insert _ _ written ih => exact ih.insert written
  | @restore _ document _ _ ih => exact ih.restore document

theorem keyed : store.Keyed := initialised.reached.keyed

/-- The design document stays as it was written. -/
theorem declared : ∃ revision, store.current? collection.config.designId =
    some (collection.declaration revision) := by
  induction initialised with
  | prepare _ prepared =>
      rcases exists_insert_of_prepare prepared with ⟨_, _, _, declared⟩
      exact declared
  | insert _ beside written ih =>
      rcases Store.exists_of_insert_eq_ok written with ⟨members, sequence, _, rfl⟩
      rwa [Store.current?_place_of_ne (Ne.symm beside)]
  | @restore store document _ beside ih =>
      unfold Store.restore
      split
      · rename_i key carries
        rwa [Store.current?_place_of_ne]
        rintro rfl
        exact beside carries
      · exact ih

/-- Where a collection was set up the store serves it. -/
theorem serves : Serves collection store where
  keyed alive := initialised.keyed (Store.live?_eq_some_iff.mp alive).1
  declared := initialised.declared

end Initialised

/-- What a collection works on when it was set up on the empty store. -/
def prepared (collection : Collection) : Desk Store :=
  ((collection.prepare).run ⟨Store.empty, 0⟩).2

/-- Every collection can be set up on the empty store. -/
theorem initialised_prepared (collection : Collection) :
    Initialised collection collection.prepared.store := by
  rcases run_prepare ⟨Store.empty, 0⟩ (mirrors_empty collection.config)
    (Store.replaceable_of_live?_eq_none rfl) with ⟨store, run, _⟩
  have answered : ((collection.prepare).run (⟨Store.empty, 0⟩ : Desk Store)).1 = .ok () := by
    rw [run]
  exact .prepare .empty (Prod.ext answered rfl)

end Folio.Collection

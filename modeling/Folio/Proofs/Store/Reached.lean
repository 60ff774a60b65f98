import Folio.Proofs.Store.Revision
import Folio.Proofs.Store.Write

/-!
# Stores that can be reached

A store comes about by writes and by documents that are put back.  A write puts the key
of a document into it, and what is put back goes under the key that it carries, so in
every such store the documents carry the keys under which they stand.
-/

namespace Folio.Store

/-- The stores that writes, and documents that are put back, lead to. -/
inductive Reached : Store → Prop
  | empty : Reached .empty
  | insert {store next : Store} {document : Json} {key : String} {ack : Ack}
      (reached : Reached store) (written : store.insert document key = .ok (ack, next)) :
      Reached next
  | restore {store : Store} (reached : Reached store) (document : Json) :
      Reached (store.restore document)

/-- Whether every document carries the key under which it stands. -/
def Keyed (store : Store) : Prop :=
  ∀ ⦃key document⦄, store.current? key = some document →
    document.stringMember? idMember = some key

variable {store next : Store} {document : Json} {key : String}

theorem Keyed.place (keyed : store.Keyed) (carries : document.stringMember? idMember = some key) :
    (store.place key document).Keyed := by
  intro other found current
  by_cases same : other = key
  · subst same
    rw [current?_place_self] at current
    cases current
    exact carries
  · rw [current?_place_of_ne same] at current
    exact keyed current

theorem Keyed.insert (keyed : store.Keyed) {ack : Ack}
    (written : store.insert document key = .ok (ack, next)) : next.Keyed := by
  rcases exists_of_insert_eq_ok written with ⟨members, sequence, _, rfl⟩
  apply keyed.place
  rw [Json.stringMember?, key_revised]
  rfl

theorem Keyed.restore (keyed : store.Keyed) (document : Json) :
    (store.restore document).Keyed := by
  unfold Store.restore
  split
  · rename_i carries
    exact keyed.place carries
  · exact keyed

/-- In every store that can be reached the documents carry their keys. -/
theorem Reached.keyed (reached : store.Reached) : store.Keyed := by
  induction reached with
  | empty =>
      intro key document current
      contradiction
  | insert _ written ih => exact ih.insert written
  | restore _ document ih => exact ih.restore document

end Folio.Store

import Folio.Proofs.Json.Equality
import Folio.Proofs.Store.Reached

/-!
# Stores of proper values

A value is proper when no object in it repeats a name.  Writing and putting back proper
values leaves proper values, and a proper value equals itself.  So whatever a document of
such a store holds as its revision, be it no text or nothing at all, may be given back to
replace the document.
-/

namespace Folio.Store

/-- The stores that writes of proper values, and proper values that are put back, lead to. -/
inductive Proper : Store → Prop
  | empty : Proper .empty
  | insert {store next : Store} {document : Json} {key : String} {ack : Ack}
      (proper : Proper store) (wellFormed : document.WellFormed)
      (written : store.insert document key = .ok (ack, next)) : Proper next
  | restore {store : Store} {document : Json} (proper : Proper store)
      (wellFormed : document.WellFormed) : Proper (store.restore document)

theorem wellFormed_revised {members : Fields Json} (wellFormed : (Json.object members).WellFormed)
    (sequence : Nat) (key : String) : (revised sequence members key).document.WellFormed := by
  apply Json.wellFormed_put
  · apply Json.wellFormed_put
    · exact Json.wellFormed_erase wellFormed revisionMember
    · trivial
  · trivial

theorem wellFormed_of_place {store : Store} {place : String} {value : Json}
    (held : ∀ ⦃key document⦄, store.current? key = some document → document.WellFormed)
    (wellFormed : value.WellFormed) {key : String} {document : Json}
    (current : (store.place place value).current? key = some document) :
    document.WellFormed := by
  by_cases same : key = place
  · rw [same, current?_place_self] at current
    cases current
    exact wellFormed
  · rw [current?_place_of_ne same] at current
    exact held current

namespace Proper

variable {store : Store} (proper : store.Proper)
include proper

theorem reached : store.Reached := by
  induction proper with
  | empty => exact .empty
  | insert _ _ written ih => exact ih.insert written
  | restore _ _ ih => exact ih.restore _

/-- Everything in the store is a proper value. -/
theorem wellFormed ⦃key : String⦄ ⦃document : Json⦄
    (current : store.current? key = some document) : document.WellFormed := by
  induction proper generalizing key document with
  | empty => contradiction
  | insert _ wellFormed written ih =>
      rcases exists_of_insert_eq_ok written with ⟨members, sequence, rfl, rfl⟩
      exact wellFormed_of_place ih (wellFormed_revised wellFormed sequence _) current
  | restore _ wellFormed ih =>
      unfold Store.restore at current
      split at current
      · exact wellFormed_of_place ih wellFormed current
      · exact ih current

/-- Whatever is alive may be replaced by whoever gives back what it holds as its revision. -/
theorem replaceable (key : String) : store.Replaceable key := by
  intro document alive
  have wellFormed := proper.wellFormed (live?_eq_some_iff.mp alive).1
  cases carries : document.member? revisionMember with
  | none => rfl
  | some revision => exact Json.same_self (Json.wellFormed_of_member? wellFormed carries)

theorem exists_members {key : String} {document : Json}
    (alive : store.live? key = some document) : ∃ members, document = .object members := by
  have carries := proper.reached.keyed (live?_eq_some_iff.mp alive).1
  rcases Option.bind_eq_some_iff.mp carries with ⟨id, member, -⟩
  rcases Json.member?_eq_some_iff.mp member with ⟨members, isObject, -⟩
  exact ⟨members, isObject⟩

end Proper

end Folio.Store

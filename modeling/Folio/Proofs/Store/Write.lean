import Folio.Proofs.Attempt
import Folio.Proofs.Store.Entries

/-!
# What a write does

A write of an object is accepted or refused by the revision alone.  When it is
accepted the store differs only under its key; when it is refused nothing changes.
-/

namespace Folio.Store

variable {store : Store} {key : String} {members : Fields Json}

/-- An object is made ready when its revision is accepted, and nothing else is. -/
theorem revise_eq_ok_iff {document : Json} {revision : Revision} :
    store.revise document key = .ok revision ↔
      ∃ members, document = .object members ∧
        store.accepts key (Fields.get? members revisionMember) = true ∧
        revised (((store.current? key).map Json.sequence).getD 0) members key = revision := by
  cases document with
  | object members =>
      rw [revise]
      split
      · rename_i accepted
        simp [accepted]
      · rename_i refused
        simp [refused]
  | null => simp [revise]
  | bool truth => simp [revise]
  | number number => simp [revise]
  | string text => simp [revise]
  | array items => simp [revise]

/-- A document that cannot be made ready is not stored. -/
theorem insert_of_revise_error {document : Json} {error : StoreError}
    (failed : store.revise document key = .error error) :
    store.insert document key = .error error := by
  rw [insert, failed]
  rfl

theorem insert_of_revise_ok {document : Json} {revision : Revision}
    (ready : store.revise document key = .ok revision) :
    store.insert document key = .ok (revision.ack, store.keep revision) := by
  rw [insert, ready]
  rfl

/-- An accepted write puts the revised document under its key. -/
theorem insert_of_accepts
    (accepted : store.accepts key (Fields.get? members revisionMember) = true) :
    store.insert (.object members) key =
      .ok ((revised (((store.current? key).map Json.sequence).getD 0) members key).ack,
        store.place key
          (revised (((store.current? key).map Json.sequence).getD 0) members key).document) :=
  insert_of_revise_ok (revise_eq_ok_iff.mpr ⟨members, rfl, accepted, rfl⟩)

theorem insert_of_not_accepts
    (refused : store.accepts key (Fields.get? members revisionMember) = false) :
    store.insert (.object members) key =
      .error (.conflict s!"{key}: document update conflict") := by
  apply insert_of_revise_error
  rw [revise, if_neg (Bool.eq_false_iff.mp refused)]

/-- Making a document ready depends only on what is alive under the key and on the sequence
number there. -/
theorem revise_congr {first second : Store} (live : first.live? key = second.live? key)
    (sequence : ((first.current? key).map Json.sequence).getD 0 =
      ((second.current? key).map Json.sequence).getD 0) (document : Json) :
    first.revise document key = second.revise document key := by
  cases document with
  | object members =>
      have accepted : first.accepts key (Fields.get? members revisionMember) =
          second.accepts key (Fields.get? members revisionMember) := by
        rw [accepts, accepts, live]
      simp only [revise, accepted, sequence]
  | null => rfl
  | bool truth => rfl
  | number number => rfl
  | string text => rfl
  | array items => rfl

/-- A write that succeeds was one of an object, and put its revision under its key. -/
theorem exists_of_insert_eq_ok {document : Json} {ack : Ack} {next : Store}
    (written : store.insert document key = .ok (ack, next)) :
    ∃ members sequence, document = .object members ∧
      next = store.place key (revised sequence members key).document := by
  rcases map_eq_ok_iff.mp written with ⟨revision, ready, same⟩
  rcases revise_eq_ok_iff.mp ready with ⟨members, rfl, _, rfl⟩
  cases same
  exact ⟨members, _, rfl, rfl⟩

/-- Where nothing is alive every revision is accepted. -/
theorem accepts_of_live?_eq_none (dead : store.live? key = none) (given : Option Json) :
    store.accepts key given = true := by
  simp [accepts, dead]

theorem accepts_of_live?_eq_some {document : Json} (alive : store.live? key = some document)
    (given : Option Json) :
    store.accepts key given = sameRevision given (document.member? revisionMember) := by
  simp [accepts, alive]

/-- Whether the revision of what is alive under a key is accepted when it is given back. -/
def Replaceable (store : Store) (key : String) : Prop :=
  ∀ document, store.live? key = some document →
    sameRevision (document.member? revisionMember) (document.member? revisionMember) = true

theorem replaceable_of_live?_eq_none (dead : store.live? key = none) : store.Replaceable key := by
  intro document alive
  rw [dead] at alive
  contradiction

/-- Whoever gives back the revision of what is alive, or none if nothing is, may write. -/
theorem Replaceable.accepts (replaceable : store.Replaceable key) :
    store.accepts key ((store.live? key).bind (Json.member? · revisionMember)) = true := by
  cases alive : store.live? key with
  | none => exact accepts_of_live?_eq_none alive _
  | some document =>
      rw [accepts_of_live?_eq_some alive]
      exact replaceable document alive

theorem Replaceable.accepts_marked (replaceable : store.Replaceable key)
    (alive : store.live? key = some (.object members)) :
    store.accepts key (Fields.get? (Fields.put members deletedMember (.bool true))
      revisionMember) = true := by
  have given := replaceable.accepts
  rw [alive] at given
  rw [Fields.get?_put_of_ne _ _ (by decide)]
  exact given

end Folio.Store

namespace Folio

theorem sameRevision_string_iff {given : Option Json} {revision : String} :
    sameRevision given (some (.string revision)) = true ↔ given = some (.string revision) := by
  cases given with
  | none => simp [sameRevision]
  | some value => cases value <;> simp [sameRevision, Json.same]

/-- A text may always be given back. -/
theorem Store.replaceable_of_string {store : Store} {key : String}
    (readable : ∀ document, store.live? key = some document →
      ∃ revision, document.member? revisionMember = some (.string revision)) :
    store.Replaceable key := by
  intro document alive
  rcases readable document alive with ⟨revision, carries⟩
  rw [carries]
  exact sameRevision_string_iff.mpr rfl

end Folio

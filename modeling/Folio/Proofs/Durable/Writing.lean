import Folio.Proofs.Attempt
import Folio.Proofs.Store.Write
import Folio.Store.Durable

/-!
# Opening and writing

A data directory is opened when its journal can be replayed and another segment can be
started.  A document that the store makes ready is written into the journal first, and
kept only if that succeeds.
-/

namespace Folio.DurableStore

theorem start_eq_ok_iff {volume : Volume} {dataDirectory : Path} {now : Nat}
    {durable : DurableStore} :
    start volume dataDirectory now = .ok durable ↔
      replay volume (journalIn dataDirectory) = .ok durable.store ∧
        Journal.start volume (journalIn dataDirectory) now =
          .ok (durable.volume, durable.journal) := by
  constructor
  · intro started
    rcases bind_eq_ok_iff.mp started with ⟨store, replayed, started⟩
    rcases bind_eq_ok_iff.mp started with ⟨⟨opened, journal⟩, begun, same⟩
    cases same
    exact ⟨replayed, begun⟩
  · rintro ⟨replayed, begun⟩
    exact bind_eq_ok_iff.mpr ⟨_, replayed, bind_eq_ok_iff.mpr ⟨_, begun, rfl⟩⟩

variable {durable : DurableStore} {refused : Bool} {document : Json} {key : String}
  {revision : Revision} {volume : Volume}

/-- A document that cannot be made ready is not written. -/
theorem insert_of_revise_error {error : StoreError}
    (failed : durable.store.revise document key = .error error) :
    durable.insert refused document key = .error error := by
  rw [insert, failed]
  rfl

theorem insert_of_append_ok (ready : durable.store.revise document key = .ok revision)
    (wrote : durable.journal.append durable.volume refused ⟨key, revision.document⟩ =
      .ok volume) :
    durable.insert refused document key =
      .ok (revision.ack, ⟨durable.store.keep revision, durable.journal, volume⟩) := by
  rw [insert, ready]
  simp only [bind, Except.bind, wrote]
  rfl

theorem insert_of_append_error (ready : durable.store.revise document key = .ok revision)
    {error : FileError}
    (failed : durable.journal.append durable.volume refused ⟨key, revision.document⟩ =
      .error error) :
    durable.insert refused document key = .error (.io error.message) := by
  rw [insert, ready]
  simp only [bind, Except.bind, failed]
  rfl

end Folio.DurableStore

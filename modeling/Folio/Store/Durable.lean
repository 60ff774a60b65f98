import Folio.Journal.Basic
import Folio.Store.View

/-!
# The durable store

A durable store keeps its documents in a store and writes every document into a
journal before it becomes visible.  Opening it replays the journal.  A write that
the journal refuses changes nothing.
-/

namespace Folio

/-- A store whose writes go into a journal on a volume. -/
structure DurableStore where
  store : Store
  journal : Journal
  volume : Volume

namespace DurableStore

/-- The directory of the journal inside a data directory. -/
def journalIn (dataDirectory : Path) : Path := dataDirectory.join "wal"

/-- The store that records make up: every document goes under the key that it
carries. -/
def ofRecords (entries : List JournalRecord) : Store :=
  entries.foldl (fun store entry => store.restore entry.document) Store.empty

/-- The store that a journal records. -/
def replay (volume : Volume) (directory : Path) : Except FileError Store :=
  (Journal.replay volume directory).map ofRecords

/-- Open a data directory. -/
def start (volume : Volume) (dataDirectory : Path) (now : Nat) :
    Except FileError DurableStore := do
  let store ← replay volume (journalIn dataDirectory)
  let (volume, journal) ← Journal.start volume (journalIn dataDirectory) now
  return ⟨store, journal, volume⟩

/-- Write a document under a key. -/
def insert (durable : DurableStore) (refused : Bool) (document : Json) (key : String) :
    Except StoreError (Ack × DurableStore) := do
  let revision ← durable.store.revise document key
  match durable.journal.append durable.volume refused ⟨key, revision.document⟩ with
  | .ok volume =>
      return (revision.ack, ⟨durable.store.keep revision, durable.journal, volume⟩)
  | .error error => throw (.io error.message)

end DurableStore

end Folio

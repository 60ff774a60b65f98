import Folio.Proofs.Store.Reached
import Folio.Store.Durable

/-!
# What records make up

Records are put back one after the other, each under the key that its document carries.
So under a key stands the document of the last record that carries it, whatever key the
record itself names, and a store that records make up is one that can be reached.
-/

namespace Folio

/-- What stands under a key when a document was put back: the document if it carries the
key, else what stood there. -/
theorem Store.current?_restore (store : Store) (document : Json) (key : String) :
    (store.restore document).current? key =
      if document.stringMember? idMember = some key then some document
      else store.current? key := by
  unfold Store.restore
  split
  · rename_i place carries
    rw [carries]
    by_cases same : place = key
    · rw [same, current?_place_self, if_pos rfl]
    · rw [current?_place_of_ne (Ne.symm same), if_neg (by simpa using same)]
  · rename_i carries
    rw [carries, if_neg nofun]

namespace DurableStore

/-- Of the documents in records, the last one that carries a key. -/
def latest? (records : List JournalRecord) (key : String) : Option Json :=
  ((records.map JournalRecord.document).filter fun document =>
    document.stringMember? idMember = some key).getLast?

variable {records : List JournalRecord} {key : String} {document : Json}

theorem latest?_concat (records : List JournalRecord) (entry : JournalRecord) (key : String) :
    latest? (records ++ [entry]) key =
      if entry.document.stringMember? idMember = some key then some entry.document
      else latest? records key := by
  by_cases carries : entry.document.stringMember? idMember = some key
  · simp [latest?, carries]
  · simp [latest?, carries]

theorem latest?_eq_none_iff : latest? records key = none ↔
    ∀ entry ∈ records, entry.document.stringMember? idMember ≠ some key := by
  simp [latest?]

theorem latest?_of_last {front rest : List JournalRecord} {entry : JournalRecord}
    (carries : entry.document.stringMember? idMember = some key)
    (last : ∀ later ∈ rest, later.document.stringMember? idMember ≠ some key) :
    latest? (front ++ entry :: rest) key = some entry.document := by
  have behind : (rest.map JournalRecord.document).filter (fun document =>
      document.stringMember? idMember = some key) = [] := by
    simpa [List.filter_eq_nil_iff] using last
  simp [latest?, carries, behind]

/-- Records make up the store that holds under each key the document of the last record
that carries it. -/
theorem current?_ofRecords_eq_latest? (records : List JournalRecord) (key : String) :
    (ofRecords records).current? key = latest? records key := by
  induction records using List.reverseRecOn with
  | nil => rfl
  | append_singleton front entry ih =>
      rw [ofRecords, List.foldl_concat, ← ofRecords, Store.current?_restore, ih, latest?_concat]

theorem reached_ofRecords (records : List JournalRecord) : (ofRecords records).Reached := by
  induction records using List.reverseRecOn with
  | nil => exact .empty
  | append_singleton front entry ih =>
      rw [ofRecords, List.foldl_concat]
      exact ih.restore entry.document

end DurableStore

end Folio

import Folio.Command.Run
import Folio.Proofs.Durable.Latest
import Folio.Proofs.Durable.Writing
import Folio.Proofs.Journal.Contents
import Folio.Proofs.Store.Reading
import Folio.Store.Access
import Folio.Collection.Basic

/-!
# Documents that are written out

What is written out of a data directory is what a store serves that is opened there.  The
documents of a collection are found in two ways: the command asks whether the key that a
document carries starts with the name of the collection, the view scans the keys from
there on.  Both find the same documents in the same order, because the documents carry the
keys under which they stand.
-/

namespace Folio

namespace Command

open DurableStore

/-- What is written of documents: each on a line of its own. -/
def printed (documents : List Json) : String :=
  String.join (documents.map fun document => document.text ++ "\n")

variable {store : Store}

theorem dumped_none (store : Store) : dumped none store = store.documents :=
  List.filter_eq_self.mpr fun _ _ => rfl

/-- The documents of a collection are the values of the rows for the keys that start with
its name. -/
theorem dumped_eq_values (keyed : store.Keyed) (collection : String) (includeDocuments : Bool) :
    dumped (some collection) store =
      (store.rowsFrom (collection ++ "-") { includeDocuments }).map ViewRow.value := by
  rw [dumped, keyed.rowsFrom_eq_filterMap, List.map_filterMap, ← List.filterMap_eq_filter]
  apply List.filterMap_congr
  intro document member
  -- The command reads the key in the document, the view the one it stands under.
  rcases keyed.exists_key_of_mem member with ⟨key, carries⟩
  by_cases starts : Text.startsWith (collection ++ "-") key <;>
    simp [Store.rowOf?, carries, starts]

/-- Where the journal of a data directory can be replayed, the command writes out what it
is replayed to. -/
theorem run_dump {arguments : List String} {volume : Volume} {here : List String}
    {directory : String} {collection : Option String}
    (taken : ofArguments arguments = .ok (.dump directory collection))
    (replayed : replay volume (journalIn (.ofText here directory)) = .ok store)
    (input : ByteArray) :
    run arguments volume here input =
      { exit := 0, output := printed (dumped collection store) } := by
  rcases map_eq_ok_iff.mp replayed with ⟨records, read, rfl⟩
  have found : (Journal.segmentsIn volume (journalIn (.ofText here directory))).bind
      Journal.recordsOf = .ok records := read
  simp only [run, taken, source, Source.gather, runOn, runDump, found]
  rfl

theorem store_of_start {volume : Volume} {dataDirectory : Path} {now : Nat}
    {durable : DurableStore} (replayed : replay volume (journalIn dataDirectory) = .ok store)
    (started : DurableStore.start volume dataDirectory now = .ok durable) :
    durable.store = store := by
  have again := (DurableStore.start_eq_ok_iff.mp started).1
  exact Except.ok.inj (again.symm.trans replayed)

/-- Wherever the journal of a data directory can be replayed, it is replayed to the store
that holds under each key the document of the last record that carries it, over all files
with the extension in the order of their names.  The command writes out exactly the documents
of that store that are alive, each once and in ascending order of the keys that they carry,
and of a collection whose design document is alive and gives its view the name of the
collection it writes out the values of the rows that a durable store serves that is opened
there. -/
theorem dump_serves {volume : Volume} {here : List String} {directory : String}
    (replayed : replay volume (journalIn (.ofText here directory)) = .ok store) :
    (∃ segments, Journal.Contents volume (journalIn (.ofText here directory)) segments ∧
      ∀ key, store.current? key = latest? (Journal.recordsInAll segments) key) ∧
    (∃ alive : List (String × Json),
      alive.Pairwise (fun first second => Text.bytesOf first.1 < Text.bytesOf second.1) ∧
      (∀ key document, (key, document) ∈ alive ↔
        store.current? key = some document ∧ document.isDeleted = false) ∧
      (∀ entry ∈ alive, entry.2.stringMember? idMember = some entry.1) ∧
      ∀ arguments input, ofArguments arguments = .ok (.dump directory none) →
        run arguments volume here input =
          { exit := 0, output := printed (alive.map Prod.snd) }) ∧
    ∀ collection design now durable includeDocuments,
      store.live? (designKey collection) = some design →
      design.viewStart? findAllView = some (collection ++ "-") →
      DurableStore.start volume (.ofText here directory) now = .ok durable →
      ∃ rows, (DocumentStore.view durable collection findAllView { includeDocuments }).1 =
          .ok rows ∧
        ∀ arguments input, ofArguments arguments = .ok (.dump directory (some collection)) →
          run arguments volume here input =
            { exit := 0, output := printed (rows.map ViewRow.value) } := by
  rcases map_eq_ok_iff.mp replayed with ⟨records, read, made⟩
  have reached : store.Reached := made ▸ reached_ofRecords records
  refine ⟨?_, ⟨store.entries.filter fun entry => !entry.2.isDeleted, ?_, ?_, ?_, ?_⟩, ?_⟩
  · rcases Journal.replay_eq_ok_iff.mp read with ⟨segments, contents, rfl⟩
    exact ⟨segments, contents, fun key => made ▸ current?_ofRecords_eq_latest? _ key⟩
  · exact (store.ascending.filter _).imp Text.bytesOf_lt_iff.mpr
  · intro key document
    rw [List.mem_filter, Store.mem_entries_iff, Bool.not_eq_true']
  · intro entry member
    exact reached.keyed.key_of_mem (List.mem_filter.mp member).1
  · intro arguments input taken
    rw [run_dump taken replayed, dumped_none, Store.documents_eq]
  · intro collection design now durable includeDocuments alive declared started
    refine ⟨store.rowsFrom (collection ++ "-") { includeDocuments }, ?_, ?_⟩
    · change durable.store.view collection findAllView { includeDocuments } = _
      rw [store_of_start replayed started, Store.view, alive]
      simp only [declared]
    · intro arguments input taken
      rw [run_dump taken replayed, dumped_eq_values reached.keyed]

/-- The records of two files.  Their keys are not those of the documents. -/
def stray : List (List JournalRecord) :=
  [[⟨"x", .object [(idMember, .string "_design/cat"),
      ("views", .object [("findAll", .object [("prefix", .string "cat-")])])]⟩,
    ⟨"cat-a", .object [(idMember, .string "dog-a")]⟩],
    [⟨"x", .object [(idMember, .string "cat-a")]⟩]]

/-- A volume with a journal in two files and a file beside them. -/
def shed : Volume :=
  .directory [("wal", .directory [
    ("b.log", .file (Journal.contentOf (stray[1]))),
    ("a.txt", .file ByteArray.empty),
    ("a.log", .file (Journal.contentOf (stray[0])))])]

theorem journalIn_here : journalIn (.ofText [] ".") = ⟨[], [".", "wal"]⟩ := by
  decide +kernel

theorem replay_shed : replay shed (journalIn (.ofText [] ".")) = .ok Store.cattery := by
  have names : Journal.segmentNames ["b.log", "a.txt", "a.log"] = ["a.log", "b.log"] := by
    decide +kernel
  have listed : Journal.segmentsIn shed ⟨[], [".", "wal"]⟩ =
      .ok ((Journal.segmentNames ["b.log", "a.txt", "a.log"]).map fun name =>
        shed.readFile (Path.join ⟨[], [".", "wal"]⟩ name)) := rfl
  have found : Journal.segmentsIn shed ⟨[], [".", "wal"]⟩ =
      .ok (stray.map fun records => .ok (Journal.contentOf records)) := by
    rw [listed, names]
    rfl
  have read : Journal.replay shed ⟨[], [".", "wal"]⟩ =
      .ok (stray.flatMap fun records => records.filterMap Journal.reread?) := by
    rw [Journal.replay, found]
    simp only [bind, Except.bind, Journal.recordsOf_contentOf]
  rw [journalIn_here, replay, read]
  rfl

/-- Of the three documents in that journal one belongs to the collection. -/
theorem dump_serves_shed :
    replay shed (journalIn (.ofText [] ".")) = .ok Store.cattery ∧
      run ["dump", "--collection", "cat", "."] shed [] ByteArray.empty =
        { exit := 0, output := printed [.object [(idMember, .string "cat-a")]] } := by
  have started : ∃ journal opened, DurableStore.start shed (.ofText [] ".") 1 =
      .ok ⟨Store.cattery, journal, opened⟩ := by
    rw [DurableStore.start, replay_shed]
    exact ⟨_, _, rfl⟩
  rcases started with ⟨journal, opened, started⟩
  obtain ⟨_, _, served⟩ := dump_serves replay_shed
  obtain ⟨rows, viewed, writes⟩ := served "cat" _ 1 _ false rfl rfl started
  have found : Store.cattery.view "cat" findAllView {} =
      .ok [⟨"cat-a", "cat-a", .object [(idMember, .string "cat-a")], none⟩] := rfl
  cases found.symm.trans viewed
  have taken : (ofArguments ["dump", "--collection", "cat", "."]).toOption =
      some (.dump "." (some "cat")) := by
    decide +kernel
  exact ⟨replay_shed, writes _ _ (toOption_eq_some_iff.mp taken)⟩

end Command

end Folio

import Folio.Proofs.Store.Reached
import Folio.Proofs.Store.Rows
import Folio.Proofs.Text.Order

/-!
# The ways of reading a store

A document can be read under its key, among all documents and in the rows of a view.
Because documents carry the keys under which they stand, each of the three can be
worked out from the list of all documents, which is in the order of the bytes of the
keys.
-/

namespace Folio.Store

open Text

variable {store : Store}

/-- Whether the key that a document carries comes before that of another one. -/
def Precedes (first second : Json) : Prop :=
  ∃ key later, first.stringMember? idMember = some key ∧
    second.stringMember? idMember = some later ∧ bytesOf key < bytesOf later

/-- The row for a document in a view of the keys that start with a text, if the view
shows it. -/
def rowOf? (start : String) (options : ViewOptions) (document : Json) : Option ViewRow :=
  (document.stringMember? idMember).bind fun key =>
    if startsWith start key && options.key.all (· == key) then
      some ⟨key, key, document, if options.includeDocuments then some document else none⟩
    else none

theorem documents_eq (store : Store) :
    store.documents = (store.entries.filter fun entry => !entry.2.isDeleted).map Prod.snd := by
  rw [documents, List.filter_map]
  rfl

theorem size_eq (store : Store) : store.size = store.documents.length :=
  List.countP_eq_length_filter

theorem get_eq_ok_iff {key : String} {document : Json} :
    store.get key = .ok document ↔ store.live? key = some document := by
  rw [get]
  cases store.live? key <;> simp

theorem get_eq_notFound_iff {key : String} :
    store.get key = .error (.notFound key) ↔ store.live? key = none := by
  rw [get]
  cases store.live? key <;> simp

namespace Keyed

variable (keyed : store.Keyed)
include keyed

/-- Of an entry the key and the document that carries it are the same information. -/
theorem key_of_mem {entry : String × Json} (member : entry ∈ store.entries) :
    entry.2.stringMember? idMember = some entry.1 :=
  keyed (mem_entries_iff.mp member)

theorem live?_eq_some_iff_mem {key : String} {document : Json} :
    store.live? key = some document ↔
      document ∈ store.documents ∧ document.stringMember? idMember = some key := by
  rw [live?_eq_some_iff, ← mem_entries_iff, documents_eq]
  simp only [List.mem_map, List.mem_filter, Bool.not_eq_true']
  constructor
  · rintro ⟨member, alive⟩
    exact ⟨⟨(key, document), ⟨member, alive⟩, rfl⟩, keyed.key_of_mem member⟩
  · rintro ⟨⟨entry, ⟨member, alive⟩, rfl⟩, carries⟩
    rw [keyed.key_of_mem member, Option.some.injEq] at carries
    exact ⟨carries ▸ member, alive⟩

theorem exists_key_of_mem {document : Json} (member : document ∈ store.documents) :
    ∃ key, document.stringMember? idMember = some key := by
  rw [documents_eq] at member
  rcases List.mem_map.mp member with ⟨entry, inside, rfl⟩
  exact ⟨entry.1, keyed.key_of_mem (List.mem_filter.mp inside).1⟩

theorem live?_eq_none {key : String}
    (absent : ∀ document ∈ store.documents, document.stringMember? idMember ≠ some key) :
    store.live? key = none := by
  rw [Option.eq_none_iff_forall_not_mem]
  intro document found
  rcases keyed.live?_eq_some_iff_mem.mp found with ⟨member, carries⟩
  exact absent document member carries

theorem pairwise_documents : store.documents.Pairwise Precedes := by
  rw [documents_eq, List.pairwise_map]
  apply (store.ascending.filter _).imp_of_mem
  intro first second firstMember secondMember below
  exact ⟨first.1, second.1, keyed.key_of_mem (List.mem_filter.mp firstMember).1,
    keyed.key_of_mem (List.mem_filter.mp secondMember).1, bytesOf_lt_iff.mpr below⟩

theorem rowsFrom_eq_filterMap (start : String) (options : ViewOptions) :
    store.rowsFrom start options = store.documents.filterMap (rowOf? start options) := by
  rw [rowsFrom_eq, documents_eq, List.filterMap_map, ← List.filterMap_eq_map,
    List.filterMap_filter, List.filterMap_filter]
  apply List.filterMap_congr
  intro entry member
  simp only [Function.comp_apply, rowOf?, keyed.key_of_mem member, Option.bind_some]
  cases entry.2.isDeleted <;> simp

end Keyed

/-- In every store that can be reached the documents are in ascending order of the bytes
of their keys and are counted by the size, reading a key finds exactly the document that
carries it, and a view whose design document is alive gives exactly the rows of the
documents whose key starts with the text of the view. -/
theorem reads_agree (reached : store.Reached) :
    store.documents.Pairwise Precedes ∧ store.size = store.documents.length ∧
    (∀ key document, store.get key = .ok document ↔
      document ∈ store.documents ∧ document.stringMember? idMember = some key) ∧
    (∀ key, (∀ document ∈ store.documents, document.stringMember? idMember ≠ some key) →
      store.get key = .error (.notFound key)) ∧
    ∀ collection view options design start,
      store.get (designKey collection) = .ok design → design.viewStart? view = some start →
        store.view collection view options =
          .ok (store.documents.filterMap (rowOf? start options)) := by
  have keyed := reached.keyed
  refine ⟨keyed.pairwise_documents, store.size_eq, ?_, ?_, ?_⟩
  · intro key document
    rw [get_eq_ok_iff]
    exact keyed.live?_eq_some_iff_mem
  · intro key absent
    exact get_eq_notFound_iff.mpr (keyed.live?_eq_none absent)
  · intro collection view options design start alive declared
    rw [get_eq_ok_iff] at alive
    simp only [Store.view, alive, declared, keyed.rowsFrom_eq_filterMap]

/-- A store with a design document, a document that its view shows, and one beside it. -/
def cattery : Store :=
  ((empty.restore (.object [(idMember, .string "_design/cat"),
    ("views", .object [("findAll", .object [("prefix", .string "cat-")])])])).restore
    (.object [(idMember, .string "dog-a")])).restore
    (.object [(idMember, .string "cat-a")])

/-- Three documents are counted, none of them stands under a fourth key, and the view
shows the one that it is for. -/
theorem reads_agree_cattery :
    cattery.Reached ∧ cattery.size = 3 ∧ cattery.get "cat-b" = .error (.notFound "cat-b") ∧
      cattery.view "cat" "findAll" { includeDocuments := true } =
        .ok [⟨"cat-a", "cat-a", .object [(idMember, .string "cat-a")],
          some (.object [(idMember, .string "cat-a")])⟩] := by
  have reached : cattery.Reached := ((Reached.empty.restore _).restore _).restore _
  obtain ⟨_, counted, _, absent, rows⟩ := reads_agree reached
  refine ⟨reached, counted.trans (by decide), absent "cat-b" (by decide), ?_⟩
  rw [rows "cat" "findAll" _ (.object [(idMember, .string "_design/cat"),
    ("views", .object [("findAll", .object [("prefix", .string "cat-")])])]) "cat-" rfl rfl]
  rfl

end Folio.Store

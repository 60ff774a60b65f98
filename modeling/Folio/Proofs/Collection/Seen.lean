import Folio.Proofs.Collection.Represents
import Folio.Proofs.Collection.Session
import Folio.Proofs.Filter.Keep
import Folio.Proofs.Store.Rows

/-!
# What a reader sees

A store serves a collection when what is alive under the keys of the collection carries
these keys, and the view of all documents is declared.  Then a reader sees a document
under an id exactly when one is alive under its key, and every query is answered from
these documents alone.
-/

namespace Folio.Collection

open Session

variable {collection : Collection} {store : Store}

/-- The document that a reader sees under an id. -/
def seen? (collection : Collection) (store : Store) (id : String) : Option Json :=
  (store.live? (collection.config.privateId id)).bind collection.published?

/-- What a reader sees of an entry of a store, with its id. -/
def seenAt? (collection : Collection) (store : Store) (entry : String × Json) :
    Option (String × Json) :=
  (collection.config.publicId? entry.1).bind fun id =>
    (collection.seen? store id).map fun document => (id, document)

/-- The documents that a reader sees, each with its id, in the order of the keys. -/
def seen (collection : Collection) (store : Store) : List (String × Json) :=
  store.entries.filterMap (collection.seenAt? store)

/-- The documents in the list are those that are seen one by one. -/
theorem mem_seen_iff {id : String} {document : Json} :
    (id, document) ∈ collection.seen store ↔ collection.seen? store id = some document := by
  simp only [seen, List.mem_filterMap, seenAt?, Option.bind_eq_some_iff, Option.map_eq_some_iff,
    Prod.mk.injEq]
  constructor
  · rintro ⟨_, _, _, _, _, found, rfl, rfl⟩
    exact found
  · intro found
    rcases Option.bind_eq_some_iff.mp found with ⟨stored, alive, _⟩
    refine ⟨(collection.config.privateId id, stored), ?_, id, ?_, document, found, rfl, rfl⟩
    · exact Store.mem_entries_iff.mpr (Store.live?_eq_some_iff.mp alive).1
    · exact CollectionConfig.publicId?_privateId _ id

theorem key_of_seenAt?_eq_some {entry seen : String × Json}
    (found : collection.seenAt? store entry = some seen) :
    entry.1 = collection.config.privateId seen.1 := by
  rcases Option.bind_eq_some_iff.mp found with ⟨id, key, visible⟩
  rcases Option.map_eq_some_iff.mp visible with ⟨document, _, rfl⟩
  exact CollectionConfig.publicId?_eq_some_iff.mp key

/-- What is seen is in ascending order of the ids. -/
theorem ascending_seen (collection : Collection) (store : Store) :
    (collection.seen store).Pairwise fun first second => first.1 < second.1 := by
  rw [seen, List.pairwise_filterMap]
  apply store.ascending.imp
  intro first second below firstSeen found secondSeen foundToo
  rw [key_of_seenAt?_eq_some found, key_of_seenAt?_eq_some foundToo] at below
  exact CollectionConfig.privateId_lt_iff.mp below

/-- An entry of a store is published as it is seen, if it is alive and its key is one of
the collection. -/
theorem map_seenAt? {entry : String × Json} (member : entry ∈ store.entries) :
    (collection.seenAt? store entry).map Prod.snd =
      if Text.startsWith collection.config.keyStart entry.1 && !entry.2.isDeleted then
        collection.published? entry.2
      else none := by
  rcases entry with ⟨key, document⟩
  have current := Store.mem_entries_iff.mp member
  by_cases starts : Text.startsWith collection.config.keyStart key
  · rcases Text.exists_eq_append_of_startsWith starts with ⟨id, rfl⟩
    rw [← CollectionConfig.privateId_eq] at current ⊢
    rw [CollectionConfig.privateId_eq, starts, ← CollectionConfig.privateId_eq]
    simp only [seenAt?, CollectionConfig.publicId?_privateId, seen?, Store.live?, current,
      Option.bind_some]
    cases deleted : document.isDeleted <;>
      simp [deleted, Option.filter, Option.map_map, Function.comp_def]
  · have foreign : collection.config.publicId? key = none := by
      rw [Option.eq_none_iff_forall_not_mem]
      rintro id found
      rw [Option.mem_def, CollectionConfig.publicId?_eq_some_iff] at found
      exact starts (found ▸ Text.startsWith_append _ _)
    simp [seenAt?, foreign, starts]

/-- Answer a query whose fields have been read from what a reader sees. -/
def answerWith (collection : Collection) (store : Store) (query : Query)
    (fields : Option Selection) : Except QueryError Found :=
  match query.id with
  | some id =>
      match collection.seen? store id with
      | some document => .ok (.document (partOf fields document))
      | none => .error (collection.notFound id)
  | none =>
      let kept := (collection.seen store).filter fun entry =>
        query.filters.all (·.admits entry.2)
      if query.includeDocuments then
        .ok (.documents (kept.map fun entry => partOf fields entry.2))
      else .ok (.ids (kept.map Prod.fst))

/-- Answer a query from what a reader sees. -/
def answer (collection : Collection) (store : Store) (query : Query) : Except QueryError Found :=
  match query.reading with
  | .error refusal => .error (.malformed refusal)
  | .ok fields => collection.answerWith store query fields

/-- An answer was given with fields that could be read. -/
theorem exists_answerWith_of_answer {query : Query} {found : Found}
    (answered : collection.answer store query = .ok found) :
    ∃ fields, collection.answerWith store query fields = .ok found := by
  unfold answer at answered
  split at answered
  · cases answered
  · exact ⟨_, answered⟩

/-- Whoever asks for one document is answered with the one that is seen. -/
theorem exists_seen?_of_answer {query : Query} {id : String} {found : Found}
    (one : query.id = some id) (answered : collection.answer store query = .ok found) :
    ∃ fields document, collection.seen? store id = some document ∧
      found = .document (partOf fields document) := by
  rcases exists_answerWith_of_answer answered with ⟨fields, answered⟩
  simp only [answerWith, one] at answered
  cases seen : collection.seen? store id with
  | none =>
      rw [seen] at answered
      cases answered
  | some document =>
      rw [seen] at answered
      cases answered
      exact ⟨fields, document, rfl, rfl⟩

/-- A store serves a collection when its documents carry their keys and the view of all
documents is declared. -/
structure Serves (collection : Collection) (store : Store) : Prop where
  keyed {id : String} {document : Json} :
    store.live? (collection.config.privateId id) = some document →
      document.stringMember? idMember = some (collection.config.privateId id)
  declared : ∃ revision, store.current? collection.config.designId =
    some (collection.declaration revision)

namespace Serves

/-- A document is seen with its id in front. -/
theorem exists_of_seen?_eq_some (serves : Serves collection store) {id : String} {document : Json}
    (seen : collection.seen? store id = some document) :
    ∃ members, document = .object (("id", .string id) :: members) := by
  rcases Option.bind_eq_some_iff.mp seen with ⟨stored, alive, published⟩
  have visible := published?_eq_some_iff.mpr ⟨id, serves.keyed alive, rfl⟩
  rw [visible, Option.some.injEq] at published
  exact ⟨_, published.symm⟩

theorem stringMember?_id (serves : Serves collection store) {id : String} {document : Json}
    (seen : collection.seen? store id = some document) :
    document.stringMember? "id" = some id := by
  rcases serves.exists_of_seen?_eq_some seen with ⟨members, rfl⟩
  rfl

theorem filterMap_id (serves : Serves collection store) {entries : List (String × Json)}
    (seen : ∀ entry ∈ entries, entry ∈ collection.seen store) :
    (entries.map Prod.snd).filterMap (Json.stringMember? · "id") = entries.map Prod.fst := by
  rw [List.filterMap_map, ← List.filterMap_eq_map]
  apply List.filterMap_congr
  intro entry member
  exact serves.stringMember?_id (mem_seen_iff.mp (seen entry member))

/-- One document is answered as it is seen. -/
theorem run_fetchOne {desk : Desk Store} (serves : Serves collection desk.store) (id : String) :
    (collection.fetchOne id).run desk =
      match collection.seen? desk.store id with
      | some document => (.ok document, desk)
      | none => (.error (collection.notFound id), desk) := by
  rcases serves.declared with ⟨revision, declared⟩
  have starts : Text.startsWith collection.config.keyStart (collection.config.privateId id) :=
    Text.startsWith_append _ _
  simp only [fetchOne, run_bind, run_rows, view_findAll_of_declared declared,
    Store.rowsFrom_key starts, seen?]
  cases alive : desk.store.live? (collection.config.privateId id) with
  | none => rfl
  | some stored =>
      simp only [Option.toList_some, List.map_cons, List.map_nil, List.head?_cons, Option.bind_some,
        ViewRow.content, if_true, Option.getD_some]
      cases collection.published? stored <;> rfl

theorem run_fetchAll {desk : Desk Store} (serves : Serves collection desk.store) :
    (collection.fetchAll).run desk =
      (.ok ((collection.seen desk.store).map Prod.snd), desk) := by
  rcases serves.declared with ⟨revision, declared⟩
  simp only [fetchAll, run_bind, run_rows, view_findAll_of_declared declared, run_pure,
    Store.rowsFrom_eq, seen]
  congr 2
  rw [List.filterMap_map, List.filterMap_filter, List.map_filterMap]
  apply List.filterMap_congr
  intro entry member
  simp only [Option.all_none, Bool.and_true]
  exact (map_seenAt? member).symm

/-- A query is answered from what is seen, and changes nothing. -/
theorem run_find {desk : Desk Store} (serves : Serves collection desk.store) (query : Query) :
    (collection.find query).run desk = (collection.answer desk.store query, desk) := by
  have answered (fields : Option Selection) :
      (match query.id with
        | some id => do
            let document ← collection.fetchOne id
            return .document (partOf fields document)
        | none => do
            let documents ← collection.fetchAll
            let kept := Filter.keep query.filters documents
            if query.includeDocuments then
              return .documents (kept.map (partOf fields))
            else
              return .ids (kept.filterMap (Json.stringMember? · "id")) :
        Session Store Found).run desk = (collection.answerWith desk.store query fields, desk) := by
    unfold answerWith
    cases query.id with
    | some id =>
        simp only [run_bind, serves.run_fetchOne]
        cases collection.seen? desk.store id <;> rfl
    | none =>
        simp only [run_bind, serves.run_fetchAll, Filter.keep_eq_filter, List.filter_map]
        split
        · simp [Function.comp_def]
        · rw [serves.filterMap_id fun entry member => (List.mem_filter.mp member).1]
          rfl
  simp only [find, narrow_eq_partOf, run_bind, run_wanted, answer]
  cases query.reading with
  | error refusal => rfl
  | ok fields => exact answered fields

end Serves

end Folio.Collection

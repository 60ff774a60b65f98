import Folio.Proofs.Collection.Seen
import Folio.Proofs.Store.Reached

/-!
# The forms of an answer

A query is answered with one document, with documents or with ids.  The view of all
documents decides what there is to answer from, and nobody has to have set it up: its
design document may be missing, may lack the view, or may name any text for the keys to
start with.  In every store that can be reached all forms of the answer are made from one
list of documents, or are the same refusal.
-/

namespace Folio

namespace Collection

open Session Text

variable {collection : Collection} {store : Store} {desk : Desk Store} {start : String}

/-! ## Finding with fields that can be read -/

section Find

variable {query : Query} {fields : Option Selection}

section AnyStore

variable {σ : Type} [DocumentStore σ] {desk after : Desk σ}

omit [DocumentStore σ] in
theorem run_wanted_of_reads (reads : query.Reads fields) :
    (wanted query : Session σ (Option Selection)).run desk = (.ok fields, desk) := by
  rw [run_wanted, reads]

/-- Whoever asks for one document gets it narrowed. -/
theorem run_find_one {id : String} (one : query.id = some id) (reads : query.Reads fields)
    {outcome : Except QueryError Json}
    (fetched : (collection.fetchOne id).run desk = (outcome, after)) :
    (collection.find query).run desk =
      (outcome.map fun document => .document (partOf fields document), after) := by
  rw [find, run_bind, run_wanted_of_reads reads]
  simp only [one]
  rw [run_bind_pure, fetched, narrow_eq_partOf]

/-- Whoever asks for all documents gets those that are kept, narrowed, or their ids. -/
theorem run_find_all (all : query.id = none) (reads : query.Reads fields)
    {outcome : Except QueryError (List Json)}
    (fetched : (collection.fetchAll).run desk = (outcome, after)) :
    (collection.find query).run desk =
      (outcome.map fun documents =>
        if query.includeDocuments then
          .documents ((Filter.keep query.filters documents).map (partOf fields))
        else
          .ids ((Filter.keep query.filters documents).filterMap (Json.stringMember? · "id")),
        after) := by
  rw [find, run_bind, run_wanted_of_reads reads]
  simp only [all]
  rw [run_bind, fetched, narrow_eq_partOf]
  cases outcome with
  | error error => rfl
  | ok documents => cases query.includeDocuments <;> rfl

end AnyStore

/-- A view that is missing is missing for every query. -/
theorem run_find_of_view_eq_error {error : StoreError}
    (missing : ∀ options, desk.store.view collection.config.name findAllView options = .error error)
    (reads : query.Reads fields) :
    (collection.find query).run desk = (.error (.store error), desk) := by
  cases asked : query.id with
  | some id =>
      have fetched : (collection.fetchOne id).run desk = (.error (.store error), desk) := by
        rw [fetchOne, run_bind, run_rows, missing]
      exact run_find_one asked reads fetched
  | none =>
      have fetched : (collection.fetchAll).run desk = (.error (.store error), desk) := by
        rw [fetchAll, run_bind, run_rows, missing]
      exact run_find_all asked reads fetched

end Find

/-! ## What a view shows -/

/-- The document that a reader sees under an id through a view of the keys that start with
a text. -/
def shown? (collection : Collection) (store : Store) (start id : String) : Option Json :=
  if startsWith start (collection.config.privateId id) then collection.seen? store id else none

/-- The documents that a reader sees through such a view, each with its id. -/
def shown (collection : Collection) (store : Store) (start : String) : List (String × Json) :=
  (collection.seen store).filter fun entry =>
    startsWith start (collection.config.privateId entry.1)

theorem mem_shown_iff {id : String} {document : Json} :
    (id, document) ∈ collection.shown store start ↔
      collection.shown? store start id = some document := by
  rw [shown, List.mem_filter, mem_seen_iff, shown?, and_comm]
  split <;> simp_all

theorem nodup_shown (collection : Collection) (store : Store) (start : String) :
    (Fields.names (collection.shown store start)).Nodup :=
  nodup_names_of_ascending ((ascending_seen collection store).filter _)

theorem get?_shown (id : String) :
    Fields.get? (collection.shown store start) id = collection.shown? store start id := by
  ext document
  rw [Fields.get?_eq_some_iff_mem (nodup_shown collection store start), mem_shown_iff]

/-- What is shown and passes filters. -/
def passing (collection : Collection) (store : Store) (start : String) (filters : List Filter) :
    List (String × Json) :=
  (collection.shown store start).filter fun entry => filters.all (·.admits entry.2)

theorem keep_shown (filters : List Filter) :
    Filter.keep filters ((collection.shown store start).map Prod.snd) =
      (collection.passing store start filters).map Prod.snd := by
  rw [Filter.keep_eq_filter, List.filter_map]
  rfl

section Keyed

variable (keyed : store.Keyed)
include keyed

theorem id_of_mem_shown {entry : String × Json} (member : entry ∈ collection.shown store start) :
    entry.2.stringMember? "id" = some entry.1 := by
  have seen := mem_seen_iff.mp (List.mem_filter.mp member).1
  rcases Option.bind_eq_some_iff.mp seen with ⟨stored, alive, visible⟩
  rcases published?_eq_some_iff.mp visible with ⟨id, carries, same⟩
  rw [keyed (Store.live?_eq_some_iff.mp alive).1, Option.some.injEq] at carries
  rw [same, CollectionConfig.privateId_injective _ carries]
  rfl

/-- An entry that is alive is published as it is seen. -/
theorem map_seenAt?_of_keyed {entry : String × Json} (member : entry ∈ store.entries) :
    (collection.seenAt? store entry).map Prod.snd =
      if !entry.2.isDeleted then collection.published? entry.2 else none := by
  rw [map_seenAt? member]
  by_cases starts : startsWith collection.config.keyStart entry.1
  · rw [starts, Bool.true_and]
  · have hidden : collection.published? entry.2 = none := by
      rw [Option.eq_none_iff_forall_not_mem]
      intro published visible
      rcases published?_eq_some_iff.mp visible with ⟨id, carries, _⟩
      rw [keyed (Store.mem_entries_iff.mp member), Option.some.injEq] at carries
      exact starts (carries ▸ startsWith_append _ _)
    simp [hidden]

/-- Through a view of the keys that start with a text all documents are answered as they
are shown. -/
theorem filterMap_rowsFrom :
    (store.rowsFrom start {}).filterMap (fun row => collection.published? row.content) =
      (collection.shown store start).map Prod.snd := by
  rw [Store.rowsFrom_eq, List.filterMap_map, List.filterMap_filter, shown, seen,
    List.filter_filterMap, List.map_filterMap]
  apply List.filterMap_congr
  intro entry member
  have published := @map_seenAt?_of_keyed collection store keyed entry member
  simp only [Function.comp_apply, ViewRow.content, Option.all_none, Bool.and_true,
    Bool.false_eq_true, if_false, Option.getD_none]
  have narrowed : (collection.seenAt? store entry).filter (fun seen =>
      startsWith start (collection.config.privateId seen.1)) =
        if startsWith start entry.1 then collection.seenAt? store entry else none := by
    cases found : collection.seenAt? store entry with
    | none => rw [Option.filter_none, ite_self]
    | some seen => rw [Option.filter_some, ← key_of_seenAt?_eq_some found]
  rw [narrowed]
  by_cases starts : startsWith start entry.1
  · rw [if_pos starts, starts, Bool.true_and, published]
  · rw [if_neg starts, Bool.eq_false_iff.mpr starts]
    rfl

end Keyed

/-- Among documents that carry their ids, the one with an id is the one that stands
beside it. -/
theorem find?_map_snd {entries : List (String × Json)}
    (carried : ∀ entry ∈ entries, entry.2.stringMember? "id" = some entry.1) (id : String) :
    (entries.map Prod.snd).find? (fun document => document.stringMember? "id" == some id) =
      Fields.get? entries id := by
  induction entries with
  | nil => rfl
  | cons entry rest ih =>
      rcases entry with ⟨key, document⟩
      rw [List.forall_mem_cons] at carried
      have own : (document.stringMember? "id" == some id) = decide (key = id) := by
        rw [carried.1, Option.some_beq_some, beq_eq_decide]
      rw [List.map_cons, List.find?_cons, own, Fields.get?_cons, ih carried.2]
      by_cases same : key = id <;> simp only [same, decide_true, decide_false, if_true, if_false]

/-! ## Whether the view is declared -/

theorem view_of_design_missing (missing : desk.store.live? collection.config.designId = none)
    (options : ViewOptions) :
    desk.store.view collection.config.name findAllView options =
      .error (.notFound collection.config.designId) := by
  have here : desk.store.live? (designKey collection.config.name) = none := missing
  rw [Store.view, here]
  rfl

theorem view_of_start_missing {design : Json}
    (alive : desk.store.live? collection.config.designId = some design)
    (missing : design.viewStart? findAllView = none) (options : ViewOptions) :
    desk.store.view collection.config.name findAllView options =
      .error (.notFound (collection.config.designId ++ "/" ++ findAllView)) := by
  have here : desk.store.live? (designKey collection.config.name) = some design := alive
  simp only [Store.view, here, missing]
  rfl

section Declared

variable {design : Json} (alive : desk.store.live? collection.config.designId = some design)
  (declared : design.viewStart? findAllView = some start)
include alive declared

theorem view_of_declared (options : ViewOptions) :
    desk.store.view collection.config.name findAllView options =
      .ok (desk.store.rowsFrom start options) := by
  have here : desk.store.live? (designKey collection.config.name) = some design := alive
  simp only [Store.view, here, declared]

/-- One document is fetched as it is shown. -/
theorem run_fetchOne_of_declared (id : String) :
    (collection.fetchOne id).run desk =
      (match collection.shown? desk.store start id with
        | some document => .ok document
        | none => .error (collection.notFound id), desk) := by
  have first : ((desk.store.rowsFrom start
      { key := some (collection.config.privateId id), includeDocuments := true }).head?.bind
        fun row => collection.published? row.content) = collection.shown? desk.store start id := by
    by_cases starts : startsWith start (collection.config.privateId id)
    · rw [Store.rowsFrom_key starts, shown?, if_pos starts, seen?]
      cases desk.store.live? (collection.config.privateId id) <;> rfl
    · rw [Store.rowsFrom_key_of_not_startsWith starts, shown?, if_neg starts]
      rfl
  rw [fetchOne, run_bind, run_rows, view_of_declared alive declared]
  simp only [first]
  cases collection.shown? desk.store start id <;> rfl

theorem run_fetchAll_of_declared (keyed : desk.store.Keyed) :
    (collection.fetchAll).run desk =
      (.ok ((collection.shown desk.store start).map Prod.snd), desk) := by
  rw [fetchAll, run_bind, run_rows, view_of_declared alive declared]
  simp only [filterMap_rowsFrom keyed]
  rfl

theorem run_find_one_of_declared {query : Query} {fields : Option Selection} {id : String}
    (one : query.id = some id) (reads : query.Reads fields) :
    (collection.find query).run desk =
      (match collection.shown? desk.store start id with
        | some document => .ok (.document (partOf fields document))
        | none => .error (collection.notFound id), desk) := by
  rw [run_find_one one reads (run_fetchOne_of_declared alive declared id)]
  cases collection.shown? desk.store start id <;> rfl

/-- Whoever asks for all documents is answered with those that are shown and pass the
filters, or with their ids. -/
theorem run_find_all_of_declared (keyed : desk.store.Keyed) {query : Query}
    {fields : Option Selection} (all : query.id = none) (reads : query.Reads fields) :
    (collection.find query).run desk =
      (.ok (if query.includeDocuments then
          .documents ((collection.passing desk.store start query.filters).map fun entry =>
            partOf fields entry.2)
        else .ids ((collection.passing desk.store start query.filters).map Prod.fst)), desk) := by
  have carried : ((collection.passing desk.store start query.filters).map Prod.snd).filterMap
      (Json.stringMember? · "id") =
        (collection.passing desk.store start query.filters).map Prod.fst := by
    rw [List.filterMap_map, ← List.filterMap_eq_map]
    exact List.filterMap_congr fun entry member =>
      id_of_mem_shown keyed (List.mem_filter.mp member).1
  rw [run_find_all all reads (run_fetchAll_of_declared alive declared keyed), Except.map,
    keep_shown, carried, List.map_map]
  rfl

end Declared

/-- Answer a query whose fields have been read from what the view of all documents shows, if
there is one. -/
def answerThrough (collection : Collection) (store : Store) (query : Query)
    (fields : Option Selection) : Except QueryError Found :=
  match store.live? collection.config.designId with
  | none => .error (.store (.notFound collection.config.designId))
  | some design =>
      match design.viewStart? findAllView with
      | none => .error (.store (.notFound (collection.config.designId ++ "/" ++ findAllView)))
      | some start =>
          match query.id with
          | some id =>
              match collection.shown? store start id with
              | some document => .ok (.document (partOf fields document))
              | none => .error (collection.notFound id)
          | none =>
              let kept := collection.passing store start query.filters
              .ok (if query.includeDocuments then
                .documents (kept.map fun entry => partOf fields entry.2)
              else .ids (kept.map Prod.fst))

/-- Where documents carry their keys, a query is answered through the view, whatever the view
is, and changes nothing. -/
theorem run_find_of_keyed (keyed : desk.store.Keyed) {query : Query} {fields : Option Selection}
    (reads : query.Reads fields) :
    (collection.find query).run desk =
      (collection.answerThrough desk.store query fields, desk) := by
  unfold answerThrough
  split
  · rename_i missing
    exact run_find_of_view_eq_error (view_of_design_missing missing) reads
  · rename_i design alive
    split
    · rename_i missing
      exact run_find_of_view_eq_error (view_of_start_missing alive missing) reads
    · rename_i start declared
      split
      · rename_i id one
        exact run_find_one_of_declared alive declared one reads
      · rename_i all
        exact run_find_all_of_declared alive declared keyed all reads

/-! ## The forms of an answer -/

/-- The forms of the answers are made from one list of documents.  Whoever asks for all
documents is answered with the list.  The documents that filters keep have distinct ids;
whoever asks for no documents is answered with these ids, and whoever asks for documents
with these documents, narrowed to the fields.  Whoever asks for one document is answered
with the one in the list that has the id, narrowed as well, and is told if there is none. -/
structure AnswersFrom (collection : Collection) (desk : Desk Store) (documents : List Json) :
    Prop where
  everything : (collection.find { includeDocuments := true }).run desk =
    (.ok (.documents documents), desk)
  many (filters : List Filter) : ∃ kept ids,
    (collection.find { filters, includeDocuments := true }).run desk =
      (.ok (.documents kept), desk) ∧
    kept.map (Json.stringMember? · "id") = ids.map some ∧ ids.Nodup ∧
    ∀ query fields, query.id = none → query.filters = filters → query.Reads fields →
      (collection.find query).run desk =
        (.ok (if query.includeDocuments then .documents (kept.map (partOf fields)) else .ids ids),
          desk)
  one (query : Query) (fields : Option Selection) (id : String) : query.id = some id →
    query.Reads fields → (collection.find query).run desk =
      (match documents.find? fun document => document.stringMember? "id" == some id with
        | some document => .ok (.document (partOf fields document))
        | none => .error (.notFound collection.config.name id), desk)

/-- Where the view is declared all answers are made from the documents that it shows. -/
theorem answersFrom_shown (keyed : desk.store.Keyed) {design : Json}
    (alive : desk.store.live? collection.config.designId = some design)
    (declared : design.viewStart? findAllView = some start) :
    AnswersFrom collection desk ((collection.shown desk.store start).map Prod.snd) where
  everything := by
    have reads : Query.Reads { includeDocuments := true } none := rfl
    have unfiltered : collection.passing desk.store start [] = collection.shown desk.store start :=
      List.filter_eq_self.mpr fun _ _ => rfl
    rw [run_find_all_of_declared alive declared keyed rfl reads, unfiltered]
    rfl
  many filters := by
    have reads : Query.Reads { filters, includeDocuments := true } none := rfl
    have carried : ((collection.passing desk.store start filters).map Prod.snd).map
        (Json.stringMember? · "id") =
          ((collection.passing desk.store start filters).map Prod.fst).map some := by
      rw [List.map_map, List.map_map]
      exact List.map_congr_left fun entry member =>
        id_of_mem_shown keyed (List.mem_filter.mp member).1
    have distinct : ((collection.passing desk.store start filters).map Prod.fst).Nodup :=
      (nodup_shown collection desk.store start).sublist (List.filter_sublist.map _)
    refine ⟨_, _, run_find_all_of_declared alive declared keyed rfl reads, carried, distinct, ?_⟩
    rintro query fields all rfl reads
    rw [run_find_all_of_declared alive declared keyed all reads, List.map_map]
    rfl
  one query fields id one reads := by
    rw [run_find_one_of_declared alive declared one reads,
      find?_map_snd fun entry member => id_of_mem_shown keyed member, get?_shown]
    rfl

/-- In every store that can be reached the forms of an answer agree.  If the design document
or the view of all documents is missing, every query whose fields can be read is refused for
that, and otherwise all of them are answered from one list of documents. -/
theorem find_forms_agree (collection : Collection) (reached : desk.store.Reached) :
    (desk.store.live? collection.config.designId = none →
      ∀ query fields, Query.Reads query fields → (collection.find query).run desk =
        (.error (.store (.notFound collection.config.designId)), desk)) ∧
    ∀ design, desk.store.live? collection.config.designId = some design →
      (design.viewStart? findAllView = none →
        ∀ query fields, Query.Reads query fields → (collection.find query).run desk =
          (.error (.store (.notFound (collection.config.designId ++ "/" ++ findAllView))), desk)) ∧
      ∀ start, design.viewStart? findAllView = some start →
        ∃ documents, AnswersFrom collection desk documents := by
  constructor
  · intro missing query fields reads
    exact run_find_of_view_eq_error (view_of_design_missing missing) reads
  · intro design alive
    constructor
    · intro missing query fields reads
      exact run_find_of_view_eq_error (view_of_start_missing alive missing) reads
    · intro start declared
      exact ⟨_, answersFrom_shown reached.keyed alive declared⟩

/-- A design document whose view shows only some of the cats. -/
def tampered : Json :=
  .object [("views", .object [("findAll", .object [("prefix", .string "cat-t")])]),
    (idMember, .string "_design/cat")]

/-- A store with that design document, with a cat that its view leaves out and with one that
it shows. -/
def cats : Store :=
  ((Store.empty.restore tampered).restore (.object [(idMember, .string "cat-ada")])).restore
    (.object [(idMember, .string "cat-tom"), ("legs", .number (.integer 4))])

/-- The collection of cats. -/
def catCollection : Collection := ⟨{ name := "cat" }, fun _ _ => "new"⟩

/-- The cat that the view leaves out is neither listed nor found. -/
theorem find_forms_agree_cats :
    cats.Reached ∧
      (catCollection.find { includeDocuments := true }).run (⟨cats, 0⟩ : Desk Store) =
        (.ok (.documents [.object [("id", .string "tom"), ("legs", .number (.integer 4))]]),
          ⟨cats, 0⟩) ∧
      (catCollection.find (Query.byId "ada")).run (⟨cats, 0⟩ : Desk Store) =
        (.error (.notFound "cat" "ada"), ⟨cats, 0⟩) := by
  have reached : cats.Reached := ((Store.Reached.empty.restore _).restore _).restore _
  have listed : (catCollection.find { includeDocuments := true }).run (⟨cats, 0⟩ : Desk Store) =
      (.ok (.documents [.object [("id", .string "tom"), ("legs", .number (.integer 4))]]),
        ⟨cats, 0⟩) := by rfl
  have agree := @find_forms_agree ⟨cats, 0⟩ catCollection reached
  rcases (agree.2 tampered rfl).2 "cat-t" rfl with ⟨documents, answers⟩
  cases answers.everything.symm.trans listed
  have missing : (catCollection.find (Query.byId "ada")).run (⟨cats, 0⟩ : Desk Store) =
      (.error (.notFound "cat" "ada"), ⟨cats, 0⟩) := by
    rw [answers.one (Query.byId "ada") none "ada" rfl rfl]
    rfl
  exact ⟨reached, listed, missing⟩

end Collection

end Folio

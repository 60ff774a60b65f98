import Folio.Proofs.Collection.Forms
import Mathlib.Data.List.Forall2

/-!
# What a reader never learns

A store may answer the view of all documents with any rows.  Whatever they hold, a reader
sees nothing of what belongs to the store: a document is shown with its public id in place of
its key, and its revision, its mark of deletion and an id that it holds itself do not even
change what is answered.
-/

namespace Folio

/-- Whether two objects have the same members in some order, and the same is found in them. -/
inductive Json.Reordered : Json → Json → Prop
  | object {members others : Fields Json} (permuted : members.Perm others)
      (same : ∀ name, Fields.get? members name = Fields.get? others name) :
      Reordered (.object members) (.object others)

/-- Whether two answers are the same but for the order of members. -/
def Found.Reordered : Found → Found → Prop
  | .document first, .document second => first.Reordered second
  | .documents firsts, .documents seconds => List.Forall₂ Json.Reordered firsts seconds
  | .ids firsts, .ids seconds => firsts = seconds
  | _, _ => False

/-- Whether two answers are the same refusal, or the same but for the order of members. -/
def ReorderedAnswer : Except QueryError Found → Except QueryError Found → Prop
  | .ok first, .ok second => first.Reordered second
  | .error first, .error second => first = second
  | _, _ => False

namespace Json.Reordered

variable {first second : Json} (reordered : first.Reordered second)
include reordered

theorem member?_eq (name : String) : first.member? name = second.member? name := by
  cases reordered with
  | object _ same => exact same name

theorem admits_eq (filter : Filter) : filter.admits first = filter.admits second := by
  apply Filter.admits_congr
  rintro (_ | ⟨name, rest⟩)
  · cases reordered
    rfl
  · simp only [Filter.follow?, reordered.member?_eq]

/-- Narrowing keeps the order of members, or puts them into the order of the fields. -/
theorem partOf (fields : Option Selection) :
    (Collection.partOf fields first).Reordered (Collection.partOf fields second) := by
  cases fields with
  | none => exact reordered
  | some selection =>
      cases reordered with
      | object _ same =>
          have projected : Selection.projectMembers _ selection =
              Selection.projectMembers _ selection :=
            Selection.projectMembers_congr fun entry _ => same entry.1
          rw [Collection.partOf, Collection.partOf, Selection.project, Selection.project,
            Json.object?, Json.object?, Option.getD_some, Option.getD_some, projected]
          exact .object (.refl _) fun _ => rfl

end Json.Reordered

namespace Collection

open Session

variable {collection : Collection}

/-! ## Answers from rows -/

/-- What a query asks the view of all documents for. -/
def asked (collection : Collection) (query : Query) : ViewOptions :=
  match query.id with
  | some id => { key := some (collection.config.privateId id), includeDocuments := true }
  | none => {}

/-- Whether a store answers what a query asks the view of all documents for with rows. -/
def Yields {σ : Type} [DocumentStore σ] (collection : Collection) (query : Query)
    (desk : Desk σ) (rows : List ViewRow) : Prop :=
  ∃ store, DocumentStore.view desk.store collection.config.name findAllView
    (collection.asked query) = (.ok rows, store)

/-- What is shown of a document to whoever filters. -/
def passed? (collection : Collection) (filters : List Filter) (content : Json) : Option Json :=
  (collection.published? content).filter fun document => filters.all (·.admits document)

/-- The answer to a query whose fields have been read that is made of rows. -/
def answerFrom (collection : Collection) (query : Query) (fields : Option Selection)
    (rows : List ViewRow) : Except QueryError Found :=
  match query.id with
  | some id =>
      match rows.head?.bind fun row => collection.published? row.content with
      | some document => .ok (.document (partOf fields document))
      | none => .error (collection.notFound id)
  | none =>
      .ok (if query.includeDocuments then
        .documents (rows.filterMap fun row =>
          (collection.passed? query.filters row.content).map (partOf fields))
      else
        .ids (rows.filterMap fun row =>
          (collection.passed? query.filters row.content).bind (Json.stringMember? · "id")))

section AnyStore

variable {σ : Type} [DocumentStore σ] {desk : Desk σ} {query : Query} {fields : Option Selection}

theorem run_rows_of_view_eq {view : String} {options : ViewOptions} {rows : List ViewRow}
    {store : σ} (answered : DocumentStore.view desk.store collection.config.name view options =
      (.ok rows, store)) :
    (Session.rows collection.config.name view options).run desk =
      (.ok rows, { desk with store }) := by
  change Session.rows collection.config.name view options desk = _
  simp only [Session.rows, answered]

/-- A query is answered from the rows that the store gives. -/
theorem run_find_of_yields {rows : List ViewRow} (reads : query.Reads fields)
    (yields : Yields collection query desk rows) :
    ((collection.find query).run desk).1 = collection.answerFrom query fields rows := by
  rcases yields with ⟨store, answered⟩
  unfold answerFrom
  cases one : query.id with
  | some id =>
      have fetched : (collection.fetchOne id).run desk =
          (match rows.head?.bind fun row => collection.published? row.content with
            | some document => .ok document
            | none => .error (collection.notFound id), { desk with store }) := by
        rw [asked, one] at answered
        rw [fetchOne, run_bind, run_rows_of_view_eq answered]
        dsimp only
        cases rows.head?.bind fun row => collection.published? row.content <;> rfl
      rw [run_find_one one reads fetched]
      cases rows.head?.bind fun row => collection.published? row.content <;> rfl
  | none =>
      have fetched : (collection.fetchAll).run desk =
          (.ok (rows.filterMap fun row => collection.published? row.content),
            { desk with store }) := by
        rw [asked, one] at answered
        rw [fetchAll, run_bind, run_rows_of_view_eq answered]
        rfl
      rw [run_find_all one reads fetched, Except.map, Filter.keep_eq_filter,
        List.filter_filterMap, List.map_filterMap, List.filterMap_filterMap]
      rfl

end AnyStore

/-! ## What a document shows -/

/-- Nothing is shown under a reserved name, and under all other names what the document holds. -/
theorem shownMembers_spec {content : Json} (wellFormed : content.WellFormed) :
    (Fields.names (shownMembers content)).Nodup ∧ ∀ name,
      Fields.get? (shownMembers content) name =
        if name ∈ reservedNames then none else content.member? name := by
  have distinct : (Fields.names (content.object?.getD [])).Nodup := by
    cases content with
    | object members => exact wellFormed.1
    | null => exact .nil
    | bool _ => exact .nil
    | number _ => exact .nil
    | string _ => exact .nil
    | array _ => exact .nil
  have held (name : String) : Fields.get? (content.object?.getD []) name = content.member? name := by
    cases content <;> rfl
  have left := Fields.get?_foldl_erase (privateMembers ++ ["id"]) distinct
  rw [List.foldl_append] at left
  use left.1
  intro name
  have reserved : name ∈ privateMembers ++ ["id"] ↔ name ∈ reservedNames := by
    simp [reservedNames, or_comm]
  have found := left.2 name
  simp only [reserved, held] at found
  exact found

/-- What a document that is answered shows of what a row holds, which carries a key of the
collection: the public id of the key in the first place, then what the row holds under names
that are not reserved, and all of that narrowed to the fields, if fields were asked for. -/
structure Shows (collection : Collection) (fields : Option Selection) (content document : Json) :
    Prop where
  bare : ∀ name ∈ privateMembers, document.member? name = none
  source : ∃ id members,
    content.stringMember? idMember = some (collection.config.privateId id) ∧
    (∀ name, Fields.get? members name =
      if name ∈ reservedNames then none else content.member? name) ∧
    document = partOf fields (.object (("id", .string id) :: members))

/-- Where what is answered comes from: the document from the first row, and documents and ids
one by one from some of the rows in their order. -/
inductive ComesFrom (collection : Collection) (fields : Option Selection) (rows : List ViewRow) :
    Found → Prop
  | document {row : ViewRow} {document : Json} (first : rows.head? = some row)
      (shows : Shows collection fields row.content document) :
      ComesFrom collection fields rows (.document document)
  | documents {used : List ViewRow} {documents : List Json} (some_of : used.Sublist rows)
      (shows : List.Forall₂ (fun row document => Shows collection fields row.content document)
        used documents) : ComesFrom collection fields rows (.documents documents)
  | ids {used : List ViewRow} {ids : List String} (some_of : used.Sublist rows)
      (carry : List.Forall₂ (fun row id => row.content.stringMember? idMember =
        some (collection.config.privateId id)) used ids) : ComesFrom collection fields rows (.ids ids)

theorem member?_partOf_eq_none {members : Fields Json} {name : String}
    (absent : Fields.get? members name = none) (fields : Option Selection) :
    (partOf fields (.object members)).member? name = none := by
  cases fields with
  | none => exact absent
  | some selection =>
      rw [Fields.get?_eq_none_iff] at absent
      apply Fields.get?_eq_none_iff.mpr
      intro projected
      exact absent (Selection.mem_names_projectMembers_iff.mp projected).2

theorem shows_of_published? {content document : Json} (wellFormed : content.WellFormed)
    (published : collection.published? content = some document) (fields : Option Selection) :
    Shows collection fields content (partOf fields document) := by
  rcases published?_eq_some_iff.mp published with ⟨id, carries, rfl⟩
  have held := (shownMembers_spec wellFormed).2
  constructor
  case bare =>
    intro name hidden
    apply member?_partOf_eq_none
    have reserved : name ∈ reservedNames := List.mem_cons_of_mem _ hidden
    have different : "id" ≠ name := by
      rintro rfl
      revert hidden
      decide
    rw [Fields.get?_cons, if_neg different, held, if_pos reserved]
  case source => exact ⟨id, shownMembers content, carries, held, rfl⟩

theorem published?_of_passed? {filters : List Filter} {content document : Json}
    (passed : collection.passed? filters content = some document) :
    collection.published? content = some document :=
  (Option.filter_eq_some_iff.mp passed).1

/-- What is made of some of the items of a list comes from these items one by one. -/
theorem exists_forall₂_filterMap {α β : Type} {related : α → β → Prop} {make? : α → Option β}
    {items : List α}
    (comes : ∀ item ∈ items, ∀ made, make? item = some made → related item made) :
    ∃ used : List α, used.Sublist items ∧ List.Forall₂ related used (items.filterMap make?) := by
  induction items with
  | nil => exact ⟨[], .slnil, .nil⟩
  | cons item rest ih =>
      rw [List.forall_mem_cons] at comes
      rcases ih comes.2 with ⟨used, some_of, related⟩
      cases made : make? item with
      | none =>
          rw [List.filterMap_cons_none made]
          exact ⟨used, some_of.cons item, related⟩
      | some value =>
          rw [List.filterMap_cons_some made]
          exact ⟨item :: used, some_of.cons_cons item, .cons (comes.1 value made) related⟩

/-- Where the answers that are made of rows come from. -/
theorem comesFrom_of_answerFrom {query : Query} {fields : Option Selection}
    {rows : List ViewRow} (wellFormed : ∀ row ∈ rows, row.content.WellFormed) {found : Found}
    (answered : collection.answerFrom query fields rows = .ok found) :
    ComesFrom collection fields rows found := by
  unfold answerFrom at answered
  cases one : query.id with
  | some id =>
      rw [one] at answered
      cases fetched : rows.head?.bind fun row => collection.published? row.content with
      | none => simp [fetched] at answered
      | some document =>
          simp only [fetched] at answered
          cases answered
          rcases Option.bind_eq_some_iff.mp fetched with ⟨row, first, published⟩
          have formed := wellFormed row (List.mem_of_mem_head? first)
          exact .document first (shows_of_published? formed published fields)
  | none =>
      simp only [one, Except.ok.injEq] at answered
      subst answered
      split
      · have shows (row : ViewRow) (member : row ∈ rows) (document : Json)
            (passed : (collection.passed? query.filters row.content).map (partOf fields) =
              some document) : Shows collection fields row.content document := by
          rcases Option.map_eq_some_iff.mp passed with ⟨published, visible, rfl⟩
          exact shows_of_published? (wellFormed row member) (published?_of_passed? visible) fields
        rcases exists_forall₂_filterMap shows with ⟨used, some_of, related⟩
        exact .documents some_of related
      · have carry (row : ViewRow) (_ : row ∈ rows) (id : String)
            (passed : (collection.passed? query.filters row.content).bind
              (Json.stringMember? · "id") = some id) :
            row.content.stringMember? idMember = some (collection.config.privateId id) := by
          rcases Option.bind_eq_some_iff.mp passed with ⟨published, visible, own⟩
          rcases published?_eq_some_iff.mp (published?_of_passed? visible) with
            ⟨id', carries, rfl⟩
          cases own
          exact carries
        rcases exists_forall₂_filterMap carry with ⟨used, some_of, related⟩
        exact .ids some_of related

/-! ## Two runs -/

/-- Whether two values hold the same, but for a revision, a mark of deletion and an id. -/
def Alike (first second : Json) : Prop :=
  ∀ name, name ∉ [revisionMember, deletedMember, "id"] → first.member? name = second.member? name

section Alike

variable {first second : Json} (alike : Alike first second) (wellFormed : first.WellFormed)
  (wellFormedToo : second.WellFormed)
include alike wellFormed wellFormedToo

theorem reordered_published? :
    Option.Rel Json.Reordered (collection.published? first) (collection.published? second) := by
  rcases shownMembers_spec wellFormed with ⟨distinct, held⟩
  rcases shownMembers_spec wellFormedToo with ⟨distinctToo, heldToo⟩
  have same (name : String) : Fields.get? (shownMembers first) name =
      Fields.get? (shownMembers second) name := by
    rw [held, heldToo]
    split
    · rfl
    · rename_i free
      -- What the two may differ in is hidden, so a name that is shown is not among it.
      apply alike
      intro metadata
      simp only [List.mem_cons, List.not_mem_nil, or_false] at metadata
      rcases metadata with rfl | rfl | rfl <;> exact free (by decide)
  have sameKey : first.stringMember? idMember = second.stringMember? idMember :=
    congrArg (Option.bind · Json.string?) (alike idMember (by decide))
  rw [published?_eq, published?_eq, sameKey]
  cases (second.stringMember? idMember).bind collection.config.publicId? with
  | none => exact .none
  | some id =>
      apply Option.Rel.some
      constructor
      · exact (Fields.perm_of_get? distinctToo distinct same).cons _
      · intro name
        rw [Fields.get?_cons, Fields.get?_cons, same]

theorem reordered_passed? (filters : List Filter) :
    Option.Rel Json.Reordered (collection.passed? filters first)
      (collection.passed? filters second) := by
  have published : Option.Rel Json.Reordered (collection.published? first)
      (collection.published? second) := reordered_published? alike wellFormed wellFormedToo
  unfold passed?
  generalize collection.published? first = shown at published ⊢
  generalize collection.published? second = shownToo at published ⊢
  cases published with
  | none => exact .none
  | @some document other reordered =>
      have same : filters.all (·.admits document) = filters.all (·.admits other) :=
        congrArg filters.all (funext reordered.admits_eq)
      rw [Option.filter_some, Option.filter_some, same]
      split
      · exact .some reordered
      · exact .none

end Alike

theorem reordered_map_partOf {shown other : Option Json}
    (reordered : Option.Rel Json.Reordered shown other) (fields : Option Selection) :
    Option.Rel Json.Reordered (shown.map (partOf fields)) (other.map (partOf fields)) := by
  cases reordered with
  | none => exact .none
  | some reordered => exact .some (reordered.partOf fields)

theorem eq_bind_id {shown other : Option Json}
    (reordered : Option.Rel Json.Reordered shown other) :
    Option.Rel Eq (shown.bind (Json.stringMember? · "id"))
      (other.bind (Json.stringMember? · "id")) := by
  have same : shown.bind (Json.stringMember? · "id") = other.bind (Json.stringMember? · "id") := by
    cases reordered with
    | none => rfl
    | some reordered => exact congrArg (Option.bind · Json.string?) (reordered.member?_eq "id")
  rw [same]
  cases other.bind (Json.stringMember? · "id") with
  | none => exact .none
  | some id => exact .some rfl

/-- Rows that hold alike documents make the same answer, but for the order of members. -/
theorem reorderedAnswer_answerFrom {query : Query} {fields : Option Selection}
    {rows others : List ViewRow}
    (alike : List.Forall₂ (fun row other => Alike row.content other.content) rows others)
    (wellFormed : ∀ row ∈ rows, row.content.WellFormed)
    (wellFormedToo : ∀ row ∈ others, row.content.WellFormed) :
    ReorderedAnswer (collection.answerFrom query fields rows)
      (collection.answerFrom query fields others) := by
  have formed : List.Forall₂ (fun row other => row.content.WellFormed ∧
      other.content.WellFormed ∧ Alike row.content other.content) rows others := by
    rw [List.forall₂_and_left]
    use wellFormed
    apply List.Forall₂.flip
    exact (List.forall₂_and_left _ _).mpr ⟨wellFormedToo, alike.flip⟩
  unfold answerFrom
  cases query.id with
  | some id =>
      cases formed with
      | nil => rfl
      | @cons row other _ _ held _ =>
          rcases held with ⟨first, second, alike⟩
          have published : Option.Rel Json.Reordered (collection.published? row.content)
              (collection.published? other.content) := reordered_published? alike first second
          simp only [List.head?_cons, Option.bind_some]
          generalize collection.published? row.content = shown at published ⊢
          generalize collection.published? other.content = shownToo at published ⊢
          cases published with
          | none => rfl
          | some reordered => exact reordered.partOf fields
  | none =>
      dsimp only
      split
      · apply List.rel_filterMap _ formed
        rintro row other ⟨first, second, alike⟩
        exact reordered_map_partOf (reordered_passed? alike first second query.filters) fields
      · apply List.forall₂_eq_eq_eq ▸ List.rel_filterMap _ formed
        rintro row other ⟨first, second, alike⟩
        exact eq_bind_id (reordered_passed? alike first second query.filters)

/-- Whatever rows a store answers the view of all documents with, a query whose fields can be
read is answered with documents that show nothing of what belongs to the store and begin with
their public ids, and each document and each id comes from a row of its own that holds a key of
the collection.  Rows that differ only in revisions, marks of deletion and ids that the
documents hold make the same answer, but for the order of members. -/
theorem find_hides_metadata {σ : Type} [DocumentStore σ] (collection : Collection)
    {query : Query} {fields : Option Selection} (reads : query.Reads fields) {desk : Desk σ}
    {rows : List ViewRow} (yields : Yields collection query desk rows)
    (wellFormed : ∀ row ∈ rows, row.content.WellFormed) :
    (∀ found, ((collection.find query).run desk).1 = .ok found →
      ComesFrom collection fields rows found) ∧
    ∀ (other : Desk σ) (others : List ViewRow), Yields collection query other others →
      (∀ row ∈ others, row.content.WellFormed) →
      List.Forall₂ (fun row row' => Alike row.content row'.content) rows others →
      ReorderedAnswer ((collection.find query).run desk).1
        ((collection.find query).run other).1 := by
  rw [run_find_of_yields reads yields]
  constructor
  · intro found answered
    exact comesFrom_of_answerFrom wellFormed answered
  · intro other others yieldsToo wellFormedToo alike
    rw [run_find_of_yields reads yieldsToo]
    exact reorderedAnswer_answerFrom alike wellFormed wellFormedToo

/-- Rows with a cat that may hold more, and with no document. -/
def tomRows (more : Fields Json) : List ViewRow :=
  [⟨"cat-tom", "cat-tom", .null, some (.object
    ([(idMember, .string "cat-tom"), ("name", .string "Tom")] ++ more))⟩,
    ⟨"cat-ada", "cat-ada", .null, none⟩]

/-- A store that answers with these rows. -/
def tomDesk (more : Fields Json) : Desk FaultyStore :=
  { store := { store := .empty, pending := { rows := some (tomRows more) } } }

/-- A cat is shown without its revision, and an id that it holds does not change the answer. -/
theorem find_hides_metadata_tom :
    ComesFrom catCollection none (tomRows [(revisionMember, .string "1-a")])
      (.documents [.object [("id", .string "tom"), ("name", .string "Tom")]]) ∧
    ReorderedAnswer
      ((catCollection.find { includeDocuments := true }).run
        (tomDesk [(revisionMember, .string "1-a")])).1
      ((catCollection.find { includeDocuments := true }).run (tomDesk [("id", .null)])).1 := by
  have yields (more : Fields Json) :
      Yields catCollection { includeDocuments := true } (tomDesk more) (tomRows more) := ⟨_, rfl⟩
  have formed : ∀ row ∈ tomRows [(revisionMember, .string "1-a")], row.content.WellFormed := by
    simp [tomRows, ViewRow.content, Json.WellFormed, Json.WellFormedMembers, Fields.names,
      idMember, revisionMember]
  have formedToo : ∀ row ∈ tomRows [("id", .null)], row.content.WellFormed := by
    simp [tomRows, ViewRow.content, Json.WellFormed, Json.WellFormedMembers, Fields.names,
      idMember]
  have reads : Query.Reads { includeDocuments := true } none := rfl
  rcases find_hides_metadata catCollection reads (yields _) formed with ⟨sources, unchanged⟩
  constructor
  · apply sources
    rfl
  · apply unchanged _ _ (yields _) formedToo
    apply List.Forall₂.cons
    · intro name apart
      simp only [List.mem_cons, not_or] at apart
      rcases apart with ⟨notRevision, -, notId, -⟩
      simp [ViewRow.content, Json.member?, Fields.get?, Ne.symm notRevision, Ne.symm notId]
    · exact .cons (fun _ _ => rfl) .nil

end Collection

end Folio

import Folio.Collection.Config
import Folio.Proofs.Json.Legible
import Folio.Proofs.Selection.JsonForm
import Folio.Query.Options

/-!
# Queries and set-ups in JSON

A query and the set-up of a collection are records whose optional fields are written as
null.  Neither a text, nor a selection, nor a strategy for ids is written as null, and of
a text and a selection only the text is written as a string, so that every field is
decoded to what it was.
-/

namespace Folio

open Selection

/-! ## Optional values and lists -/

namespace Json

variable {α : Type} {encode : α → Json} {decode : Json → Option α}

/-- An optional value is decoded if its encoding is not null and is decoded. -/
theorem nullable_ofOption {value : Option α}
    (present : ∀ inner, value = some inner → encode inner ≠ .null)
    (back : ∀ inner, value = some inner → decode (encode inner) = some inner) :
    nullable decode (ofOption encode value) = some value := by
  cases value with
  | none => rfl
  | some inner =>
      have decoded := back inner rfl
      rw [ofOption]
      unfold nullable
      split
      · rename_i null
        exact absurd null (present inner rfl)
      · rw [decoded]
        rfl

theorem listOf_map {items : List α} (back : ∀ item ∈ items, decode (encode item) = some item) :
    listOf decode (.array (items.map encode)) = some items := by
  have array : (Json.array (items.map encode)).array? = some (items.map encode) := rfl
  rw [listOf, array, Option.bind_some, List.mapM_map]
  exact mapM_eq_self_iff.mpr back

end Json

/-! ## Queries -/

/-- A filter is decoded if its operator is the one of its symbol. -/
theorem Filter.ofJson?_toJson {filter : Filter} (proper : filter.operator.Proper) :
    Filter.ofJson? filter.toJson = some filter := by
  have given : filter.toJson.record? ["property", "match", "filter"] =
      some [some (.string filter.property), some (.string filter.operator.symbol),
        some (.string filter.value)] := rfl
  rw [Filter.ofJson?, given]
  simp only [Option.bind_eq_bind, Option.bind_some, Json.required, Json.string?]
  rw [proper]
  rfl

/-- A text is decoded as the same text, whatever it says, and a selection as the same
selection. -/
theorem GivenSelection.ofJson?_toJson {given : GivenSelection}
    (wellFormed : ∀ selection, given = .tree selection → WellFormed selection) :
    GivenSelection.ofJson? given.toJson = some given := by
  cases given with
  | text source => rfl
  | tree selection =>
      have formed := wellFormed selection rfl
      have back := ofJson_toJson formed
      rw [GivenSelection.toJson, serialize_eq_toJson formed]
      rw [Selection.toJson] at back ⊢
      rw [GivenSelection.ofJson?, back]
      · rfl
      · nofun

theorem GivenSelection.toJson_ne_null (given : GivenSelection) : given.toJson ≠ .null := by
  cases given <;> nofun

/-- A query is decoded if its filters and its selection are. -/
theorem Query.ofJson?_toJson {query : Query}
    (proper : ∀ filter ∈ query.filters, filter.operator.Proper)
    (wellFormed : ∀ selection, query.fields = some (.tree selection) → WellFormed selection) :
    Query.ofJson? query.toJson = some query := by
  rcases query with ⟨id, filters, fields, includeDocuments⟩
  have given : (Query.toJson ⟨id, filters, fields, includeDocuments⟩).record?
      ["id", "filters", "fields", "include_docs"] =
      some [some (Json.ofOption .string id), some (.array (filters.map Filter.toJson)),
        some (Json.ofOption GivenSelection.toJson fields), some (.bool includeDocuments)] := rfl
  have idBack : Json.nullable Json.string? (Json.ofOption .string id) = some id :=
    Json.nullable_ofOption nofun fun _ _ => rfl
  have filtersBack : Json.listOf Filter.ofJson? (.array (filters.map Filter.toJson)) =
      some filters :=
    Json.listOf_map fun filter member => Filter.ofJson?_toJson (proper filter member)
  have fieldsBack : Json.nullable GivenSelection.ofJson?
      (Json.ofOption GivenSelection.toJson fields) = some fields := by
    apply Json.nullable_ofOption
    · exact fun inner _ => inner.toJson_ne_null
    · intro inner isGiven
      apply GivenSelection.ofJson?_toJson
      rintro selection rfl
      exact wellFormed selection isGiven
  rw [Query.ofJson?, given]
  simp only [Option.bind_eq_bind, Option.bind_some, Json.defaulted, idBack, filtersBack, fieldsBack]
  rfl

/-! ## Set-ups -/

theorem IdStrategy.ofJson?_toJson (strategy : IdStrategy) :
    IdStrategy.ofJson? strategy.toJson = some strategy := by
  cases strategy <;> rfl

/-- A set-up is decoded if its schema is; no schema is not the empty one. -/
theorem CollectionConfig.ofJson?_toJson {config : CollectionConfig}
    (wellFormed : ∀ schema, config.schema = some schema → WellFormed schema) :
    CollectionConfig.ofJson? config.toJson = some config := by
  rcases config with ⟨name, schema, ids⟩
  have given :
      (CollectionConfig.toJson ⟨name, schema, ids⟩).record? ["collection", "fields", "id"] =
        some [some (.string name), some (Json.ofOption Selection.serialize schema),
          some ids.toJson] := rfl
  have schemaBack : Json.nullable (fun given => (Selection.ofJson given).toOption)
      (Json.ofOption Selection.serialize schema) = some schema := by
    apply Json.nullable_ofOption
    · nofun
    · intro inner isSchema
      have formed := wellFormed inner isSchema
      rw [serialize_eq_toJson formed, ofJson_toJson formed]
      rfl
  rw [CollectionConfig.ofJson?, given]
  simp only [Option.bind_eq_bind, Option.bind_some, Json.required, Json.defaulted, Json.string?,
    schemaBack, ids.ofJson?_toJson]
  rfl

/-- A query whose operators come from symbols is decoded from its JSON form to what it was:
the id, the filters, whether documents are included, and the selection, a text as the same
text and a selection as the same selection in the same order.  A set-up is decoded from its
JSON form to what it was: the name, the strategy for ids and the schema in its order, or
that there is none. -/
theorem jsonForms_decode :
    (∀ query : Query,
      (∀ filter ∈ query.filters, ∃ symbol, filter.operator = Operator.ofSymbol symbol) →
      (∀ selection, query.fields = some (.tree selection) → Built selection) →
      Query.ofJson? query.toJson = some query) ∧
    ∀ config : CollectionConfig, (∀ schema, config.schema = some schema → Built schema) →
      CollectionConfig.ofJson? config.toJson = some config := by
  constructor
  · intro query symbols built
    apply Query.ofJson?_toJson
    · intro filter member
      rcases symbols filter member with ⟨symbol, isOperator⟩
      rw [isOperator]
      exact Operator.proper_ofSymbol symbol
    · exact fun selection isGiven => (built selection isGiven).wellFormed
  · intro config built
    apply CollectionConfig.ofJson?_toJson
    exact fun schema isSchema => (built schema isSchema).wellFormed

/-- A query with a property and a selection that are malformed, and an unknown operator. -/
def Query.malformed : Query :=
  ⟨some "1", [⟨"a:(b)", .startsWith, "x"⟩, ⟨"(", .unknown "!=", ""⟩], some (.text "a:("), true⟩

/-- A query with a selection in an order of its own. -/
def Query.ordered : Query := { fields := some (.tree [("b", .leaf), ("a", .group [])]) }

/-- The queries, and set-ups with an empty schema and with none, are decoded to what they
were. -/
theorem jsonForms_decode_malformed :
    Query.ofJson? Query.malformed.toJson = some Query.malformed ∧
    Query.ofJson? Query.ordered.toJson = some Query.ordered ∧
    CollectionConfig.ofJson? (CollectionConfig.toJson ⟨"c", some [], .field "name"⟩) =
      some ⟨"c", some [], .field "name"⟩ ∧
    CollectionConfig.ofJson? (CollectionConfig.toJson ⟨"c", none, .timestamped⟩) =
      some ⟨"c", none, .timestamped⟩ := by
  have found : read "b,a:()" = .ok [("b", .leaf), ("a", .group [])] := rfl
  refine ⟨jsonForms_decode.1 _ ?_ nofun, jsonForms_decode.1 _ nofun ?_, jsonForms_decode.2 _ ?_,
    jsonForms_decode.2 _ nofun⟩
  · have symbols : ∀ filter ∈ Query.malformed.filters,
        filter.operator = Operator.ofSymbol filter.operator.symbol := by decide
    exact fun filter member => ⟨_, symbols filter member⟩
  · rintro selection ⟨⟩
    exact .read found
  · rintro schema ⟨⟩
    exact .empty

end Folio

import Folio.Proofs.Collection.Kept
import Folio.Proofs.Collection.Rebinding

/-!
# Saving what was read

Whoever saves a document as it was read should find everything as it was.  Without a schema
that is so.  With a schema the document is projected once more, and an empty object among
the items that a group of the schema goes into is left out this time.  Nothing else is lost,
no other document is concerned, and what is read then can be saved without any loss.
-/

namespace Folio.Collection

open Session

variable {collection : Collection} {catalogue : Catalogue} {register : Register} {id : String}
  {members : Fields Json}

/-! ## What is kept again -/

/-- What is kept of members when they are saved again. -/
def keptAgain (collection : Collection) (members : Fields Json) : Fields Json :=
  Register.kept collection (Fields.closeGap members)

theorem plain_closeGap (plain : Plain members) : Plain (Fields.closeGap members) :=
  plain.mono ((Fields.closeGap_perm members).map Prod.fst).subset

theorem payload_document (plain : Plain members) :
    Register.payload (("id", .string id) :: members) = Fields.closeGap members := by
  have moved := plain_closeGap plain
  simp only [Register.payload, privateMembers, List.foldl_cons, List.foldl_nil, Fields.erase_cons,
    if_true, Fields.erase_of_not_mem moved.key_not_mem,
    Fields.erase_of_not_mem moved.revision_not_mem, Fields.erase_of_not_mem moved.deleted_not_mem]

/-- Members all of whose names are in the schema fit the collection. -/
theorem isForeign_eq_false (known : ∀ schema, collection.config.schema = some schema →
    Fields.names members ⊆ Fields.names schema) :
    Register.isForeign collection members = false := by
  unfold Register.isForeign
  split
  · rfl
  · rename_i schema hasSchema
    cases members with
    | nil => rfl
    | cons entry rest =>
        rcases entry with ⟨name, value⟩
        have inside : name ∈ Fields.names schema := known schema hasSchema List.mem_cons_self
        simp [inside]

/-- A document that is read and saved back is bound to what is kept of it this time. -/
theorem save_document (admitted : Admitted collection register.catalogue)
    (bound : register.catalogue.lookUp? id = some members) :
    Register.save collection register (Catalogue.document (id, members)) =
      (.ok (.saved id), { register with
        catalogue := register.catalogue.bind id (collection.keptAgain members) }) := by
  have fits : Register.isForeign collection (Fields.closeGap members) = false := by
    apply isForeign_eq_false
    intro schema hasSchema name member
    have inside : name ∈ Fields.names members :=
      ((Fields.closeGap_perm members).map Prod.fst).subset member
    rcases admitted id members bound with ⟨payload, _, _, rfl⟩
    rw [Register.kept, hasSchema] at inside
    exact (Selection.mem_names_projectMembers_iff.mp inside).1
  have payload := @payload_document id members (plain_of_admitted admitted bound)
  simp only [Catalogue.document, Register.save, Fields.get?_cons, if_true, payload, Register.enter,
    fits]
  rfl

/-! ## What is lost -/

/-- Whether no array of a document that the schema narrows by a group holds an empty object. -/
def Filled (collection : Collection) (document : Json) : Prop :=
  ∀ schema, collection.config.schema = some schema → schema.filled document = true

/-- The id has no say in whether a document is filled. -/
theorem filled_document_iff (plain : Plain members) :
    collection.Filled (Catalogue.document (id, members)) ↔
      ∀ schema, collection.config.schema = some schema →
        Selection.filledMembers members schema = true := by
  refine forall₂_congr fun schema _ => ?_
  rw [Selection.filled, Catalogue.document, Json.object?, Option.getD_some,
    Selection.filledMembers_iff, Selection.filledMembers_iff]
  refine forall₂_congr fun entry _ => ?_
  rw [Fields.get?_cons]
  by_cases own : "id" = entry.1
  · rw [if_pos own, ← own, Fields.get?_eq_none_iff.mpr plain.id_not_mem]
    simp [Selection.filledField_string]
  · rw [if_neg own]

/-- Plain members are equal if the documents with an id and these members are. -/
theorem same_of_same_document {next : Fields Json} (plain : Plain members)
    (same : (Catalogue.document (id, members)).same (Catalogue.document (id, next)) = true) :
    (Json.object members).same (.object next) = true := by
  rw [Catalogue.document, Catalogue.document, Json.same, Bool.and_eq_true,
    Json.sameMembers_iff] at same
  rw [Json.same, Bool.and_eq_true, Json.sameMembers_iff]
  constructor
  · simpa using same.1
  · intro entry member
    rcases same.2 entry (List.mem_cons_of_mem _ member) with ⟨other, found, equal⟩
    have apart : "id" ≠ entry.1 := by
      intro own
      exact plain.id_not_mem (own ▸ List.mem_map_of_mem member)
    rw [Fields.get?_cons, if_neg apart] at found
    exact ⟨other, found, equal⟩

section Lost

variable (admitted : Admitted collection catalogue) (bound : catalogue.lookUp? id = some members)
  (configured : collection.config.WellFormed)
include admitted bound configured

/-- With a schema the members are the projection of a payload, which is projected once more. -/
theorem keptAgain_of_schema {schema : Selection}
    (hasSchema : collection.config.schema = some schema) :
    ∃ payload, Selection.WellFormed schema ∧ members = Selection.projectMembers payload schema ∧
      collection.keptAgain members = Selection.projectMembers members schema := by
  have formed := wellFormed_of_admitted admitted configured (Catalogue.mem_entries_iff.mpr bound)
  rcases admitted id members bound with ⟨payload, _, _, kept⟩
  simp only [Register.kept, hasSchema] at kept
  simp only [keptAgain, Register.kept, hasSchema]
  rw [Json.WellFormed] at formed
  have again : Selection.projectMembers (Fields.closeGap members) schema =
      Selection.projectMembers members schema :=
    Selection.projectMembers_congr fun entry _ =>
      Fields.get?_of_perm formed.1.1 (Fields.closeGap_perm members) entry.1
  exact ⟨payload, configured schema hasSchema, kept, again⟩

/-- Without a schema the members are kept in another order, and with a schema as told before. -/
theorem keptAgain_cases :
    (collection.config.schema = none ∧ (collection.keptAgain members).Perm members) ∨
      ∃ schema payload, collection.config.schema = some schema ∧ Selection.WellFormed schema ∧
        members = Selection.projectMembers payload schema ∧
        collection.keptAgain members = Selection.projectMembers members schema := by
  cases hasSchema : collection.config.schema with
  | none =>
      refine .inl ⟨rfl, ?_⟩
      rw [keptAgain, Register.kept, hasSchema]
      exact Fields.closeGap_perm members
  | some schema =>
      rcases keptAgain_of_schema admitted bound configured hasSchema with ⟨payload, projected⟩
      exact .inr ⟨schema, payload, rfl, projected⟩

theorem perm_keptAgain (filled : collection.Filled (Catalogue.document (id, members))) :
    (collection.keptAgain members).Perm members := by
  rw [filled_document_iff (plain_of_admitted admitted bound)] at filled
  rcases keptAgain_cases admitted bound configured with
    ⟨_, permuted⟩ | ⟨schema, payload, hasSchema, wellFormed, projected, again⟩
  · exact permuted
  · have whole := filled schema hasSchema
    subst projected
    rw [again, Selection.projectMembers_of_filled wellFormed payload whole]

theorem filled_of_same (same : (Catalogue.document (id, members)).same
      (Catalogue.document (id, collection.keptAgain members)) = true) :
    collection.Filled (Catalogue.document (id, members)) := by
  have plain := plain_of_admitted admitted bound
  rw [filled_document_iff plain]
  intro schema hasSchema
  rcases keptAgain_of_schema admitted bound configured hasSchema with
    ⟨payload, wellFormed, projected, again⟩
  apply Selection.filledMembers_of_same_projectMembers wellFormed
  exact again ▸ same_of_same_document plain same

theorem filled_keptAgain :
    collection.Filled (Catalogue.document (id, collection.keptAgain members)) := by
  have plain : Plain (collection.keptAgain members) :=
    plain_kept collection (plain_closeGap (plain_of_admitted admitted bound))
  rw [filled_document_iff plain]
  intro schema hasSchema
  rcases keptAgain_of_schema admitted bound configured hasSchema with
    ⟨payload, wellFormed, projected, again⟩
  rw [again, projected]
  exact Selection.filledMembers_projectMembers_twice wellFormed payload

theorem admitted_keptAgain :
    Admitted collection (catalogue.bind id (collection.keptAgain members)) := by
  have formed := wellFormed_of_admitted admitted configured (Catalogue.mem_entries_iff.mpr bound)
  have plain := plain_closeGap (plain_of_admitted admitted bound)
  have moved := Json.wellFormed_of_perm formed.1 (Fields.closeGap_perm members)
  exact admitted_bind admitted plain moved id

/-- What is kept again of a document is the document, in another order or without some of the
empty objects in its arrays. -/
theorem exists_thins_keptAgain :
    ∃ thinned, (Catalogue.document (id, members)).Thins thinned ∧
      thinned.same (Catalogue.document (id, collection.keptAgain members)) = true := by
  rcases keptAgain_cases admitted bound configured with
    ⟨_, permuted⟩ | ⟨schema, payload, _, wellFormed, projected, again⟩
  · have formed := wellFormed_of_admitted admitted configured (Catalogue.mem_entries_iff.mpr bound)
    exact ⟨_, .refl _, Json.same_of_perm formed.2 (permuted.cons _)⟩
  · have thins : (Catalogue.document (id, members)).Thins
        (Catalogue.document (id, collection.keptAgain members)) := by
      rw [again, projected]
      exact .object (.cons (.refl _) (Selection.thinsMembers_twice wellFormed payload))
    have anew := Catalogue.lookUp?_bind_self catalogue id (collection.keptAgain members)
    have formed := wellFormed_of_admitted (admitted_keptAgain admitted bound configured) configured
      (Catalogue.mem_entries_iff.mpr anew)
    exact ⟨_, thins, Json.same_self formed.2⟩

/-- Filters see in a document that was saved back what they saw before. -/
theorem admits_keptAgain (filter : Filter) :
    filter.admits (Catalogue.document (id, collection.keptAgain members)) =
      filter.admits (Catalogue.document (id, members)) := by
  apply Filter.admits_congr
  intro path
  cases path with
  | nil => rfl
  | cons name rest =>
      change ((Fields.get? (("id", .string id) :: collection.keptAgain members) name).bind
          (Filter.follow? · rest)).bind Filter.scalarText? =
        ((Fields.get? (("id", .string id) :: members) name).bind
          (Filter.follow? · rest)).bind Filter.scalarText?
      rw [Fields.get?_cons, Fields.get?_cons]
      split
      · rfl
      · rcases keptAgain_cases admitted bound configured with
          ⟨_, permuted⟩ | ⟨schema, payload, _, wellFormed, rfl, again⟩
        · have formed := wellFormed_of_admitted admitted configured
            (Catalogue.mem_entries_iff.mpr bound)
          rw [Json.WellFormed] at formed
          rw [Fields.get?_of_perm formed.1.1 permuted]
        · rw [again]
          exact Filter.scalar_projectField_twice (Selection.fieldWellFormed_group wellFormed)
            (.object payload) (name :: rest)

/-- Whatever is read of a document that is filled, it is read again when it was saved back. -/
theorem same_partOf_keptAgain (filled : collection.Filled (Catalogue.document (id, members)))
    {query : Query} (wellFormed : query.WellFormed) {fields : Option Selection}
    (reads : query.Reads fields) :
    (partOf fields (Catalogue.document (id, members))).same
      (partOf fields (Catalogue.document (id, collection.keptAgain members))) = true := by
  have ⟨_, formed⟩ :=
    wellFormed_of_admitted admitted configured (Catalogue.mem_entries_iff.mpr bound)
  have permuted : List.Perm (("id", .string id) :: collection.keptAgain members)
      (("id", .string id) :: members) :=
    (perm_keptAgain admitted bound configured filled).cons _
  cases fields with
  | none => exact Json.same_of_perm formed permuted
  | some selection =>
      have projected : selection.project (Catalogue.document (id, collection.keptAgain members)) =
          selection.project (Catalogue.document (id, members)) := by
        rw [Catalogue.document, Json.WellFormed] at formed
        exact congrArg Json.object (Selection.projectMembers_congr fun entry _ =>
          Fields.get?_of_perm formed.1 permuted entry.1)
      have narrowed := wellFormed_partOf wellFormed reads formed
      rw [partOf, partOf, projected]
      exact Json.same_self narrowed

theorem sameAnswer_keptAgain (filled : collection.Filled (Catalogue.document (id, members)))
    {query : Query} (wellFormed : query.WellFormed) :
    SameAnswer (Register.find collection catalogue query)
      (Register.find collection (catalogue.bind id (collection.keptAgain members)) query) :=
  sameAnswer_find_bind bound (admits_keptAgain admitted bound configured)
    (fun _ member => (wellFormed_of_admitted admitted configured member).2) wellFormed
    fun _ reads => same_partOf_keptAgain admitted bound configured filled wellFormed reads

/-- A document that was read is saved back under its id. -/
theorem run_save_back {desk : Desk Store}
    (represents : Represents collection desk.store catalogue) :
    ∃ after, (collection.save (Catalogue.document (id, members))).run desk = (.ok id, after) ∧
      Represents collection after.store (catalogue.bind id (collection.keptAgain members)) ∧
      Admitted collection (catalogue.bind id (collection.keptAgain members)) := by
  have formed := wellFormed_of_admitted admitted configured (Catalogue.mem_entries_iff.mpr bound)
  have saved : Register.save collection ⟨catalogue, desk.minted⟩
      (Catalogue.document (id, members)) = (.ok (.saved id),
        ⟨catalogue.bind id (collection.keptAgain members), desk.minted⟩) :=
    save_document admitted bound
  have agrees : Agrees collection .saved
      ((collection.save (Catalogue.document (id, members))).run desk)
      (Register.save collection ⟨catalogue, desk.minted⟩ (Catalogue.document (id, members))) :=
    agrees_save represents rfl formed.2
  rw [saved] at agrees
  rcases outcome : (collection.save (Catalogue.document (id, members))).run desk with
    ⟨_ | answered, after⟩
  · rw [outcome] at agrees
    cases agrees.answer
  · rw [outcome] at agrees
    cases agrees.answer
    exact ⟨after, rfl, agrees.represents, admitted_keptAgain admitted bound configured⟩

end Lost

/-! ## Saving back -/

/-- What a query is answered. -/
def answerAt (collection : Collection) (desk : Desk Store) (query : Query) :
    Except QueryError Found :=
  ((collection.find query).run desk).1

theorem answerAt_of_represents {desk : Desk Store}
    (represents : Represents collection desk.store catalogue) (query : Query) :
    collection.answerAt desk query = Register.find collection catalogue query :=
  congrArg Prod.fst (run_find represents query)

theorem find_byId (collection : Collection) (catalogue : Catalogue) (id : String) :
    Register.find collection catalogue (Query.byId id) =
      match catalogue.lookUp? id with
      | some members => .ok (.document (Catalogue.document (id, members)))
      | none => .error (.notFound collection.config.name id) := rfl

/-- A document is read that is bound to the id. -/
theorem exists_of_find_byId {document : Json}
    (found : Register.find collection catalogue (Query.byId id) = .ok (.document document)) :
    ∃ members, catalogue.lookUp? id = some members ∧
      document = Catalogue.document (id, members) := by
  rw [find_byId] at found
  cases bound : catalogue.lookUp? id with
  | none =>
      rw [bound] at found
      cases found
  | some members =>
      rw [bound] at found
      cases found
      exact ⟨members, rfl, rfl⟩

/-- Whoever asks for another document, or for no documents at all, sees no difference when a
document was saved back. -/
theorem find_keptAgain_of_beside (admitted : Admitted collection catalogue)
    (bound : catalogue.lookUp? id = some members)
    (configured : collection.config.WellFormed)
    {query : Query} (beside : query.id ≠ some id)
    (ids : query.id ≠ none ∨ query.includeDocuments = false) :
    Register.find collection (catalogue.bind id (collection.keptAgain members)) query =
      Register.find collection catalogue query := by
  cases asked : query.id with
  | none =>
      have admits := @admits_keptAgain collection catalogue id members admitted bound configured
      exact find_bind_of_ids bound admits asked (ids.resolve_left (not_not.mpr asked))
  | some other =>
      have apart : other ≠ id := by
        rintro rfl
        exact beside asked
      simp only [Register.find, Register.find.answer, asked, Catalogue.lookUp?_bind, if_neg apart]

/-- Every query is answered as before when a document was saved back, exactly when the document
is filled. -/
theorem sameAnswer_keptAgain_iff (admitted : Admitted collection catalogue)
    (bound : catalogue.lookUp? id = some members) (configured : collection.config.WellFormed) :
    (∀ query : Query, query.WellFormed → SameAnswer (Register.find collection catalogue query)
        (Register.find collection (catalogue.bind id (collection.keptAgain members)) query)) ↔
      collection.Filled (Catalogue.document (id, members)) := by
  constructor
  · intro same
    have formed : (Query.byId id).WellFormed := fun selection given => by cases given
    have equal := same (Query.byId id) formed
    rw [find_byId, find_byId, bound, Catalogue.lookUp?_bind_self] at equal
    exact filled_of_same admitted bound configured equal
  · intro filled query formed
    exact sameAnswer_keptAgain admitted bound configured filled formed

/-- Whoever saves a document back as it was read, without a schema or with a well-formed one,
is answered its id.  No other document and no list of ids is answered differently, and no
query at all is answered differently exactly when the document is filled.  What is read then
is the document without some of the empty objects in its arrays.  It is filled, so that it
can be saved back once more and changes no answer any more. -/
theorem save_back (collection : Collection) (configured : collection.config.WellFormed)
    {actions : List Action} (wellFormed : ∀ action ∈ actions, action.WellFormed)
    {id : String} {document : Json}
    (found : collection.answerAt (collection.deskAfter collection.prepared actions)
      (Query.byId id) = .ok (.document document)) :
    ∃ after, (collection.save document).run (collection.deskAfter collection.prepared actions) =
        (.ok id, after) ∧
      (∀ query, query.id ≠ some id → query.id ≠ none ∨ query.includeDocuments = false →
        collection.answerAt after query =
          collection.answerAt (collection.deskAfter collection.prepared actions) query) ∧
      ((∀ query, query.WellFormed → SameAnswer
          (collection.answerAt (collection.deskAfter collection.prepared actions) query)
          (collection.answerAt after query)) ↔ collection.Filled document) ∧
      ∃ thinned later, document.Thins thinned ∧ thinned.same later = true ∧
        collection.answerAt after (Query.byId id) = .ok (.document later) ∧
        collection.Filled later ∧
        ∃ last, (collection.save later).run after = (.ok id, last) ∧
          ∀ query, query.WellFormed →
            SameAnswer (collection.answerAt after query) (collection.answerAt last query) := by
  rcases exists_represents_deskAfter collection wellFormed with ⟨catalogue, represents, admitted⟩
  have before := @answerAt_of_represents collection catalogue _ represents
  rw [before] at found
  rcases exists_of_find_byId found with ⟨members, bound, rfl⟩
  rcases run_save_back admitted bound configured represents with
    ⟨after, saved, afterRepresents, afterAdmitted⟩
  have behind := @answerAt_of_represents collection _ _ afterRepresents
  have afterBound := Catalogue.lookUp?_bind_self catalogue id (collection.keptAgain members)
  have lossless : (∀ query, query.WellFormed → SameAnswer
      (collection.answerAt (collection.deskAfter collection.prepared actions) query)
      (collection.answerAt after query)) ↔
        collection.Filled (Catalogue.document (id, members)) := by
    simp only [behind, before]
    exact sameAnswer_keptAgain_iff admitted bound configured
  have beside : ∀ query : Query, query.id ≠ some id →
      query.id ≠ none ∨ query.includeDocuments = false → collection.answerAt after query =
        collection.answerAt (collection.deskAfter collection.prepared actions) query := by
    intro query other ids
    rw [behind, before]
    exact find_keptAgain_of_beside admitted bound configured other ids
  have read : collection.answerAt after (Query.byId id) =
      .ok (.document (Catalogue.document (id, collection.keptAgain members))) := by
    rw [behind, find_byId, afterBound]
  have filled := @filled_keptAgain collection catalogue id members admitted bound configured
  rcases exists_thins_keptAgain admitted bound configured with ⟨thinned, thins, same⟩
  rcases run_save_back afterAdmitted afterBound configured afterRepresents with
    ⟨last, savedAgain, lastRepresents, _⟩
  have stable : ∀ query : Query, query.WellFormed →
      SameAnswer (collection.answerAt after query) (collection.answerAt last query) := by
    intro query formed
    rw [behind, answerAt_of_represents lastRepresents]
    exact sameAnswer_keptAgain afterAdmitted afterBound configured filled formed
  exact ⟨after, saved, beside, lossless, thinned, _, thins, same, read, filled, last, savedAgain,
    stable⟩

/-- Cats with their kittens, of which the names are kept. -/
def litters : Collection where
  config := { name := "cat", schema := some [("kittens", .group [("name", .leaf)])] }
  mint _ _ := "new"

/-- A cat with its kittens. -/
def litter (kittens : List Json) : Json :=
  .object [("id", .string "ada"), ("kittens", .array kittens)]

/-- A kitten with a name. -/
def kit : Json := .object [("name", .string "kit")]

/-- A cat whose kittens have names is saved back without any loss. -/
theorem save_back_litter :
    litters.config.WellFormed ∧ (∀ action ∈ [Action.save (litter [kit])], action.WellFormed) ∧
    litters.answerAt (litters.deskAfter litters.prepared [.save (litter [kit])])
      (Query.byId "ada") = .ok (.document (litter [kit])) ∧
    ∃ after, (litters.save (litter [kit])).run
        (litters.deskAfter litters.prepared [.save (litter [kit])]) = (.ok "ada", after) ∧
      ∀ query, query.WellFormed → SameAnswer
        (litters.answerAt (litters.deskAfter litters.prepared [.save (litter [kit])]) query)
        (litters.answerAt after query) := by
  have configured : litters.config.WellFormed := by
    rintro schema same
    cases same
    simp [Selection.WellFormed, Selection.EntriesWellFormed, Selection.FieldWellFormed,
      Fields.names]
    decide
  have wellFormed : ∀ action ∈ [Action.save (litter [kit])], action.WellFormed := by
    simp [Action.WellFormed, litter, kit, Json.WellFormed, Json.WellFormedMembers,
      Json.WellFormedItems, Fields.names]
  have found : litters.answerAt (litters.deskAfter litters.prepared [.save (litter [kit])])
      (Query.byId "ada") = .ok (.document (litter [kit])) := by rfl
  obtain ⟨after, saved, _, same, _⟩ := save_back litters configured wellFormed found
  have filled : litters.Filled (litter [kit]) := by
    intro schema hasSchema
    cases hasSchema
    rfl
  exact ⟨configured, wellFormed, found, after, saved, same.mpr filled⟩

set_option maxRecDepth 4000 in
/-- A kitten without a name is read as an empty object and is gone when its cat is saved
back. -/
theorem nameless_kitten_lost :
    litters.answerAt (litters.deskAfter litters.prepared
        [.save (litter [.object [("age", .number (.integer 1))]])]) (Query.byId "ada") =
      .ok (.document (litter [.object []])) ∧
    litters.answerAt (litters.deskAfter litters.prepared
        [.save (litter [.object [("age", .number (.integer 1))]]),
          .save (litter [.object []])]) (Query.byId "ada") =
      .ok (.document (litter [])) ∧
    (litter [.object []]).same (litter []) = false :=
  ⟨rfl, rfl, rfl⟩

end Folio.Collection

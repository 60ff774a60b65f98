import Folio.Proofs.Collection.Catalogue
import Folio.Proofs.Collection.Keys
import Folio.Proofs.Selection.Projection

/-!
# The stored form of a document

A collection stores the members of a document, then its public id, and the store
adds the key and the revision.  Reading takes exactly these away again, because the
members that are saved never use one of the four names.
-/

namespace Folio.Collection

/-- The names that a collection and its store use for themselves. -/
def reservedNames : List String := "id" :: privateMembers

/-- Whether members use none of the reserved names. -/
def Plain (members : Fields Json) : Prop :=
  ∀ name ∈ reservedNames, name ∉ Fields.names members

/-- The members that are stored for a document with a public id. -/
def stored (config : CollectionConfig) (id : String) (members : Fields Json)
    (revision : String) : Fields Json :=
  members ++ [("id", .string id), (idMember, .string (config.privateId id)),
    (revisionMember, .string revision)]

section Plain

variable {members : Fields Json}

theorem Plain.id_not_mem (plain : Plain members) : "id" ∉ Fields.names members :=
  plain _ (by simp [reservedNames])

theorem Plain.key_not_mem (plain : Plain members) : idMember ∉ Fields.names members :=
  plain _ (by simp [reservedNames, privateMembers])

theorem Plain.revision_not_mem (plain : Plain members) : revisionMember ∉ Fields.names members :=
  plain _ (by simp [reservedNames, privateMembers])

theorem Plain.deleted_not_mem (plain : Plain members) : deletedMember ∉ Fields.names members :=
  plain _ (by simp [reservedNames, privateMembers])

theorem Plain.revision_not_mem_named (plain : Plain members) (id : String) :
    revisionMember ∉ Fields.names (Fields.put members "id" (.string id)) := by
  rw [Fields.put_of_not_mem plain.id_not_mem]
  simpa [revisionMember] using plain.revision_not_mem

theorem plain_nil : Plain [] := fun _ _ => List.not_mem_nil

/-- Members with some of the names of plain members are plain. -/
theorem Plain.mono (plain : Plain members) {fewer : Fields Json}
    (fewerNames : Fields.names fewer ⊆ Fields.names members) : Plain fewer :=
  fun name reserved member => plain name reserved (fewerNames member)

end Plain

/-! ## What the store makes of a document -/

theorem revised_put_revision {members : Fields Json}
    (absent : revisionMember ∉ Fields.names members) (given : Json) (sequence : Nat)
    (key : String) :
    Store.revised sequence (Fields.put members revisionMember given) key =
      Store.revised sequence members key := by
  have taken : Fields.erase (Fields.put members revisionMember given) revisionMember = members := by
    rw [Fields.put_of_not_mem absent, Fields.erase_append_of_not_mem absent]
    simp [Fields.erase]
  rw [Store.revised, taken, Store.revised, Fields.erase_of_not_mem absent]

/-- Plain members with an id become their stored form. -/
theorem revised_named (config : CollectionConfig) (id : String) {members : Fields Json}
    (plain : Plain members) (sequence : Nat) :
    ∃ revision, Store.revised sequence (Fields.put members "id" (.string id))
        (config.privateId id) =
      ⟨⟨config.privateId id, revision⟩, .object (stored config id members revision)⟩ := by
  have named : Fields.put members "id" (.string id) = members ++ [("id", .string id)] :=
    Fields.put_of_not_mem plain.id_not_mem _
  have noRevision : revisionMember ∉ Fields.names (members ++ [("id", Json.string id)]) := by
    simpa [revisionMember] using plain.revision_not_mem
  have noKey : idMember ∉ Fields.names (members ++ [("id", Json.string id)]) := by
    simpa [idMember] using plain.key_not_mem
  refine ⟨revisionText (sequence + 1) (Digest.stamp (Json.object (members ++
    [("id", .string id), (idMember, .string (config.privateId id))])).text), ?_⟩
  simp only [Store.revised, named, Fields.erase_of_not_mem noRevision,
    Fields.put_of_not_mem noKey, List.append_assoc, List.cons_append, List.nil_append]
  rw [Fields.put_append_of_not_mem plain.revision_not_mem]
  simp [stored, Fields.put, idMember, revisionMember]

/-! ## What a reader sees -/

/-- The members of a document that a reader sees beside its id. -/
def shownMembers (document : Json) : Fields Json :=
  Fields.erase (withoutPrivate (document.object?.getD [])) "id"

/-- A document is published if it carries a key of the collection, with the public id. -/
theorem published?_eq (collection : Collection) (document : Json) :
    collection.published? document =
      ((document.stringMember? idMember).bind collection.config.publicId?).map fun id =>
        .object (("id", .string id) :: shownMembers document) := by
  cases document with
  | object members =>
      simp only [published?, Json.stringMember?, Json.member?]
      cases (Fields.get? members idMember).bind Json.string? with
      | none => rfl
      | some key => exact Option.map_eq_bind.symm
  | null => rfl
  | bool _ => rfl
  | number _ => rfl
  | string _ => rfl
  | array _ => rfl

theorem published?_eq_some_iff {collection : Collection} {document published : Json} :
    collection.published? document = some published ↔
      ∃ id, document.stringMember? idMember = some (collection.config.privateId id) ∧
        published = .object (("id", .string id) :: shownMembers document) := by
  simp only [published?_eq, Option.map_eq_some_iff, Option.bind_eq_some_iff,
    CollectionConfig.publicId?_eq_some_iff]
  constructor
  · rintro ⟨id, ⟨key, carries, rfl⟩, rfl⟩
    exact ⟨id, carries, rfl⟩
  · rintro ⟨id, carries, rfl⟩
    exact ⟨id, ⟨_, carries, rfl⟩, rfl⟩

/-! ## Reading the stored form -/

section Stored

variable {config : CollectionConfig} {id revision : String} {members : Fields Json}

theorem revision_stored (plain : Plain members) :
    Fields.get? (stored config id members revision) revisionMember = some (.string revision) := by
  rw [stored, Fields.get?_append_of_not_mem plain.revision_not_mem]
  simp [Fields.get?, idMember, revisionMember]

theorem key_stored (plain : Plain members) :
    (Json.object (stored config id members revision)).stringMember? idMember =
      some (config.privateId id) := by
  rw [Json.stringMember?, Json.member?, stored, Fields.get?_append_of_not_mem plain.key_not_mem]
  simp [Fields.get?, idMember, Json.string?]

/-- The stored form is alive. -/
theorem isDeleted_stored (plain : Plain members) :
    (Json.object (stored config id members revision)).isDeleted = false := by
  have absent : Fields.get? (stored config id members revision) deletedMember = none := by
    rw [stored, Fields.get?_append_of_not_mem plain.deleted_not_mem]
    simp [Fields.get?, idMember, revisionMember, deletedMember]
  simp [Json.isDeleted, Json.member?, absent]

/-- A stored form marked as deleted is a tombstone. -/
theorem isDeleted_revised_deleted (plain : Plain members) (sequence : Nat) (key : String) :
    (Store.revised sequence (Fields.put (stored config id members revision) deletedMember
      (.bool true)) key).document.isDeleted = true := by
  have noMark : deletedMember ∉ Fields.names (stored config id members revision) := by
    simpa [stored, idMember, revisionMember, deletedMember] using plain.deleted_not_mem
  have marked : Fields.erase (Fields.put (stored config id members revision) deletedMember
      (.bool true)) revisionMember =
      members ++ [("id", .string id), (idMember, .string (config.privateId id)),
        (deletedMember, .bool true)] := by
    rw [Fields.put_of_not_mem noMark, stored, List.append_assoc,
      Fields.erase_append_of_not_mem plain.revision_not_mem]
    simp [Fields.erase, Fields.closeGap, idMember, revisionMember]
  have kept {name : String} (different : name ≠ deletedMember) (fields : Fields Json)
      (value : Json) : Fields.get? (Fields.put fields name value) deletedMember =
        Fields.get? fields deletedMember :=
    Fields.get?_put_of_ne fields value different.symm
  simp only [Store.revised, Json.isDeleted, Json.member?, marked]
  rw [kept (by decide), kept (by decide), Fields.get?_append_of_not_mem plain.deleted_not_mem]
  simp [Fields.get?, idMember, deletedMember, Json.bool?]

/-- Taking the reserved members away from the stored form leaves the members. -/
theorem erase_reserved_stored (plain : Plain members) :
    Fields.erase (withoutPrivate (stored config id members revision)) "id" = members := by
  have named : stored config id members revision =
      (members ++ [("id", .string id)]) ++
        (idMember, .string (config.privateId id)) :: [(revisionMember, .string revision)] := by
    simp [stored]
  have noKey : idMember ∉ Fields.names (members ++ [("id", Json.string id)]) := by
    simpa [idMember] using plain.key_not_mem
  have noRevision : revisionMember ∉ Fields.names (members ++ [("id", Json.string id)]) := by
    simpa [revisionMember] using plain.revision_not_mem
  have noMark : deletedMember ∉ Fields.names (members ++ [("id", Json.string id)]) := by
    simpa [deletedMember] using plain.deleted_not_mem
  simp only [withoutPrivate, privateMembers, List.foldl_cons, List.foldl_nil, named]
  rw [Fields.erase_append_cons noKey, Fields.closeGap_singleton,
    Fields.erase_append_cons noRevision, Fields.closeGap_nil, List.append_nil,
    Fields.erase_of_not_mem noMark, Fields.erase_append_cons plain.id_not_mem,
    Fields.closeGap_nil, List.append_nil]

theorem published?_stored (collection : Collection) (plain : Plain members) :
    collection.published? (.object (stored collection.config id members revision)) =
      some (Catalogue.document (id, members)) := by
  rw [published?_eq_some_iff]
  use id, key_stored plain
  rw [shownMembers, Json.object?, Option.getD_some, erase_reserved_stored plain,
    Catalogue.document]

end Stored

/-! ## What is saved of an entry -/

/-- The payload of an entry uses no reserved name. -/
theorem plain_payload {members : Fields Json} (distinct : (Fields.names members).Nodup) :
    Plain (Register.payload members) := by
  intro name reserved
  have found := (Fields.get?_foldl_erase reservedNames distinct).2 name
  rw [if_pos reserved] at found
  exact Fields.get?_eq_none_iff.mp found

/-- What is kept of a plain payload is plain. -/
theorem plain_kept (collection : Collection) {payload : Fields Json} (plain : Plain payload) :
    Plain (Register.kept collection payload) := by
  unfold Register.kept
  cases collection.config.schema with
  | none => exact plain
  | some schema =>
      exact plain.mono fun name member => (Selection.mem_names_projectMembers_iff.mp member).2

/-- A payload is foreign to a schema exactly when the schema takes nothing of it, but there is
something. -/
theorem isForeign_of_schema {collection : Collection} {schema : Selection}
    (configured : collection.config.schema = some schema) (payload : Fields Json) :
    Register.isForeign collection payload = schema.mismatches (.object payload) := by
  have nothingTaken : (schema.project (.object payload)).isEmptyObject =
      (Fields.names payload).all fun name => name ∉ Fields.names schema := by
    rw [Bool.eq_iff_iff, List.all_eq_true, Selection.isEmptyObject_project_iff]
    simp only [decide_eq_true_eq, Json.object?, Option.getD_some]
    exact ⟨fun apart name bound wanted => apart name wanted bound,
      fun apart name wanted bound => apart name bound wanted⟩
  simp only [Register.isForeign, configured, Selection.mismatches, Selection.isVacant,
    nothingTaken]

/-- A payload is refused exactly when it is foreign to the schema. -/
theorem admitted_eq (collection : Collection) (payload : Fields Json) :
    collection.admitted payload =
      if Register.isForeign collection payload then .error (collection.mismatch (.object payload))
      else .ok (Register.kept collection payload) := by
  cases configured : collection.config.schema with
  | none =>
      simp only [admitted, Register.isForeign, Register.kept, configured]
      rfl
  | some schema =>
      rw [isForeign_of_schema configured]
      simp only [admitted, Register.kept, configured]

end Folio.Collection
